import ClaimRush.ShareholderRoyalties.Claims

/-!
# The joint system

The lock contract and the royalties contract wired to each other, driven by any
sequence of calls at non-decreasing block times.
-/

namespace ClaimRush.ShareholderRoyalties

open VeClaimNFT

/-- External calls; the guarded functions of the royalties contract and the
rest. -/
inductive Op
  | onTakeover (reignId value gasLoops : ℕ)
  | addPendingShareholderETH (reignId value gasLoops : ℕ)
  | flushPendingShareholderETH (gasLoops : ℕ)
  | sweepDust (dst : Address) (callee : Callee)
  | claimShareholder (mode : Mode) (callee : Callee)
  | claimShareholderFor (user : Address) (mode : Mode) (callee : Callee)
  | claimShareholderForTo (user dst : Address) (callee : Callee)
  | claimShareholderTo (dst : Address) (mode : Mode) (callee : Callee)
  | compoundFor (user : Address) (attempt : CompoundAttempt)
  | compoundForMany (users : List Address) (maxUsers : ℕ) (attempts : ℕ → CompoundAttempt)
  | unguarded (op : UnguardedOp)

/-- Execute one external call. -/
def exec (call : Call) (w : Worlds) : Op → Except Error Worlds
  | .onTakeover reignId value gasLoops => onTakeover call w reignId value gasLoops
  | .addPendingShareholderETH reignId value gasLoops =>
      addPendingShareholderETH call w reignId value gasLoops
  | .flushPendingShareholderETH gasLoops => flushPendingShareholderETH call w gasLoops
  | .sweepDust dst callee => sweepDust call w dst callee
  | .claimShareholder mode callee => claimShareholder call w mode callee
  | .claimShareholderFor user mode callee => claimShareholderFor call w user mode callee
  | .claimShareholderForTo user dst callee => claimShareholderForTo call w user dst callee
  | .claimShareholderTo dst mode callee => claimShareholderTo call w dst mode callee
  | .compoundFor user attempt => compoundFor call w user attempt
  | .compoundForMany users maxUsers attempts => compoundForMany call w users maxUsers attempts
  | .unguarded op => execUnguarded call w op

/-- The storage and the time of the last block. -/
structure Config where
  now : ℕ
  world : Worlds

inductive Step : Config → Config → Prop
  | op {c : Config} {w : Worlds} (call : Call) (op : Op) (hnow : c.now ≤ call.timestamp)
      (hexec : exec call c.world op = .ok w) : Step c ⟨call.timestamp, w⟩

/-- Both contracts from their deployment on; the royalties address may already
hold ETH. -/
def system : TransitionSystem Config where
  init c := ∃ deployment : Call, c.now = deployment.timestamp ∧
    (∃ self claimToken owner,
      c.world.ve = VeClaimNFT.initial self claimToken owner deployment.timestamp) ∧
    ∃ self owner balance, c.world.royalties = initial self owner balance
  step := Step

/-- The state after a transaction, which a revert undoes. -/
def transact (call : Call) (w : Worlds) (op : Op) : Worlds :=
  (exec call w op).toOption.getD w

theorem transact_cases {call : Call} {w : Worlds} {op : Op} {Q : Worlds → Prop}
    (h : Returns Q (exec call w op)) : transact call w op = w ∨ Q (transact call w op) := by
  unfold transact
  cases hexec : exec call w op with
  | ok w' => exact Or.inr (h.of_ok hexec)
  | error e => exact Or.inl rfl

/-- The user and the callee of a call that pays one user. -/
def Op.attempt (call : Call) : Op → Option (Address × Callee)
  | .claimShareholder _ callee => some (call.sender, callee)
  | .claimShareholderFor user _ callee => some (user, callee)
  | .claimShareholderForTo user _ callee => some (user, callee)
  | .claimShareholderTo _ _ callee => some (call.sender, callee)
  | .compoundFor user attempt => some (user, attempt.callee)
  | _ => none

/-- Execute calls in turn. -/
def run : List (Call × Op) → Worlds → Except Error Worlds
  | [], w => .ok w
  | (call, op) :: rest, w => do run rest (← exec call w op)

/-- What a sequence of calls in successive blocks reaches. -/
theorem reachable_run {calls : List (Call × Op)} {now : ℕ} {w w' : Worlds}
    (hc : system.Reachable ⟨now, w⟩) (hrun : run calls w = .ok w')
    (hsorted : (now :: calls.map fun c ↦ c.1.timestamp).IsChain (· ≤ ·)) :
    system.Reachable ⟨(calls.map fun c ↦ c.1.timestamp).getLastD now, w'⟩ := by
  induction calls generalizing now w with
  | nil =>
      obtain rfl := Except.ok.inj hrun
      exact hc
  | cons c calls ih =>
      obtain ⟨call, op⟩ := c
      obtain ⟨w₁, hexec, hrest⟩ := bind_eq_ok_iff.mp hrun
      obtain ⟨hle, hsorted⟩ := List.isChain_cons_cons.mp hsorted
      rw [List.map_cons, List.getLastD_cons]
      exact ih (hc.step (.op call op hle hexec)) hrest hsorted

/-! ## A deployed bundle -/

/-- A call into a consistent bundle, `delay` seconds after its deployment: lock
contract 1, CLAIM 2, Furnace 3, MineCore 4, royalties 5, market 6. -/
def wiredCall (delay sender : ℕ) : Call where
  timestamp := delay + 1
  timestamp_pos := Nat.succ_pos delay
  sender := sender
  codeLength := fun a ↦ if a ≤ 6 then 1 else 0
  delegatedEOA := fun _ ↦ false
  staticcallAddress := fun target selector ↦
    match target, selector with
    | 1, .furnace => 3 | 1, .mineMarket => 6 | 1, .claimToken => 2
    | 2, .mineCore => 4
    | 3, .ve => 1 | 3, .claim => 2 | 3, .mineCore => 4 | 3, .mineMarket => 6
    | 3, .shareholderRoyalties => 5
    | 4, .ve => 1 | 4, .claim => 2 | 4, .furnace => 3 | 4, .royalties => 5
    | 5, .ve => 1 | 5, .furnace => 3 | 5, .mineCore => 4 | 5, .mineMarket => 6
    | 6, .ve => 1 | 6, .claim => 2 | 6, .royalties => 5
    | _, _ => 0
  isAuthorized := fun _ _ _ _ ↦ false
  onERC721Received := fun _ ↦ true

def deployed : Worlds where
  ve := VeClaimNFT.initial 1 2 9 1
  royalties := initial 5 9 0
  claim :=
    { self := 2, wiringProbe := 8, mineCore := 4, balanceOf := fun _ ↦ 10 ^ 24
      allowance := fun _ _ ↦ 10 ^ 24, totalSupply := 10 ^ 24 }

theorem deployed_reachable : system.Reachable ⟨1, deployed⟩ :=
  .init ⟨wiredCall 0 9, rfl, ⟨1, 2, 9, rfl⟩, 5, 9, 0, rfl⟩

/-- The owner wires both contracts, and the Furnace locks `amount` for user 7. -/
def lockedBundle (amount duration : ℕ) (autoMax : Bool) : List (Call × Op) :=
  [(wiredCall 0 9, .unguarded (.lock (.setFurnace 3))),
    (wiredCall 0 9, .unguarded (.lock (.setMineMarket 6))),
    (wiredCall 0 9, .unguarded (.setWiring 4 6 3 0)),
    (wiredCall 100 3, .unguarded (.lock (.createLockFor 7 amount duration autoMax)))]

/-- A takeover sends `value` to the shareholders. -/
def takeover (delay value : ℕ) : Call × Op :=
  (wiredCall delay 4, .onTakeover 1 value 10)

/-- One AutoMax lock of user 7, and a takeover that is indexed to it. -/
def indexedBundle : List (Call × Op) :=
  lockedBundle (1500 * 10 ^ 18) 31536000 true ++ [takeover 200 (10 ^ 18)]

end ClaimRush.ShareholderRoyalties
