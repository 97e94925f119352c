import ClaimRush.Lib.Driven
import ClaimRush.Lib.Timeline
import ClaimRush.MineCore.Turns
import ClaimRush.VeClaimNFT.Runs

/-!
# Runs with their observations

Next to the state of a run stand what an observer saw of it: whether takeovers
were paused after each step, and who took over when.
-/

open Relation

namespace ClaimRush.MineCore

variable {S : Type} (port : VeClaimNFT.IShareholderRoyalties S)

/-- A state of a run, with the observations that lead to it, the newest first. -/
structure Observed (S : Type) where
  config : Config S
  /-- Whether takeovers were paused after each step. -/
  pauses : Timeline
  /-- The kings of the takeovers, and their times. -/
  takeovers : List (Address × ℕ)

namespace Observed

variable (o : Observed S)

def now : ℕ := o.config.now

def core : CoreState := o.config.world.core

def game : Game := o.core.game

end Observed

/-- The observations after a step that ends in `c`, with the takeover that it was. -/
def Observed.extend (o : Observed S) (c : Config S) (newKing : Option Address) : Observed S where
  config := c
  pauses := (c.now, c.world.core.game.takeoversPaused) :: o.pauses
  takeovers := (newKing.map fun king ↦ (king, c.now)).toList ++ o.takeovers

inductive Observe : Observed S → Observed S → Prop
  | op {o : Observed S} {w : World S} (call : Call) (op : Op) (hnow : o.now ≤ call.timestamp)
      (hexec : exec port call o.config.world op = .ok w) :
      Observe o (o.extend ⟨call.timestamp, w⟩ (op.newKing call))
  | outside {o : Observed S} {now : ℕ} (received : ℕ) (furnace : Furnace.World S)
      (hnow : o.now ≤ now) :
      Observe o (o.extend ⟨now, ⟨o.core, o.config.world.balance + received, furnace⟩⟩ none)

/-- The observed runs of the game contract. -/
def observed : TransitionSystem (Observed S) where
  init o := Deployed o.config.world o.now ∧
    o.pauses = [(o.now, o.game.takeoversPaused)] ∧ o.takeovers = []
  step := Observe port

/-- Every run can be observed. -/
theorem exists_observed {c : Config S} (hc : (system port).Reachable c) :
    ∃ o, (observed port).Reachable o ∧ o.config = c := by
  induction hc with
  | @init c h =>
      exact ⟨⟨c, [(c.now, c.world.core.game.takeoversPaused)], []⟩, .init ⟨h, rfl, rfl⟩, rfl⟩
  | step _ h ih =>
      obtain ⟨o, ho, rfl⟩ := ih
      cases h with
      | op call op hnow hexec => exact ⟨_, ho.step (.op call op hnow hexec), rfl⟩
      | outside received furnace hnow => exact ⟨_, ho.step (.outside received furnace hnow), rfl⟩

/-- An observed run is a run. -/
theorem observed_reachable {o : Observed S} (ho : (observed port).Reachable o) :
    (system port).Reachable o.config := by
  induction ho with
  | init h => exact .init h.1
  | step _ h ih =>
      cases h with
      | op call op hnow hexec => exact ih.step (.op call op hnow hexec)
      | outside received furnace hnow => exact ih.step (.outside received furnace hnow)

/-! ## Computed runs -/

/-- Execute one call and record what was seen of it. -/
def Observed.call (p : Call × Op) (o : Observed S) : Except Error (Observed S) := do
  let w ← exec port p.1 o.config.world p.2
  return o.extend ⟨p.1.timestamp, w⟩ (p.2.newKing p.1)

theorem observed_run {o o' : Observed S} {calls : List (Call × Op)}
    (hrun : runCalls (Observed.call port) calls o = .ok o')
    (hsorted : (o.now :: calls.map fun p ↦ p.1.timestamp).IsChain (· ≤ ·)) :
    ReflTransGen (observed port).step o o' := by
  refine calls_run Observed.now (fun p o o' hle hcall ↦ ?_) hrun hsorted
  obtain ⟨w, hexec, hextend⟩ := bind_eq_ok_iff.mp hcall
  obtain rfl := Except.ok.inj hextend
  exact ⟨.op p.1 p.2 hle hexec, rfl⟩

/-- A computed run from the initialization, for a checked property of its end. -/
theorem observed_witness (o : Observed S) (calls : List (Call × Op)) (P : Observed S → Bool)
    (hinit : (observed port).init o)
    (hsorted : (o.now :: calls.map fun p ↦ p.1.timestamp).IsChain (· ≤ ·))
    (hrun : (runCalls (Observed.call port) calls o).toOption.any P = true) :
    ∃ o', (observed port).Reachable o' ∧ P o' = true := by
  cases h : runCalls (Observed.call port) calls o with
  | error e =>
      rw [h] at hrun
      cases hrun
  | ok o' =>
      rw [h] at hrun
      exact ⟨o', (TransitionSystem.Reachable.init hinit).run (observed_run port h hsorted), hrun⟩

/-- One ether in wei. -/
def ether : ℕ := 1000000000000000000

/-- A call in a bundle of canonically wired contracts. -/
def gameCall (timestamp sender value : ℕ) (h : 0 < timestamp) : Call where
  timestamp := timestamp
  timestamp_pos := h
  sender := sender
  codeLength := fun _ ↦ 1
  delegatedEOA := fun _ ↦ false
  staticcallAddress := fun _ selector ↦
    match selector with
    | .ve => 1 | .claim => 2 | .claimToken => 2 | .furnace => 3 | .mineCore => 4
    | .shareholderRoyalties => 5
    | _ => 0
  isAuthorized := fun _ _ _ _ ↦ false
  onERC721Received := fun _ ↦ true
  value := value
  emissionStartTime := fun _ ↦ some 1000
  furnaceEmissionRateAt := fun _ _ ↦ some 0
  routerConfig := fun _ ↦ none
  notifyRewards := fun _ _ ↦ true
  entryTokenRegistry := fun _ ↦ 0
  guardian := fun _ ↦ some 4

/-- The bundle right after its deployment. -/
def deployedGame : Observed Unit where
  config :=
    { now := 1000
      world :=
        { core := initial 4 5 8 9 false 1000
          balance := 0
          furnace :=
            { furnace := { Furnace.initial 3 9 1000 with mineCore := 4, shareholderRoyalties := 5 }
              base :=
                { ve := { VeClaimNFT.initial 1 2 9 1000 with furnace := 3 }
                  royalties := ()
                  claim :=
                    { self := 2, wiringProbe := 7, mineCore := 4, balanceOf := fun _ ↦ 0
                      allowance := fun _ _ ↦ 0, totalSupply := 0 } } } } }
  pauses := [(1000, true)]
  takeovers := []

theorem deployedGame_init : (observed VeClaimNFT.acceptingPort).init deployedGame :=
  ⟨⟨by decide, 4, 5, 8, 9, false, rfl⟩, rfl, rfl⟩

/-- Wire the Furnace, collect the genesis bucket and open the takeovers. -/
def opening : List (Call × Op) :=
  [(gameCall 1000 9 0 (Nat.succ_pos _), .setFurnace 3),
    (gameCall 87400 9 0 (Nat.succ_pos _), .collectGenesisKingClaim 20),
    (gameCall 90000 9 0 (Nat.succ_pos _), .setTakeoversPaused false)]

/-- The answers to a takeover that settles without an entry into the Furnace. -/
def plainReplies : TakeoverReplies where
  checkpointRounds := 3
  kingPaid := true
  royalties := ⟨true, true⟩
  gas := { forEnter := false, forFurnace := false, forSettle := false }
  refunded := true

end ClaimRush.MineCore
