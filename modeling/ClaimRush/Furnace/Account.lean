import ClaimRush.Furnace.State
import Mathlib.Logic.Relation

/-!
# The account of the Furnace

The CLAIM of the Furnace lies in the reserve, in the LP stream and, during a
call, in hand: what was taken from the reserve or received and is not yet put
anywhere.  Every call is a sequence of moves between these places.  An account is
backed when its places together do not exceed the balance.
-/

namespace ClaimRush.Furnace

open Constants Relation

/-- What the Furnace accounts for, and what it holds; the two addresses tell it
from the lock contract. -/
structure Account where
  self : Address
  lockContract : Address
  reserve : ℕ
  stream : LinearStream
  vault : Address
  inHand : ℕ
  balance : ℕ
  ghost : Ghost

/-- The account between or during calls. -/
def World.account {S : Type} (w : World S) (inHand : ℕ) : Account where
  self := w.furnace.self
  lockContract := w.ve.self
  reserve := w.furnace.furnaceReserve
  stream := w.furnace.stream
  vault := w.furnace.lpRewardsVault
  inHand := inHand
  balance := w.claimBalance
  ghost := w.furnace.ghost

namespace Account

/-- Pay the vault what is due. -/
def accrued (a : Account) (now balance : ℕ) : Account :=
  { a with
    stream := (a.stream.accrue now).1
    balance := balance
    ghost := { a.ghost with streamed := a.ghost.streamed + (a.stream.accrue now).2 } }

theorem accrued_eq {a : Account} {now paid : ℕ} {s : LinearStream}
    (h : a.stream.accrue now = (s, paid)) (balance : ℕ) :
    a.accrued now balance =
      { a with
        stream := s
        balance := balance
        ghost := { a.ghost with streamed := a.ghost.streamed + paid } } := by
  unfold accrued
  rw [h]

/-- Fold an amount in hand into the stream. -/
def fund (a : Account) (now amount : ℕ) : Account :=
  { a with
    stream := a.stream.fund LP_STREAM_WINDOW amount now
    inHand := a.inHand - amount
    ghost := { a.ghost with funded := a.ghost.funded + amount, fundedAt := now } }

/-- Pay the carry of a stream without a schedule. -/
def settled (a : Account) (balance : ℕ) : Account :=
  { a with
    stream := { a.stream with carry := 0 }
    balance := balance
    ghost := { a.ghost with streamed := a.ghost.streamed + a.stream.carry } }

/-- What one step of a call may do to the account at the time `now`. -/
inductive Move (now : ℕ) : Account → Account → Prop
  | accrue {a : Account} {balance : ℕ} (hvault : a.vault ≠ 0)
      (hfunds : (a.stream.accrue now).2 ≤ a.balance)
      (hpaid : a.balance ≤ balance + (a.stream.accrue now).2) : Move now a (a.accrued now balance)
  | fund {a : Account} {amount : ℕ} (hvault : a.vault ≠ 0) (hdue : a.stream.due now = 0)
      (hamount : amount ≤ a.inHand)
      (hfits : (a.stream.finish - now) * a.stream.rate + amount + a.stream.carry < uint256Bound) :
      Move now a (a.fund now amount)
  | take {a : Account} {amount : ℕ} (h : amount ≤ a.reserve) :
      Move now a { a with reserve := a.reserve - amount, inHand := a.inHand + amount }
  | give {a : Account} {amount : ℕ} (h : amount ≤ a.inHand) :
      Move now a { a with reserve := a.reserve + amount, inHand := a.inHand - amount }
  | receive {a : Account} {amount balance : ℕ} (h : a.balance + amount ≤ balance) :
      Move now a { a with inHand := a.inHand + amount, balance := balance }
  | pay {a : Account} {amount balance : ℕ} (h : amount ≤ a.inHand)
      (hpaid : a.balance ≤ balance + amount) :
      Move now a { a with inHand := a.inHand - amount, balance := balance }
  | clamp {a : Account} (h : a.balance - a.stream.liability < a.reserve) :
      Move now a { a with reserve := a.balance - a.stream.liability }

/-- The moves of a call. -/
abbrev Moves (now : ℕ) : Account → Account → Prop := ReflTransGen (Move now)

/-- The places of the account hold no more than its balance. -/
def Backed (a : Account) : Prop := a.reserve + a.stream.liability + a.inHand ≤ a.balance

/-- The shape of the stream: it is paid up to a time before its finish, and
without a vault it owes nothing. -/
structure Shaped (now : ℕ) (a : Account) : Prop where
  last_le : a.stream.last ≤ now
  open_lt : a.stream.rate ≠ 0 → a.stream.last < a.stream.finish
  carry_lt : a.stream.carry < LP_STREAM_WINDOW
  scheduled_lt : a.stream.scheduled < uint256Bound
  unset : a.vault = 0 → a.stream.liability = 0

variable {now : ℕ} {a a' : Account}

theorem Shaped.later {now' : ℕ} (h : a.Shaped now) (hle : now ≤ now') : a.Shaped now' :=
  ⟨h.last_le.trans hle, h.open_lt, h.carry_lt, h.scheduled_lt, h.unset⟩

theorem Shaped.accrue_open (hs : a.Shaped now) :
    (a.stream.accrue now).1.rate ≠ 0 →
      (a.stream.accrue now).1.last < (a.stream.accrue now).1.finish := by
  rcases a.stream.accrue_cases now with ⟨hnone, heq⟩ | ⟨-, heq⟩ | ⟨-, -, -, heq⟩ | ⟨-, hlt, heq⟩ <;>
    rw [heq] <;> intro hrate
  · have hopen := hs.open_lt hrate
    rcases hnone with hnone | hnone
    · exact absurd hnone hrate
    · exact absurd hopen (by simp [hnone])
  · exact hs.open_lt hrate
  · exact absurd rfl hrate
  · exact hlt

theorem Move.shaped (h : Move now a a') (hs : a.Shaped now) : a'.Shaped now := by
  cases h with
  | accrue hvault hfunds hpaid =>
      have hcarry := a.stream.accrue_carry now
      have hliability := a.stream.accrue_liability now
      have hcarryLt := hs.carry_lt
      have hscheduled := hs.scheduled_lt
      constructor
      · exact LinearStream.accrue_last_le hs.last_le
      · exact hs.accrue_open
      · exact hcarry ▸ hcarryLt
      · simp only [LinearStream.liability, accrued] at hliability ⊢
        omega
      · exact fun hnone ↦ absurd hnone hvault
  | fund hvault hdue hamount hfits =>
      constructor
      · exact le_rfl
      · exact fun _ ↦ Nat.lt_add_of_pos_right LP_STREAM_WINDOW_pos
      · exact LinearStream.fund_carry_lt LP_STREAM_WINDOW_pos
      · refine lt_of_le_of_lt ?_ hfits
        simp only [Account.fund, LinearStream.scheduled, LinearStream.fund, Nat.add_sub_cancel_left]
        exact Nat.mul_div_le _ _
      · exact fun hnone ↦ absurd hnone hvault
  | take h => exact ⟨hs.last_le, hs.open_lt, hs.carry_lt, hs.scheduled_lt, hs.unset⟩
  | give h => exact ⟨hs.last_le, hs.open_lt, hs.carry_lt, hs.scheduled_lt, hs.unset⟩
  | receive h => exact ⟨hs.last_le, hs.open_lt, hs.carry_lt, hs.scheduled_lt, hs.unset⟩
  | pay h hpaid => exact ⟨hs.last_le, hs.open_lt, hs.carry_lt, hs.scheduled_lt, hs.unset⟩
  | clamp h => exact ⟨hs.last_le, hs.open_lt, hs.carry_lt, hs.scheduled_lt, hs.unset⟩

/-- Moves change no address. -/
theorem Moves.fixed (h : Moves now a a') :
    a'.self = a.self ∧ a'.lockContract = a.lockContract ∧ a'.vault = a.vault := by
  induction h with
  | refl => exact ⟨rfl, rfl, rfl⟩
  | tail _ hmove ih => cases hmove <;> exact ih

theorem Moves.shaped (h : Moves now a a') (hs : a.Shaped now) : a'.Shaped now := by
  induction h with
  | refl => exact hs
  | tail _ hmove ih => exact hmove.shaped ih

/-- No move spends CLAIM that lies in another place. -/
theorem Move.backed (h : Move now a a') (hs : a.Shaped now) (hb : a.Backed) : a'.Backed := by
  unfold Backed at hb ⊢
  cases h with
  | accrue hvault hfunds hpaid =>
      have hliability := a.stream.accrue_liability now
      dsimp only [accrued]
      omega
  | fund hvault hdue hamount hfits =>
      dsimp only [Account.fund]
      rw [LinearStream.fund_liability hs.last_le hdue]
      omega
  | take h =>
      dsimp only
      omega
  | give h =>
      dsimp only
      omega
  | receive h =>
      dsimp only
      omega
  | pay h hpaid =>
      dsimp only
      omega
  | clamp h => exact absurd h (by omega)

theorem Moves.backed (h : Moves now a a') (hs : a.Shaped now) (hb : a.Backed) : a'.Backed := by
  induction h with
  | refl => exact hb
  | tail hmoves hmove ih => exact hmove.backed (Moves.shaped hmoves hs) ih

/-! ## Rewiring -/

/-- What a call may do to the vault after its moves: nothing, a change when
nothing is owed or the carry has been paid, or a reset of the stream.  The two
conditions tell which calls do so. -/
inductive Rewire (now : ℕ) (changes resets : Prop) (a : Account) : Account → Prop
  | keep : Rewire now changes resets a a
  | change (hcall : changes) (vault : Address) (h : a.vault ≠ 0 → a.stream.liability = 0) :
      Rewire now changes resets a { a with vault := vault }
  | settle (hcall : changes) (vault : Address) {balance : ℕ} (hvault : a.vault ≠ 0)
      (hrate : a.stream.rate = 0) (hpaid : a.balance ≤ balance + a.stream.carry) :
      Rewire now changes resets a { a.settled balance with vault := vault }
  | reset (hcall : resets) (vault : Address) :
      Rewire now changes resets a { a with stream := { last := now }, vault := vault }

variable {changes resets : Prop}

theorem settled_liability (balance : ℕ) (hrate : a.stream.rate = 0) :
    (a.settled balance).stream.liability = 0 := by
  simp [settled, LinearStream.liability, LinearStream.scheduled, hrate]

theorem Rewire.mono {changes' resets' : Prop} (h : Rewire now changes resets a a')
    (hchanges : changes → changes') (hresets : resets → resets') :
    Rewire now changes' resets' a a' := by
  cases h with
  | keep => exact .keep
  | change hcall vault h => exact .change (hchanges hcall) vault h
  | settle hcall vault hvault hrate hpaid =>
      exact .settle (hchanges hcall) vault hvault hrate hpaid
  | reset hcall vault => exact .reset (hresets hcall) vault

theorem Rewire.shaped (h : Rewire now changes resets a a') (hs : a.Shaped now) :
    a'.Shaped now := by
  cases h with
  | keep => exact hs
  | change _ vault h =>
      refine ⟨hs.last_le, hs.open_lt, hs.carry_lt, hs.scheduled_lt, fun _ ↦ ?_⟩
      by_cases hold : a.vault = 0
      · exact hs.unset hold
      · exact h hold
  | @settle _ vault balance hvault hrate hpaid =>
      exact ⟨hs.last_le, hs.open_lt, LP_STREAM_WINDOW_pos, hs.scheduled_lt,
        fun _ ↦ settled_liability balance hrate⟩
  | reset _ vault =>
      refine ⟨le_rfl, fun h ↦ absurd rfl h, LP_STREAM_WINDOW_pos, ?_, fun _ ↦ ?_⟩
      · rw [LinearStream.scheduled_eq_zero (.inl rfl)]
        exact uint256Bound_pos
      · simp [LinearStream.liability, LinearStream.scheduled]

theorem Rewire.backed (h : Rewire now changes resets a a') (hb : a.Backed) : a'.Backed := by
  cases h with
  | keep => exact hb
  | change _ vault h => exact hb
  | @settle _ vault balance hvault hrate hpaid =>
      have hzero := settled_liability (a := a) balance hrate
      have hscheduled : a.stream.scheduled = 0 := LinearStream.scheduled_eq_zero (.inl hrate)
      unfold Backed at hb ⊢
      rw [LinearStream.liability, hscheduled] at hb
      dsimp only
      rw [hzero]
      dsimp only [settled]
      omega
  | reset _ vault =>
      unfold Backed at hb ⊢
      simp only [LinearStream.liability, LinearStream.scheduled, Nat.mul_zero, Nat.add_zero]
      omega

theorem Rewire.fixed (h : Rewire now changes resets a a') :
    a'.self = a.self ∧ a'.lockContract = a.lockContract := by
  cases h <;> exact ⟨rfl, rfl⟩

end Account

end ClaimRush.Furnace
