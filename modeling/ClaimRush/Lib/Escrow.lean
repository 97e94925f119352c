import ClaimRush.Lib.FiniteTotal
import Mathlib.Logic.Relation

/-!
# Numbered escrows

An escrow opens entries under fresh numbers, each with a party and an amount that is
paid in, and pays an entry out once.  Whatever else reaches the account of the escrow
only adds to it.
-/

open Function Relation

namespace ClaimRush

inductive EscrowEvent (Party : Type*)
  | opened (id : ℕ) (party : Party) (amount : ℕ)
  | settled (id : ℕ) (party : Party) (amount : ℕ)
  deriving DecidableEq

def EscrowEvent.id {Party : Type*} : EscrowEvent Party → ℕ
  | .opened id _ _ => id
  | .settled id _ _ => id

/-- The open entries, what the account of the escrow holds, and the log. -/
structure Escrow (Party : Type*) where
  next : ℕ
  entries : ℕ → Option (Party × ℕ)
  held : ℕ
  log : List (EscrowEvent Party)

namespace Escrow

variable {Party : Type*} {e e' : Escrow Party}

/-- What the entry `id` holds. -/
def amount (e : Escrow Party) (id : ℕ) : ℕ := ((e.entries id).map Prod.snd).getD 0

/-- What all open entries hold. -/
noncomputable def owed (e : Escrow Party) : ℕ := total e.amount

/-- What the log says about the entry `id`. -/
def history (e : Escrow Party) (id : ℕ) : List (EscrowEvent Party) := e.log.filter (·.id = id)

inductive Step : Escrow Party → Escrow Party → Prop
  | receive {e : Escrow Party} {held : ℕ} (h : e.held ≤ held) : Step e { e with held := held }
  | enter {e : Escrow Party} (party : Party) (amount : ℕ) {held : ℕ}
      (h : e.held + amount ≤ held) :
      Step e
        { next := e.next + 1
          entries := update e.entries e.next (some (party, amount))
          held := held
          log := e.log ++ [.opened e.next party amount] }
  | settle {e : Escrow Party} {id : ℕ} {party : Party} {amount held : ℕ}
      (hopen : e.entries id = some (party, amount)) (h : e.held ≤ held + amount) :
      Step e
        { e with
          entries := update e.entries id none
          held := held
          log := e.log ++ [.settled id party amount] }

abbrev Steps : Escrow Party → Escrow Party → Prop := ReflTransGen Step

/-- The account holds what is owed, and every entry was opened once and settled at
most once, for the same party and amount. -/
structure Sound (e : Escrow Party) : Prop where
  finite : FiniteEntries e.amount
  covered : e.owed ≤ e.held
  unopened : ∀ id, e.next ≤ id → e.entries id = none ∧ e.history id = []
  opened : ∀ id party amount, e.entries id = some (party, amount) →
    e.history id = [.opened id party amount]
  closed : ∀ id, e.entries id = none → e.history id = [] ∨
    ∃ party amount, e.history id = [.opened id party amount, .settled id party amount]

theorem sound_empty (first held : ℕ) :
    Sound (⟨first, fun _ ↦ none, held, []⟩ : Escrow Party) := by
  constructor
  · exact finiteEntries_zero
  · change total (fun _ : ℕ ↦ 0) ≤ held
    rw [total_zero]
    exact Nat.zero_le held
  · exact fun _ _ ↦ ⟨rfl, rfl⟩
  · nofun
  · exact fun _ _ ↦ .inl rfl

theorem amount_update (e : Escrow Party) (id : ℕ) (entry : Option (Party × ℕ)) (next held : ℕ)
    (log : List (EscrowEvent Party)) :
    amount ⟨next, update e.entries id entry, held, log⟩ =
      update e.amount id ((entry.map Prod.snd).getD 0) := by
  funext i
  by_cases hi : i = id
  · simp [amount, hi]
  · simp [amount, hi]

theorem history_append (e : Escrow Party) {event : EscrowEvent Party} (next held : ℕ)
    (entries : ℕ → Option (Party × ℕ)) :
    history ⟨next, entries, held, e.log ++ [event]⟩ event.id = e.history event.id ++ [event] := by
  simp [history]

theorem history_append_ne (e : Escrow Party) {id : ℕ} {event : EscrowEvent Party}
    (h : id ≠ event.id) (next held : ℕ) (entries : ℕ → Option (Party × ℕ)) :
    history ⟨next, entries, held, e.log ++ [event]⟩ id = e.history id := by
  simp [history, Ne.symm h]

theorem Sound.enter (hs : e.Sound) (party : Party) (amount : ℕ) {held : ℕ}
    (h : e.held + amount ≤ held) :
    Sound
      { next := e.next + 1
        entries := update e.entries e.next (some (party, amount))
        held := held
        log := e.log ++ [.opened e.next party amount] } := by
  obtain ⟨hnone, hfresh⟩ := hs.unopened e.next le_rfl
  have hzero : e.amount e.next = 0 := by simp [Escrow.amount, hnone]
  refine ⟨?_, ?_, fun id hid ↦ ?_, fun id p a hid ↦ ?_, fun id hid ↦ ?_⟩
  · rw [amount_update]
    exact hs.finite.update _ _
  · have hcovered := hs.covered
    have htotal := total_update hs.finite e.next amount
    rw [owed] at hcovered ⊢
    rw [amount_update]
    change total (update e.amount e.next amount) ≤ held
    omega
  · have hlt : e.next < id := hid
    rw [history_append_ne e hlt.ne']
    dsimp only
    rw [update_of_ne hlt.ne']
    exact hs.unopened id hlt.le
  · dsimp only at hid
    by_cases heq : id = e.next
    · subst heq
      rw [update_self] at hid
      obtain ⟨rfl, rfl⟩ := Prod.mk.inj (Option.some.inj hid)
      exact (history_append e _ _ _).trans (by rw [EscrowEvent.id, hfresh, List.nil_append])
    · rw [update_of_ne heq] at hid
      rw [history_append_ne e heq]
      exact hs.opened id p a hid
  · dsimp only at hid
    by_cases heq : id = e.next
    · subst heq
      rw [update_self] at hid
      cases hid
    · rw [update_of_ne heq] at hid
      rw [history_append_ne e heq]
      exact hs.closed id hid

theorem Sound.settle (hs : e.Sound) {id : ℕ} {party : Party} {amount held : ℕ}
    (hopen : e.entries id = some (party, amount)) (h : e.held ≤ held + amount) :
    Sound
      { e with
        entries := update e.entries id none
        held := held
        log := e.log ++ [.settled id party amount] } := by
  have hamount : e.amount id = amount := by simp [Escrow.amount, hopen]
  have hlt : id < e.next := by
    by_contra hge
    rw [(hs.unopened id (not_lt.mp hge)).1] at hopen
    cases hopen
  refine ⟨?_, ?_, fun i hi ↦ ?_, fun i p a hi ↦ ?_, fun i hi ↦ ?_⟩
  · rw [amount_update]
    exact hs.finite.update _ _
  · have hcovered := hs.covered
    have htotal := total_update hs.finite id 0
    rw [owed] at hcovered ⊢
    rw [amount_update]
    change total (update e.amount id 0) ≤ held
    omega
  · have hne : i ≠ id := (hlt.trans_le hi).ne'
    rw [history_append_ne e hne]
    dsimp only
    rw [update_of_ne hne]
    exact hs.unopened i hi
  · dsimp only at hi
    by_cases heq : i = id
    · subst heq
      rw [update_self] at hi
      cases hi
    · rw [update_of_ne heq] at hi
      rw [history_append_ne e heq]
      exact hs.opened i p a hi
  · dsimp only at hi
    by_cases heq : i = id
    · subst heq
      refine .inr ⟨party, amount, (history_append e _ _ _).trans ?_⟩
      rw [EscrowEvent.id, hs.opened i party amount hopen, List.singleton_append]
    · rw [update_of_ne heq] at hi
      rw [history_append_ne e heq]
      exact hs.closed i hi

theorem Step.sound (h : Step e e') (hs : e.Sound) : e'.Sound := by
  cases h with
  | receive h => exact ⟨hs.finite, hs.covered.trans h, hs.unopened, hs.opened, hs.closed⟩
  | enter party amount h => exact hs.enter party amount h
  | settle hopen h => exact hs.settle hopen h

theorem Steps.sound (h : Steps e e') (hs : e.Sound) : e'.Sound := by
  induction h with
  | refl => exact hs
  | tail _ hstep ih => exact hstep.sound ih

end Escrow

end ClaimRush
