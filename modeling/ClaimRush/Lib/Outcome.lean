import Mathlib.Algebra.Ring.Int.Defs
import Mathlib.Algebra.Ring.Nat
import Mathlib.Tactic.Common

/-!
# Programs that return or revert

A fallible program is a value of `Except ε α`: it returns a value, or it
reverts with an error and leaves no trace.  `Outcome Q E x` says that `x`
returns only values satisfying `Q` and reverts only with errors satisfying `E`.
Both halves travel through a sequence of steps together, so one pass over a
program proves its postcondition and excludes its forbidden errors.

Fixed-width arithmetic enters as a range check on the mathematical result.
-/

namespace ClaimRush

universe v

variable {ε : Type v} {α β : Type}

/-- Every returned value satisfies `Q` and every error satisfies `E`. -/
def Outcome (Q : α → Prop) (E : ε → Prop) : Except ε α → Prop
  | .ok a => Q a
  | .error e => E e

namespace Outcome

variable {Q Q' : α → Prop} {R : β → Prop} {E E' : ε → Prop}

@[simp] theorem ok_iff (a : α) : Outcome Q E (.ok a) ↔ Q a := Iff.rfl

@[simp] theorem pure_iff (a : α) :
    Outcome Q E (pure a : Except ε α) ↔ Q a := Iff.rfl

@[simp] theorem error_iff (e : ε) : Outcome Q E (.error e) ↔ E e := Iff.rfl

@[simp] theorem throw_iff (e : ε) :
    Outcome Q E (throw e : Except ε α) ↔ E e := Iff.rfl

/-- Sequencing: the first program must establish what the second one needs. -/
@[simp] theorem bind_iff (x : Except ε α) (f : α → Except ε β) :
    Outcome R E (x >>= f) ↔ Outcome (fun a ↦ Outcome R E (f a)) E x := by
  cases x <;> rfl

@[simp] theorem map_iff (x : Except ε α) (f : α → β) :
    Outcome R E (f <$> x) ↔ Outcome (fun a ↦ R (f a)) E x := by
  cases x <;> rfl

theorem ite_iff (c : Prop) [Decidable c] (x y : Except ε α) :
    Outcome Q E (if c then x else y) ↔
      (c → Outcome Q E x) ∧ (¬ c → Outcome Q E y) := by
  by_cases h : c <;> simp [h]

theorem mono {x : Except ε α} (h : Outcome Q E x)
    (hQ : ∀ a, Q a → Q' a) (hE : ∀ e, E e → E' e) : Outcome Q' E' x := by
  cases x with
  | ok a => exact hQ a h
  | error e => exact hE e h

/-- The rule of consequence on returned values. -/
theorem weaken {x : Except ε α} (h : Outcome Q E x)
    (hQ : ∀ a, Q a → Q' a) : Outcome Q' E x :=
  h.mono hQ fun _ he ↦ he

theorem and {x : Except ε α} (h : Outcome Q E x) (h' : Outcome Q' E x) :
    Outcome (fun a ↦ Q a ∧ Q' a) E x := by
  cases x with
  | ok a => exact ⟨h, h'⟩
  | error e => exact h

/-- Reasoning about one program as a step of a longer one. -/
theorem bind {x : Except ε α} {f : α → Except ε β} (h : Outcome Q E x)
    (hf : ∀ a, Q a → Outcome R E (f a)) : Outcome R E (x >>= f) :=
  (bind_iff x f).mpr (h.weaken hf)

theorem of_ok {x : Except ε α} {a : α} (h : Outcome Q E x)
    (hx : x = .ok a) : Q a := by
  subst hx
  exact h

/-- A computation that cannot fail returns a value. -/
theorem exists_ok {x : Except ε α} (h : Outcome Q (fun _ ↦ False) x) : ∃ a, x = .ok a ∧ Q a := by
  cases x with
  | ok a => exact ⟨a, rfl, h⟩
  | error e => exact h.elim

theorem of_error {x : Except ε α} {e : ε} (h : Outcome Q E x)
    (hx : x = .error e) : E e := by
  subst hx
  exact h

/-- A program that is known only by what it may return. -/
theorem iff_forall (x : Except ε α) :
    Outcome Q E x ↔ (∀ a, x = .ok a → Q a) ∧ ∀ e, x = .error e → E e := by
  cases x <;> simp

end Outcome

theorem bind_eq_ok_iff {x : Except ε α} {f : α → Except ε β} {b : β} :
    (x >>= f) = .ok b ↔ ∃ a, x = .ok a ∧ f a = .ok b := by
  cases x with
  | ok a =>
      constructor
      · exact fun h ↦ ⟨a, rfl, h⟩
      · rintro ⟨a', h, hf⟩
        cases h
        exact hf
  | error e =>
      constructor
      · intro h
        cases h
      · rintro ⟨a', h, _⟩
        cases h

/-- Two programs that go on alike after every value of the first part. -/
theorem bind_congr_ok {x : Except ε α} {f g : α → Except ε β} (h : ∀ a, x = .ok a → f a = g a) :
    (x >>= f) = (x >>= g) := by
  cases x with
  | ok a => exact h a rfl
  | error e => rfl

theorem toOption_eq_some {x : Except ε α} {a : α} : x.toOption = some a ↔ x = .ok a := by
  cases x <;> simp [Except.toOption]

/-- What a run satisfies, read off its evaluation. -/
theorem exists_ok_of_any {x : Except ε α} {p : α → Bool} (h : x.toOption.any p = true) :
    ∃ a, x = .ok a ∧ p a = true := by
  cases x with
  | ok a => exact ⟨a, rfl, h⟩
  | error e => cases h

/-! ## Guards -/

/-- Revert with `e` when `c` holds. -/
def revertIf (c : Prop) [Decidable c] (e : ε) : Except ε Unit :=
  if c then .error e else .ok ()

@[simp] theorem outcome_revertIf {E : ε → Prop} {Q : Unit → Prop}
    (c : Prop) [Decidable c] (e : ε) :
    Outcome Q E (revertIf c e) ↔ (c → E e) ∧ (¬ c → Q ()) := by
  by_cases h : c <;> simp [revertIf, h]

theorem Outcome.revertIf_bind {E : ε → Prop} {R : α → Prop} {c : Prop} [Decidable c]
    {e : ε} {f : PUnit → Except ε α} (hE : c → E e)
    (h : ¬ c → Outcome R E (f ())) : Outcome R E (revertIf c e >>= f) := by
  by_cases hc : c
  · simpa [revertIf, hc, bind, Except.bind] using hE hc
  · simpa [revertIf, hc, bind, Except.bind] using h hc

@[simp] theorem revertIf_eq_ok {c : Prop} [Decidable c] {e : ε} {u : Unit} :
    revertIf c e = .ok u ↔ ¬ c := by
  by_cases h : c <;> simp [revertIf, h]

/-- Every returned value satisfies `Q`; any error is allowed. -/
abbrev Returns (Q : α → Prop) (x : Except ε α) : Prop := Outcome Q (fun _ ↦ True) x

namespace Returns

variable {Q : α → Prop} {R : β → Prop} {x : Except ε α} {f : α → Except ε β}

theorem of_outcome {E : ε → Prop} (h : Outcome Q E x) : Returns Q x :=
  h.mono (fun _ ↦ id) fun _ _ ↦ trivial

theorem iff_forall : Returns Q x ↔ ∀ a, x = .ok a → Q a := by
  cases x <;> simp

/-- A step that is known only by the fact that it returned. -/
theorem seq (h : ∀ a, x = .ok a → Returns R (f a)) : Returns R (x >>= f) :=
  Outcome.bind (iff_forall.mpr fun _ ↦ id) h

theorem guard {c : Prop} [Decidable c] {e : ε} {g : PUnit → Except ε β}
    (h : ¬ c → Returns R (g ())) : Returns R (revertIf c e >>= g) :=
  Outcome.revertIf_bind (fun _ ↦ trivial) h

theorem ite {c : Prop} [Decidable c] {y : Except ε α} (hx : c → Returns Q x)
    (hy : ¬ c → Returns Q y) : Returns Q (if c then x else y) :=
  (Outcome.ite_iff c x y).mpr ⟨hx, hy⟩

end Returns

/-- What is known of the value, besides what is known of the error. -/
theorem Outcome.and_returns {E : ε → Prop} {Q Q' : α → Prop} {x : Except ε α}
    (h : Outcome Q E x) (h' : Returns Q' x) : Outcome (fun a ↦ Q a ∧ Q' a) E x := by
  cases x with
  | ok a => exact ⟨h, h'⟩
  | error e => exact h

/-! ## Checked arithmetic -/

/-- Errors that include the panic raised by checked arithmetic. -/
class HasPanic (ε : Type v) where
  arithmetic : ε

/-- Number of values of an unsigned 256-bit word. -/
def uint256Bound : ℕ := 2 ^ 256

/-- Bound of the non-negative signed 256-bit words. -/
def int256Bound : ℕ := 2 ^ 255

section Checked

variable [HasPanic ε] {E : ε → Prop}

/-- A mathematical result stored in an unsigned word. -/
def uint256 (n : ℕ) : Except ε ℕ :=
  if n < uint256Bound then .ok n else .error HasPanic.arithmetic

/-- A mathematical result stored in a signed word. -/
def int256 (z : ℤ) : Except ε ℤ :=
  if -(int256Bound : ℤ) ≤ z ∧ z < int256Bound then .ok z
  else .error HasPanic.arithmetic

/-- Checked unsigned subtraction. -/
def usub (a b : ℕ) : Except ε ℕ :=
  if b ≤ a then .ok (a - b) else .error HasPanic.arithmetic

@[simp] theorem outcome_uint256 {Q : ℕ → Prop} (n : ℕ) :
    Outcome Q E (uint256 n) ↔
      (n < uint256Bound → Q n) ∧ (¬ n < uint256Bound → E HasPanic.arithmetic) := by
  by_cases h : n < uint256Bound <;> simp [uint256, h]

@[simp] theorem outcome_int256 {Q : ℤ → Prop} (z : ℤ) :
    Outcome Q E (int256 z) ↔
      (-(int256Bound : ℤ) ≤ z ∧ z < int256Bound → Q z) ∧
      (¬ (-(int256Bound : ℤ) ≤ z ∧ z < int256Bound) → E HasPanic.arithmetic) := by
  by_cases h : -(int256Bound : ℤ) ≤ z ∧ z < int256Bound <;> simp [int256, h]

@[simp] theorem outcome_usub {Q : ℕ → Prop} (a b : ℕ) :
    Outcome Q E (usub a b) ↔
      (b ≤ a → Q (a - b)) ∧ (¬ b ≤ a → E HasPanic.arithmetic) := by
  by_cases h : b ≤ a <;> simp [usub, h]

/-! The same rules for a check that starts a longer program. -/

theorem Outcome.uint256_bind {R : β → Prop} {n : ℕ} {f : ℕ → Except ε β}
    (hE : E HasPanic.arithmetic) (h : n < uint256Bound → Outcome R E (f n)) :
    Outcome R E (uint256 n >>= f) := by
  rw [Outcome.bind_iff, outcome_uint256]
  exact ⟨h, fun _ ↦ hE⟩

theorem Outcome.int256_bind {R : β → Prop} {z : ℤ} {f : ℤ → Except ε β}
    (hE : E HasPanic.arithmetic)
    (h : -(int256Bound : ℤ) ≤ z → z < int256Bound → Outcome R E (f z)) :
    Outcome R E (int256 z >>= f) := by
  rw [Outcome.bind_iff, outcome_int256]
  exact ⟨fun hz ↦ h hz.1 hz.2, fun _ ↦ hE⟩

theorem Outcome.usub_bind {R : β → Prop} {a b : ℕ} {f : ℕ → Except ε β}
    (hE : E HasPanic.arithmetic) (h : b ≤ a → Outcome R E (f (a - b))) :
    Outcome R E (usub a b >>= f) := by
  rw [Outcome.bind_iff, outcome_usub]
  exact ⟨h, fun _ ↦ hE⟩

theorem uint256_eq_ok {n m : ℕ} :
    (uint256 n : Except ε ℕ) = .ok m ↔ n < uint256Bound ∧ n = m := by
  by_cases h : n < uint256Bound <;> simp [uint256, h]

theorem usub_eq_ok {a b c : ℕ} :
    (usub a b : Except ε ℕ) = .ok c ↔ b ≤ a ∧ a - b = c := by
  by_cases h : b ≤ a <;> simp [usub, h]

end Checked

/-! ## Wrapping arithmetic -/

/-- A mathematical result reduced to an unsigned word, as in an unchecked block. -/
def wrapping (z : ℤ) : ℕ := (z % uint256Bound).toNat

theorem uint256Bound_pos : 0 < uint256Bound := by
  simp [uint256Bound]

theorem wrapping_cast (z : ℤ) : (wrapping z : ℤ) = z % uint256Bound :=
  Int.toNat_of_nonneg (Int.emod_nonneg z (Int.natCast_ne_zero.mpr (Nat.ne_of_gt uint256Bound_pos)))

/-- Reducing the operands of a difference does not change the result. -/
theorem wrapping_sub (a b : ℤ) : wrapping (wrapping a - wrapping b) = wrapping (a - b) := by
  rw [wrapping_cast, wrapping_cast]
  unfold wrapping
  rw [← Int.sub_emod]

theorem wrapping_natCast (n : ℕ) : wrapping n = n % uint256Bound := by
  rw [wrapping, ← Int.natCast_emod, Int.toNat_natCast]

theorem wrapping_natCast_le (n : ℕ) : wrapping n ≤ n := by
  rw [wrapping_natCast]
  exact Nat.mod_le n _

end ClaimRush
