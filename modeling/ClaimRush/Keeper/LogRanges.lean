import ClaimRush.Keeper.RpcLogs

/-!
# What the bisection covers

A stack of ranges is answered piece by piece.  A range of two blocks is cut at its
own first block, which the loop takes for a failed single block: a refused pair
stops the scan.
-/

namespace ClaimRush.Keeper.RpcLogs

variable {τ : Type} {chain : RpcLog τ → Prop} {a b : ℕ}

/-! ## Ranges -/

theorem midBlock_pair (a : ℕ) : midBlock a (a + 1) = a := by
  unfold midBlock
  omega

theorem midBlock_eq_iff (hlt : a < b) :
    midBlock a b = a ∨ midBlock a b = b ↔ b = a + 1 := by
  unfold midBlock
  omega

theorem rounds_halves (hlt : a + 1 < b) :
    rounds a (midBlock a b) + rounds (midBlock a b + 1) b < rounds a b := by
  unfold rounds midBlock
  omega

/-- The splits that a bisection down to single blocks needs. -/
def splitsNeeded (p : ℕ → ℕ → Except RpcError (List (RpcLog τ))) (a b : ℕ) : ℕ :=
  if _h : a < b then
    match p a b with
    | .ok _ => 0
    | .error _ => 1 + splitsNeeded p a (midBlock a b) + splitsNeeded p (midBlock a b + 1) b
  else 0
termination_by b - a
decreasing_by
  · unfold midBlock
    omega
  · unfold midBlock
    omega

/-- Every range of the bisection that the provider refuses has more than two blocks. -/
inductive PairsFit (p : ℕ → ℕ → Except RpcError (List (RpcLog τ))) : ℕ → ℕ → Prop
  | fits {a b : ℕ} {logs : List (RpcLog τ)} (h : p a b = .ok logs) : PairsFit p a b
  | halves {a b : ℕ} {e : RpcError} (h : p a b = .error e) (hlt : a + 1 < b)
      (hlower : PairsFit p a (midBlock a b)) (hupper : PairsFit p (midBlock a b + 1) b) :
      PairsFit p a b

/-- The logs of a chain in the blocks `a` to `b`. -/
def InRange (chain : RpcLog τ → Prop) (a b : ℕ) (l : RpcLog τ) : Prop :=
  chain l ∧ a ≤ l.blockNumber ∧ l.blockNumber ≤ b

theorem inRange_halves (hlt : a < b) (l : RpcLog τ) :
    InRange chain a b l ↔
      InRange chain a (midBlock a b) l ∨ InRange chain (midBlock a b + 1) b l := by
  have hmid : a ≤ midBlock a b ∧ midBlock a b < b := by
    unfold midBlock
    omega
  unfold InRange
  constructor
  · rintro ⟨hchain, hlow, hhigh⟩
    rcases Nat.lt_or_ge (midBlock a b) l.blockNumber with habove | hbelow
    · exact .inr ⟨hchain, habove, hhigh⟩
    · exact .inl ⟨hchain, hlow, hbelow⟩
  · rintro (⟨hchain, hlow, hhigh⟩ | ⟨hchain, hlow, hhigh⟩)
    · exact ⟨hchain, hlow, by omega⟩
    · exact ⟨hchain, by omega, hhigh⟩

/-! ## The loop -/

/-- The logs that the ranges of a stack ask for. -/
def Pending (chain : RpcLog τ → Prop) (stack : List (ℕ × ℕ)) (l : RpcLog τ) : Prop :=
  ∃ range ∈ stack, InRange chain range.1 range.2 l

/-- A range is part of the requested one. -/
def Within (lo hi : ℕ) (range : ℕ × ℕ) : Prop := lo ≤ range.1 ∧ range.1 ≤ range.2 ∧ range.2 ≤ hi

theorem within_halves {lo hi : ℕ} {stack : List (ℕ × ℕ)} (hlt : a < b)
    (h : ∀ range ∈ (a, b) :: stack, Within lo hi range) :
    ∀ range ∈ (a, midBlock a b) :: (midBlock a b + 1, b) :: stack, Within lo hi range := by
  obtain ⟨⟨hlow, -, hhigh⟩, hstack⟩ := List.forall_mem_cons.mp h
  dsimp only at hlow hhigh
  have hmid : a ≤ midBlock a b ∧ midBlock a b < b := by
    unfold midBlock
    omega
  refine List.forall_mem_cons.mpr ⟨⟨hlow, hmid.1, by omega⟩, ?_⟩
  exact List.forall_mem_cons.mpr ⟨⟨by omega, hmid.2, hhigh⟩, hstack⟩

/-- A provider whose answers in the range are exact, whatever it refuses and when. -/
def Truthful (chain : RpcLog τ → Prop) (lo hi : ℕ) (query : Provider τ) : Prop :=
  ∀ k a b logs, Within lo hi (a, b) → query k a b = .ok logs →
    ∀ l, l ∈ logs ↔ InRange chain a b l

variable {lo hi : ℕ}

theorem getLogsRange_truthful {query : Provider τ} (h : Truthful chain lo hi query)
    (hwithin : Within lo hi (a, b)) {retries k k' : ℕ} {logs : List (RpcLog τ)}
    (hok : getLogsRange query a b retries k = (.ok logs, k')) (l : RpcLog τ) :
    l ∈ logs ↔ InRange chain a b l := by
  induction retries generalizing k with
  | zero =>
      obtain ⟨hquery, -⟩ := Prod.ext_iff.mp hok
      exact h k a b logs hwithin hquery l
  | succ retries ih =>
      unfold getLogsRange at hok
      split at hok
      · next logs' hquery =>
        obtain ⟨hlogs, -⟩ := Prod.ext_iff.mp hok
        obtain rfl := Except.ok.inj hlogs
        exact h k a b _ hwithin hquery l
      · split at hok
        · exact ih hok
        · obtain ⟨hlogs, -⟩ := Prod.ext_iff.mp hok
          cases hlogs

theorem pending_nil (l : RpcLog τ) : ¬ Pending chain [] l := by
  rintro ⟨_, hmem, -⟩
  cases hmem

theorem pending_cons {stack : List (ℕ × ℕ)} (l : RpcLog τ) :
    Pending chain ((a, b) :: stack) l ↔ InRange chain a b l ∨ Pending chain stack l := by
  simp [Pending]

theorem pending_halves {stack : List (ℕ × ℕ)} (hlt : a < b) (l : RpcLog τ) :
    Pending chain ((a, midBlock a b) :: (midBlock a b + 1, b) :: stack) l ↔
      Pending chain ((a, b) :: stack) l := by
  rw [pending_cons, pending_cons, pending_cons, inRange_halves hlt, or_assoc]

/-- A normal return has exactly the logs of the stack. -/
theorem splitLoop_covers {query : Provider τ} (h : Truthful chain lo hi query)
    {maxSplits retries fuel k splits : ℕ} {stack : List (ℕ × ℕ)} {out : List (RpcLog τ)}
    {r : List (RpcLog τ) × ℕ} (hwithin : ∀ range ∈ stack, Within lo hi range)
    (hok : splitLoop query maxSplits retries fuel k splits stack out = .ok r) (l : RpcLog τ) :
    l ∈ r.1 ↔ l ∈ out ∨ Pending chain stack l := by
  induction fuel generalizing k splits stack out with
  | zero =>
      cases stack with
      | nil =>
          obtain rfl := Except.ok.inj hok
          exact ⟨.inl, fun hl ↦ hl.resolve_right (pending_nil l)⟩
      | cons => cases hok
  | succ fuel ih =>
      cases stack with
      | nil =>
          obtain rfl := Except.ok.inj hok
          exact ⟨.inl, fun hl ↦ hl.resolve_right (pending_nil l)⟩
      | cons range stack =>
          obtain ⟨a, b⟩ := range
          unfold splitLoop at hok
          split at hok
          · next logs k' hquery =>
            obtain ⟨hrange, hstack⟩ := List.forall_mem_cons.mp hwithin
            rw [ih hstack hok, List.mem_append, getLogsRange_truthful h hrange hquery, pending_cons,
              or_assoc]
          · next e k' hquery =>
            split at hok
            · next hsplit =>
              dsimp only at hok
              split at hok
              · cases hok
              split at hok
              · cases hok
              rw [ih (within_halves hsplit.1 hwithin) hok, pending_halves hsplit.1]
            · cases hok

/-! ## A provider that answers a range always alike -/

section Fixed

variable {p : ℕ → ℕ → Except RpcError (List (RpcLog τ))} {maxSplits retries : ℕ}

theorem getLogsRange_fixed (a b retries k : ℕ) :
    ∃ k', getLogsRange (fun _ ↦ p) a b retries k = (p a b, k') := by
  induction retries generalizing k with
  | zero => exact ⟨k + 1, rfl⟩
  | succ retries ih =>
      unfold getLogsRange
      cases hp : p a b with
      | ok logs => exact ⟨k + 1, rfl⟩
      | error e =>
          dsimp only
          split
          · rw [← hp]
            exact ih (k + 1)
          · exact ⟨k + 1, rfl⟩

/-- A provider that refuses a range only as too large, and never a single block. -/
structure Splittable (chain : RpcLog τ → Prop) (lo hi : ℕ)
    (p : ℕ → ℕ → Except RpcError (List (RpcLog τ))) : Prop where
  truthful : Truthful chain lo hi fun _ ↦ p
  refuses : ∀ a b e, Within lo hi (a, b) → p a b = .error e → shouldSplitGetLogsError e
  single : ∀ a, Within lo hi (a, a) → ∃ logs, p a a = .ok logs

theorem splitsNeeded_ok {logs : List (RpcLog τ)} (h : p a b = .ok logs) :
    splitsNeeded p a b = 0 := by
  unfold splitsNeeded
  split
  · rw [h]
  · rfl

theorem splitsNeeded_error {e : RpcError} (hlt : a < b) (h : p a b = .error e) :
    splitsNeeded p a b =
      1 + splitsNeeded p a (midBlock a b) + splitsNeeded p (midBlock a b + 1) b := by
  rw [splitsNeeded, dif_pos hlt, h]

/-- With fitting pairs the loop empties its stack. -/
theorem splitLoop_returns (hp : Splittable chain lo hi p) {fuel k splits : ℕ}
    {stack : List (ℕ × ℕ)} {out : List (RpcLog τ)} (hwithin : ∀ range ∈ stack, Within lo hi range)
    (hfit : ∀ range ∈ stack, PairsFit p range.1 range.2)
    (hfuel : (stack.map fun range ↦ rounds range.1 range.2).sum ≤ fuel)
    (hbudget : splits + (stack.map fun range ↦ splitsNeeded p range.1 range.2).sum ≤ maxSplits) :
    ∃ logs, splitLoop (fun _ ↦ p) maxSplits retries fuel k splits stack out =
      .ok (logs, splits + (stack.map fun range ↦ splitsNeeded p range.1 range.2).sum) := by
  induction fuel generalizing k splits stack out with
  | zero =>
      cases stack with
      | nil => exact ⟨out, rfl⟩
      | cons range stack =>
          simp [rounds] at hfuel
  | succ fuel ih =>
      cases stack with
      | nil => exact ⟨out, rfl⟩
      | cons range stack =>
          obtain ⟨a, b⟩ := range
          obtain ⟨hrange, hstack⟩ := List.forall_mem_cons.mp hwithin
          obtain ⟨hpairs, hrest⟩ := List.forall_mem_cons.mp hfit
          simp only [List.map_cons, List.sum_cons] at hfuel hbudget ⊢
          obtain ⟨k', hquery⟩ := getLogsRange_fixed (p := p) a b retries k
          unfold splitLoop
          rw [hquery]
          cases hpairs with
          | fits hok =>
              rw [hok]
              rw [splitsNeeded_ok hok, Nat.zero_add] at hbudget ⊢
              have hround : 0 < rounds a b := Nat.succ_pos _
              exact ih hstack hrest (by omega) hbudget
          | halves herror hlt hlower hupper =>
              have hlt' : a < b := Nat.lt_of_succ_lt hlt
              have hsplit := hp.refuses _ _ _ hrange herror
              rw [herror]
              rw [splitsNeeded_error hlt' herror] at hbudget ⊢
              have hends : ¬ (midBlock a b = a ∨ midBlock a b = b) := by
                rw [midBlock_eq_iff hlt']
                omega
              dsimp only
              rw [if_pos ⟨hlt', hsplit⟩, if_neg (by omega), if_neg hends]
              have hrounds := rounds_halves hlt
              obtain ⟨logs, hlogs⟩ := @ih k' (splits + 1) _ out (within_halves hlt' hwithin)
                (List.forall_mem_cons.mpr ⟨hlower, List.forall_mem_cons.mpr ⟨hupper, hrest⟩⟩)
                (by simp only [List.map_cons, List.sum_cons] at *; omega)
                (by simp only [List.map_cons, List.sum_cons] at *; omega)
              refine ⟨logs, hlogs.trans ?_⟩
              simp only [List.map_cons, List.sum_cons]
              congr 2
              omega

/-- A normal return found every pair of blocks that it asked for answered. -/
theorem splitLoop_fits {fuel k splits : ℕ} {stack : List (ℕ × ℕ)} {out : List (RpcLog τ)}
    {r : List (RpcLog τ) × ℕ}
    (hok : splitLoop (fun _ ↦ p) maxSplits retries fuel k splits stack out = .ok r) :
    ∀ range ∈ stack, PairsFit p range.1 range.2 := by
  induction fuel generalizing k splits stack out with
  | zero =>
      cases stack with
      | nil => exact fun _ hmem ↦ absurd hmem List.not_mem_nil
      | cons => cases hok
  | succ fuel ih =>
      cases stack with
      | nil => exact fun _ hmem ↦ absurd hmem List.not_mem_nil
      | cons range stack =>
          obtain ⟨a, b⟩ := range
          obtain ⟨k', hquery⟩ := getLogsRange_fixed (p := p) a b retries k
          unfold splitLoop at hok
          rw [hquery] at hok
          refine List.forall_mem_cons.mpr ?_
          cases hp : p a b with
          | ok logs =>
              rw [hp] at hok
              exact ⟨.fits hp, ih hok⟩
          | error e =>
              rw [hp] at hok
              dsimp only at hok
              split at hok
              · next hsplit =>
                split at hok
                · cases hok
                split at hok
                · cases hok
                next hends =>
                obtain ⟨hlower, hrest⟩ := List.forall_mem_cons.mp (ih hok)
                obtain ⟨hupper, hstack⟩ := List.forall_mem_cons.mp hrest
                rw [midBlock_eq_iff hsplit.1] at hends
                exact ⟨.halves hp (by omega) hlower hupper, hstack⟩
              · cases hok

end Fixed

/-! ## Duplicates and order -/

theorem dedupLogs_sublist (seen : List (ℕ × ℕ × String)) (logs : List (RpcLog τ)) :
    (dedupLogs seen logs).Sublist logs := by
  induction logs generalizing seen with
  | nil => exact .refl _
  | cons l logs ih =>
      unfold dedupLogs
      split
      · exact (ih seen).cons l
      · exact (ih _).cons_cons l

theorem dedupLogs_unseen {seen : List (ℕ × ℕ × String)} {logs : List (RpcLog τ)} {l : RpcLog τ}
    (h : l ∈ dedupLogs seen logs) : l.key ∉ seen := by
  induction logs generalizing seen with
  | nil => cases h
  | cons l' logs ih =>
      unfold dedupLogs at h
      split at h
      · exact ih h
      · next hnew =>
        rcases List.mem_cons.mp h with rfl | h
        · exact hnew
        · exact fun hmem ↦ ih h (List.mem_cons_of_mem _ hmem)

theorem dedupLogs_nodup (seen : List (ℕ × ℕ × String)) (logs : List (RpcLog τ)) :
    (dedupLogs seen logs).Nodup := by
  induction logs generalizing seen with
  | nil => exact List.nodup_nil
  | cons l logs ih =>
      unfold dedupLogs
      split
      · exact ih seen
      · exact List.nodup_cons.mpr ⟨fun hmem ↦ dedupLogs_unseen hmem List.mem_cons_self, ih _⟩

theorem mem_dedupLogs {seen : List (ℕ × ℕ × String)} {logs : List (RpcLog τ)} {l : RpcLog τ}
    (hkey : ∀ l' ∈ logs, l'.key = l.key → l' = l) (hl : l ∈ logs) (hseen : l.key ∉ seen) :
    l ∈ dedupLogs seen logs := by
  induction logs generalizing seen with
  | nil => cases hl
  | cons l' logs ih =>
      obtain ⟨hhead, htail⟩ := List.forall_mem_cons.mp hkey
      unfold dedupLogs
      by_cases hsame : l'.key = l.key
      · rw [hhead hsame, if_neg hseen]
        exact List.mem_cons_self
      · have hl' : l ∈ logs := (List.mem_cons.mp hl).resolve_left fun heq ↦ hsame (heq ▸ rfl)
        split
        · exact ih htail hl' hseen
        · refine List.mem_cons_of_mem _ (ih htail hl' ?_)
          rw [List.mem_cons, not_or]
          exact ⟨fun heq ↦ hsame heq.symm, hseen⟩

theorem RpcLog.le_trans' (l l' l'' : RpcLog τ) (h : l.le l') (h' : l'.le l'') : l.le l'' := by
  simp only [RpcLog.le, decide_eq_true_eq] at *
  omega

theorem RpcLog.le_total' (l l' : RpcLog τ) : (l.le l' || l'.le l) = true := by
  simp only [RpcLog.le, Bool.or_eq_true, decide_eq_true_eq]
  omega

/-! ## The whole function -/

/-- A chain has one log at each position. -/
def Distinct (chain : RpcLog τ → Prop) : Prop :=
  ∀ l l', chain l → chain l' → l.blockNumber = l'.blockNumber → l.logIndex = l'.logIndex → l = l'

/-- Each log of the range, once. -/
structure Gathered (chain : RpcLog τ → Prop) (lo hi : ℕ) (out : List (RpcLog τ)) : Prop where
  mem : ∀ l, l ∈ out ↔ InRange chain lo hi l
  nodup : out.Nodup

/-- The loop does not run out of fuel. -/
theorem splitLoop_fueled {query : Provider τ} {maxSplits retries fuel k splits : ℕ}
    {stack : List (ℕ × ℕ)} {out : List (RpcLog τ)}
    (hfuel : (stack.map fun range ↦ rounds range.1 range.2).sum ≤ fuel) :
    splitLoop query maxSplits retries fuel k splits stack out ≠ .error .outOfFuel := by
  induction fuel generalizing k splits stack out with
  | zero =>
      cases stack with
      | nil => exact nofun
      | cons range stack => simp [rounds] at hfuel
  | succ fuel ih =>
      cases stack with
      | nil => exact nofun
      | cons range stack =>
          obtain ⟨a, b⟩ := range
          simp only [List.map_cons, List.sum_cons] at hfuel
          have hround : 0 < rounds a b := Nat.succ_pos _
          unfold splitLoop
          split
          · exact ih (by omega)
          · split
            · next hsplit =>
              dsimp only
              split
              · exact nofun
              split
              · exact nofun
              next hends =>
              rw [midBlock_eq_iff hsplit.1] at hends
              have hrounds := rounds_halves (a := a) (b := b) (by omega)
              refine ih ?_
              simp only [List.map_cons, List.sum_cons]
              omega
            · exact nofun

/-- What the sort and the removal of duplicates make of the logs found. -/
def finish (out : List (RpcLog τ)) (splits : ℕ) : List (RpcLog τ) :=
  let out := if splits > 0 ∧ out.length > 1 then out.mergeSort RpcLog.le else out
  if out.length > 1 then dedupLogs [] out else out

theorem getLogsWithAutoSplit_eq (query : Provider τ) (lo hi maxSplits retries : ℕ) :
    getLogsWithAutoSplit query lo hi maxSplits retries =
      (splitLoop query maxSplits retries (rounds lo hi) 0 0 [(lo, hi)] []).map fun r ↦
        finish r.1 r.2 := by
  unfold getLogsWithAutoSplit
  cases splitLoop query maxSplits retries (rounds lo hi) 0 0 [(lo, hi)] [] <;> rfl

theorem finish_gathered (hdistinct : Distinct chain) {out : List (RpcLog τ)} (splits : ℕ)
    (h : ∀ l, l ∈ out ↔ InRange chain lo hi l) :
    Gathered chain lo hi (finish out splits) := by
  have hsorted : ∀ l, l ∈ (if splits > 0 ∧ out.length > 1 then out.mergeSort RpcLog.le else out) ↔
      InRange chain lo hi l := by
    intro l
    rw [← h l]
    split
    · exact List.mem_mergeSort
    · exact .rfl
  unfold finish
  dsimp only
  generalize (if splits > 0 ∧ out.length > 1 then out.mergeSort RpcLog.le else out) = sorted
    at hsorted ⊢
  split
  · refine ⟨fun l ↦ ⟨fun hl ↦ (hsorted l).mp ((dedupLogs_sublist _ _).subset hl), fun hl ↦ ?_⟩,
      dedupLogs_nodup _ _⟩
    refine mem_dedupLogs (fun l' hl' hkey ↦ ?_) ((hsorted l).mpr hl) List.not_mem_nil
    obtain ⟨hblock, hrest⟩ := Prod.ext_iff.mp hkey
    exact hdistinct l' l ((hsorted l').mp hl').1 hl.1 hblock (Prod.ext_iff.mp hrest).1
  · next hshort =>
    refine ⟨hsorted, ?_⟩
    match sorted, hshort with
    | [], _ => exact List.nodup_nil
    | [l], _ => exact List.nodup_cons.mpr ⟨List.not_mem_nil, List.nodup_nil⟩
    | _ :: _ :: _, hshort => simp at hshort

theorem finish_ordered {out : List (RpcLog τ)} {splits : ℕ} (hsplits : 0 < splits) :
    (finish out splits).Pairwise fun l l' ↦ l.le l' := by
  have hsorted : (if splits > 0 ∧ out.length > 1 then out.mergeSort RpcLog.le else out).Pairwise
      fun l l' ↦ l.le l' := by
    split
    · exact List.pairwise_mergeSort RpcLog.le_trans' RpcLog.le_total' out
    · next hshort =>
      match out, hshort with
      | [], _ => exact .nil
      | [l], _ => exact List.pairwise_singleton _ l
      | _ :: _ :: _, hshort => simp [hsplits] at hshort
  unfold finish
  dsimp only
  generalize (if splits > 0 ∧ out.length > 1 then out.mergeSort RpcLog.le else out) = sorted
    at hsorted ⊢
  split
  · exact hsorted.sublist (dedupLogs_sublist _ _)
  · exact hsorted

/-! ## Which ranges are gathered -/

theorem getLogsWithAutoSplit_fueled (query : Provider τ) (lo hi maxSplits retries : ℕ) :
    getLogsWithAutoSplit query lo hi maxSplits retries ≠ .error .outOfFuel := by
  rw [getLogsWithAutoSplit_eq]
  have hfueled := @splitLoop_fueled τ query maxSplits retries (rounds lo hi) 0 0 [(lo, hi)] []
    (by simp)
  cases hloop : splitLoop query maxSplits retries (rounds lo hi) 0 0 [(lo, hi)] [] with
  | ok r => exact nofun
  | error e => exact fun h ↦ hfueled (by rw [hloop, Except.error.inj h])

theorem getLogsWithAutoSplit_gathered {query : Provider τ} (hdistinct : Distinct chain)
    (hle : lo ≤ hi) (htrue : Truthful chain lo hi query) {maxSplits retries : ℕ}
    {out : List (RpcLog τ)} (hok : getLogsWithAutoSplit query lo hi maxSplits retries = .ok out) :
    Gathered chain lo hi out := by
  rw [getLogsWithAutoSplit_eq] at hok
  cases hloop : splitLoop query maxSplits retries (rounds lo hi) 0 0 [(lo, hi)] [] with
  | error e => rw [hloop] at hok; cases hok
  | ok r =>
      rw [hloop] at hok
      obtain rfl := Except.ok.inj hok
      have hwithin : ∀ range ∈ [(lo, hi)], Within lo hi range :=
        List.forall_mem_singleton.mpr ⟨le_rfl, hle, le_rfl⟩
      refine finish_gathered hdistinct r.2 fun l ↦ ?_
      rw [splitLoop_covers htrue hwithin hloop l, pending_cons]
      have hnone := @pending_nil τ chain l
      simp [hnone]

section Fixed

variable {p : ℕ → ℕ → Except RpcError (List (RpcLog τ))} {maxSplits retries : ℕ}

theorem splitsNeeded_pos {e : RpcError} (hlt : a < b) (h : p a b = .error e) :
    0 < splitsNeeded p a b := by
  rw [splitsNeeded_error hlt h]
  omega

theorem getLogsWithAutoSplit_fits {out : List (RpcLog τ)}
    (hok : getLogsWithAutoSplit (fun _ ↦ p) lo hi maxSplits retries = .ok out) :
    PairsFit p lo hi := by
  rw [getLogsWithAutoSplit_eq] at hok
  cases hloop : splitLoop (fun _ ↦ p) maxSplits retries (rounds lo hi) 0 0 [(lo, hi)] [] with
  | error e => rw [hloop] at hok; cases hok
  | ok r => exact splitLoop_fits hloop (lo, hi) List.mem_cons_self

/-- What the scan promises for a provider: each log once, in order where a query was refused. -/
def Exact (chain : RpcLog τ → Prop) (p : ℕ → ℕ → Except RpcError (List (RpcLog τ)))
    (lo hi maxSplits retries : ℕ) : Prop :=
  ∃ out, getLogsWithAutoSplit (fun _ ↦ p) lo hi maxSplits retries = .ok out ∧
    Gathered chain lo hi out ∧
    ((∃ e, p lo hi = .error e) → out.Pairwise fun l l' ↦ l.le l')

theorem exact_of_fits (hdistinct : Distinct chain) (hle : lo ≤ hi)
    (hp : Splittable chain lo hi p) (hbudget : splitsNeeded p lo hi ≤ maxSplits)
    (hfit : PairsFit p lo hi) : Exact chain p lo hi maxSplits retries := by
  have hwhole : Within lo hi (lo, hi) := ⟨le_rfl, hle, le_rfl⟩
  obtain ⟨logs, hloop⟩ := @splitLoop_returns τ chain lo hi p maxSplits retries hp (rounds lo hi) 0 0
    [(lo, hi)] [] (List.forall_mem_singleton.mpr hwhole) (List.forall_mem_singleton.mpr hfit)
    (by simp) (by simpa using hbudget)
  simp only [List.map_cons, List.map_nil, List.sum_cons, List.sum_nil, Nat.zero_add, Nat.add_zero]
    at hloop
  have hok : getLogsWithAutoSplit (fun _ ↦ p) lo hi maxSplits retries =
      .ok (finish logs (splitsNeeded p lo hi)) := by
    rw [getLogsWithAutoSplit_eq, hloop]
    rfl
  refine ⟨_, hok, getLogsWithAutoSplit_gathered hdistinct hle hp.truthful hok, ?_⟩
  rintro ⟨e, herror⟩
  have hlt : lo < hi := by
    rcases Nat.lt_or_ge lo hi with hlt | hge
    · exact hlt
    · obtain rfl := Nat.le_antisymm hle hge
      obtain ⟨logs, hlogs⟩ := hp.single lo hwhole
      rw [hlogs] at herror
      cases herror
  exact finish_ordered (splitsNeeded_pos hlt herror)

end Fixed

/-- The scan keeps its promise if and only if every refused range that the bisection
reaches has more than two blocks, and what it returns is complete in any case. -/
theorem getLogsWithAutoSplit_exact_iff (hdistinct : Distinct chain) (hle : lo ≤ hi)
    {p : ℕ → ℕ → Except RpcError (List (RpcLog τ))} (hp : Splittable chain lo hi p)
    {maxSplits : ℕ} (retries : ℕ) (hbudget : splitsNeeded p lo hi ≤ maxSplits) :
    (Exact chain p lo hi maxSplits retries ↔ PairsFit p lo hi) ∧
      ∀ query maxSplits retries, Truthful chain lo hi query →
        getLogsWithAutoSplit query lo hi maxSplits retries ≠ .error .outOfFuel ∧
        ∀ out, getLogsWithAutoSplit query lo hi maxSplits retries = .ok out →
          ∀ l, InRange chain lo hi l → l ∈ out := by
  refine ⟨⟨?_, exact_of_fits hdistinct hle hp hbudget⟩, ?_⟩
  · rintro ⟨out, hok, -⟩
    exact getLogsWithAutoSplit_fits hok
  · intro query maxSplits retries htrue
    refine ⟨getLogsWithAutoSplit_fueled query lo hi maxSplits retries, fun out hok l hl ↦ ?_⟩
    exact ((getLogsWithAutoSplit_gathered hdistinct hle htrue hok).mem l).mpr hl

/-! ## A provider with a limit on the range -/

def tooLarge : RpcError := .object none none none none none none (some (.number (-32005))) none none

theorem shouldSplit_tooLarge : shouldSplitGetLogsError tooLarge = true := by
  decide +kernel

/-- A provider that refuses ranges of more than `limit` blocks. -/
def limitedProvider (limit : ℕ) (logs : List (RpcLog τ)) (a b : ℕ) :
    Except RpcError (List (RpcLog τ)) :=
  if b < a + limit then .ok (logs.filter fun l ↦ decide (a ≤ l.blockNumber ∧ l.blockNumber ≤ b))
  else .error tooLarge

theorem limitedProvider_splittable {limit : ℕ} (hlimit : 0 < limit) (logs : List (RpcLog τ))
    (lo hi : ℕ) : Splittable (· ∈ logs) lo hi (limitedProvider limit logs) where
  truthful := by
    intro k a b out _ hout l
    change limitedProvider limit logs a b = .ok out at hout
    unfold limitedProvider at hout
    split at hout
    · obtain rfl := Except.ok.inj hout
      simp [InRange]
    · cases hout
  refuses := by
    intro a b e _ he
    unfold limitedProvider at he
    split at he
    · cases he
    · obtain rfl := Except.error.inj he
      exact shouldSplit_tooLarge
  single := by
    intro a _
    refine ⟨_, if_pos ?_⟩
    omega

theorem limitedProvider_ok {limit : ℕ} (logs : List (RpcLog τ)) (hfit : b < a + limit) :
    ∃ out, limitedProvider limit logs a b = .ok out := ⟨_, if_pos hfit⟩

theorem limitedProvider_error {limit : ℕ} (logs : List (RpcLog τ)) (hwide : a + limit ≤ b) :
    limitedProvider limit logs a b = .error tooLarge := if_neg (by omega)

/-- One block at a time, two blocks in the range. -/
theorem not_getLogsWithAutoSplit_exact :
    ¬ ∀ (chain : RpcLog Unit → Prop) (lo hi : ℕ)
      (p : ℕ → ℕ → Except RpcError (List (RpcLog Unit))) (maxSplits retries : ℕ),
      Distinct chain → lo ≤ hi → Splittable chain lo hi p → splitsNeeded p lo hi ≤ maxSplits →
        Exact chain p lo hi maxSplits retries := by
  intro h
  have hrefused := @limitedProvider_error Unit 0 1 1 [] le_rfl
  obtain ⟨lower, hlower⟩ := @limitedProvider_ok Unit 0 0 1 [] (by decide)
  obtain ⟨upper, hupper⟩ := @limitedProvider_ok Unit 1 1 1 [] (by decide)
  have hsplits : splitsNeeded (limitedProvider 1 ([] : List (RpcLog Unit))) 0 1 = 1 := by
    rw [splitsNeeded_error (by decide) hrefused, midBlock_pair, splitsNeeded_ok hlower,
      splitsNeeded_ok hupper]
  obtain ⟨out, hok, -⟩ := h (· ∈ []) 0 1 (limitedProvider 1 []) 256 5 nofun (by decide)
    (limitedProvider_splittable (by decide) [] 0 1) (by rw [hsplits]; decide)
  cases getLogsWithAutoSplit_fits hok with
  | fits hfit =>
      rw [hrefused] at hfit
      cases hfit
  | halves _ hlt _ _ => exact absurd hlt (by decide)

/-- Four logs in no order, two of which the provider answers twice. -/
def pairLogs : List (RpcLog Unit) :=
  [⟨3, 1, "0xb", ()⟩, ⟨1, 2, "0xa", ()⟩, ⟨3, 0, "0xb", ()⟩, ⟨1, 2, "0xa", ()⟩, ⟨0, 0, "0xc", ()⟩,
    ⟨3, 1, "0xb", ()⟩]

theorem pairLogs_distinct : Distinct (· ∈ pairLogs) := by
  have hpairs : ∀ l ∈ pairLogs, ∀ l' ∈ pairLogs,
      l.blockNumber = l'.blockNumber → l.logIndex = l'.logIndex → l = l' := by simp [pairLogs]
  exact fun l l' hl hl' ↦ hpairs l hl l' hl'

/-- Two blocks at a time, four blocks in the range. -/
theorem getLogsWithAutoSplit_exact_iff_pairs :
    Exact (· ∈ pairLogs) (limitedProvider 2 pairLogs) 0 3 256 5 := by
  have hrefused := @limitedProvider_error Unit 0 3 2 pairLogs (by decide)
  obtain ⟨lower, hlower⟩ := @limitedProvider_ok Unit 0 1 2 pairLogs (by decide)
  obtain ⟨upper, hupper⟩ := @limitedProvider_ok Unit 2 3 2 pairLogs (by decide)
  have hsplits : splitsNeeded (limitedProvider 2 pairLogs) 0 3 = 1 := by
    rw [splitsNeeded_error (by decide) hrefused]
    change 1 + splitsNeeded _ 0 1 + splitsNeeded _ 2 3 = 1
    rw [splitsNeeded_ok hlower, splitsNeeded_ok hupper]
  exact (@getLogsWithAutoSplit_exact_iff Unit (· ∈ pairLogs) 0 3 pairLogs_distinct (by decide) _
    (limitedProvider_splittable (by decide) pairLogs 0 3) 256 5 (by rw [hsplits]; decide)).1.mpr
    (.halves hrefused (by decide) (.fits hlower) (.fits hupper))

end ClaimRush.Keeper.RpcLogs
