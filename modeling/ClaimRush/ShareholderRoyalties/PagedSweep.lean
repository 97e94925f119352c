import ClaimRush.ShareholderRoyalties.WatermarkRuns

/-!
# Sweeps in pages

A page of a sweep raises the watermark to the least end that it observes itself.
The pages together leave the largest of these values, so a sweep is safe exactly
when every page that raises sees an end as early as any.
-/

namespace ClaimRush.ShareholderRoyalties

open Constants VeClaimNFT RoyaltiesState

/-- One call of `recomputeGlobalWatermark`. -/
structure Page where
  call : Call
  candidates : List Address
  exhaustive : Bool

/-- The owner calls with at most as many candidates as a page may have. -/
def Page.Allowed (page : Page) (w : Worlds) : Prop :=
  page.call.sender = w.royalties.owner ∧
    page.candidates.length ≤ MAX_WATERMARK_RECOMPUTE_CANDIDATES

/-- The page raises the watermark to at most `e`, if at all: it observes an end up
to `e`, or it observes none and does not claim to be exhaustive. -/
def Page.RaisesAtMost (page : Page) (s : VeState) (e : ℕ) : Prop :=
  (∃ u ∈ page.candidates, u ≠ 0 ∧ computeUserObservedMin s u ≤ e) ∨
    (page.exhaustive = false ∧
      ∀ u ∈ page.candidates, u ≠ 0 → computeUserObservedMin s u = UINT40_MAX) ∨
    UINT40_MAX ≤ e

/-- The page raises the watermark at most to the end of any decaying lock. -/
def Page.Covers (page : Page) (s : VeState) : Prop :=
  ∀ id, s.IsLive id → (s.locks id).autoMax = false → (s.locks id).amount ≠ 0 →
    page.RaisesAtMost s (s.locks id).lockEnd

/-- The worlds after each call of a sweep, with the one before it. -/
def sweep : Worlds → List Page → Except Error (List Worlds)
  | w, [] => .ok [w]
  | w, page :: pages => do
      let next ← recomputeGlobalWatermark page.call w page.candidates page.exhaustive
      let rest ← sweep next pages
      return w :: rest

/-- The result of the loop over the candidates. -/
structure Observes (s : VeState) (us : List Address) (m : ℕ) (found : Bool)
    (result : RoyaltiesState × ℕ × Bool) : Prop where
  concrete : result.2.2 = true ↔
    found = true ∨ ∃ u ∈ us, u ≠ 0 ∧ computeUserObservedMin s u ≠ UINT40_MAX
  least : ∀ e, result.2.1 ≤ e ↔ m ≤ e ∨
    ∃ u ∈ us, u ≠ 0 ∧ computeUserObservedMin s u ≠ UINT40_MAX ∧ computeUserObservedMin s u ≤ e

theorem refreshCandidates_observes (s : VeState) (us : List Address) (r : RoyaltiesState) (m : ℕ)
    (found : Bool) : Observes s us m found (refreshCandidates s us r m found) := by
  induction us generalizing r m found with
  | nil => exact ⟨by simp [refreshCandidates], by simp [refreshCandidates]⟩
  | cons u us ih =>
      unfold refreshCandidates
      by_cases huser : u = 0
      · rw [if_pos huser]
        obtain ⟨hconcrete, hleast⟩ := ih r m found
        exact ⟨hconcrete.trans (by simp [huser]), fun e ↦ (hleast e).trans (by simp [huser])⟩
      · rw [if_neg huser]
        have hobserved : (refreshUserObservedMin s u r).userObservedMinNonAutoMaxLockEnd u =
            computeUserObservedMin s u := Function.update_self _ _ _
        have hne := computeUserObservedMin_ne_zero s u
        dsimp only
        rw [hobserved]
        by_cases hmax : computeUserObservedMin s u = UINT40_MAX
        · rw [if_neg fun h ↦ h.2 hmax]
          obtain ⟨hconcrete, hleast⟩ := ih (refreshUserObservedMin s u r) m found
          exact ⟨hconcrete.trans (by simp [huser, hmax]), fun e ↦ (hleast e).trans
            (by simp [huser, hmax])⟩
        · rw [if_pos ⟨hne, hmax⟩]
          obtain ⟨hconcrete, hleast⟩ := ih (refreshUserObservedMin s u r)
            (if computeUserObservedMin s u < m then computeUserObservedMin s u else m) true
          refine ⟨hconcrete.trans (by simp [huser, hmax]), fun e ↦ (hleast e).trans ?_⟩
          have hmin :
              (if computeUserObservedMin s u < m then computeUserObservedMin s u else m) ≤ e ↔
              m ≤ e ∨ computeUserObservedMin s u ≤ e := by
            split_ifs <;> omega
          rw [hmin]
          simp [huser, hmax, or_assoc]

theorem refreshCandidates_owner (s : VeState) (us : List Address) (r : RoyaltiesState) (m : ℕ)
    (found : Bool) : (refreshCandidates s us r m found).1.owner = r.owner := by
  induction us generalizing r m found with
  | nil => rfl
  | cons u us ih =>
      unfold refreshCandidates
      dsimp only
      split_ifs
      all_goals exact ih _ _ _

/-- The storage after a page. -/
def Page.recomputed (page : Page) (w : Worlds) : RoyaltiesState :=
  let result := refreshCandidates w.ve page.candidates w.royalties UINT40_MAX false
  let current := result.1.oldestObservedNonAutoMaxLockEnd
  if result.2.2 then
    if result.2.1 > current then setWatermark result.2.1 result.1 else result.1
  else if page.exhaustive ∧ current ≠ UINT40_MAX then setWatermark UINT40_MAX result.1
  else result.1

theorem recomputeGlobalWatermark_eq {page : Page} {w : Worlds} (h : page.Allowed w) :
    recomputeGlobalWatermark page.call w page.candidates page.exhaustive =
      .ok { w with royalties := page.recomputed w } := by
  obtain ⟨hsender, hlength⟩ := h
  unfold recomputeGlobalWatermark requireOwner Page.recomputed
  simp only [revertIf, hsender, ne_eq, not_true_eq_false, if_false, not_lt.mpr hlength]
  generalize refreshCandidates w.ve page.candidates w.royalties UINT40_MAX false = result
  obtain ⟨r, minObserved, anyConcrete⟩ := result
  cases anyConcrete <;> rfl

theorem Page.recomputed_owner (page : Page) (w : Worlds) :
    (page.recomputed w).owner = w.royalties.owner := by
  have howner := refreshCandidates_owner w.ve page.candidates w.royalties UINT40_MAX false
  unfold Page.recomputed
  dsimp only
  split_ifs <;> exact howner

/-- From a watermark up to `e` the new one is at most `e` exactly when the page
raises it at most that far. -/
theorem Page.recomputed_le_iff (page : Page) {w : Worlds} {e : ℕ}
    (hle : w.royalties.oldestObservedNonAutoMaxLockEnd ≤ e) :
    (page.recomputed w).oldestObservedNonAutoMaxLockEnd ≤ e ↔ page.RaisesAtMost w.ve e := by
  have hkeeps := (refreshCandidates_bounds w.ve page.candidates w.royalties UINT40_MAX false).1
  obtain ⟨hconcrete, hleast⟩ :=
    refreshCandidates_observes w.ve page.candidates w.royalties UINT40_MAX false
  have hspec := hleast e
  rw [← hkeeps] at hle
  unfold Page.recomputed Page.RaisesAtMost
  generalize refreshCandidates w.ve page.candidates w.royalties UINT40_MAX false = result at *
  obtain ⟨r, minObserved, anyConcrete⟩ := result
  dsimp only at hconcrete hspec hle ⊢
  by_cases hfound : ∃ u ∈ page.candidates, u ≠ 0 ∧ computeUserObservedMin w.ve u ≠ UINT40_MAX
  · rw [if_pos (hconcrete.mpr (.inr hfound))]
    have hraise : (if minObserved > r.oldestObservedNonAutoMaxLockEnd then
        setWatermark minObserved r else r).oldestObservedNonAutoMaxLockEnd ≤ e ↔
        minObserved ≤ e := by
      split_ifs with hset
      · rfl
      · exact ⟨fun _ ↦ (not_lt.mp hset).trans hle, fun _ ↦ hle⟩
    rw [hraise, hspec]
    constructor
    · rintro (hmax | ⟨u, hu, hne, -, hlow⟩)
      · exact .inr (.inr hmax)
      · exact .inl ⟨u, hu, hne, hlow⟩
    · rintro (⟨u, hu, hne, hlow⟩ | ⟨-, hnone⟩ | hmax)
      · by_cases hmax : computeUserObservedMin w.ve u = UINT40_MAX
        · exact .inl (hmax ▸ hlow)
        · exact .inr ⟨u, hu, hne, hmax, hlow⟩
      · obtain ⟨u, hu, hne, hmin⟩ := hfound
        exact absurd (hnone u hu hne) hmin
      · exact .inl hmax
  · have hnone (u : Address) (hu : u ∈ page.candidates) (hne : u ≠ 0) :
        computeUserObservedMin w.ve u = UINT40_MAX := by
      by_contra hmin
      exact hfound ⟨u, hu, hne, hmin⟩
    have hspare : (∃ u ∈ page.candidates, u ≠ 0 ∧ computeUserObservedMin w.ve u ≤ e) →
        UINT40_MAX ≤ e := by
      rintro ⟨u, hu, hne, hlow⟩
      exact hnone u hu hne ▸ hlow
    have hquiet : ¬ anyConcrete = true := fun h ↦ hfound ((hconcrete.mp h).resolve_left (by simp))
    rw [if_neg hquiet]
    by_cases hexhaustive : page.exhaustive = true
    · have hraise : (if page.exhaustive = true ∧ r.oldestObservedNonAutoMaxLockEnd ≠ UINT40_MAX then
          setWatermark UINT40_MAX r else r).oldestObservedNonAutoMaxLockEnd = UINT40_MAX := by
        split_ifs with hset
        · rfl
        · by_contra hne
          exact hset ⟨hexhaustive, hne⟩
      rw [hraise]
      refine ⟨fun hmax ↦ .inr (.inr hmax), ?_⟩
      rintro (hlow | ⟨hclear, -⟩ | hmax)
      · exact hspare hlow
      · rw [hexhaustive] at hclear
        cases hclear
      · exact hmax
    · rw [if_neg fun h ↦ hexhaustive h.1]
      exact ⟨fun _ ↦ .inr (.inl ⟨by simpa using hexhaustive, hnone⟩), fun _ ↦ hle⟩

/-- A sweep over pages, in any order, is safe after every page exactly when the
watermark was sound before it and every page covers the decaying locks. -/
theorem sweep_sound_iff {w : Worlds} {pages : List Page} (hpages : ∀ page ∈ pages, page.Allowed w) :
    ∃ ws, sweep w pages = .ok ws ∧ ((∀ w' ∈ ws, WatermarkSound w') ↔
      WatermarkSound w ∧ ∀ page ∈ pages, page.Covers w.ve) := by
  induction pages generalizing w with
  | nil => exact ⟨[w], rfl, by simp⟩
  | cons page pages ih =>
      obtain ⟨hpage, hrest⟩ := List.forall_mem_cons.mp hpages
      obtain ⟨ws, hsweep, hsound⟩ := ih (w := { w with royalties := page.recomputed w })
        fun later hlater ↦ ⟨(hrest later hlater).1.trans (page.recomputed_owner w).symm,
          (hrest later hlater).2⟩
      refine ⟨w :: ws, ?_, ?_⟩
      · unfold sweep
        rw [recomputeGlobalWatermark_eq hpage]
        exact congrArg (· >>= fun rest ↦ Except.ok (w :: rest)) hsweep
      · have hnext (hw : WatermarkSound w) :
            WatermarkSound { w with royalties := page.recomputed w } ↔ page.Covers w.ve :=
          forall_congr' fun id ↦ imp_congr_right fun hlive ↦ imp_congr_right fun hdecays ↦
            forall_congr' fun hamount ↦ page.recomputed_le_iff (hw id hlive hdecays hamount)
        rw [List.forall_mem_cons, List.forall_mem_cons, hsound]
        constructor
        · rintro ⟨hw, hw', hcovers⟩
          exact ⟨hw, (hnext hw).mp hw', hcovers⟩
        · rintro ⟨hw, hcovers, hall⟩
          exact ⟨hw, (hnext hw).mpr hcovers, hall⟩

/-! ## Two holders on two pages -/

/-- User 7 locks for a week and user 8 for two. -/
def twoHolders : List (Call × Op) :=
  lockedBundle (1500 * 10 ^ 18) 604800 false ++
    [(wiredCall 100 3, .unguarded (.lock (.createLockFor 8 (1500 * 10 ^ 18) 1209600 false)))]

/-- One page for each holder. -/
def twoPages : List Page :=
  [⟨wiredCall 200 9, [7], false⟩, ⟨wiredCall 200 9, [8], false⟩]

/-- The holders are users 7 and 8, each with one lock, and the watermark has
passed the end of the lock of user 7. -/
def Overshot (w w' : Worlds) : Prop :=
  w.ve.owners 0 = 0 ∧ w.ve.owners 1 = 7 ∧ w.ve.owners 2 = 8 ∧ w.ve.nextTokenId = 3 ∧
    w.royalties.owner = 9 ∧ (w'.ve.owners 1 = 7 ∧ (w'.ve.locks 1).autoMax = false ∧
      (w'.ve.locks 1).amount ≠ 0 ∧
      (w'.ve.locks 1).lockEnd < w'.royalties.oldestObservedNonAutoMaxLockEnd)
  deriving Decidable

/-- The run is one of the watched system. -/
theorem twoHolders_watched {w : Worlds} (hrun : run twoHolders deployed = .ok w) :
    ∃ c : Config, system.Reachable c ∧ c.world = w ∧ WatermarkSound w ∧
      ∀ id, w.ve.IsLive id → id < w.ve.nextTokenId := by
  have hsorted : ((1 : ℕ) :: twoHolders.map fun c ↦ c.1.timestamp).IsChain (· ≤ ·) := by decide
  have hwatched := watched_reachable (watched_run
    (.init ⟨wiredCall 0 9, rfl, ⟨1, 2, 9, rfl⟩, 5, 9, 0, rfl⟩) hrun (fun c hc w ↦ by
      simp only [twoHolders, lockedBundle, List.cons_append, List.nil_append, List.mem_cons,
        List.not_mem_nil, or_false] at hc
      rcases hc with rfl | rfl | rfl | rfl | rfl <;> trivial) hsorted)
  refine ⟨_, reachable_run deployed_reachable hrun hsorted, rfl,
    fun id hlive hdecays _ ↦ hwatched.below id hlive hdecays, fun id hlive ↦ ?_⟩
  by_contra hge
  exact hlive (hwatched.sound.accounted.fresh id (not_lt.mp hge))

/-- A sweep of the two holders in two pages takes a sound watermark past the end
of the earlier lock. -/
theorem not_sweep_sound : ∃ c : Config, system.Reachable c ∧ WatermarkSound c.world ∧
    (∀ u, (∃ id, c.world.ve.IsLive id ∧ c.world.ve.owners id = u) ↔
      u ∈ twoPages.flatMap Page.candidates) ∧
    (∀ page ∈ twoPages, page.Allowed c.world) ∧
    ∃ ws w', sweep c.world twoPages = .ok ws ∧ w' ∈ ws ∧ ¬ WatermarkSound w' := by
  have hok : ((run twoHolders deployed).toOption.any fun w ↦
      ((sweep w twoPages).toOption.any fun ws ↦
        decide (ws ≠ []) && decide (Overshot w (ws.getLastD w)))) = true := by
    decide +kernel
  cases hrun : run twoHolders deployed with
  | error e =>
      rw [hrun] at hok
      cases hok
  | ok w =>
      rw [hrun] at hok
      simp only [Except.toOption, Option.any_some] at hok
      cases hsweep : sweep w twoPages with
      | error e =>
          rw [hsweep] at hok
          cases hok
      | ok ws =>
          rw [hsweep] at hok
          simp only [Option.any_some, Bool.and_eq_true, decide_eq_true_eq] at hok
          obtain ⟨hne, hzero, hfirst, hsecond, hnext, howner, hlive, hdecays, hamount, hpast⟩ := hok
          obtain ⟨c, hc, rfl, hsound, hused⟩ := twoHolders_watched hrun
          refine ⟨c, hc, hsound, fun u ↦ ?_, ?_, ws, ws.getLastD c.world, hsweep, ?_, ?_⟩
          · constructor
            · rintro ⟨id, hid, rfl⟩
              have hlt := hused id hid
              have hid' : id = 0 ∨ id = 1 ∨ id = 2 := by omega
              rcases hid' with rfl | rfl | rfl
              · exact absurd hzero hid
              · simp [twoPages, hfirst]
              · simp [twoPages, hsecond]
            · intro hu
              simp only [twoPages, List.flatMap_cons, List.flatMap_nil, List.mem_append,
                List.mem_singleton, List.not_mem_nil, or_false] at hu
              rcases hu with rfl | rfl
              · exact ⟨1, by simp [VeState.IsLive, hfirst], hfirst⟩
              · exact ⟨2, by simp [VeState.IsLive, hsecond], hsecond⟩
          · intro page hpage
            have hsize : 1 ≤ MAX_WATERMARK_RECOMPUTE_CANDIDATES := by
              simp [MAX_WATERMARK_RECOMPUTE_CANDIDATES]
            simp only [twoPages, List.mem_cons, List.not_mem_nil, or_false] at hpage
            rcases hpage with rfl | rfl
            · exact ⟨howner.symm, hsize⟩
            · exact ⟨howner.symm, hsize⟩
          · rw [List.getLastD_eq_getLast?, List.getLast?_eq_some_getLast hne]
            exact List.getLast_mem hne
          · intro hsound
            have hlive' : (ws.getLastD c.world).ve.IsLive 1 := by
              unfold VeState.IsLive
              rw [hlive]
              exact Nat.succ_ne_zero 6
            have hle := hsound 1 hlive' hdecays hamount
            omega

/-- One page for both holders. -/
def bothHolders : Page := ⟨wiredCall 200 9, [7, 8], false⟩

/-- Both locks decay, and the page sees an end as early as either. -/
def HoldsTwo (w : Worlds) : Prop :=
  (w.ve.owners 0 = 0 ∧ w.ve.nextTokenId = 3 ∧ w.royalties.owner = 9) ∧
    ∀ id ∈ [1, 2], w.ve.owners id ≠ 0 ∧ (w.ve.locks id).autoMax = false ∧
      (w.ve.locks id).amount ≠ 0 ∧ computeUserObservedMin w.ve 7 ≤ (w.ve.locks id).lockEnd
  deriving Decidable

theorem sweep_sound_iff_onePage : ∃ c : Config, system.Reachable c ∧ HoldsTwo c.world ∧
    ∃ ws, sweep c.world [bothHolders] = .ok ws ∧ ∀ w' ∈ ws, WatermarkSound w' := by
  have hok : (run twoHolders deployed).toOption.any (fun w ↦ decide (HoldsTwo w)) = true := by
    decide +kernel
  obtain ⟨w, hrun, hheld⟩ := exists_ok_of_any hok
  have hheld := of_decide_eq_true hheld
  obtain ⟨c, hc, rfl, hsound, hused⟩ := twoHolders_watched hrun
  obtain ⟨⟨hzero, hnext, howner⟩, hlocks⟩ := hheld
  have hallowed : ∀ page ∈ [bothHolders], page.Allowed c.world := by
    intro page hpage
    rw [List.mem_singleton.mp hpage]
    exact ⟨howner.symm, by simp [bothHolders, MAX_WATERMARK_RECOMPUTE_CANDIDATES]⟩
  obtain ⟨ws, hsweep, hiff⟩ := sweep_sound_iff hallowed
  refine ⟨c, hc, ⟨⟨hzero, hnext, howner⟩, hlocks⟩, ws, hsweep, hiff.mpr ⟨hsound, ?_⟩⟩
  intro page hpage id hlive _ _
  rw [List.mem_singleton.mp hpage]
  have hlt := hused id hlive
  have hid : id ∈ [1, 2] := by
    have hne : id ≠ 0 := fun h ↦ hlive (h ▸ hzero)
    simp only [List.mem_cons, List.not_mem_nil, or_false]
    omega
  exact .inl ⟨7, by simp [bothHolders], by simp, (hlocks id hid).2.2.2⟩

end ClaimRush.ShareholderRoyalties
