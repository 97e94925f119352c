import ClaimRush.Keeper.CompoundShareholders

/-!
# Deferred users of a tick

The queue of the deferred users is drained when candidates are taken up.  A user who
was taken up joins it again, unless the batch was full before the user's turn or the
batch transaction was not sent through.
-/

namespace ClaimRush.Keeper.CompoundShareholders

variable {config : CompoundConfig} {t : Tick} {s : CompoundState} {u v : User}

/-! ## What a tick owes a deferred user -/

/-- The configuration keeps the user out of the batch. -/
def Refused (config : CompoundConfig) (nowTs : ℕ) (cfg : AutoCompoundConfig) (anchor : Option ℕ)
    (u : User) : Prop :=
  (cfg.enabled = false ∨ cfg.paused = true) ∨ dueAt config nowTs cfg anchor u = false

/-- The rewards or the lock keep the user out of the batch. -/
def Unfit (t : Tick) (nowTs minEth : ℕ) : Option ℕ × Option LockInfo → Prop
  | (some claimable, some lock) =>
      (claimable = 0 ∨ claimable < effectiveMinEth t minEth) ∨ lock.amount = 0 ∨
        lock.listed = true ∨ lock.lockEnd ≤ nowTs
  | _ => False

/-- The reads of the tick show that the user is not eligible. -/
inductive NotEligible (config : CompoundConfig) (t : Tick) (s : CompoundState) (u : User) : Prop
  | refused {nowTs : ℕ} {configs : User → Option AutoCompoundConfig} {cfg : AutoCompoundConfig}
      (hts : t.timestamp = some nowTs) (hconfigs : t.configs = some configs)
      (hcfg : configs u = some cfg) (h : Refused config nowTs cfg (s.firstSeenSec u) u)
  | unfit {nowTs : ℕ} {configs : User → Option AutoCompoundConfig} {cfg : AutoCompoundConfig}
      {reads : User → Option ℕ × Option LockInfo}
      (hts : t.timestamp = some nowTs) (hconfigs : t.configs = some configs)
      (hcfg : configs u = some cfg) (hstates : t.states = some reads)
      (h : Unfit t nowTs cfg.minEthToCompound (reads u))

/-- What may have become of a deferred user at the end of a tick. -/
inductive Accounted (config : CompoundConfig) (t : Tick) (s : CompoundState) (u : User) : Prop
  | deferred (h : u ∈ (runCompoundShareholders config t s).state.pendingDeferredUsers)
  | unlisted (h : u ∉ (runCompoundShareholders config t s).state.users)
  | notEligible (h : NotEligible config t s u)
  | failed (hset : ((runCompoundShareholders config t s).state.failures u).isSome)
      (hnew : (runCompoundShareholders config t s).state.failures u ≠ s.failures u)
  | confirmed (h : u ∈ (runCompoundShareholders config t s).confirmed)

instance (config : CompoundConfig) (nowTs : ℕ) (cfg : AutoCompoundConfig) (anchor : Option ℕ)
    (u : User) : Decidable (Refused config nowTs cfg anchor u) :=
  inferInstanceAs (Decidable (_ ∨ _))

/-- What the second read is needed for. -/
def needOf (config : CompoundConfig) (nowTs : ℕ) (configs : User → Option AutoCompoundConfig)
    (firstSeenSec : User → Option ℕ) (u : User) : Option (User × ℕ) :=
  match configs u with
  | none => none
  | some cfg =>
      if Refused config nowTs cfg (firstSeenSec u) u then none else some (u, cfg.minEthToCompound)

/-- The second read finds rewards and a lock that are fit. -/
def fits (t : Tick) (nowTs : ℕ) (reads : User → Option ℕ × Option LockInfo) (need : User × ℕ) :
    Bool :=
  match reads need.1 with
  | (some claimable, some lock) => decide (¬ ((claimable = 0 ∨
      claimable < effectiveMinEth t need.2) ∨ lock.amount = 0 ∨ lock.listed = true ∨
        lock.lockEnd ≤ nowTs))
  | _ => false

/-- How many of the users both reads let pass. -/
def acceptedCount (config : CompoundConfig) (t : Tick) (nowTs : ℕ)
    (configs : User → Option AutoCompoundConfig) (reads : User → Option ℕ × Option LockInfo)
    (s : CompoundState) (users : List User) : ℕ :=
  (users.filterMap (needOf config nowTs configs s.firstSeenSec)).countP (fits t nowTs reads)

/-! ## The queue -/

section Queue

variable {listed avail : User → Bool} {lookahead : ℕ} {candidates queue : List User}

/-- What the loop over a queue makes of it. -/
structure Drained (listed : User → Bool) (candidates queue : List User)
    (r : List User × List User) : Prop where
  cover : ∀ u ∈ queue, u ∈ r.2 ∨ listed u = false ∨ u ∈ r.1
  source : ∀ u ∈ r.1, u ∈ candidates ∨ u ∈ queue ∧ listed u = true
  sub : candidates ⊆ r.1
  nodup : candidates.Nodup → r.1.Nodup

theorem nodup_snoc {l : List User} (h : l.Nodup) (hu : u ∉ l) : (l ++ [u]).Nodup := by
  rw [List.nodup_append]
  refine ⟨h, List.nodup_singleton u, fun a ha b hb hab ↦ hu ?_⟩
  rw [← List.mem_singleton.mp hb, ← hab]
  exact ha

theorem drainDeferred_spec (candidates queue : List User) :
    Drained listed candidates queue (drainDeferred listed avail lookahead candidates queue) := by
  induction queue generalizing candidates with
  | nil => exact ⟨nofun, fun u hu ↦ .inl hu, List.Subset.refl _, id⟩
  | cons user queue ih =>
      unfold drainDeferred
      split_ifs with hkept hskip
      · obtain ⟨hcover, hsource, hsub, hnodup⟩ := ih candidates
        refine ⟨fun u hu ↦ ?_, fun u hu ↦ ?_, hsub, hnodup⟩
        · rcases List.mem_cons.mp hu with rfl | hu
          · exact .inl List.mem_cons_self
          · exact (hcover u hu).imp_left (List.mem_cons_of_mem _)
        · exact (hsource u hu).imp_right fun h ↦ ⟨List.mem_cons_of_mem _ h.1, h.2⟩
      · obtain ⟨hcover, hsource, hsub, hnodup⟩ := ih candidates
        refine ⟨fun u hu ↦ ?_, fun u hu ↦ ?_, hsub, hnodup⟩
        · rcases List.mem_cons.mp hu with rfl | hu
          · exact .inr (hskip.imp (by simp) fun h ↦ hsub h)
          · exact hcover u hu
        · exact (hsource u hu).imp_right fun h ↦ ⟨List.mem_cons_of_mem _ h.1, h.2⟩
      · obtain ⟨hcover, hsource, hsub, hnodup⟩ := ih (candidates ++ [user])
        obtain ⟨hlisted, hnew⟩ := not_or.mp hskip
        refine ⟨fun u hu ↦ ?_, fun u hu ↦ ?_, fun u hu ↦ hsub (List.mem_append_left _ hu),
          fun h ↦ hnodup (nodup_snoc h hnew)⟩
        · rcases List.mem_cons.mp hu with rfl | hu
          · exact .inr (.inr (hsub (by simp)))
          · exact hcover u hu
        · rcases hsource u hu with hu | ⟨hu, hl⟩
          · rcases List.mem_append.mp hu with hu | hu
            · exact .inl hu
            · rw [List.mem_singleton.mp hu]
              exact .inr ⟨List.mem_cons_self, by simpa using hlisted⟩
          · exact .inr ⟨List.mem_cons_of_mem _ hu, hl⟩

/-- The round-robin only appends new candidates. -/
theorem roundRobin_spec (users : List User) (rounds cursor : ℕ) (candidates : List User) :
    ∃ more, (roundRobin users avail lookahead rounds cursor candidates).2 = candidates ++ more ∧
      (candidates.Nodup → (candidates ++ more).Nodup) := by
  induction rounds generalizing cursor candidates with
  | zero => exact ⟨[], by simp [roundRobin], by simp⟩
  | succ rounds ih =>
      unfold roundRobin
      by_cases hstop : lookahead ≤ candidates.length ∨ users = []
      · rw [if_pos hstop]
        exact ⟨[], by simp, by simp⟩
      · rw [if_neg hstop]
        dsimp only
        generalize (if users.length ≤ cursor then 0 else cursor) = place
        by_cases hskip : users.getD place "" ∈ candidates ∨ ¬ avail (users.getD place "")
        · rw [if_pos hskip]
          exact ih _ candidates
        · rw [if_neg hskip]
          obtain ⟨hnew, -⟩ := not_or.mp hskip
          obtain ⟨more, heq, hnodup⟩ := ih ((place + 1) % users.length)
            (candidates ++ [users.getD place ""])
          refine ⟨_ :: more, by rw [heq, List.append_assoc]; rfl, fun h ↦ ?_⟩
          have hnodup := hnodup (nodup_snoc h hnew)
          rwa [List.append_assoc] at hnodup

end Queue

/-! ## The first read -/

section Examine

variable {nowTs : ℕ} {configs : User → Option AutoCompoundConfig}

theorem removeUser_sub (users : List User) (cursor : ℕ) (hu : u ∈ (removeUser users cursor v).1) :
    u ∈ users := by
  unfold removeUser at hu
  dsimp only at hu
  split at hu
  · exact hu
  · exact List.mem_of_mem_eraseIdx hu

theorem removeUser_other (users : List User) (cursor : ℕ) (hne : u ≠ v) (hu : u ∈ users) :
    u ∈ (removeUser users cursor v).1 := by
  unfold removeUser
  dsimp only
  split
  · exact hu
  · next hidx =>
    have hlt : users.findIdx (· = v) < users.length :=
      Nat.lt_of_le_of_ne List.findIdx_le_length hidx
    dsimp only
    rw [List.mem_eraseIdx_iff_getElem]
    obtain ⟨i, hi, rfl⟩ := List.mem_iff_getElem.mp hu
    refine ⟨i, hi, fun heq ↦ hne ?_, rfl⟩
    have hfound := List.findIdx_getElem (w := hlt)
    subst heq
    simpa using hfound

/-- A step that leaves what the state knows of a user. -/
structure Frame (u : User) (s s' : CompoundState) : Prop where
  failures : s'.failures u = s.failures u
  firstSeen : s'.firstSeenSec u = s.firstSeenSec u
  listed : u ∈ s.users → u ∈ s'.users

/-- A step that adds no user and leaves the queue. -/
structure Within (s s' : CompoundState) : Prop where
  users : s'.users ⊆ s.users
  deferred : s'.pendingDeferredUsers = s.pendingDeferredUsers

theorem Frame.refl (u : User) (s : CompoundState) : Frame u s s := ⟨rfl, rfl, id⟩

theorem Frame.trans {s' s'' : CompoundState} (h : Frame u s s') (h' : Frame u s' s'') :
    Frame u s s'' :=
  ⟨h'.failures.trans h.failures, h'.firstSeen.trans h.firstSeen, h'.listed ∘ h.listed⟩

theorem Within.refl (s : CompoundState) : Within s s := ⟨List.Subset.refl _, rfl⟩

theorem Within.trans {s' s'' : CompoundState} (h : Within s s') (h' : Within s' s'') :
    Within s s'' := ⟨List.Subset.trans h'.users h.users, h'.deferred.trans h.deferred⟩

theorem markFailure_frame (hne : u ≠ v) (now : ℕ) (err : String) :
    Frame u s (markFailure now v err s) := ⟨Function.update_of_ne hne _ _, rfl, id⟩

theorem markFailure_within (now : ℕ) (err : String) : Within s (markFailure now v err s) :=
  ⟨List.Subset.refl _, rfl⟩

/-- A failure that is marked now is a new record. -/
theorem markFailure_set (now : ℕ) (err : String) :
    ((markFailure now u err s).failures u).isSome ∧
      (markFailure now u err s).failures u ≠ s.failures u := by
  unfold markFailure
  dsimp only
  rw [Function.update_self]
  refine ⟨rfl, fun heq ↦ ?_⟩
  rw [← heq] at heq
  have hcount := congrArg FailureRecord.count (Option.some.inj heq)
  simp at hcount

theorem anchored_frame (hne : u ≠ v) (cfg : AutoCompoundConfig) :
    Frame u s (anchored config nowTs cfg v s) := by
  unfold anchored
  dsimp only
  split
  · exact ⟨rfl, Function.update_of_ne hne _ _, id⟩
  · exact .refl u s

theorem anchored_keeps (cfg : AutoCompoundConfig) :
    (anchored config nowTs cfg v s).failures = s.failures ∧
      (anchored config nowTs cfg v s).users = s.users ∧
      Within s (anchored config nowTs cfg v s) := by
  unfold anchored
  dsimp only
  split <;> exact ⟨rfl, rfl, List.Subset.refl _, rfl⟩

theorem examine_frame (hne : u ≠ v) (cfg : Option AutoCompoundConfig) :
    Frame u s (examine config t nowTs cfg v s).1 := by
  unfold examine
  split
  · exact markFailure_frame hne _ _
  · split
    · exact ⟨Function.update_of_ne hne _ _, Function.update_of_ne hne _ _,
        removeUser_other _ _ hne⟩
    · exact anchored_frame hne _

theorem examine_within (cfg : Option AutoCompoundConfig) :
    Within s (examine config t nowTs cfg v s).1 := by
  unfold examine
  split
  · exact markFailure_within _ _
  · split
    · exact ⟨fun _ ↦ removeUser_sub _ _, rfl⟩
    · exact (anchored_keeps _).2.2

theorem examine_need :
    ((examine config t nowTs (configs u) u s).2.map fun minEth ↦ (u, minEth)) =
      needOf config nowTs configs s.firstSeenSec u := by
  unfold examine needOf
  cases configs u with
  | none => rfl
  | some cfg =>
      dsimp only
      by_cases hoff : cfg.enabled = false ∨ cfg.paused = true
      · rw [if_pos (by simpa using hoff), if_pos (.inl hoff)]
        rfl
      · rw [if_neg (by simpa using hoff)]
        dsimp only
        cases hdue : dueAt config nowTs cfg (s.firstSeenSec u) u with
        | false =>
            have hrefused : Refused config nowTs cfg (s.firstSeenSec u) u := .inr hdue
            rw [if_pos hrefused]
            rfl
        | true =>
            have hfit : ¬ Refused config nowTs cfg (s.firstSeenSec u) u := by
              rintro (h | h)
              · exact hoff h
              · rw [hdue] at h
                cases h
            rw [if_neg hfit]
            rfl

/-- What the first read does to the user it is for. -/
theorem examine_self :
    (configs u = none →
      (((examine config t nowTs (configs u) u s).1.failures u).isSome ∧
        (examine config t nowTs (configs u) u s).1.failures u ≠ s.failures u)) ∧
    ((needOf config nowTs configs s.firstSeenSec u).isSome →
      (examine config t nowTs (configs u) u s).1.failures u = s.failures u ∧
        (examine config t nowTs (configs u) u s).1.users = s.users) := by
  unfold examine needOf
  cases configs u with
  | none => exact ⟨fun _ ↦ markFailure_set _ _, nofun⟩
  | some cfg =>
      refine ⟨nofun, fun hneed ↦ ?_⟩
      dsimp only at hneed ⊢
      split at hneed
      · cases hneed
      · next hfit =>
        rw [if_neg fun h ↦ hfit (.inl (by simpa using h))]
        exact ⟨congrFun (anchored_keeps cfg).1 u, (anchored_keeps cfg).2.1⟩

theorem examineAll_within (s : CompoundState) (users : List User) :
    Within s (examineAll config t nowTs configs s users).1 := by
  induction users generalizing s with
  | nil => exact .refl s
  | cons v users ih => exact (examine_within _).trans (ih _)

theorem examineAll_frame {users : List User} (hu : u ∉ users) (s : CompoundState) :
    Frame u s (examineAll config t nowTs configs s users).1 := by
  induction users generalizing s with
  | nil => exact .refl u s
  | cons v users ih =>
      exact (examine_frame (List.ne_of_not_mem_cons hu) _).trans
        (ih (List.not_mem_of_not_mem_cons hu) _)

theorem examineAll_needs {users : List User} (hnodup : users.Nodup) (s : CompoundState) :
    (examineAll config t nowTs configs s users).2 =
      users.filterMap (needOf config nowTs configs s.firstSeenSec) := by
  induction users generalizing s with
  | nil => rfl
  | cons v users ih =>
      obtain ⟨hv, hnodup⟩ := List.nodup_cons.mp hnodup
      rw [examineAll]
      dsimp only
      rw [ih hnodup, examine_need, List.filterMap_cons]
      have htail : users.filterMap (needOf config nowTs configs
          (examine config t nowTs (configs v) v s).1.firstSeenSec) =
          users.filterMap (needOf config nowTs configs s.firstSeenSec) := by
        refine List.filterMap_congr fun w hw ↦ ?_
        have hframe := @examine_frame config t s w v nowTs (fun h ↦ hv (h ▸ hw)) (configs v)
        rw [needOf, needOf, hframe.firstSeen]
      rw [htail]
      cases needOf config nowTs configs s.firstSeenSec v <;> rfl

/-- What the first reads do to one of the users they are for. -/
theorem examineAll_self {users : List User} (hnodup : users.Nodup) (hu : u ∈ users)
    (s : CompoundState) :
    (configs u = none →
      (((examineAll config t nowTs configs s users).1.failures u).isSome ∧
        (examineAll config t nowTs configs s users).1.failures u ≠ s.failures u)) ∧
    ((needOf config nowTs configs s.firstSeenSec u).isSome →
      (examineAll config t nowTs configs s users).1.failures u = s.failures u ∧
        (u ∈ s.users → u ∈ (examineAll config t nowTs configs s users).1.users)) := by
  induction users generalizing s with
  | nil => cases hu
  | cons v users ih =>
      obtain ⟨hv, hnodup⟩ := List.nodup_cons.mp hnodup
      rw [examineAll]
      dsimp only
      by_cases hne : u = v
      · subst hne
        obtain ⟨hnone, hsome⟩ := @examine_self config t s u nowTs configs
        have hframe := @examineAll_frame config t u nowTs configs users hv
          (examine config t nowTs (configs u) u s).1
        rw [hframe.failures]
        refine ⟨hnone, fun h ↦ ⟨(hsome h).1, fun hmem ↦ hframe.listed ?_⟩⟩
        rw [(hsome h).2]
        exact hmem
      · have hframe := @examine_frame config t s u v nowTs hne (configs v)
        obtain ⟨hnone, hsome⟩ := ih hnodup ((List.mem_cons.mp hu).resolve_left hne)
          (examine config t nowTs (configs v) v s).1
        rw [hframe.failures] at hnone hsome
        refine ⟨hnone, fun h ↦ ?_⟩
        have hneed : needOf config nowTs configs
            (examine config t nowTs (configs v) v s).1.firstSeenSec u =
            needOf config nowTs configs s.firstSeenSec u := by
          rw [needOf, needOf, hframe.firstSeen]
        obtain ⟨hfailures, hlisted⟩ := hsome (hneed ▸ h)
        exact ⟨hfailures, fun hmem ↦ hlisted (hframe.listed hmem)⟩

end Examine

/-! ## The batch -/

section Fill

variable {nowTs : ℕ} {reads : User → Option ℕ × Option LockInfo} {batch : List (User × ℕ)}

theorem check_frame (hne : u ≠ v) (read : Option ℕ × Option LockInfo) (minEth : ℕ) :
    Frame u s (check t nowTs read v minEth s).1 := by
  unfold check
  repeat' split
  all_goals first
    | exact markFailure_frame hne _ _
    | exact .refl u s
    | exact ⟨Function.update_of_ne hne _ _, rfl, id⟩

theorem check_keeps (read : Option ℕ × Option LockInfo) (minEth : ℕ) :
    (check t nowTs read v minEth s).1.users = s.users ∧
      (check t nowTs read v minEth s).1.pendingDeferredUsers = s.pendingDeferredUsers := by
  unfold check
  repeat' split
  all_goals exact ⟨rfl, rfl⟩

/-- A user who fits is accepted without a failure; one who does not fit is marked or
found unfit. -/
theorem check_self (need : User × ℕ) :
    (fits t nowTs reads need = true →
      (check t nowTs (reads need.1) need.1 need.2 s).2.isSome ∧
        (check t nowTs (reads need.1) need.1 need.2 s).1.failures need.1 = none) ∧
    (fits t nowTs reads need = false →
      (check t nowTs (reads need.1) need.1 need.2 s).2 = none ∧
        (Unfit t nowTs need.2 (reads need.1) ∨
          (((check t nowTs (reads need.1) need.1 need.2 s).1.failures need.1).isSome ∧
            (check t nowTs (reads need.1) need.1 need.2 s).1.failures need.1 ≠
              s.failures need.1))) := by
  unfold fits check
  match hread : reads need.1 with
  | (none, _) => exact ⟨nofun, fun _ ↦ ⟨rfl, .inr (markFailure_set _ _)⟩⟩
  | (some claimable, none) => exact ⟨nofun, fun _ ↦ ⟨rfl, .inr (markFailure_set _ _)⟩⟩
  | (some claimable, some lock) =>
      dsimp only
      refine ⟨fun h ↦ ?_, fun h ↦ ?_⟩
      · have hfit := of_decide_eq_true h
        simp only [not_or] at hfit
        obtain ⟨hclaim, hamount, hlisted, hend⟩ := hfit
        rw [if_neg (not_or.mpr hclaim), if_neg hamount, if_neg hlisted, if_neg hend]
        exact ⟨rfl, Function.update_self ..⟩
      · have hunfit := not_not.mp (of_decide_eq_false h)
        refine ⟨?_, .inl hunfit⟩
        split_ifs with h1 h2 h3 h4
        · rfl
        · rfl
        · rfl
        · rfl
        · exact absurd hunfit (not_or.mpr ⟨h1, not_or.mpr ⟨h2, not_or.mpr ⟨h3, h4⟩⟩⟩)

theorem fill_keeps (needs : List (User × ℕ)) (s : CompoundState) (batch : List (User × ℕ)) :
    (fill config t nowTs reads s batch needs).1.users = s.users ∧
      (fill config t nowTs reads s batch needs).1.pendingDeferredUsers =
        s.pendingDeferredUsers := by
  induction needs generalizing s batch with
  | nil => exact ⟨rfl, rfl⟩
  | cons need needs ih =>
      unfold fill
      split
      · obtain ⟨husers, hdeferred⟩ := @check_keeps t s need.1 nowTs (reads need.1) need.2
        exact ⟨(ih _ _).1.trans husers, (ih _ _).2.trans hdeferred⟩
      · exact ⟨rfl, rfl⟩

theorem fill_frame {needs : List (User × ℕ)} (hu : u ∉ needs.map Prod.fst) (s : CompoundState)
    (batch : List (User × ℕ)) :
    Frame u s (fill config t nowTs reads s batch needs).1 ∧
      (u ∈ (fill config t nowTs reads s batch needs).2.map Prod.fst ↔
        u ∈ batch.map Prod.fst) := by
  induction needs generalizing s batch with
  | nil => exact ⟨.refl u s, .rfl⟩
  | cons need needs ih =>
      rw [List.map_cons] at hu
      have hne := List.ne_of_not_mem_cons hu
      unfold fill
      split
      · obtain ⟨hframe, hmem⟩ := ih (List.not_mem_of_not_mem_cons hu)
          (check t nowTs (reads need.1) need.1 need.2 s).1 (batch ++
            ((check t nowTs (reads need.1) need.1 need.2 s).2.map fun amount ↦
              (need.1, amount)).toList)
        refine ⟨(check_frame hne _ _).trans hframe, hmem.trans ?_⟩
        cases (check t nowTs (reads need.1) need.1 need.2 s).2 <;> simp [hne]
      · exact ⟨.refl u s, .rfl⟩

theorem fill_full (hfull : config.compoundMaxUsersShareholders ≤ batch.length)
    (needs : List (User × ℕ)) (s : CompoundState) :
    fill config t nowTs reads s batch needs = (s, batch) := by
  cases needs with
  | nil => rfl
  | cons need needs => rw [fill, if_neg (Nat.not_lt.mpr hfull)]

theorem fill_append (before after : List (User × ℕ)) (s : CompoundState)
    (batch : List (User × ℕ)) :
    fill config t nowTs reads s batch (before ++ after) =
      fill config t nowTs reads (fill config t nowTs reads s batch before).1
        (fill config t nowTs reads s batch before).2 after := by
  induction before generalizing s batch with
  | nil => rfl
  | cons need before ih =>
      by_cases hroom : batch.length < config.compoundMaxUsersShareholders
      · rw [List.cons_append, fill, if_pos hroom, fill, if_pos hroom]
        exact ih _ _
      · rw [fill_full (Nat.not_lt.mp hroom), fill_full (Nat.not_lt.mp hroom),
          fill_full (Nat.not_lt.mp hroom)]

theorem fill_length (needs : List (User × ℕ)) (s : CompoundState) (batch : List (User × ℕ))
    (hle : batch.length ≤ config.compoundMaxUsersShareholders) :
    (fill config t nowTs reads s batch needs).2.length =
      min config.compoundMaxUsersShareholders
        (batch.length + needs.countP (fits t nowTs reads)) := by
  induction needs generalizing s batch with
  | nil => simp [fill, hle]
  | cons need needs ih =>
      by_cases hroom : batch.length < config.compoundMaxUsersShareholders
      · rw [fill, if_pos hroom]
        dsimp only
        obtain ⟨hyes, hno⟩ := @check_self t s nowTs reads need
        cases hfits : fits t nowTs reads need with
        | true =>
            obtain ⟨amount, hamount⟩ := Option.isSome_iff_exists.mp (hyes hfits).1
            rw [hamount, ih _ _ (by simpa using Nat.succ_le_of_lt hroom)]
            simp [hfits]
            omega
        | false =>
            rw [(hno hfits).1, ih _ _ (by simpa using hle)]
            simp [hfits]
      · rw [fill_full (Nat.not_lt.mp hroom)]
        simp only
        omega

/-- What the second reads do to one of the users they are for: there is room, or the
batch is full before the turn comes. -/
theorem fill_self {before after : List (User × ℕ)} {need : User × ℕ}
    (hnodup : ((before ++ need :: after).map Prod.fst).Nodup) (s : CompoundState) :
    (before.countP (fits t nowTs reads) < config.compoundMaxUsersShareholders →
      (fits t nowTs reads need = true →
        need.1 ∈ (fill config t nowTs reads s [] (before ++ need :: after)).2.map Prod.fst ∧
          (fill config t nowTs reads s [] (before ++ need :: after)).1.failures need.1 = none) ∧
      (fits t nowTs reads need = false →
        need.1 ∉ (fill config t nowTs reads s [] (before ++ need :: after)).2.map Prod.fst ∧
        (Unfit t nowTs need.2 (reads need.1) ∨
          (((fill config t nowTs reads s [] (before ++ need :: after)).1.failures need.1).isSome ∧
            (fill config t nowTs reads s [] (before ++ need :: after)).1.failures need.1 ≠
              s.failures need.1)))) ∧
    (config.compoundMaxUsersShareholders ≤ before.countP (fits t nowTs reads) →
      need.1 ∉ (fill config t nowTs reads s [] (before ++ need :: after)).2.map Prod.fst ∧
        (fill config t nowTs reads s [] (before ++ need :: after)).1.failures need.1 =
          s.failures need.1) := by
  rw [List.map_append, List.map_cons, List.nodup_append, List.nodup_cons] at hnodup
  obtain ⟨-, ⟨hafter, -⟩, hdisjoint⟩ := hnodup
  have hbefore : need.1 ∉ before.map Prod.fst := fun hmem ↦
    hdisjoint _ hmem _ List.mem_cons_self rfl
  have hlength := @fill_length config t nowTs reads before s [] (Nat.zero_le _)
  obtain ⟨hframe, hmem⟩ := @fill_frame config t need.1 nowTs reads _ hbefore s []
  rw [fill_append]
  generalize fill config t nowTs reads s [] before = mid at hlength hframe hmem ⊢
  simp only [List.length_nil, Nat.zero_add] at hlength
  constructor
  · intro hroom
    rw [fill, if_pos (by omega)]
    dsimp only
    obtain ⟨hyes, hno⟩ := @check_self t mid.1 nowTs reads need
    constructor
    · intro hfits
      obtain ⟨amount, hamount⟩ := Option.isSome_iff_exists.mp (hyes hfits).1
      obtain ⟨hframe', hmem'⟩ := @fill_frame config t need.1 nowTs reads _ hafter
        (check t nowTs (reads need.1) need.1 need.2 mid.1).1
        (mid.2 ++ ((check t nowTs (reads need.1) need.1 need.2 mid.1).2.map fun amount ↦
          (need.1, amount)).toList)
      refine ⟨hmem'.mpr ?_, hframe'.failures.trans (hyes hfits).2⟩
      rw [hamount]
      simp
    · intro hfits
      obtain ⟨hframe', hmem'⟩ := @fill_frame config t need.1 nowTs reads _ hafter
        (check t nowTs (reads need.1) need.1 need.2 mid.1).1
        (mid.2 ++ ((check t nowTs (reads need.1) need.1 need.2 mid.1).2.map fun amount ↦
          (need.1, amount)).toList)
      constructor
      · rw [hmem', (hno hfits).1, Option.map_none, Option.toList_none, List.append_nil]
        exact fun h ↦ List.not_mem_nil (hmem.mp h)
      · refine (hno hfits).2.imp_right fun hmarked ↦ ?_
        rw [hframe'.failures]
        rwa [hframe.failures] at hmarked
  · intro hfull
    rw [fill_full (by omega)]
    exact ⟨fun h ↦ List.not_mem_nil (hmem.mp h), hframe.failures⟩

end Fill

/-! ## The selection -/

theorem mem_mergeUsers {queue users : List User} :
    u ∈ mergeUsers queue users ↔ u ∈ queue ∨ u ∈ users := by
  induction users generalizing queue with
  | nil => simp [mergeUsers]
  | cons v users ih =>
      rw [mergeUsers, ih, List.mem_cons, ← or_assoc]
      refine or_congr_left ?_
      split
      · next hv => exact ⟨.inl, fun h ↦ h.elim id fun heq ↦ heq ▸ hv⟩
      · simp

theorem mem_reDeferUsers {users : List User} :
    u ∈ (reDeferUsers users s).pendingDeferredUsers ↔ u ∈ s.pendingDeferredUsers ∨ u ∈ users :=
  mem_mergeUsers

@[simp] theorem gather_users : (gather config t s).1.users = s.users := rfl

@[simp] theorem gather_failures : (gather config t s).1.failures = s.failures := rfl

@[simp] theorem gather_firstSeenSec : (gather config t s).1.firstSeenSec = s.firstSeenSec := rfl

@[simp] theorem gather_deferred :
    (gather config t s).1.pendingDeferredUsers = (drained config t s).2 := rfl

theorem drained_spec :
    Drained (fun u ↦ decide (u ∈ s.users)) [] s.pendingDeferredUsers (drained config t s) :=
  drainDeferred_spec [] s.pendingDeferredUsers

theorem gather_snd : ∃ more, (gather config t s).2 = (drained config t s).1 ++ more ∧
    ((drained config t s).1 ++ more).Nodup := by
  obtain ⟨more, heq, hnodup⟩ := @roundRobin_spec (available config t s) (lookahead config s) s.users
    (lookahead config s) (s.cursor % s.users.length) (drained config t s).1
  exact ⟨more, heq, hnodup (drained_spec.nodup List.nodup_nil)⟩

/-- The selection that follows the reads. -/
def selected (config : CompoundConfig) (t : Tick) (nowTs : ℕ)
    (configs : User → Option AutoCompoundConfig) (reads : User → Option ℕ × Option LockInfo)
    (s : CompoundState) : CompoundState × List (User × ℕ) :=
  let (s', needs) := examineAll config t nowTs configs (gather config t s).1 (gather config t s).2
  fill config t nowTs reads s' [] needs

theorem candidates_of_drained (hu : u ∈ (drained config t s).1) :
    u ∈ s.users ∧ (gather config t s).2 ≠ [] := by
  obtain ⟨more, heq, -⟩ := @gather_snd config t s
  rcases drained_spec.source u hu with hnone | ⟨-, hlisted⟩
  · exact absurd hnone List.not_mem_nil
  · refine ⟨of_decide_eq_true hlisted, List.ne_nil_of_mem (a := u) ?_⟩
    rw [heq]
    exact List.mem_append_left _ hu

/-- With a candidate to be read, a selection that does not throw has read both. -/
theorem selectBatch_read {sel : Selection} (hlisted : s.users ≠ [])
    (hcandidates : (gather config t s).2 ≠ []) (hsel : selectBatch config t s = some sel) :
    ∃ nowTs configs reads, t.timestamp = some nowTs ∧ t.configs = some configs ∧
      ((examineAll config t nowTs configs (gather config t s).1 (gather config t s).2).2 ≠ [] →
        t.states = some reads) ∧
      sel.state = (selected config t nowTs configs reads s).1 ∧
      (∀ v, v ∈ sel.users ↔ v ∈ (selected config t nowTs configs reads s).2.map Prod.fst) ∧
      sel.drainedFromDeferred = (drained config t s).1.filter (· ∈ sel.users) := by
  unfold selectBatch at hsel
  rw [if_neg hlisted] at hsel
  cases hts : t.timestamp with
  | none =>
      rw [hts] at hsel
      cases hsel
  | some nowTs =>
      simp only [hts, Option.bind_eq_bind, Option.bind_some, if_neg hcandidates] at hsel
      cases hconfigs : t.configs with
      | none =>
          rw [hconfigs] at hsel
          cases hsel
      | some configs =>
          simp only [hconfigs, Option.bind_some] at hsel
          by_cases hneeds : (examineAll config t nowTs configs (gather config t s).1
              (gather config t s).2).2 = []
          · rw [if_pos hneeds] at hsel
            obtain rfl := Option.some.inj hsel
            refine ⟨nowTs, configs, fun _ ↦ (none, none), rfl, rfl, fun h ↦ absurd hneeds h, ?_, ?_,
              rfl⟩
            · unfold selected
              dsimp only
              rw [hneeds]
              rfl
            · unfold selected
              dsimp only
              rw [hneeds]
              exact fun v ↦ ((List.mergeSort_perm _ _).map Prod.fst).mem_iff
          · rw [if_neg hneeds] at hsel
            cases hstates : t.states with
            | none =>
                rw [hstates] at hsel
                cases hsel
            | some reads =>
                rw [hstates] at hsel
                obtain rfl := Option.some.inj hsel
                exact ⟨nowTs, configs, reads, rfl, rfl, fun _ ↦ rfl, rfl,
                  fun v ↦ ((List.mergeSort_perm _ _).map Prod.fst).mem_iff, rfl⟩

theorem selectBatch_of_reads {nowTs : ℕ} {configs : User → Option AutoCompoundConfig}
    {reads : User → Option ℕ × Option LockInfo} (hts : t.timestamp = some nowTs)
    (hconfigs : t.configs = some configs) (hstates : t.states = some reads) :
    ∃ sel, selectBatch config t s = some sel := by
  unfold selectBatch
  split
  · exact ⟨_, rfl⟩
  · simp only [hts, hconfigs, hstates, Option.bind_eq_bind, Option.bind_some]
    split
    · exact ⟨_, rfl⟩
    · split <;> exact ⟨_, rfl⟩

theorem needOf_fst {nowTs : ℕ} {configs : User → Option AutoCompoundConfig}
    {firstSeenSec : User → Option ℕ} {need : User × ℕ}
    (h : needOf config nowTs configs firstSeenSec u = some need) : need.1 = u := by
  unfold needOf at h
  split at h
  · cases h
  · split at h
    · cases h
    · obtain rfl := Option.some.inj h
      rfl

theorem needs_sublist {nowTs : ℕ} {configs : User → Option AutoCompoundConfig}
    {firstSeenSec : User → Option ℕ} (users : List User) :
    ((users.filterMap (needOf config nowTs configs firstSeenSec)).map Prod.fst).Sublist users := by
  induction users with
  | nil => exact .refl _
  | cons v users ih =>
      rw [List.filterMap_cons]
      split
      · exact ih.cons v
      · next need hneed =>
        rw [List.map_cons, needOf_fst hneed]
        exact ih.cons_cons v

/-- What the selection makes of a user who was taken up from the queue. -/
theorem selected_self {before after : List User} {nowTs : ℕ}
    {configs : User → Option AutoCompoundConfig} {reads : User → Option ℕ × Option LockInfo}
    (hdrained : (drained config t s).1 = before ++ u :: after) :
    (needOf config nowTs configs s.firstSeenSec u = none →
      u ∉ (selected config t nowTs configs reads s).2.map Prod.fst ∧
      (configs u = none → ((selected config t nowTs configs reads s).1.failures u).isSome ∧
        (selected config t nowTs configs reads s).1.failures u ≠ s.failures u)) ∧
    (∀ need, needOf config nowTs configs s.firstSeenSec u = some need →
      (examineAll config t nowTs configs (gather config t s).1 (gather config t s).2).2 ≠ [] ∧
      u ∈ (selected config t nowTs configs reads s).1.users ∧
      (acceptedCount config t nowTs configs reads s before < config.compoundMaxUsersShareholders →
        (fits t nowTs reads need = true →
          u ∈ (selected config t nowTs configs reads s).2.map Prod.fst ∧
            (selected config t nowTs configs reads s).1.failures u = none) ∧
        (fits t nowTs reads need = false →
          u ∉ (selected config t nowTs configs reads s).2.map Prod.fst ∧
          (Unfit t nowTs need.2 (reads u) ∨
            (((selected config t nowTs configs reads s).1.failures u).isSome ∧
              (selected config t nowTs configs reads s).1.failures u ≠ s.failures u)))) ∧
      (config.compoundMaxUsersShareholders ≤ acceptedCount config t nowTs configs reads s before →
        u ∉ (selected config t nowTs configs reads s).2.map Prod.fst ∧
          (selected config t nowTs configs reads s).1.failures u = s.failures u)) := by
  have hu : u ∈ (drained config t s).1 := by
    rw [hdrained]
    exact List.mem_append_right _ List.mem_cons_self
  obtain ⟨hlisted, -⟩ := candidates_of_drained hu
  obtain ⟨more, hgather, hnodup⟩ := @gather_snd config t s
  rw [hdrained] at hgather hnodup
  rw [← hgather] at hnodup
  have hcand : u ∈ (gather config t s).2 := by
    rw [hgather]
    simp
  obtain ⟨hnone, hsome⟩ := @examineAll_self config t u nowTs configs _ hnodup hcand
    (gather config t s).1
  have hneeds := @examineAll_needs config t nowTs configs _ hnodup (gather config t s).1
  rw [gather_firstSeenSec] at hsome hneeds
  have hunique := (@needs_sublist config nowTs configs s.firstSeenSec
    (gather config t s).2).nodup hnodup
  unfold selected
  dsimp only
  constructor
  · intro hunneeded
    have hout : u ∉ ((gather config t s).2.filterMap
        (needOf config nowTs configs s.firstSeenSec)).map Prod.fst := by
      intro hmem
      obtain ⟨need, hneed, rfl⟩ := List.mem_map.mp hmem
      obtain ⟨v, -, hv⟩ := List.mem_filterMap.mp hneed
      rw [needOf_fst hv, hv] at hunneeded
      cases hunneeded
    rw [← hneeds] at hout
    obtain ⟨hframe, hmem⟩ := @fill_frame config t u nowTs reads _ hout
      (examineAll config t nowTs configs (gather config t s).1 (gather config t s).2).1 []
    rw [hframe.failures]
    exact ⟨fun h ↦ List.not_mem_nil (hmem.mp h), hnone⟩
  · intro need hneed
    obtain ⟨hfailures, hkeeps⟩ := hsome (by rw [hneed]; rfl)
    obtain rfl := needOf_fst hneed
    have hsplit :
        (examineAll config t nowTs configs (gather config t s).1 (gather config t s).2).2 =
        before.filterMap (needOf config nowTs configs s.firstSeenSec) ++
          need :: (after ++ more).filterMap (needOf config nowTs configs s.firstSeenSec) := by
      rw [hneeds, hgather, List.append_assoc, List.cons_append,
        List.filterMap_append, List.filterMap_cons_some hneed]
    rw [← hneeds, hsplit] at hunique
    obtain ⟨hroom, hfull⟩ := @fill_self config t nowTs reads _ _ _ hunique
      (examineAll config t nowTs configs (gather config t s).1 (gather config t s).2).1
    rw [hfailures, gather_failures] at hroom hfull
    rw [hsplit]
    refine ⟨by simp, ?_, hroom, hfull⟩
    rw [(fill_keeps _ _ _).1]
    exact hkeeps hlisted

/-! ## The transactions -/

theorem shrinkFrom_subset (users : List User) (n : ℕ) : shrinkFrom config t users n ⊆ users := by
  induction n using Nat.strongRecOn with
  | ind n ih =>
      unfold shrinkFrom
      split
      · exact List.nil_subset _
      · next hn =>
        split
        · exact List.take_subset n users
        · exact ih _ (by omega)

/-- The transactions user by user touch the failures of these users only. -/
theorem fallback_spec (missing : List User) (s : CompoundState) :
    (fallback t s missing).1.users = s.users ∧
      (fallback t s missing).1.pendingDeferredUsers = s.pendingDeferredUsers ∧
      (∀ u ∉ missing, (fallback t s missing).1.failures u = s.failures u) ∧
      (fallback t s missing).2.1 ⊆ missing ∧ (fallback t s missing).2.2 ⊆ missing := by
  induction missing generalizing s with
  | nil => exact ⟨rfl, rfl, fun _ _ ↦ rfl, List.Subset.refl _, List.Subset.refl _⟩
  | cons v missing ih =>
      have hmark (err : String) : ∀ u ∉ v :: missing,
          (markFailure t.nowMs v err s).failures u = s.failures u := fun u hu ↦
        (markFailure_frame (List.ne_of_not_mem_cons hu) _ _).failures
      unfold fallback
      split
      · next executed _ =>
        dsimp only
        by_cases hexecuted : v ∈ executed
        · rw [if_pos hexecuted]
          obtain ⟨husers, hdeferred, hfailures, hlatched, hconfirmed⟩ := ih s
          exact ⟨husers, hdeferred, fun u hu ↦ hfailures u (List.not_mem_of_not_mem_cons hu),
            List.subset_cons_of_subset v hlatched, List.cons_subset_cons v hconfirmed⟩
        · rw [if_neg hexecuted]
          obtain ⟨husers, hdeferred, hfailures, hlatched, hconfirmed⟩ :=
            ih (markFailure t.nowMs v "fallback_no_executed_event" s)
          exact ⟨husers, hdeferred, fun u hu ↦ (hfailures u
            (List.not_mem_of_not_mem_cons hu)).trans (hmark _ u hu),
            List.subset_cons_of_subset v hlatched, List.cons_subset_cons v hconfirmed⟩
      · split
        · exact ⟨rfl, rfl, fun _ _ ↦ rfl, List.Subset.refl _, List.nil_subset _⟩
        · obtain ⟨husers, hdeferred, hfailures, hlatched, hconfirmed⟩ := ih s
          exact ⟨husers, hdeferred, fun u hu ↦ hfailures u (List.not_mem_of_not_mem_cons hu),
            List.subset_cons_of_subset v hlatched, List.subset_cons_of_subset v hconfirmed⟩
      · next error _ =>
        obtain ⟨husers, hdeferred, hfailures, hlatched, hconfirmed⟩ :=
          ih (markFailure t.nowMs v error s)
        exact ⟨husers, hdeferred, fun u hu ↦ (hfailures u
          (List.not_mem_of_not_mem_cons hu)).trans (hmark _ u hu),
          List.subset_cons_of_subset v hlatched, List.subset_cons_of_subset v hconfirmed⟩

/-- The end of a tick against the state after the selection: the worklist and the queue
are kept, and the failures of those who were not selected. -/
structure Ended (state : CompoundState) (selected : List User) (out : Outcome) : Prop where
  users : out.state.users = state.users
  failures : ∀ u ∉ selected, out.state.failures u = state.failures u
  deferred : state.pendingDeferredUsers ⊆ out.state.pendingDeferredUsers
  source : ∀ u ∈ out.state.pendingDeferredUsers, u ∈ state.pendingDeferredUsers ∨ u ∈ selected
  confirmed : out.confirmed ⊆ selected

section Ended

variable {state : CompoundState} {selected : List User} {out : Outcome}

theorem Ended.start (state : CompoundState) (selected : List User) :
    Ended state selected ⟨state, []⟩ :=
  ⟨rfl, fun _ _ ↦ rfl, List.Subset.refl _, fun _ ↦ .inl, List.nil_subset _⟩

theorem Ended.reDefer (h : Ended state selected out) {users : List User}
    (husers : users ⊆ selected) :
    Ended state selected ⟨reDeferUsers users out.state, out.confirmed⟩ where
  users := h.users
  failures := h.failures
  deferred := fun _ hu ↦ mem_reDeferUsers.mpr (.inl (h.deferred hu))
  source := fun u hu ↦ (mem_reDeferUsers.mp hu).elim (h.source u) fun hu ↦ .inr (husers hu)
  confirmed := h.confirmed

theorem Ended.fallback (h : Ended state selected out) {missing users : List User}
    (hmissing : missing ⊆ selected) (husers : users ⊆ selected) :
    Ended state selected ⟨(fallback t out.state missing).1,
      users ++ (fallback t out.state missing).2.2⟩ := by
  obtain ⟨hfallback, hdeferred, hfailures, -, hconfirmed⟩ :=
    fallback_spec (t := t) missing out.state
  refine ⟨hfallback.trans h.users, fun u hu ↦ ?_, ?_, ?_, ?_⟩
  · rw [hfailures u fun hmem ↦ hu (hmissing hmem)]
    exact h.failures u hu
  · rw [hdeferred]
    exact h.deferred
  · rw [hdeferred]
    exact h.source
  · exact List.append_subset.mpr ⟨husers, List.Subset.trans hconfirmed hmissing⟩

end Ended

/-- The deferred users whom the gas limit drops from the batch. -/
def shrunkOut (config : CompoundConfig) (t : Tick) (sel : Selection) : List User :=
  sel.drainedFromDeferred.filter (· ∉ shrinkToGasLimit config t sel.users)

theorem run_ended {sel : Selection} (hsel : selectBatch config t s = some sel)
    (hdrained : sel.drainedFromDeferred ⊆ sel.users) :
    Ended (reDeferUsers (shrunkOut config t sel) sel.state) sel.users
      (runCompoundShareholders config t s) := by
  have hshrunk : shrinkToGasLimit config t sel.users ⊆ sel.users := shrinkFrom_subset _ _
  have hout : shrunkOut config t sel ⊆ sel.users := fun u hu ↦
    hdrained (List.mem_of_mem_filter hu)
  have hbase := Ended.start (reDeferUsers (shrunkOut config t sel) sel.state) sel.users
  unfold runCompoundShareholders
  rw [hsel]
  dsimp only
  split
  · exact hbase.reDefer hdrained
  · split
    · exact hbase.reDefer hdrained
    · split
      · exact hbase
      · exact hbase.reDefer (List.append_subset.mpr ⟨hshrunk, hout⟩)
      · next executed _ =>
        have hmissing : (shrinkToGasLimit config t sel.users).filter (· ∉ executed) ⊆ sel.users :=
          fun u hu ↦ hshrunk (List.mem_of_mem_filter hu)
        exact (hbase.fallback (t := t) hmissing hshrunk).reDefer
          (List.Subset.trans (fallback_spec _ _).2.2.2.1 hmissing)

/-- A selected user of the queue is deferred again or in a confirmed transaction, unless
the batch is thrown with the user in it. -/
theorem run_selected {sel : Selection} (hsel : selectBatch config t s = some sel)
    (hdrained : sel.drainedFromDeferred ⊆ sel.users) (hu : u ∈ sel.drainedFromDeferred) :
    u ∈ (runCompoundShareholders config t s).state.pendingDeferredUsers ∨
      u ∈ (runCompoundShareholders config t s).confirmed ∨
      (∃ err, t.batch = .threw err) ∧ config.dryRun = false ∧
        u ∈ shrinkToGasLimit config t sel.users := by
  by_cases hshrunk : u ∈ shrinkToGasLimit config t sel.users
  · unfold runCompoundShareholders
    rw [hsel]
    dsimp only
    rw [if_neg (List.ne_nil_of_mem hshrunk)]
    cases hdry : config.dryRun with
    | true => exact .inl (mem_reDeferUsers.mpr (.inr hu))
    | false =>
        rw [if_neg Bool.false_ne_true]
        cases hbatch : t.batch with
        | threw err => exact .inr (.inr ⟨⟨err, rfl⟩, rfl, hshrunk⟩)
        | skipped code =>
            exact .inl (mem_reDeferUsers.mpr (.inr (List.mem_append_left _ hshrunk)))
        | ok executed => exact .inr (.inl (List.mem_append_left _ hshrunk))
  · have hout : u ∈ shrunkOut config t sel := List.mem_filter.mpr ⟨hu, decide_eq_true hshrunk⟩
    exact .inl ((run_ended hsel hdrained).deferred (mem_reDeferUsers.mpr (.inr hout)))

/-! ## Ticks that keep the priority -/

/-- No eligible user of the queue waits behind a full batch, and none is in a batch that
is thrown. -/
structure Heeded (config : CompoundConfig) (t : Tick) (s : CompoundState) : Prop where
  cap : ∀ nowTs configs reads, t.timestamp = some nowTs → t.configs = some configs →
    t.states = some reads → ∀ before u after, (drained config t s).1 = before ++ u :: after →
      u ∉ (drained config t s).2 → (configs u).isSome → ¬ NotEligible config t s u →
        acceptedCount config t nowTs configs reads s before < config.compoundMaxUsersShareholders
  send : ∀ sel err, selectBatch config t s = some sel → t.batch = .threw err →
    config.dryRun = false → ∀ u ∈ sel.drainedFromDeferred, u ∉ (drained config t s).2 →
      u ∉ shrinkToGasLimit config t sel.users

/-- A selection with a user of the queue comes of the reads. -/
theorem selectBatch_split {sel : Selection} (hsel : selectBatch config t s = some sel)
    (hu : u ∈ (drained config t s).1) :
    ∃ before after nowTs configs reads, (drained config t s).1 = before ++ u :: after ∧
      t.timestamp = some nowTs ∧ t.configs = some configs ∧
      ((needOf config nowTs configs s.firstSeenSec u).isSome → t.states = some reads) ∧
      sel.state = (selected config t nowTs configs reads s).1 ∧
      (∀ v, v ∈ sel.users ↔ v ∈ (selected config t nowTs configs reads s).2.map Prod.fst) ∧
      sel.drainedFromDeferred = (drained config t s).1.filter (· ∈ sel.users) := by
  obtain ⟨before, after, hdrained⟩ := List.append_of_mem hu
  obtain ⟨hlisted, hcandidates⟩ := candidates_of_drained hu
  obtain ⟨nowTs, configs, reads, hts, hconfigs, hstates, hstate, husers, hfrom⟩ :=
    selectBatch_read (List.ne_nil_of_mem hlisted) hcandidates hsel
  refine ⟨before, after, nowTs, configs, reads, hdrained, hts, hconfigs, fun hneed ↦ ?_, hstate,
    husers, hfrom⟩
  obtain ⟨need, hneed⟩ := Option.isSome_iff_exists.mp hneed
  exact hstates ((@selected_self config t s u _ _ _ _ reads hdrained).2 need hneed).1

theorem selected_state {nowTs : ℕ} {configs : User → Option AutoCompoundConfig}
    {reads : User → Option ℕ × Option LockInfo} :
    (selected config t nowTs configs reads s).1.users ⊆ s.users ∧
      (selected config t nowTs configs reads s).1.pendingDeferredUsers =
        (drained config t s).2 := by
  obtain ⟨husers, hdeferred⟩ := @examineAll_within config t nowTs configs
    (gather config t s).1 (gather config t s).2
  unfold selected
  dsimp only
  rw [(fill_keeps _ _ _).1, (fill_keeps _ _ _).2, hdeferred]
  exact ⟨husers, rfl⟩

/-- Every selection keeps the worklist down and the queue trimmed. -/
theorem selectBatch_state {sel : Selection} (hlisted : s.users ≠ [])
    (hsel : selectBatch config t s = some sel) :
    sel.state.users ⊆ s.users ∧ sel.state.pendingDeferredUsers = (drained config t s).2 ∧
      sel.drainedFromDeferred = (drained config t s).1.filter (· ∈ sel.users) := by
  by_cases hcandidates : (gather config t s).2 = []
  · unfold selectBatch at hsel
    rw [if_neg hlisted] at hsel
    cases hts : t.timestamp with
    | none =>
        rw [hts] at hsel
        cases hsel
    | some nowTs =>
        simp only [hts, Option.bind_eq_bind, Option.bind_some, if_pos hcandidates] at hsel
        obtain rfl := Option.some.inj hsel
        exact ⟨List.Subset.refl _, rfl, rfl⟩
  · obtain ⟨nowTs, configs, reads, -, -, -, hstate, -, hfrom⟩ :=
      selectBatch_read hlisted hcandidates hsel
    rw [hstate]
    exact ⟨selected_state.1, selected_state.2, hfrom⟩

theorem accounted_of_heeded (h : Heeded config t s) (hu : u ∈ s.pendingDeferredUsers) :
    Accounted config t s u := by
  cases hsel : selectBatch config t s with
  | none =>
      refine .deferred ?_
      unfold runCompoundShareholders
      rw [hsel]
      exact hu
  | some sel =>
      by_cases hlisted : s.users = []
      · refine .unlisted ?_
        have hempty : sel = ⟨s, [], []⟩ := by
          unfold selectBatch at hsel
          rw [if_pos hlisted] at hsel
          exact (Option.some.inj hsel).symm
        subst hempty
        rw [(run_ended hsel (List.nil_subset _)).users]
        change u ∉ s.users
        rw [hlisted]
        exact List.not_mem_nil
      obtain ⟨hwithin, hdeferred, hfrom⟩ := selectBatch_state hlisted hsel
      have hsub : sel.drainedFromDeferred ⊆ sel.users := by
        rw [hfrom]
        exact fun v hv ↦ of_decide_eq_true (List.mem_filter.mp hv).2
      have hended := run_ended hsel hsub
      by_cases hkept : u ∈ (drained config t s).2
      · refine .deferred (hended.deferred (mem_reDeferUsers.mpr (.inl ?_)))
        rw [hdeferred]
        exact hkept
      rcases (drained_spec.cover u hu).resolve_left hkept with hunlisted | htaken
      · refine .unlisted ?_
        rw [hended.users]
        exact fun hmem ↦ of_decide_eq_false hunlisted (hwithin hmem)
      obtain ⟨before, after, nowTs, configs, reads, hdrained, hts, hconfigs, hstates, hstate,
        husers, -⟩ := selectBatch_split hsel htaken
      obtain ⟨hnone, hsome⟩ := @selected_self config t s u _ _ nowTs configs reads hdrained
      -- A user who is not in the batch keeps what the selection recorded.
      have hrecorded : u ∉ (selected config t nowTs configs reads s).2.map Prod.fst →
          (runCompoundShareholders config t s).state.failures u =
            (selected config t nowTs configs reads s).1.failures u := fun hout ↦ by
        rw [hended.failures u (mt (husers u).mp hout), ← hstate]
        rfl
      cases hconfig : configs u with
      | none =>
          obtain ⟨hout, hmarked⟩ := hnone (by rw [needOf, hconfig])
          obtain ⟨hset, hnew⟩ := hmarked hconfig
          rw [← hrecorded hout] at hset hnew
          exact .failed hset hnew
      | some cfg =>
          by_cases hrefused : Refused config nowTs cfg (s.firstSeenSec u) u
          · exact .notEligible (.refused hts hconfigs hconfig hrefused)
          have hneed : needOf config nowTs configs s.firstSeenSec u =
              some (u, cfg.minEthToCompound) := by
            rw [needOf, hconfig]
            exact if_neg hrefused
          have hstates := hstates (by rw [hneed]; rfl)
          by_cases heligible : NotEligible config t s u
          · exact .notEligible heligible
          obtain ⟨-, -, hroom, -⟩ := hsome _ hneed
          obtain ⟨hyes, hno⟩ := hroom (h.cap nowTs configs reads hts hconfigs hstates before u after
            hdrained hkept (by rw [hconfig]; rfl) heligible)
          cases hfits : fits t nowTs reads (u, cfg.minEthToCompound) with
          | false =>
              obtain ⟨hout, hunfit | ⟨hset, hnew⟩⟩ := hno hfits
              · exact .notEligible (.unfit hts hconfigs hconfig hstates hunfit)
              · rw [← hrecorded hout] at hset hnew
                exact .failed hset hnew
          | true =>
              have hselected : u ∈ sel.users := (husers u).mpr (hyes hfits).1
              have hdrain : u ∈ sel.drainedFromDeferred := by
                rw [hfrom]
                exact List.mem_filter.mpr ⟨htaken, decide_eq_true hselected⟩
              rcases run_selected hsel hsub hdrain with hagain | hsent | ⟨⟨err, herr⟩, hdry, hin⟩
              · exact .deferred hagain
              · exact .confirmed hsent
              · exact absurd hin (h.send sel err hsel herr hdry u hdrain hkept)

/-- A user who is not in the queue at the end, and of whom nothing is recorded, is lost. -/
theorem not_accounted {sel : Selection} (hended : Ended (reDeferUsers (shrunkOut config t sel)
      sel.state) sel.users (runCompoundShareholders config t s))
    (hqueue : u ∉ (runCompoundShareholders config t s).state.pendingDeferredUsers)
    (hlisted : u ∈ sel.state.users) (heligible : ¬ NotEligible config t s u)
    (hfailures : (runCompoundShareholders config t s).state.failures u = none ∨
      (runCompoundShareholders config t s).state.failures u = s.failures u)
    (hsent : u ∉ (runCompoundShareholders config t s).confirmed) : ¬ Accounted config t s u := by
  rintro (h | h | h | ⟨hset, hnew⟩ | h)
  · exact hqueue h
  · rw [hended.users] at h
    exact h hlisted
  · exact heligible h
  · rcases hfailures with hnone | hsame
    · rw [hnone] at hset
      cases hset
    · exact hnew hsame
  · exact hsent h

theorem needOf_of_eligible {nowTs : ℕ} {configs : User → Option AutoCompoundConfig}
    (hts : t.timestamp = some nowTs) (hconfigs : t.configs = some configs)
    {cfg : AutoCompoundConfig} (hconfig : configs u = some cfg)
    (heligible : ¬ NotEligible config t s u) :
    needOf config nowTs configs s.firstSeenSec u = some (u, cfg.minEthToCompound) := by
  rw [needOf, hconfig]
  exact if_neg fun h ↦ heligible (.refused hts hconfigs hconfig h)

theorem eligible_of_fits {nowTs : ℕ} {configs : User → Option AutoCompoundConfig}
    {reads : User → Option ℕ × Option LockInfo} {need : User × ℕ}
    (hts : t.timestamp = some nowTs) (hconfigs : t.configs = some configs)
    (hstates : t.states = some reads)
    (hneed : needOf config nowTs configs s.firstSeenSec u = some need)
    (hfits : fits t nowTs reads need = true) : ¬ NotEligible config t s u := by
  obtain rfl := needOf_fst hneed
  rintro (⟨hts', hconfigs', hconfig, hrefused⟩ | ⟨hts', hconfigs', hconfig, hstates', hunfit⟩)
  · obtain rfl := Option.some.inj (hts.symm.trans hts')
    obtain rfl := Option.some.inj (hconfigs.symm.trans hconfigs')
    rw [needOf, hconfig] at hneed
    dsimp only at hneed
    rw [if_pos hrefused] at hneed
    cases hneed
  · obtain rfl := Option.some.inj (hts.symm.trans hts')
    obtain rfl := Option.some.inj (hconfigs.symm.trans hconfigs')
    obtain rfl := Option.some.inj (hstates.symm.trans hstates')
    rw [needOf, hconfig] at hneed
    dsimp only at hneed
    split at hneed
    · cases hneed
    · obtain heq := Option.some.inj hneed
      rw [← heq] at hfits hunfit
      unfold fits at hfits
      unfold Unfit at hunfit
      split at hfits
      · next hread =>
        rw [hread] at hunfit
        exact of_decide_eq_true hfits hunfit
      · cases hfits

theorem heeded_of_accounted (h : ∀ u ∈ s.pendingDeferredUsers, Accounted config t s u) :
    Heeded config t s := by
  have hqueue : ∀ u ∈ (drained config t s).1, u ∈ s.pendingDeferredUsers := fun u hu ↦
    ((drained_spec.source u hu).resolve_left List.not_mem_nil).1
  constructor
  · intro nowTs configs reads hts hconfigs hstates before u after hdrained hkept hconfig heligible
    by_contra hfull
    have htaken : u ∈ (drained config t s).1 := by
      rw [hdrained]
      exact List.mem_append_right _ List.mem_cons_self
    obtain ⟨hlisted, hcandidates⟩ := candidates_of_drained htaken
    obtain ⟨sel, hsel⟩ := @selectBatch_of_reads config t s nowTs configs reads hts hconfigs hstates
    obtain ⟨nowTs', configs', reads', hts', hconfigs', hstates', hstate, husers, hfrom⟩ :=
      selectBatch_read (List.ne_nil_of_mem hlisted) hcandidates hsel
    obtain rfl := Option.some.inj (hts.symm.trans hts')
    obtain rfl := Option.some.inj (hconfigs.symm.trans hconfigs')
    obtain ⟨cfg, hconfig⟩ := Option.isSome_iff_exists.mp hconfig
    have hneed := needOf_of_eligible hts hconfigs hconfig heligible
    obtain ⟨hneeds, hin, -, hcut⟩ := (@selected_self config t s u _ _ _ _ reads' hdrained).2 _ hneed
    obtain rfl := Option.some.inj (hstates.symm.trans (hstates' hneeds))
    obtain ⟨hout, hsame⟩ := hcut (Nat.le_of_not_lt hfull)
    have hout : u ∉ sel.users := mt (husers u).mp hout
    have hsub : sel.drainedFromDeferred ⊆ sel.users := by
      rw [hfrom]
      exact fun v hv ↦ of_decide_eq_true (List.mem_filter.mp hv).2
    have hended := run_ended hsel hsub
    refine not_accounted hended (fun hmem ↦ ?_) (hstate ▸ hin) heligible (.inr ?_)
      (fun hmem ↦ hout (hended.confirmed hmem)) (h u (hqueue u htaken))
    · rcases hended.source u hmem with hmem | hmem
      · rcases mem_reDeferUsers.mp hmem with hmem | hmem
        · rw [hstate, selected_state.2] at hmem
          exact hkept hmem
        · exact hout (hsub (List.mem_of_mem_filter hmem))
      · exact hout hmem
    · rw [hended.failures u hout]
      change sel.state.failures u = _
      rw [hstate, hsame]
  · intro sel err hsel hbatch hdry u hdrain hkept hshrunk
    have hlisted : s.users ≠ [] := by
      intro hnone
      unfold selectBatch at hsel
      rw [if_pos hnone] at hsel
      obtain rfl := Option.some.inj hsel
      cases hdrain
    obtain ⟨-, hdeferred, hfrom⟩ := selectBatch_state hlisted hsel
    have hsub : sel.drainedFromDeferred ⊆ sel.users := by
      rw [hfrom]
      exact fun v hv ↦ of_decide_eq_true (List.mem_filter.mp hv).2
    have hended := run_ended hsel hsub
    have htaken : u ∈ (drained config t s).1 := by
      rw [hfrom] at hdrain
      exact List.mem_of_mem_filter hdrain
    obtain ⟨before, after, nowTs, configs, reads, hdrained, hts, hconfigs, hstates, hstate, husers,
      -⟩ := selectBatch_split hsel htaken
    obtain ⟨hnone, hsome⟩ := @selected_self config t s u _ _ nowTs configs reads hdrained
    have hin := (husers u).mp (hsub hdrain)
    have hout : runCompoundShareholders config t s =
        ⟨reDeferUsers (shrunkOut config t sel) sel.state, []⟩ := by
      unfold runCompoundShareholders
      rw [hsel]
      dsimp only
      rw [if_neg (List.ne_nil_of_mem hshrunk), hdry, if_neg Bool.false_ne_true, hbatch]
      rfl
    cases hneed : needOf config nowTs configs s.firstSeenSec u with
    | none => exact (hnone hneed).1 hin
    | some need =>
        have hstates := hstates (by rw [hneed]; rfl)
        obtain ⟨-, hmem, hroom, hcut⟩ := hsome need hneed
        have hcount : acceptedCount config t nowTs configs reads s before <
            config.compoundMaxUsersShareholders :=
          Nat.lt_of_not_le fun hfull ↦ (hcut hfull).1 hin
        cases hfits : fits t nowTs reads need with
        | false => exact ((hroom hcount).2 hfits).1 hin
        | true =>
            refine not_accounted hended (fun hmem ↦ ?_) (hstate ▸ hmem)
              (eligible_of_fits hts hconfigs hstates hneed hfits) (.inl ?_) ?_
              (h u (hqueue u htaken))
            · rw [hout] at hmem
              rcases mem_reDeferUsers.mp hmem with hmem | hmem
              · exact hkept (hdeferred ▸ hmem)
              · exact of_decide_eq_true (List.mem_filter.mp hmem).2 hshrunk
            · rw [hout]
              change sel.state.failures u = none
              rw [hstate]
              exact ((hroom hcount).1 hfits).2
            · rw [hout]
              exact List.not_mem_nil

/-- Every deferred user is accounted for if and only if none is cut off by a full batch
or thrown with one. -/
theorem deferred_accounted_iff (config : CompoundConfig) (t : Tick) (s : CompoundState) :
    (∀ u ∈ s.pendingDeferredUsers, Accounted config t s u) ↔ Heeded config t s :=
  ⟨heeded_of_accounted, fun h _ hu ↦ accounted_of_heeded h hu⟩

/-! ## A batch of one -/

def oneUserConfig : CompoundConfig := ⟨1, 2, 0, none, 1, 1000000, false⟩

/-- A tick in which everyone is eligible and the batch is confirmed. -/
def eligibleTick : Tick where
  nowMs := 1000000
  timestamp := some 1000
  configs := some fun _ ↦ some ⟨true, false, 0, 0, 1⟩
  states := some fun _ ↦ (some (10 ^ 16), some ⟨1, 2000, false⟩)
  morningCache := none
  globalMinAutoCompoundEth := 0
  gas _ := some 500000
  batch := .ok ["0xa"]
  one _ := .ok []

def twoDeferred : CompoundState where
  users := ["0xa", "0xb"]
  cursor := 0
  failures _ := none
  pendingDeferredUsers := ["0xa", "0xb"]
  firstSeenSec _ := none

/-- The second of two deferred users does not fit in the batch and leaves the queue. -/
theorem not_deferred_accounted :
    ¬ ∀ (config : CompoundConfig) (t : Tick) (s : CompoundState),
      ∀ u ∈ s.pendingDeferredUsers, Accounted config t s u := by
  intro h
  have hheeded := heeded_of_accounted (h oneUserConfig eligibleTick twoDeferred)
  have hdrained : drained oneUserConfig eligibleTick twoDeferred = (["0xa", "0xb"], []) := by
    decide
  have hroom := hheeded.cap _ _ _ rfl rfl rfl ["0xa"] "0xb" [] (congrArg Prod.fst hdrained)
    (by rw [hdrained]; exact List.not_mem_nil) rfl
    (@eligible_of_fits _ _ _ _ _ _ _ ("0xb", 0) rfl rfl rfl (by decide) (by decide))
  exact absurd hroom (by decide)

end ClaimRush.Keeper.CompoundShareholders
