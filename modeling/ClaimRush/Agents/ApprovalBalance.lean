import ClaimRush.Agents.AutoApprovals

/-!
# Allowances along an expanded plan

Executing a plan sets and spends the allowances of its caller.  The expanded plan
covers its spends exactly where, for each pair on its own, no spend lies between the
allowance that is left and the one that was announced.
-/

namespace ClaimRush.Agents.AutoApprovals

variable {c : Context} {k : Pair}

/-! ## Execution -/

/-- What an action takes from an allowance where it succeeds; the function cares for it
if the manifest lists the contracts that its approval names. -/
structure Spend where
  pair : Pair
  amount : ℕ
  caredFor : Bool

def spend (m : Manifest) : AgentAction → Option Spend
  | .furnaceEnterWithClaim claimIn _ _ _ _ =>
      some ⟨allowanceKey m.claimToken m.furnace, claimIn, m.listsClaimToken⟩
  | .furnaceEnterWithClaimFromCallerFor _ claimIn _ _ _ _ =>
      some ⟨allowanceKey m.claimToken m.furnace, claimIn, m.listsClaimToken⟩
  | .furnaceEnterWithToken tokenIn amountIn _ _ _ _ =>
      some ⟨allowanceKey tokenIn m.furnace, amountIn, true⟩
  | .furnaceEnterWithTokenFromCallerFor _ tokenIn amountIn _ _ _ _ =>
      some ⟨allowanceKey tokenIn m.furnace, amountIn, true⟩
  | .mineCoreTakeoverWithToken tokenIn amountIn _ =>
      some ⟨allowanceKey tokenIn m.mineCore, amountIn, true⟩
  | .marketRouterCreateBonusTargetEscrowWithTarget _ budgetClaim _ _ _ _ _ =>
      some ⟨allowanceKey m.claimToken m.marketRouter, budgetClaim,
        m.listsMarketRouter && m.listsClaimToken⟩
  | _ => none

/-- An allowance after a spend; the unlimited one stays. -/
def spent (left amount : ℕ) : ℕ := if left = maxUint256 then left else left - amount

/-- The allowances of the caller after an approval. -/
def approved (allow : Pair → ℕ) : AgentAction → Pair → ℕ
  | .erc20Approve token spender amount =>
      Function.update allow (allowanceKey token spender) amount
  | .erc20EnsureAllowance token spender minAllowance approveAmount =>
      let k := allowanceKey token spender
      if allow k < minAllowance then Function.update allow k approveAmount else allow
  | _ => allow

/-- Every spend that is cared for finds its amount, whichever of the spends succeed. -/
def Funded (m : Manifest) : (Pair → ℕ) → List AgentAction → Prop
  | _, [] => True
  | allow, action :: rest =>
      match spend m action with
      | none => Funded m (approved allow action) rest
      | some s =>
          (s.caredFor = true → s.amount ≤ allow s.pair) ∧ Funded m allow rest ∧
            (s.amount ≤ allow s.pair → Funded m
              (Function.update allow s.pair (spent (allow s.pair) s.amount)) rest)

/-! ## One pair -/

/-- What a plan does with the allowance of one pair. -/
inductive Event
  | approve (amount : ℕ)
  | ensure (minAllowance approveAmount : ℕ)
  | spend (amount : ℕ) (caredFor : Bool)

def event (m : Manifest) (k : Pair) (action : AgentAction) : Option Event :=
  match spend m action with
  | some s => if s.pair = k then some (.spend s.amount s.caredFor) else none
  | none =>
      match action with
      | .erc20Approve token spender amount =>
          if allowanceKey token spender = k then some (.approve amount) else none
      | .erc20EnsureAllowance token spender minAllowance approveAmount =>
          if allowanceKey token spender = k then some (.ensure minAllowance approveAmount)
          else none
      | _ => none

def events (m : Manifest) (k : Pair) (actions : List AgentAction) : List Event :=
  actions.filterMap (event m k)

/-- The allowance that a list of events leaves of a pair against the one that it
announces: at first the reading, then the amounts of its approvals and of the spends
that exceed what was announced, before which the allowance is topped up. -/
def Kept (mode : AutoApproveMode) (reading : ℕ) : Option ℕ → ℕ → List Event → Prop
  | _, _, [] => True
  | _, _, .approve amount :: rest => Kept mode reading (some amount) amount rest
  | announced, left, .ensure minAllowance amount :: rest =>
      Kept mode reading (some (max amount (announced.getD 0)))
        (if left < minAllowance then amount else left) rest
  | announced, left, .spend amount false :: rest =>
      Kept mode reading announced left rest ∧
        (amount ≤ left → Kept mode reading announced (spent left amount) rest)
  | announced, left, .spend amount true :: rest =>
      if announced.getD reading < amount then
        let approval := approveAmountFor mode amount
        let left := if left < amount then approval else left
        amount ≤ left ∧ Kept mode reading (some approval) left rest ∧
          Kept mode reading (some approval) (spent left amount) rest
      else
        -- No approval is inserted, whatever is left.
        amount ≤ left ∧ Kept mode reading announced left rest ∧
          Kept mode reading announced (spent left amount) rest

/-! ## What is inserted -/

/-- An action that neither sets nor spends an allowance. -/
def Neutral (m : Manifest) (action : AgentAction) : Prop :=
  spend m action = none ∧ ∀ allow, approved allow action = allow

theorem funded_neutral {m : Manifest} {before rest : List AgentAction} {allow : Pair → ℕ}
    (h : ∀ action ∈ before, Neutral m action) :
    Funded m allow (before ++ rest) ↔ Funded m allow rest := by
  induction before with
  | nil => rfl
  | cons action before ih =>
      obtain ⟨⟨hspend, happroved⟩, hbefore⟩ := List.forall_mem_cons.mp h
      rw [List.cons_append, Funded, hspend, happroved]
      exact ih hbefore

@[simp] theorem note_allowances (n : Note) (st : Planned) :
    (st.note n).allowances = st.allowances := rfl

@[simp] theorem allow_allowances (amount : ℕ) (st : Planned) :
    (st.allow k amount).allowances = Function.update st.allowances k (some amount) := rfl

/-- An approval is inserted if and only if the tracked allowance is too small. -/
theorem ensureAllowance_spec (token spender : Address) (amount : ℕ) (label : String)
    (st : Planned) :
    (effective c st (allowanceKey token spender) < amount →
      (ensureAllowance c token spender amount label st).1.allowances =
          Function.update st.allowances (allowanceKey token spender)
            (some (approveAmountFor c.options.modeUsed amount)) ∧
        (ensureAllowance c token spender amount label st).2 =
          [.erc20EnsureAllowance token spender amount
            (approveAmountFor c.options.modeUsed amount)]) ∧
    (amount ≤ effective c st (allowanceKey token spender) →
      (ensureAllowance c token spender amount label st).1.allowances = st.allowances ∧
        (ensureAllowance c token spender amount label st).2 = []) := by
  unfold ensureAllowance
  dsimp only
  by_cases hplanned : ∃ planned ∈ st.allowances (allowanceKey token spender), amount ≤ planned
  · rw [if_pos hplanned]
    obtain ⟨planned, hmem, hle⟩ := hplanned
    refine ⟨fun hlt ↦ ?_, fun _ ↦ ⟨rfl, rfl⟩⟩
    have heffective : effective c st (allowanceKey token spender) = planned := by
      rw [effective, Option.mem_def.mp hmem]
      rfl
    omega
  · rw [if_neg hplanned]
    have hsame : ∀ st', st'.allowances = st.allowances →
        effective c st' (allowanceKey token spender)
        = effective c st (allowanceKey token spender) := fun st' h ↦ by rw [effective, h, effective]
    constructor
    · intro hlt
      rw [if_neg (by rw [hsame _ (by split <;> rfl)]; omega)]
      constructor
      · split <;> split <;> rfl
      · rfl
    · intro hle
      rw [if_pos (by rw [hsame _ (by split <;> rfl)]; exact hle)]
      exact ⟨by split <;> rfl, rfl⟩

theorem ensureVeApprove_spec (i tokenId : ℕ) (operator : Address) (label : String) (st : Planned) :
    (ensureVeApprove c i tokenId operator label st).1.allowances = st.allowances ∧
      ∀ action ∈ (ensureVeApprove c i tokenId operator label st).2, Neutral c.manifest action := by
  unfold ensureVeApprove
  dsimp only
  repeat' split
  all_goals refine ⟨rfl, fun action hmem ↦ ?_⟩
  all_goals first
    | exact absurd hmem List.not_mem_nil
    | (rw [List.mem_singleton.mp hmem]; exact ⟨rfl, fun _ ↦ rfl⟩)

theorem ensureRouterApprove_spec (i tokenId : ℕ) (label : String) (st : Planned) :
    (ensureRouterApprove c i tokenId label st).1.allowances = st.allowances ∧
      ∀ action ∈ (ensureRouterApprove c i tokenId label st).2, Neutral c.manifest action := by
  unfold ensureRouterApprove
  split
  · exact ⟨rfl, nofun⟩
  · exact ensureVeApprove_spec i tokenId _ label st

theorem inserts_cared {action : AgentAction} {s : Spend} (h : spend c.manifest action = some s)
    (hcared : s.caredFor = true) (i : ℕ) (st : Planned) :
    ∃ token spender label, allowanceKey token spender = s.pair ∧
      inserts c i st action = ensureAllowance c token spender s.amount label st := by
  unfold spend at h
  split at h <;> cases h
  · refine ⟨_, _, "CLAIM->Furnace", rfl, ?_⟩
    simp only [inserts, ensureClaimToFurnace, Manifest.addrClaimToken, if_pos hcared]
  · refine ⟨_, _, "CLAIM->Furnace", rfl, ?_⟩
    simp only [inserts, ensureClaimToFurnace, Manifest.addrClaimToken, if_pos hcared]
  · exact ⟨_, _, "token->Furnace", rfl, rfl⟩
  · exact ⟨_, _, "token->Furnace", rfl, rfl⟩
  · exact ⟨_, _, "token->MineCore", rfl, rfl⟩
  · obtain ⟨hrouter, hclaim⟩ := Bool.and_eq_true_iff.mp hcared
    refine ⟨_, _, "CLAIM->MarketRouter", rfl, ?_⟩
    simp only [inserts, Manifest.addrMarketRouter, Manifest.addrClaimToken, if_pos hrouter,
      if_pos hclaim]

theorem ensureClaimToFurnace_uncared (h : c.manifest.listsClaimToken = false) (claimIn : ℕ)
    (kind : String) (st : Planned) :
    (ensureClaimToFurnace c claimIn kind st).1.allowances = st.allowances ∧
      (ensureClaimToFurnace c claimIn kind st).2 = [] := by
  simp [ensureClaimToFurnace, Manifest.addrClaimToken, h]

theorem inserts_uncared {action : AgentAction} {s : Spend} (h : spend c.manifest action = some s)
    (hcared : s.caredFor = false) (i : ℕ) (st : Planned) :
    (inserts c i st action).1.allowances = st.allowances ∧ (inserts c i st action).2 = [] := by
  unfold spend at h
  split at h <;> cases h
  · exact ensureClaimToFurnace_uncared hcared _ _ st
  · exact ensureClaimToFurnace_uncared hcared _ _ st
  · cases hcared
  · cases hcared
  · cases hcared
  · have hcared : (c.manifest.listsMarketRouter && c.manifest.listsClaimToken) = false := hcared
    cases hrouter : c.manifest.listsMarketRouter
    · simp [inserts, Manifest.addrMarketRouter, hrouter]
    · rw [hrouter, Bool.true_and] at hcared
      simp [inserts, Manifest.addrMarketRouter, Manifest.addrClaimToken, hrouter, hcared]

/-- What an action without a spend announces. -/
def announced (allowances : Pair → Option ℕ) : AgentAction → Pair → Option ℕ
  | .erc20Approve token spender amount =>
      Function.update allowances (allowanceKey token spender) (some amount)
  | .erc20EnsureAllowance token spender _ approveAmount =>
      let k := allowanceKey token spender
      Function.update allowances k (some (max approveAmount ((allowances k).getD 0)))
  | _ => allowances

theorem inserts_other {action : AgentAction} (h : spend c.manifest action = none) (i : ℕ)
    (st : Planned) :
    (inserts c i st action).1.allowances = announced st.allowances action ∧
      ∀ b ∈ (inserts c i st action).2, Neutral c.manifest b := by
  cases action
  case furnaceEnterWithClaim => cases h
  case furnaceEnterWithClaimFromCallerFor => cases h
  case furnaceEnterWithToken => cases h
  case furnaceEnterWithTokenFromCallerFor => cases h
  case mineCoreTakeoverWithToken => cases h
  case marketRouterCreateBonusTargetEscrowWithTarget => cases h
  case marketRouterListLock tokenId _ _ => exact ensureRouterApprove_spec i tokenId _ st
  case marketRouterSellLockToFurnace tokenId _ _ => exact ensureRouterApprove_spec i tokenId _ st
  case marketRouterSellListedLockToFurnace tokenId _ =>
    exact ensureRouterApprove_spec i tokenId _ st
  case veApprove =>
    simp only [inserts]
    split <;> exact ⟨rfl, List.forall_mem_nil _⟩
  all_goals exact ⟨rfl, List.forall_mem_nil _⟩

/-! ## The expanded plan -/

/-- The allowance that is read, where it can be read. -/
def reading (c : Context) (k : Pair) : ℕ := (c.reads.allowance k).getD 0

theorem kept_other {mode : AutoApproveMode} {read : ℕ} {action : AgentAction}
    (h : spend c.manifest action = none) (allowances : Pair → Option ℕ) (allow : Pair → ℕ)
    (rest : List AgentAction) (k : Pair) :
    Kept mode read (allowances k) (allow k) (events c.manifest k (action :: rest)) ↔
      Kept mode read (announced allowances action k) (approved allow action k)
        (events c.manifest k rest) := by
  unfold events
  rw [List.filterMap_cons]
  cases action
  case erc20Approve token spender amount =>
    simp only [event, h, announced, approved]
    by_cases hk : allowanceKey token spender = k
    · subst hk
      simp [Kept]
    · simp [hk, Ne.symm hk]
  case erc20EnsureAllowance token spender minAllowance approveAmount =>
    simp only [event, h, announced, approved]
    by_cases hk : allowanceKey token spender = k
    · subst hk
      simp only [if_true, Kept, Function.update_self]
      split <;> simp
    · simp only [hk, if_false, Function.update_of_ne (Ne.symm hk)]
      split <;> simp [Ne.symm hk]
  all_goals simp only [event, h, announced, approved]

theorem events_spend {action : AgentAction} {s : Spend} (h : spend c.manifest action = some s)
    (rest : List AgentAction) (k : Pair) :
    events c.manifest k (action :: rest) = if s.pair = k
      then .spend s.amount s.caredFor :: events c.manifest k rest
      else events c.manifest k rest := by
  unfold events
  rw [List.filterMap_cons]
  have hevent : event c.manifest k action =
      if s.pair = k then some (.spend s.amount s.caredFor) else none := by
    unfold event
    rw [h]
  rw [hevent]
  by_cases hk : s.pair = k <;> simp [hk]

/-- The allowances after the approval that an announced spend may need. -/
theorem funded_spend {m : Manifest} {action : AgentAction} {s : Spend}
    (h : spend m action = some s) (hcared : s.caredFor = true) (allow : Pair → ℕ)
    (rest : List AgentAction) :
    Funded m allow (action :: rest) ↔ s.amount ≤ allow s.pair ∧ Funded m allow rest ∧
      Funded m (Function.update allow s.pair (spent (allow s.pair) s.amount)) rest := by
  rw [Funded, h]
  dsimp only
  constructor
  · rintro ⟨hfunds, hskip, htake⟩
    exact ⟨hfunds hcared, hskip, htake (hfunds hcared)⟩
  · rintro ⟨hfunds, hskip, htake⟩
    exact ⟨fun _ ↦ hfunds, hskip, fun _ ↦ htake⟩

section Pairs

variable {mode : AutoApproveMode} {read : Pair → ℕ} {p p' : Pair → Option ℕ} {l l' : Pair → ℕ}
  {k₀ : Pair}

/-- Changes at one pair leave the others kept. -/
theorem kept_changed (E : Pair → List Event) (hp : ∀ k, k₀ ≠ k → p' k = p k)
    (hl : ∀ k, k₀ ≠ k → l' k = l k) :
    (∀ k, Kept mode (read k) (p' k) (l' k) (E k)) ↔ Kept mode (read k₀) (p' k₀) (l' k₀) (E k₀) ∧
      ∀ k, k₀ ≠ k → Kept mode (read k) (p k) (l k) (E k) := by
  constructor
  · intro h
    refine ⟨h k₀, fun k hk ↦ ?_⟩
    rw [← hp k hk, ← hl k hk]
    exact h k
  · rintro ⟨hself, hothers⟩ k
    by_cases hk : k₀ = k
    · exact hk ▸ hself
    · rw [hp k hk, hl k hk]
      exact hothers k hk

theorem kept_event (E : Pair → List Event) (e : Event) :
    (∀ k, Kept mode (read k) (p k) (l k) (if k₀ = k then e :: E k else E k)) ↔
      Kept mode (read k₀) (p k₀) (l k₀) (e :: E k₀) ∧
        ∀ k, k₀ ≠ k → Kept mode (read k) (p k) (l k) (E k) := by
  rw [kept_changed _ (fun _ _ ↦ rfl) (fun _ _ ↦ rfl), if_pos rfl]
  refine and_congr_right fun _ ↦ forall_congr' fun k ↦ imp_congr_right fun hk ↦ ?_
  rw [if_neg hk]

theorem update_other {β : Type} (f : Pair → β) (x : β) (k : Pair) (hk : k₀ ≠ k) :
    Function.update f k₀ x k = f k := Function.update_of_ne (Ne.symm hk) x f

end Pairs

/-- The expanded plan is funded if and only if each pair is kept on its own. -/
theorem funded_expand_iff (i : ℕ) (st : Planned) (allow : Pair → ℕ) (actions : List AgentAction) :
    Funded c.manifest allow (expandActions c i st actions).2 ↔
      ∀ k, Kept c.options.modeUsed (reading c k) (st.allowances k) (allow k)
        (events c.manifest k actions) := by
  induction actions generalizing i st allow with
  | nil => exact ⟨fun _ _ ↦ trivial, fun _ ↦ trivial⟩
  | cons action rest ih =>
      rw [expandActions]
      dsimp only
      cases hspend : spend c.manifest action with
      | none =>
          obtain ⟨hallowances, hneutral⟩ := inserts_other hspend i st
          rw [funded_neutral hneutral, Funded, hspend, ih, hallowances]
          exact forall_congr' fun k ↦ (kept_other hspend st.allowances allow rest k).symm
      | some s =>
          simp only [events_spend hspend]
          rw [kept_event]
          -- What the spend leaves of its pair; the other pairs are as they were.
          have hspent (p : Pair → Option ℕ) (l : Pair → ℕ)
              (hp : ∀ k, s.pair ≠ k → p k = st.allowances k)
              (hl : ∀ k, s.pair ≠ k → l k = allow k) :=
            @kept_changed c.options.modeUsed (reading c) st.allowances p allow l s.pair
              (fun k ↦ events c.manifest k rest) hp hl
          cases hcared : s.caredFor with
          | false =>
              obtain ⟨hallowances, hinserts⟩ := inserts_uncared hspend hcared i st
              rw [hinserts, List.nil_append, Funded, hspend]
              simp only [hcared, ih, hallowances, Kept]
              rw [hspent _ _ (fun _ _ ↦ rfl) (fun _ _ ↦ rfl),
                hspent _ _ (fun _ _ ↦ rfl) (update_other allow _), Function.update_self]
              constructor
              · rintro ⟨-, ⟨hskip, hothers⟩, htake⟩
                exact ⟨⟨hskip, fun hle ↦ (htake hle).1⟩, hothers⟩
              · rintro ⟨⟨hskip, htake⟩, hothers⟩
                exact ⟨nofun, ⟨hskip, hothers⟩, fun hle ↦ ⟨htake hle, hothers⟩⟩
          | true =>
              obtain ⟨token, spender, label, hpair, hinserts⟩ := inserts_cared hspend hcared i st
              obtain ⟨hshort, henough⟩ := @ensureAllowance_spec c token spender s.amount label st
              rw [hpair] at hshort henough
              rw [hinserts, Kept]
              by_cases hlt : (st.allowances s.pair).getD (reading c s.pair) < s.amount
              · obtain ⟨hallowances, hinsert⟩ := hshort hlt
                rw [hinsert, List.singleton_append, Funded, if_pos hlt]
                simp only [spend, approved, hpair]
                rw [funded_spend hspend hcared, ih, ih, hallowances]
                generalize hafter : (if allow s.pair < s.amount then _ else allow) = after
                have hself : after s.pair = if allow s.pair < s.amount
                    then approveAmountFor c.options.modeUsed s.amount else allow s.pair := by
                  rw [← hafter]
                  split
                  · exact Function.update_self ..
                  · rfl
                have hothers : ∀ k, s.pair ≠ k → after k = allow k := by
                  intro k hk
                  rw [← hafter]
                  split
                  · exact update_other allow _ k hk
                  · rfl
                rw [hspent _ _ (update_other _ _) hothers, hspent _ _ (update_other _ _)
                  fun k hk ↦ (update_other after _ k hk).trans (hothers k hk)]
                rw [Function.update_self, Function.update_self, hself]
                constructor
                · rintro ⟨hfunds, ⟨hskip, hrest⟩, htake, -⟩
                  exact ⟨⟨hfunds, hskip, htake⟩, hrest⟩
                · rintro ⟨⟨hfunds, hskip, htake⟩, hrest⟩
                  exact ⟨hfunds, ⟨hskip, hrest⟩, htake, hrest⟩
              · obtain ⟨hallowances, hinsert⟩ := henough (Nat.le_of_not_lt hlt)
                rw [hinsert, List.nil_append, funded_spend hspend hcared, ih, ih, hallowances,
                  if_neg hlt, hspent _ _ (fun _ _ ↦ rfl) (fun _ _ ↦ rfl),
                  hspent _ _ (fun _ _ ↦ rfl) (update_other allow _), Function.update_self]
                constructor
                · rintro ⟨hfunds, ⟨hskip, hothers⟩, htake, -⟩
                  exact ⟨⟨hfunds, hskip, htake⟩, hothers⟩
                · rintro ⟨⟨hfunds, hskip, htake⟩, hothers⟩
                  exact ⟨hfunds, ⟨hskip, hothers⟩, htake, hothers⟩

theorem expandActions_sublist (i : ℕ) (st : Planned) (actions : List AgentAction) :
    actions.Sublist (expandActions c i st actions).2 := by
  induction actions generalizing i st with
  | nil => exact .refl _
  | cons action rest ih => exact ((ih _ _).cons_cons action).trans (List.sublist_append_right _ _)

/-- The plan that is executed is the expanded list, also where nothing was inserted. -/
theorem expandPlan_actions (henabled : c.options.enabled = true) (hrpc : c.privateRpcMode ≠ .only)
    (plan : AgentPlan) :
    (expandPlanWithAutoApprovals c plan).plan.actions =
      (expandActions c 0 .init plan.actions).2 := by
  unfold expandPlanWithAutoApprovals
  rw [if_neg (not_not_intro henabled), if_neg hrpc]
  dsimp only
  split
  · next hlength => exact (expandActions_sublist 0 .init plan.actions).eq_of_length hlength.symm
  · rfl

/-- The reads of allowances that are correct where they succeed. -/
def readAllowances (allow : Pair → ℕ) (readable : Pair → Bool) (k : Pair) : Option ℕ :=
  if readable k then some (allow k) else none

/-- The expanded plan keeps the actions in their order, and it is funded if and only if
each pair is kept. -/
theorem expandPlan_funded_iff (plan : AgentPlan) (allow : Pair → ℕ) (readable : Pair → Bool)
    (henabled : c.options.enabled = true) (hrpc : c.privateRpcMode ≠ .only)
    (hreads : c.reads.allowance = readAllowances allow readable) :
    plan.actions.Sublist (expandPlanWithAutoApprovals c plan).plan.actions ∧
      (Funded c.manifest allow (expandPlanWithAutoApprovals c plan).plan.actions ↔
        ∀ k, Kept c.options.modeUsed (if readable k then allow k else 0) none (allow k)
          (events c.manifest k plan.actions)) := by
  rw [expandPlan_actions henabled hrpc]
  refine ⟨expandActions_sublist 0 .init plan.actions, ?_⟩
  rw [funded_expand_iff]
  refine forall_congr' fun k ↦ ?_
  have hreading : reading c k = if readable k then allow k else 0 := by
    rw [reading, hreads, readAllowances]
    split <;> rfl
  rw [hreading]
  rfl

/-! ## Two entries with CLAIM -/

def exampleContext : Context where
  caller := "0xa"
  manifest := ⟨"0xf", "0xc", "0xd", "0xe", "0x9", true, true, true⟩
  reads := ⟨readAllowances (fun _ ↦ 0) (fun _ ↦ true), fun _ _ ↦ none, fun _ _ _ ↦ none,
    fun _ _ ↦ none⟩
  options := ⟨true, none, none⟩
  privateRpcMode := .off

theorem exampleContext_off : exampleContext.privateRpcMode ≠ .only := nofun

def entriesPlan (first second : ℕ) : AgentPlan :=
  ⟨"local", 31337, 1, 1, "0xa", [.furnaceEnterWithClaim first 0 0 false 0,
    .furnaceEnterWithClaim second 0 0 false 0]⟩

theorem events_entries (m : Manifest) (k : Pair) (first second : ℕ) :
    events m k (entriesPlan first second).actions = if allowanceKey m.claimToken m.furnace = k
      then [.spend first m.listsClaimToken, .spend second m.listsClaimToken] else [] := by
  by_cases hk : allowanceKey m.claimToken m.furnace = k <;>
    simp [entriesPlan, events, event, spend, hk]

/-- The second entry needs what the approval of the first one was for. -/
theorem not_expandPlan_funded :
    ¬ ∀ (c : Context) (plan : AgentPlan) (allow : Pair → ℕ) (readable : Pair → Bool),
      c.options.enabled = true → c.privateRpcMode ≠ .only →
      c.reads.allowance = readAllowances allow readable →
        Funded c.manifest allow (expandPlanWithAutoApprovals c plan).plan.actions := by
  intro h
  have hfunded := h exampleContext (entriesPlan 100 100) (fun _ ↦ 0) (fun _ ↦ true) rfl
    exampleContext_off rfl
  rw [expandPlan_actions rfl exampleContext_off, funded_expand_iff] at hfunded
  have hpair := hfunded (allowanceKey exampleContext.manifest.claimToken
    exampleContext.manifest.furnace)
  rw [events_entries, if_pos rfl] at hpair
  simp [Kept, spent, approveAmountFor, maxUint256, exampleContext, AutoApproveOptions.modeUsed,
    Planned.init, reading, readAllowances] at hpair

/-- A larger second entry gets an approval of its own. -/
theorem expandPlan_funded_larger :
    Funded exampleContext.manifest (fun _ ↦ 0)
      (expandPlanWithAutoApprovals exampleContext (entriesPlan 100 200)).plan.actions := by
  refine (expandPlan_funded_iff (entriesPlan 100 200) (fun _ ↦ 0) (fun _ ↦ true) rfl
    exampleContext_off rfl).2.mpr fun k ↦ ?_
  rw [events_entries]
  by_cases hk : allowanceKey exampleContext.manifest.claimToken exampleContext.manifest.furnace = k
  · rw [if_pos hk]
    simp [Kept, spent, approveAmountFor, maxUint256, exampleContext, AutoApproveOptions.modeUsed]
  · rw [if_neg hk]
    trivial

end ClaimRush.Agents.AutoApprovals
