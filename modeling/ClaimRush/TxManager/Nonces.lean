import ClaimRush.TxManager.AtMostOnce

/-!
# One nonce for one request

The cached nonce is ahead of every transaction of the manager that can still be
mined.  A cache that was cleared forgets the transactions that the nonce clients
do not see, and the next request takes the nonce of one of them.
-/

namespace ClaimRush.TxManager

open CallOutcome

/-- Transactions of the manager that can still be mined. -/
def State.pending (s : State) : List Tx :=
  s.accepted.filter fun t ↦ decide (s.accountNonce ≤ t.nonce)

/-- No call broadcasts with the nonce of a pending transaction of another call. -/
def ReusesNoNonce (s : State) : Prop :=
  ∀ c ∈ s.running, c.await = .broadcast → ∀ t ∈ s.pending, t.nonce = c.nonce → t.ticket = c.ticket

/-- The manager is the only sender, and the nonce clients count what is mined. -/
def SoleSender (s : State) : Event → Prop
  | .nonces answers => s.accountNonce ≤ getNetworkPendingNonce answers
  | .foreign => False
  | _ => True

/-- A nonce that is read into an empty cache also counts the pending transactions. -/
def CountsPending (s : State) (e : Event) : Prop :=
  SoleSender s e ∧
    match e with
    | .nonces answers =>
        s.nextNonce = none → ∀ t ∈ s.pending, t.nonce < getNetworkPendingNonce answers
    | _ => True

instance (s : State) : DecidablePred (SoleSender s)
  | .nonces answers => inferInstanceAs (Decidable (s.accountNonce ≤ getNetworkPendingNonce answers))
  | .foreign => inferInstanceAs (Decidable False)
  | .call _ | .acquire | .estimate _ | .sent | .rejected _ | .lost _ | .receipt _ | .notFound _
  | .readError | .mine _ => inferInstanceAs (Decidable True)

instance (s : State) : DecidablePred (CountsPending s)
  | .nonces answers => inferInstanceAs (Decidable (_ ∧ (s.nextNonce = none → ∀ t ∈ s.pending,
      t.nonce < getNetworkPendingNonce answers)))
  | .call _ | .acquire | .estimate _ | .sent | .rejected _ | .lost _ | .receipt _
  | .notFound _ | .readError | .mine _ | .foreign => inferInstanceAs (Decidable (_ ∧ True))

theorem mem_pending {s : State} {t : Tx} :
    t ∈ s.pending ↔ t ∈ s.accepted ∧ s.accountNonce ≤ t.nonce := by
  simp [State.pending]

/-! ## The invariant -/

/-- The nonce of the running call is behind no pending transaction, and shared only
with its own. -/
structure CallAhead (s : State) (c : Running) : Prop where
  pending : ∀ t ∈ s.pending, t.nonce < c.nonce ∨ (t.nonce = c.nonce ∧ t.ticket = c.ticket)
  broadcast : c.hashes ≠ [] → ∃ t ∈ s.accepted, t.nonce = c.nonce
  polled : ∀ hash, c.await = .receipt hash → c.hashes ≠ []

/-- The call broadcasts with the nonce of `t` again, and has read no hash for it. -/
structure Running.Unheard (c : Running) (t : Tx) : Prop where
  hashes : c.hashes = []
  going : ¬ c.wantsNonce
  ticket : t.ticket = c.ticket

def Next.Unheard (t : Tx) : Next → Prop
  | .running _ c => c.Unheard t
  | .done _ _ => False

/-- The cache is behind a pending transaction only while the call that sent it tries
again with the same nonce. -/
structure Ahead (s : State) : Prop where
  cache : ∀ n ∈ s.nextNonce, ∀ t ∈ s.pending, t.nonce < n ∨ ∃ c ∈ s.running, c.Unheard t
  call : ∀ c ∈ s.running, c.await ≠ .allocate → CallAhead s c

theorem Ahead.reusesNoNonce {s : State} (h : Ahead s) : ReusesNoNonce s := by
  intro c hc hawait t ht hnonce
  have hcall := h.call c hc (by simp [hawait])
  obtain hlt | ⟨-, hticket⟩ := hcall.pending t ht
  · omega
  · exact hticket

/-- The cache is ahead when nonces are read, and when a hash is known. -/
theorem Ahead.strict {s : State} {c : Running} (h : Ahead s) (hc : s.running = some c)
    (hheard : c.wantsNonce ∨ c.hashes ≠ []) : ∀ n ∈ s.nextNonce, ∀ t ∈ s.pending, t.nonce < n := by
  intro n hn t ht
  obtain hlt | ⟨c', hc', hunheard⟩ := h.cache n hn t ht
  · exact hlt
  · obtain rfl := Option.some.inj (hc.symm.trans hc')
    obtain hwants | hhashes := hheard
    · exact absurd hwants hunheard.going
    · exact absurd hunheard.hashes hhashes

/-- A nonce read is ahead of the pending transactions. -/
theorem syncNonce_ahead {s : State} (hcache : ∀ n ∈ s.nextNonce, ∀ t ∈ s.pending, t.nonce < n)
    {net : ℕ} (hnet : s.nextNonce = none → ∀ t ∈ s.pending, t.nonce < net) :
    ∀ t ∈ s.pending, t.nonce < syncNonce s.nextNonce net := by
  intro t ht
  unfold syncNonce
  cases hnext : s.nextNonce with
  | none => exact hnet hnext t ht
  | some n =>
      have hlt := hcache n hnext t ht
      dsimp only
      split_ifs
      · omega
      · exact hlt

section Proceed

variable {s : State} {c c' : Running} {n : Next}

theorem CallAhead.onwards (h : CallAhead s c) (hc : Onwards c c') : CallAhead s c' := by
  obtain ⟨⟨hticket, hnonce, hhashes⟩, -, hpolled⟩ := hc
  refine ⟨?_, ?_, fun hash hawait ↦ ?_⟩
  · rw [hnonce, hticket]
    exact h.pending
  · rw [hnonce, hhashes]
    exact h.broadcast
  · rw [hhashes]
    exact h.polled hash (hpolled hash hawait)

theorem Running.Unheard.onwards {t : Tx} (h : c.Unheard t) (hc : Onwards c c') : c'.Unheard t := by
  obtain ⟨⟨hticket, -, hhashes⟩, hwants, -⟩ := hc
  exact ⟨hhashes.trans h.hashes, hwants, h.ticket.trans hticket.symm⟩

/-- The call goes on ahead, with a cache that is ahead. -/
theorem Ahead.proceed (hcache : ∀ m ∈ n.cache, ∀ t ∈ s.pending, t.nonce < m ∨ n.Unheard t)
    (hn : n.Goes fun c' ↦ c'.await ≠ .allocate → CallAhead s c') : Ahead (s.proceed c n) := by
  cases n with
  | running nextNonce c' =>
      refine ⟨fun m hm t ht ↦ (hcache m hm t ht).imp_right fun h ↦ ⟨c', rfl, h⟩,
        fun c'' hc'' hawait ↦ ?_⟩
      obtain rfl := Option.some.inj hc''
      have h := hn hawait
      exact ⟨h.pending, h.broadcast, h.polled⟩
  | done nextNonce o =>
      refine ⟨fun m hm t ht ↦ .inl ?_, fun c'' hc'' ↦ absurd hc'' (Option.not_mem_none c'')⟩
      exact (hcache m hm t ht).resolve_right id

/-- Between the reads of the nonce the cache stays what it is, or it is cleared. -/
theorem Ahead.onwards {nextNonce : Option ℕ}
    (hcache : ∀ m ∈ nextNonce, ∀ t ∈ s.pending, t.nonce < m ∨ c.Unheard t)
    (hcall : CallAhead s c) (hkeeps : n.KeepsCache nextNonce) (hn : n.Goes (Onwards c)) :
    Ahead (s.proceed c' n) := by
  cases n with
  | running kept d =>
      obtain rfl : kept = nextNonce := hkeeps
      exact .proceed (fun m hm t ht ↦ (hcache m hm t ht).imp_right fun h ↦ h.onwards hn)
        fun _ ↦ hcall.onwards hn
  | done cleared o =>
      obtain rfl : cleared = none := hkeeps
      exact .proceed nofun trivial

/-- A call that fails clears the cache. -/
theorem Ahead.failed (o : CallOutcome) : Ahead (s.proceed c (.done none o)) :=
  .proceed nofun trivial

end Proceed

/-! ## Every event -/

section Events

variable {policy : TxReplacementPolicy} {s s' : State} {c : Running}

/-- What the running call says of the cache. -/
theorem Ahead.running (h : Ahead s) (hc : s.running = some c) :
    ∀ m ∈ s.nextNonce, ∀ t ∈ s.pending, t.nonce < m ∨ c.Unheard t := by
  intro m hm t ht
  obtain hlt | ⟨c', hc', hunheard⟩ := h.cache m hm t ht
  · exact .inl hlt
  · obtain rfl := Option.some.inj (hc.symm.trans hc')
    exact .inr hunheard

theorem Ahead.allocate (h : Ahead s) (hc : s.running = some c) (hawait : c.await = .allocate)
    {net : ℕ} (hnet : s.nextNonce = none → ∀ t ∈ s.pending, t.nonce < net) :
    Ahead (s.proceed c (onAllocate s.nextNonce c net)) := by
  have hsync := syncNonce_ahead (h.strict hc (.inl (.inl hawait))) hnet
  refine .proceed (fun m hm t ht ↦ .inl ?_)
    fun _ ↦ ⟨fun t ht ↦ .inl (hsync t ht), fun hne ↦ absurd rfl hne, nofun⟩
  obtain rfl := Option.some.inj hm
  exact hsync t ht

theorem Ahead.resync (h : Ahead s) (hc : s.running = some c) {e : BroadcastError}
    (hawait : c.await = .resync e) {net : ℕ}
    (hnet : s.nextNonce = none → ∀ t ∈ s.pending, t.nonce < net) :
    Ahead (s.proceed c (onResync policy s.nextNonce c e net)) := by
  have hcall := h.call c hc (by simp [hawait])
  have hsync := syncNonce_ahead (h.strict hc (.inl (.inr ⟨e, hawait⟩))) hnet
  unfold onResync
  dsimp only
  split_ifs
  · refine .proceed (fun m hm t ht ↦ .inl ?_) fun hawait ↦ absurd rfl hawait
    obtain rfl := Option.some.inj hm
    exact hsync t ht
  · refine .onwards (fun m hm t ht ↦ .inl ?_) hcall (onOtherError_cache _ _ _ _)
      (onOtherError_onwards _ _ _ _)
    obtain rfl := Option.some.inj hm
    exact hsync t ht

theorem Ahead.rejected (h : Ahead s) (hc : s.running = some c) (hawait : c.await = .broadcast)
    (e : BroadcastError) : Ahead (s.proceed c (onRejected policy s.nextNonce c e)) := by
  have hcall := h.call c hc (by simp [hawait])
  have hsame : CallAhead s { c with lastBroadcastError := some e } :=
    ⟨hcall.pending, hcall.broadcast, hcall.polled⟩
  unfold onRejected
  dsimp only
  split_ifs
  · exact .proceed nofun fun _ ↦ ⟨hcall.pending, hcall.broadcast, nofun⟩
  · refine .onwards (fun m hm t ht ↦ ?_) hsame (onOtherError_cache _ _ _ _)
      (onOtherError_onwards _ _ _ _)
    exact (h.running hc m hm t ht).imp_right fun hu ↦ ⟨hu.hashes, hu.going, hu.ticket⟩

/-- An accepted transaction is pending, unless its nonce is used. -/
theorem mem_pending_accept {t : Tx} (ht : t ∈ (s.accept c).pending) :
    t ∈ s.pending ∨ (t = s.tx c ∧ s.accountNonce ≤ c.nonce) := by
  obtain ⟨haccepted, hnonce⟩ := mem_pending.mp ht
  obtain hold | hnew := List.mem_append.mp haccepted
  · exact .inl (mem_pending.mpr ⟨hold, hnonce⟩)
  · obtain rfl := List.mem_singleton.mp hnew
    exact .inr ⟨rfl, hnonce⟩

/-- The first accepted transaction of a call may stay ahead of the cache, until its hash
is known; the later ones have the nonce of the first. -/
theorem Ahead.accept (h : Ahead s) (hc : s.running = some c) (hawait : c.await = .broadcast) :
    Ahead (s.accept c) := by
  have hcall := h.call c hc (by simp [hawait])
  refine ⟨fun m hm t ht ↦ ?_, fun c' hc' _ ↦ ?_⟩
  · obtain hold | ⟨rfl, hnonce⟩ := mem_pending_accept ht
    · exact h.cache m hm t hold
    by_cases hnil : c.hashes = []
    · exact .inr ⟨c, hc, hnil, not_wantsNonce_broadcast hawait, rfl⟩
    · obtain ⟨u, hu, hsame⟩ := hcall.broadcast hnil
      have hlt := h.strict hc (.inr hnil) m hm u (mem_pending.mpr ⟨hu, by omega⟩)
      rw [hsame] at hlt
      exact .inl hlt
  · obtain rfl := Option.some.inj (hc.symm.trans hc')
    refine ⟨fun t ht ↦ ?_, fun hne ↦ ?_, hcall.polled⟩
    · obtain hold | ⟨rfl, -⟩ := mem_pending_accept ht
      · exact hcall.pending t hold
      · exact .inr ⟨rfl, rfl⟩
    · exact (hcall.broadcast hne).imp fun u hu ↦ ⟨List.mem_append_left _ hu.1, hu.2⟩

/-- The first hash moves the cache behind the nonce of the call. -/
theorem Ahead.sent (h : Ahead s) (hc : s.running = some c) (hawait : c.await = .broadcast)
    (haccepted : ∃ t ∈ s.accepted, t.nonce = c.nonce) (hash : ℕ) :
    Ahead (s.proceed c (onSent s.nextNonce c hash)) := by
  have hcall := h.call c hc (by simp [hawait])
  refine .proceed ?_ fun _ ↦ ⟨hcall.pending, fun _ ↦ haccepted, by simp⟩
  change ∀ m ∈ (if (c.hashes ++ [hash]).length = 1 then some (c.nonce + 1) else s.nextNonce), _
  intro m hm t ht
  left
  split_ifs at hm with hfirst
  · obtain rfl := Option.some.inj hm
    obtain hlt | ⟨heq, -⟩ := hcall.pending t ht
    · exact Nat.lt_succ_of_lt hlt
    · exact Nat.lt_succ_of_le (Nat.le_of_eq heq)
  · have hne : c.hashes ≠ [] := by
      rintro hnil
      simp [hnil] at hfirst
    exact h.strict hc (.inr hne) m hm t ht

theorem Ahead.receipt (h : Ahead s) (hc : s.running = some c) {hash : ℕ}
    (hawait : c.await = .receipt hash) (success : Bool) :
    Ahead (s.check.proceed c (onReceipt s.nextNonce c hash success)) := by
  have hpending : s.check.pending = s.pending := rfl
  have hcache := h.strict hc (.inr ((h.call c hc (by simp [hawait])).polled hash hawait))
  unfold onReceipt
  split_ifs
  · refine .proceed ?_ trivial
    rw [hpending]
    intro m hm t ht
    left
    cases hnext : s.nextNonce with
    | none =>
        rw [hnext] at hm
        cases hm
    | some next =>
        have hlt := hcache next hnext t ht
        rw [hnext] at hm
        simp only [Next.cache] at hm
        split_ifs at hm with hle <;> obtain rfl := Option.some.inj hm <;> omega
  · exact .proceed (fun m hm t ht ↦ .inl (hcache m hm t ht)) trivial

/-- A larger nonce of the account leaves fewer pending transactions. -/
theorem Ahead.mine (h : Ahead s) (mined : List Tx) :
    Ahead { s with accountNonce := s.accountNonce + 1, mined := mined } := by
  have hpending : ∀ t ∈ State.pending { s with accountNonce := s.accountNonce + 1, mined := mined },
      t ∈ s.pending := by
    intro t ht
    obtain ⟨haccepted, hnonce⟩ := mem_pending.mp ht
    exact mem_pending.mpr ⟨haccepted, Nat.le_of_succ_le hnonce⟩
  refine ⟨fun n hn t ht ↦ h.cache n hn t (hpending t ht), fun c hc hawait ↦ ?_⟩
  have hcall := h.call c hc hawait
  exact ⟨fun t ht ↦ hcall.pending t (hpending t ht), hcall.broadcast, hcall.polled⟩

end Events

theorem Ahead.answer {policy : TxReplacementPolicy} {s s' : State} {c : Running} {e : Event}
    (h : Ahead s) (hc : s.running = some c) (hcounts : CountsPending s e)
    (happly : s.answer policy c e = some s') : Ahead s' := by
  cases e with
  | nonces answers =>
      simp only [State.answer] at happly
      split at happly
      case h_1 hawait =>
        obtain rfl := Option.some.inj happly
        exact h.allocate hc hawait hcounts.2
      case h_2 e hawait =>
        obtain rfl := Option.some.inj happly
        exact h.resync hc hawait hcounts.2
      case h_3 => cases happly
  | estimate fees =>
      simp only [State.answer] at happly
      split at happly
      case h_1 hawait =>
        obtain rfl := Option.some.inj happly
        exact .onwards (h.running hc) (h.call c hc (by simp [hawait])) rfl
          (onInitialFees_onwards _ _ _)
      case h_2 hawait =>
        obtain rfl := Option.some.inj happly
        exact .onwards (h.running hc) (h.call c hc (by simp [hawait])) (nextAttempt_cache _ _ _ _)
          (onBumpedFees_onwards _ _ _ _)
      case h_3 hawait =>
        obtain rfl := Option.some.inj happly
        exact .onwards (h.running hc) (h.call c hc (by simp [hawait])) (nextAttempt_cache _ _ _ _)
          (onBumpedFees_onwards _ _ _ _)
      case h_4 => cases happly
  | sent =>
      simp only [State.answer] at happly
      split at happly
      case h_1 hawait =>
        obtain rfl := Option.some.inj happly
        exact (h.accept hc hawait).sent hc hawait
          ⟨s.tx c, List.mem_append_right _ (List.mem_singleton_self _), rfl⟩ _
      case h_2 => cases happly
  | rejected err =>
      simp only [State.answer] at happly
      split at happly
      case h_1 hawait =>
        obtain rfl := Option.some.inj happly
        exact h.rejected hc hawait err
      case h_2 => cases happly
  | lost err =>
      simp only [State.answer] at happly
      split at happly
      case h_1 hawait =>
        obtain rfl := Option.some.inj happly
        exact (h.accept hc hawait).rejected hc hawait err
      case h_2 => cases happly
  | receipt success =>
      simp only [State.answer] at happly
      split at happly
      case h_1 hash hawait =>
        obtain rfl := Option.some.inj happly
        exact h.receipt hc hawait success
      case h_2 => cases happly
  | notFound timedOut =>
      simp only [State.answer] at happly
      split at happly
      case h_1 hash hawait =>
        obtain rfl := Option.some.inj happly
        have hcall := h.call c hc (by simp [hawait])
        exact .onwards (s := s.check) (h.running hc) ⟨hcall.pending, hcall.broadcast, hcall.polled⟩
          (onNotFound_cache _ _ _ _) (onNotFound_onwards _ _ _ (not_wantsNonce hawait) _)
      case h_2 => cases happly
  | readError =>
      simp only [State.answer] at happly
      split at happly
      case h_1 =>
        obtain rfl := Option.some.inj happly
        exact .failed _
      case h_2 => cases happly
  | call _ => cases happly
  | acquire => cases happly
  | mine _ => cases happly
  | foreign => cases happly

theorem Ahead.apply {policy : TxReplacementPolicy} {s s' : State} {e : Event} (h : Ahead s)
    (hcounts : CountsPending s e) (happly : s.apply policy e = some s') : Ahead s' := by
  cases e with
  | call request =>
      obtain rfl := Option.some.inj happly
      refine ⟨h.cache, fun c hc hawait ↦ ?_⟩
      have hcall := h.call c hc hawait
      exact ⟨hcall.pending, hcall.broadcast, hcall.polled⟩
  | acquire =>
      simp only [State.apply] at happly
      split at happly
      case h_1 hrunning _ =>
        obtain rfl := Option.some.inj happly
        refine ⟨fun n hn t ht ↦ (h.cache n hn t ht).imp_right ?_, fun c hc hawait ↦ ?_⟩
        · rintro ⟨c, hc, -⟩
          rw [hrunning] at hc
          cases hc
        · obtain rfl := Option.some.inj hc
          exact absurd rfl hawait
      case h_2 => cases happly
  | mine hash =>
      simp only [State.apply] at happly
      split at happly
      case h_1 =>
        split_ifs at happly
        obtain rfl := Option.some.inj happly
        exact h.mine _
      case h_2 => cases happly
  | foreign => exact hcounts.1.elim
  | _ =>
      simp only [State.apply] at happly
      split at happly
      case h_1 c hc => exact h.answer hc hcounts happly
      case h_2 => cases happly

/-- In every run in which the nonces that are read into an empty cache count the
pending transactions, no request takes the nonce of a pending transaction. -/
theorem counting_reuses_no_nonce (policy : TxReplacementPolicy) {s : State}
    (hs : (system policy CountsPending).Reachable s) : ReusesNoNonce s := by
  have hahead : Ahead s := by
    refine hs.invariant (fun s hs ↦ ?_) fun s s' _ h ⟨e, hcounts, happly⟩ ↦ h.apply hcounts happly
    obtain rfl : s = {} := hs
    exact ⟨nofun, nofun⟩
  exact hahead.reusesNoNonce

/-- A second request waits for its broadcast while the first is still pending, whose
replacement was accepted and answered with an error. -/
theorem counting_reuses_no_nonce_second :
    ∃ s, (system replacing CountsPending).Reachable s ∧
      (s.pending = [⟨0, 0, 0⟩, ⟨1, 0, 0⟩] ∧ s.running =
        some { ticket := 1, request := ⟨8, none⟩, nonce := 1, await := .broadcast }) ∧
      ReusesNoNonce s := by
  obtain ⟨s, hs, hwaits⟩ := runEvents_witness replacing CountsPending
    (timedOut ++ [.lost ⟨false, false, false⟩, .call ⟨8, none⟩, .acquire, agreed 1,
      .estimate none])
    (fun s ↦ decide (s.pending = [⟨0, 0, 0⟩, ⟨1, 0, 0⟩] ∧ s.running =
      some { ticket := 1, request := ⟨8, none⟩, nonce := 1, await := .broadcast })) (by decide)
  exact ⟨s, hs, of_decide_eq_true hwaits, counting_reuses_no_nonce replacing hs⟩

/-- Without replacements. -/
def pollingOnly : TxReplacementPolicy := { replacing with enabled := false }

/-- The first request times out and is still pending; the nonce clients do not see
it, and the next request is broadcast with its nonce. -/
def forgotten : List Event :=
  timedOut ++ [.call ⟨8, none⟩, .acquire, agreed 0, .estimate none]

/-- The manager may replace a pending transaction by another request. -/
theorem not_reuses_no_nonce :
    ¬ ∀ policy s, (system policy SoleSender).Reachable s → ReusesNoNonce s := by
  intro h
  obtain ⟨s, hs, hreused⟩ := runEvents_witness pollingOnly SoleSender forgotten
    (fun s ↦ decide (s.pending = [⟨0, 0, 0⟩] ∧
      s.running = some { ticket := 1, request := ⟨8, none⟩, await := .broadcast })) (by decide)
  obtain ⟨hpending, hrunning⟩ := of_decide_eq_true hreused
  have hsame := h pollingOnly s hs _ hrunning rfl ⟨0, 0, 0⟩ (by rw [hpending]; simp) rfl
  exact absurd hsame (by decide)

end ClaimRush.TxManager
