import ClaimRush.TxManager.Network

/-!
# One execution of a request

A call that is told to take a fresh nonce, after a transaction of its own was
accepted, broadcasts its request under a second nonce, and both may be mined.
Without such an answer all transactions of a call share one nonce.
-/

namespace ClaimRush.TxManager

open CallOutcome

/-- At most one transaction of each call is mined. -/
def ExecutesOnce (s : State) : Prop := s.mined.Pairwise fun t u ↦ t.ticket ≠ u.ticket

/-- A call that timed out had no mined transaction when it last checked. -/
def TimesOutTruthfully (s : State) : Prop :=
  ∀ f ∈ s.finished, ∀ nonce hashes, f.outcome = timeout nonce hashes →
    ∀ t ∈ f.minedAtLastCheck, t.ticket ≠ f.ticket

/-- The network asks for a fresh nonce only while it has accepted no transaction of the
call, finds what is mined, and mines no transaction that the call replaces. -/
def Cooperative (s : State) : Event → Prop
  | .rejected e => ∀ c ∈ s.running, ∀ t ∈ s.accepted, t.ticket = c.ticket →
      (e.nonceTooLow || e.nonceTooHigh) = false
  | .lost e => (e.nonceTooLow || e.nonceTooHigh) = false
  | .notFound _ => ∀ c ∈ s.running, ∀ t ∈ s.mined, c.await ≠ .receipt t.hash
  | .mine hash => ∀ c ∈ s.running, ∀ t ∈ s.accepted, t.hash = hash → t.ticket = c.ticket →
      c.hashes.getLast? = some hash
  | .sent => ∀ c ∈ s.running, ∀ t ∈ s.mined, t.ticket ≠ c.ticket
  | _ => True

instance (s : State) : DecidablePred (Cooperative s)
  | .rejected e => inferInstanceAs (Decidable (∀ c ∈ s.running, ∀ t ∈ s.accepted,
      t.ticket = c.ticket → (e.nonceTooLow || e.nonceTooHigh) = false))
  | .lost e => inferInstanceAs (Decidable ((e.nonceTooLow || e.nonceTooHigh) = false))
  | .notFound _ => inferInstanceAs (Decidable (∀ c ∈ s.running, ∀ t ∈ s.mined,
      c.await ≠ .receipt t.hash))
  | .mine hash => inferInstanceAs (Decidable (∀ c ∈ s.running, ∀ t ∈ s.accepted, t.hash = hash →
      t.ticket = c.ticket → c.hashes.getLast? = some hash))
  | .sent => inferInstanceAs (Decidable (∀ c ∈ s.running, ∀ t ∈ s.mined, t.ticket ≠ c.ticket))
  | .call _ | .acquire | .nonces _ | .estimate _ | .receipt _ | .readError | .foreign =>
      inferInstanceAs (Decidable True)

/-! ## The invariant -/

/-- The chain and the accepted transactions. -/
structure Ledger (s : State) : Prop where
  started : ∀ t ∈ s.accepted, t.ticket < s.started
  sameNonce : ∀ t ∈ s.accepted, ∀ u ∈ s.accepted, t.ticket = u.ticket → t.nonce = u.nonce
  mined_mem : ∀ t ∈ s.mined, t ∈ s.accepted
  mined_lt : ∀ t ∈ s.mined, t.nonce < s.accountNonce
  mined_nonces : s.mined.Pairwise fun t u ↦ t.nonce ≠ u.nonce

/-- The running call: its accepted transactions have its nonce, and only its last
transaction may be mined. -/
structure CallSound (s : State) (c : Running) : Prop where
  ticket : c.ticket < s.started
  txs : ∀ t ∈ s.accepted, t.ticket = c.ticket → t.nonce = c.nonce
  wants : c.wantsNonce → ∀ t ∈ s.accepted, t.ticket ≠ c.ticket
  polled : ∀ hash, c.await = .receipt hash → c.hashes.getLast? = some hash
  last : ∀ t ∈ s.mined, t.ticket = c.ticket → c.hashes.getLast? = some t.hash
  clean : ∀ t ∈ s.minedAtLastCheck, t.ticket ≠ c.ticket

structure Sound (s : State) : Prop where
  ledger : Ledger s
  truthful : TimesOutTruthfully s
  call : ∀ c, s.running = some c → CallSound s c

/-- Two mined transactions of one call would have the same nonce. -/
theorem Ledger.once {s : State} (h : Ledger s) : ExecutesOnce s := by
  refine h.mined_nonces.imp_of_mem fun {t u} ht hu hne htickets ↦ hne ?_
  exact h.sameNonce t (h.mined_mem t ht) u (h.mined_mem u hu) htickets

section Proceed

variable {s : State} {c c' : Running} {n : Next}

theorem CallSound.onwards (h : CallSound s c) (hc : Onwards c c') : CallSound s c' := by
  obtain ⟨⟨hticket, hnonce, hhashes⟩, hwants, hpolled⟩ := hc
  refine ⟨?_, ?_, fun hw ↦ absurd hw hwants, ?_, ?_, ?_⟩
  · rw [hticket]
    exact h.ticket
  · rw [hticket, hnonce]
    exact h.txs
  · rw [hhashes]
    exact fun hash hawait ↦ h.polled hash (hpolled hash hawait)
  · rw [hticket, hhashes]
    exact h.last
  · rw [hticket]
    exact h.clean

theorem CallSound.goes (h : CallSound s c) (hn : n.Goes (Onwards c)) : n.Goes (CallSound s) := by
  cases n with
  | running nextNonce c' => exact h.onwards hn
  | done nextNonce o => trivial

/-- The call goes on soundly, or ends with what it last checked. -/
theorem Sound.proceed (hledger : Ledger s) (htruthful : TimesOutTruthfully s)
    (hn : n.Goes (CallSound s))
    (hdone : ∀ nextNonce nonce hashes, n = .done nextNonce (timeout nonce hashes) →
      ∀ t ∈ s.minedAtLastCheck, t.ticket ≠ c.ticket) : Sound (s.proceed c n) := by
  cases n with
  | running nextNonce c' =>
      refine ⟨⟨hledger.started, hledger.sameNonce, hledger.mined_mem, hledger.mined_lt,
        hledger.mined_nonces⟩, htruthful, fun c'' hc'' ↦ ?_⟩
      obtain rfl := Option.some.inj hc''
      exact ⟨hn.ticket, hn.txs, hn.wants, hn.polled, hn.last, hn.clean⟩
  | done nextNonce o =>
      refine ⟨⟨hledger.started, hledger.sameNonce, hledger.mined_mem, hledger.mined_lt,
        hledger.mined_nonces⟩, fun f hf nonce hashes houtcome ↦ ?_,
        fun c'' hc'' ↦ absurd hc'' (Option.not_mem_none c'')⟩
      obtain hf | hf := List.mem_append.mp hf
      · exact htruthful f hf nonce hashes houtcome
      · obtain rfl := List.mem_singleton.mp hf
        obtain rfl : o = timeout nonce hashes := houtcome
        exact hdone nextNonce nonce hashes rfl

end Proceed

/-! ## Every event -/

section Events

variable {policy : TxReplacementPolicy} {s s' : State} {c : Running}

/-- Without accepted transactions the call may take any nonce. -/
theorem CallSound.allocate (h : CallSound s c) (hledger : Ledger s) (hwants : c.wantsNonce)
    (nextNonce : Option ℕ) (net : ℕ) : (onAllocate nextNonce c net).Goes (CallSound s) := by
  have hnone := h.wants hwants
  refine ⟨h.ticket, fun t ht hticket ↦ absurd hticket (hnone t ht), fun _ ↦ hnone, nofun, ?_,
    h.clean⟩
  exact fun t ht hticket ↦ absurd hticket (hnone t (hledger.mined_mem t ht))

theorem CallSound.resync (h : CallSound s c) {e : BroadcastError} (hawait : c.await = .resync e)
    (nextNonce : Option ℕ) (net : ℕ) : (onResync policy nextNonce c e net).Goes (CallSound s) := by
  have hnone := h.wants (.inr ⟨e, hawait⟩)
  unfold onResync
  dsimp only
  split_ifs
  · exact ⟨h.ticket, h.txs, fun _ ↦ hnone, nofun, h.last, h.clean⟩
  · exact h.goes (onOtherError_onwards _ _ _ _)

theorem CallSound.rejected (h : CallSound s c) {e : BroadcastError}
    (hfresh : ∀ t ∈ s.accepted, t.ticket = c.ticket → (e.nonceTooLow || e.nonceTooHigh) = false)
    (nextNonce : Option ℕ) : (onRejected policy nextNonce c e).Goes (CallSound s) := by
  unfold onRejected
  dsimp only
  split_ifs with hnonce
  · refine ⟨h.ticket, h.txs, fun _ t ht hticket ↦ ?_, nofun, h.last, h.clean⟩
    rw [hfresh t ht hticket] at hnonce
    cases hnonce
  · have hsame : CallSound s { c with lastBroadcastError := some e } :=
      ⟨h.ticket, h.txs, h.wants, h.polled, h.last, h.clean⟩
    exact hsame.goes (onOtherError_onwards _ _ _ _)

/-- An accepted transaction has the nonce of its call. -/
theorem Ledger.accept (h : Ledger s) (hc : CallSound s c) : Ledger (s.accept c) := by
  refine ⟨fun t ht ↦ ?_, fun t ht u hu hticket ↦ ?_,
    fun t ht ↦ List.mem_append_left _ (h.mined_mem t ht), h.mined_lt, h.mined_nonces⟩
  · obtain ht | ht := List.mem_append.mp ht
    · exact h.started t ht
    · obtain rfl := List.mem_singleton.mp ht
      exact hc.ticket
  · obtain ht | ht := List.mem_append.mp ht <;> obtain hu | hu := List.mem_append.mp hu
    · exact h.sameNonce t ht u hu hticket
    · obtain rfl := List.mem_singleton.mp hu
      exact hc.txs t ht hticket
    · obtain rfl := List.mem_singleton.mp ht
      exact (hc.txs u hu hticket.symm).symm
    · obtain rfl := List.mem_singleton.mp ht
      obtain rfl := List.mem_singleton.mp hu
      rfl

theorem not_wantsNonce_broadcast (hawait : c.await = .broadcast) : ¬ c.wantsNonce := by
  rintro (h | ⟨e, h⟩) <;> rw [hawait] at h <;> cases h

theorem CallSound.accept (h : CallSound s c) (hawait : c.await = .broadcast) :
    CallSound (s.accept c) c := by
  refine ⟨h.ticket, fun t ht hticket ↦ ?_, fun hw ↦ absurd hw (not_wantsNonce_broadcast hawait),
    h.polled, h.last, h.clean⟩
  obtain ht | ht := List.mem_append.mp ht
  · exact h.txs t ht hticket
  · obtain rfl := List.mem_singleton.mp ht
    rfl

theorem CallSound.sent (h : CallSound s c) (hunmined : ∀ t ∈ s.mined, t.ticket ≠ c.ticket)
    (nextNonce : Option ℕ) (hash : ℕ) : (onSent nextNonce c hash).Goes (CallSound s) := by
  refine ⟨h.ticket, h.txs, ?_, fun hash' hawait ↦ ?_,
    fun t ht hticket ↦ absurd hticket (hunmined t ht), h.clean⟩
  · rintro (hw | ⟨e, hw⟩)
    · cases hw
    · cases hw
  · obtain rfl := Await.receipt.inj hawait
    exact List.getLast?_concat

/-- A mined transaction uses the nonce of the account. -/
theorem Ledger.mine (h : Ledger s) {t : Tx} (ht : t ∈ s.accepted)
    (hnonce : t.nonce = s.accountNonce) :
    Ledger { s with accountNonce := s.accountNonce + 1, mined := s.mined ++ [t] } := by
  refine ⟨h.started, h.sameNonce, fun u hu ↦ ?_, fun u hu ↦ ?_, ?_⟩
  · obtain hu | hu := List.mem_append.mp hu
    · exact h.mined_mem u hu
    · obtain rfl := List.mem_singleton.mp hu
      exact ht
  · obtain hu | hu := List.mem_append.mp hu
    · exact Nat.lt_succ_of_lt (h.mined_lt u hu)
    · obtain rfl := List.mem_singleton.mp hu
      exact Nat.lt_succ_of_le (Nat.le_of_eq hnonce)
  · refine List.pairwise_append.mpr
      ⟨h.mined_nonces, List.pairwise_singleton _ _, fun u hu v hv ↦ ?_⟩
    obtain rfl := List.mem_singleton.mp hv
    have hlt := h.mined_lt u hu
    omega

/-- A read that finds nothing says that no transaction of the call is mined. -/
theorem CallSound.check (h : CallSound s c) {hash : ℕ} (hawait : c.await = .receipt hash)
    (hfound : ∀ t ∈ s.mined, t.hash ≠ hash) : CallSound s.check c := by
  refine ⟨h.ticket, h.txs, h.wants, h.polled, h.last, fun t ht hticket ↦ hfound t ht ?_⟩
  have hlast := h.last t ht hticket
  rw [h.polled hash hawait] at hlast
  exact (Option.some.inj hlast).symm

theorem not_wantsNonce {hash : ℕ} (hawait : c.await = .receipt hash) : ¬ c.wantsNonce := by
  rintro (h | ⟨e, h⟩) <;> rw [hawait] at h <;> cases h

end Events

theorem Sound.answer {policy : TxReplacementPolicy} {s s' : State} {c : Running} {e : Event}
    (h : Sound s) (hc : s.running = some c) (hcoop : Cooperative s e)
    (happly : s.answer policy c e = some s') : Sound s' := by
  have hcall := h.call c hc
  have hclean : ∀ (n : Next) nextNonce nonce hashes, n = .done nextNonce (timeout nonce hashes) →
      ∀ t ∈ s.minedAtLastCheck, t.ticket ≠ c.ticket := fun _ _ _ _ _ ↦ hcall.clean
  cases e with
  | nonces answers =>
      simp only [State.answer] at happly
      split at happly
      case h_1 hawait =>
        obtain rfl := Option.some.inj happly
        exact .proceed h.ledger h.truthful (hcall.allocate h.ledger (.inl hawait) _ _) (hclean _)
      case h_2 e hawait =>
        obtain rfl := Option.some.inj happly
        exact .proceed h.ledger h.truthful (hcall.resync hawait _ _) (hclean _)
      case h_3 => cases happly
  | estimate fees =>
      simp only [State.answer] at happly
      split at happly
      case h_1 =>
        obtain rfl := Option.some.inj happly
        exact .proceed h.ledger h.truthful (hcall.goes (onInitialFees_onwards _ _ _)) (hclean _)
      case h_2 =>
        obtain rfl := Option.some.inj happly
        exact .proceed h.ledger h.truthful (hcall.goes (onBumpedFees_onwards _ _ _ _)) (hclean _)
      case h_3 =>
        obtain rfl := Option.some.inj happly
        exact .proceed h.ledger h.truthful (hcall.goes (onBumpedFees_onwards _ _ _ _)) (hclean _)
      case h_4 => cases happly
  | sent =>
      simp only [State.answer] at happly
      split at happly
      case h_1 hawait =>
        obtain rfl := Option.some.inj happly
        exact .proceed (h.ledger.accept hcall) h.truthful
          ((hcall.accept hawait).sent (hcoop c hc) _ _) (hclean _)
      case h_2 => cases happly
  | rejected err =>
      simp only [State.answer] at happly
      split at happly
      case h_1 =>
        obtain rfl := Option.some.inj happly
        exact .proceed h.ledger h.truthful (hcall.rejected (hcoop c hc) _) (hclean _)
      case h_2 => cases happly
  | lost err =>
      simp only [State.answer] at happly
      split at happly
      case h_1 hawait =>
        obtain rfl := Option.some.inj happly
        exact .proceed (h.ledger.accept hcall) h.truthful
          ((hcall.accept hawait).rejected (fun _ _ _ ↦ hcoop) _) (hclean _)
      case h_2 => cases happly
  | receipt success =>
      simp only [State.answer] at happly
      split at happly
      case h_1 =>
        obtain rfl := Option.some.inj happly
        unfold onReceipt
        split_ifs
        · exact .proceed ⟨h.ledger.started, h.ledger.sameNonce,
            h.ledger.mined_mem, h.ledger.mined_lt,
            h.ledger.mined_nonces⟩ h.truthful trivial fun _ _ _ heq ↦ nomatch (Next.done.inj heq).2
        · exact .proceed ⟨h.ledger.started, h.ledger.sameNonce,
            h.ledger.mined_mem, h.ledger.mined_lt,
            h.ledger.mined_nonces⟩ h.truthful trivial fun _ _ _ heq ↦ nomatch (Next.done.inj heq).2
      case h_2 => cases happly
  | notFound timedOut =>
      simp only [State.answer] at happly
      split at happly
      case h_1 hash hawait =>
        obtain rfl := Option.some.inj happly
        have hchecked := hcall.check hawait fun t ht hhash ↦ hcoop c hc t ht (hhash ▸ hawait)
        refine .proceed ⟨h.ledger.started, h.ledger.sameNonce, h.ledger.mined_mem,
          h.ledger.mined_lt, h.ledger.mined_nonces⟩ h.truthful
          (hchecked.goes (onNotFound_onwards _ _ _ (not_wantsNonce hawait) _)) ?_
        exact fun _ _ _ _ ↦ hchecked.clean
      case h_2 => cases happly
  | readError =>
      simp only [State.answer] at happly
      split at happly
      case h_1 =>
        obtain rfl := Option.some.inj happly
        exact .proceed ⟨h.ledger.started, h.ledger.sameNonce, h.ledger.mined_mem, h.ledger.mined_lt,
          h.ledger.mined_nonces⟩ h.truthful trivial nofun
      case h_2 => cases happly
  | call _ => cases happly
  | acquire => cases happly
  | mine _ => cases happly
  | foreign => cases happly

/-- The calls that wait change nothing, and the chain only grows. -/
theorem Sound.apply {policy : TxReplacementPolicy} {s s' : State} {e : Event} (h : Sound s)
    (hcoop : Cooperative s e) (happly : s.apply policy e = some s') : Sound s' := by
  have hledger := h.ledger
  cases e with
  | call request =>
      obtain rfl := Option.some.inj happly
      exact ⟨⟨hledger.started, hledger.sameNonce, hledger.mined_mem, hledger.mined_lt,
        hledger.mined_nonces⟩, h.truthful, fun c hc ↦
          have hcall := h.call c hc
          ⟨hcall.ticket, hcall.txs, hcall.wants, hcall.polled, hcall.last, hcall.clean⟩⟩
  | acquire =>
      simp only [State.apply] at happly
      split at happly
      case h_1 request rest hrunning hwaiting =>
        obtain rfl := Option.some.inj happly
        refine ⟨⟨fun t ht ↦ Nat.lt_succ_of_lt (hledger.started t ht), hledger.sameNonce,
          hledger.mined_mem, hledger.mined_lt, hledger.mined_nonces⟩, h.truthful, fun c hc ↦ ?_⟩
        obtain rfl := Option.some.inj hc
        have hnone : ∀ t ∈ s.accepted, t.ticket ≠ s.started := fun t ht ↦
          Nat.ne_of_lt (hledger.started t ht)
        refine ⟨Nat.lt_succ_self _, fun t ht hticket ↦ absurd hticket (hnone t ht), fun _ ↦ hnone,
          nofun, fun t ht hticket ↦ absurd hticket (hnone t (hledger.mined_mem t ht)), ?_⟩
        exact fun t ht ↦ absurd ht List.not_mem_nil
      case h_2 => cases happly
  | mine hash =>
      simp only [State.apply] at happly
      split at happly
      case h_1 t hfind =>
        split_ifs at happly with hnonce
        obtain rfl := Option.some.inj happly
        have ht := List.mem_of_find?_eq_some hfind
        have hhash : t.hash = hash := by simpa using List.find?_some hfind
        refine ⟨hledger.mine ht hnonce, h.truthful, fun c hc ↦ ?_⟩
        have hcall := h.call c hc
        refine ⟨hcall.ticket, hcall.txs, hcall.wants, hcall.polled,
          fun u hu hticket ↦ ?_, hcall.clean⟩
        obtain hu | hu := List.mem_append.mp hu
        · exact hcall.last u hu hticket
        · obtain rfl := List.mem_singleton.mp hu
          rw [hhash]
          exact hcoop c hc u ht hhash hticket
      case h_2 => cases happly
  | foreign =>
      obtain rfl := Option.some.inj happly
      refine ⟨⟨hledger.started, hledger.sameNonce, hledger.mined_mem,
        fun t ht ↦ Nat.lt_succ_of_lt (hledger.mined_lt t ht), hledger.mined_nonces⟩, h.truthful, ?_⟩
      intro c hc
      have hcall := h.call c hc
      exact ⟨hcall.ticket, hcall.txs, hcall.wants, hcall.polled, hcall.last, hcall.clean⟩
  | _ =>
      simp only [State.apply] at happly
      split at happly
      case h_1 c hc => exact h.answer hc hcoop happly
      case h_2 => cases happly

/-- In every run of a cooperative network, at most one transaction of each call is
mined, and a call that times out had none mined when it last checked. -/
theorem cooperative_executes_once (policy : TxReplacementPolicy) {s : State}
    (hs : (system policy Cooperative).Reachable s) : ExecutesOnce s ∧ TimesOutTruthfully s := by
  have hsound : Sound s := by
    refine hs.invariant (fun s hs ↦ ?_) fun s s' _ h ⟨e, hcoop, happly⟩ ↦ h.apply hcoop happly
    obtain rfl : s = {} := hs
    refine ⟨⟨?_, ?_, ?_, ?_, .nil⟩, ?_, nofun⟩ <;> exact fun t ht ↦ absurd ht List.not_mem_nil
  exact ⟨hsound.ledger.once, hsound.truthful⟩

/-- Replacements after a timeout, with higher fees. -/
def replacing : TxReplacementPolicy where
  enabled := true
  maxAttempts := 2
  feeBumpBps := 12500

def nonceTooLow : BroadcastError where
  nonceTooLow := true
  nonceTooHigh := false
  replacementUnderpriced := false

/-- The nonce clients agree on `n`. -/
def agreed (n : ℕ) : Event := .nonces [⟨some n, some n⟩]

/-- A request is accepted for the nonce 0 and polled until the timeout. -/
def timedOut : List Event :=
  [.call ⟨7, some (.legacy 100)⟩, .acquire, agreed 0, .estimate none, .sent, .notFound true]

/-- A replacement is accepted and answered as underpriced, the call times out, and its
first transaction is mined afterwards. -/
theorem cooperative_executes_once_mined :
    ∃ s, (system replacing Cooperative).Reachable s ∧
      (s.mined = [⟨0, 0, 0⟩] ∧ s.finished = [⟨0, .timeout 0 [0], []⟩]) ∧
      ExecutesOnce s ∧ TimesOutTruthfully s := by
  obtain ⟨s, hs, hmined⟩ := runEvents_witness replacing Cooperative
    (timedOut ++ [.lost ⟨false, false, true⟩, .mine 0])
    (fun s ↦ decide (s.mined = [⟨0, 0, 0⟩] ∧ s.finished = [⟨0, .timeout 0 [0], []⟩])) (by decide)
  exact ⟨s, hs, of_decide_eq_true hmined, cooperative_executes_once replacing hs⟩

/-- The first transaction is mined before the replacement, which is told that its
nonce is too low; the request is sent again under the next nonce. -/
def executedTwice : List Event :=
  timedOut ++ [.mine 0, .rejected nonceTooLow, agreed 1, agreed 1, .estimate none, .sent, .mine 1,
    .receipt true]

/-- The first transaction is mined while only its replacement is polled. -/
def minedUnseen : List Event := timedOut ++ [.sent, .mine 0, .notFound true]

/-- A request may be executed twice, and a timeout may be reported although a
transaction of the call was mined. -/
theorem not_executes_once :
    ¬ ∀ policy s, (system policy anyNetwork).Reachable s →
      ExecutesOnce s ∧ TimesOutTruthfully s := by
  intro h
  obtain ⟨s, hs, htwice⟩ := runEvents_witness replacing anyNetwork executedTwice
    (fun s ↦ decide (s.mined = [⟨0, 0, 0⟩, ⟨1, 0, 1⟩])) (by decide)
  have honce := (h replacing s hs).1
  rw [ExecutesOnce, of_decide_eq_true htwice] at honce
  exact (List.rel_of_pairwise_cons honce (List.mem_singleton_self _)) rfl

theorem not_times_out_truthfully :
    ∃ s, (system replacing anyNetwork).Reachable s ∧ ¬ TimesOutTruthfully s := by
  obtain ⟨s, hs, hunseen⟩ := runEvents_witness replacing anyNetwork minedUnseen
    (fun s ↦ decide (s.finished = [⟨0, .timeout 0 [0, 1], [⟨0, 0, 0⟩]⟩])) (by decide)
  refine ⟨s, hs, fun h ↦ ?_⟩
  rw [TimesOutTruthfully, of_decide_eq_true hunseen] at h
  exact h _ (List.mem_singleton_self _) 0 [0, 1] rfl _ (List.mem_singleton_self _) rfl

end ClaimRush.TxManager
