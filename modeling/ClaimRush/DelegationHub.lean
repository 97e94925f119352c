import ClaimRush.ClaimToken
import ClaimRush.Lib.Driven

/-!
# DelegationHub

A user grants a delegate a set of permissions until an expiry, directly or by a
signed message that anyone may deliver.  Every accepted change of a user takes
one value of the user's nonce, so a message is bound to its place among the
user's changes.
-/

open Function

namespace ClaimRush.DelegationHub

structure Session where
  perms : BitVec 256 := 0
  expiry : ℕ := 0
  deriving DecidableEq, Repr

/-- The typed data of a signed change. -/
structure SetSession where
  user : Address
  delegate : Address
  perms : BitVec 256
  expiry : ℕ
  nonce : ℕ
  deadline : ℕ
  deriving DecidableEq, Repr

inductive Event
  | SessionSet (user delegate : Address) (perms : BitVec 256) (expiry : ℕ)
  | NonceIncremented (user : Address) (newNonce : ℕ)
  deriving DecidableEq, Repr

/-- Contract storage, with the log of emitted events. -/
structure HubState where
  sessions : Address → Address → Session
  nonces : Address → ℕ
  events : List Event

def initial : HubState where
  sessions := fun _ _ ↦ {}
  nonces := fun _ ↦ 0
  events := []

/-- One call: the block, the caller, the account codes and the answers of the
signature check. -/
structure Call (Digest : Type) where
  timestamp : ℕ
  sender : Address
  /-- The account code starts with a delegation designator of 23 bytes. -/
  delegatedEOA : Address → Bool
  /-- `SignatureChecker.isValidSignatureNow(signer, digest, signature)`. -/
  isValidSignatureNow : Address → Digest → List UInt8 → Bool

variable {Digest : Type}

/-- `DelegationPermissions.ALL`. -/
def validPermsMask : BitVec 256 := BitVec.ofNat 256 (2 ^ 19 - 1)

def HubState.emit (s : HubState) (e : Event) : HubState := { s with events := s.events ++ [e] }

/-! ## Views -/

/-- `isAuthorized`. -/
def isAuthorized (call : Call Digest) (s : HubState) (user delegate : Address)
    (requiredPerms : BitVec 256) : Bool :=
  let session := s.sessions user delegate
  if user = delegate then false
  else if requiredPerms = 0 then false
  else if requiredPerms &&& ~~~validPermsMask ≠ 0 then false
  else if session.expiry = 0 ∨ session.expiry ≤ call.timestamp then false
  else if call.delegatedEOA delegate then false
  else session.perms &&& requiredPerms = requiredPerms

/-! ## Changes of a session -/

/-- `_setSession`. -/
def setSessionInternal (call : Call Digest) (s : HubState) (user delegate : Address)
    (perms : BitVec 256) (expiry : ℕ) : Except Error HubState := do
  revertIf (user = 0) .ZeroAddress
  revertIf (delegate = 0) .ZeroAddress
  let expiry := if perms = 0 then 0 else expiry
  revertIf (user = delegate) .NotAuthorized
  revertIf (perms &&& ~~~validPermsMask ≠ 0) .NotAuthorized
  revertIf (perms ≠ 0 ∧ expiry = 0) .DeadlineExpired
  revertIf (perms ≠ 0 ∧ expiry ≤ call.timestamp) .DeadlineExpired
  revertIf (perms ≠ 0 ∧ call.delegatedEOA delegate) .DelegatedEOA
  let sessions := update s.sessions user (update (s.sessions user) delegate ⟨perms, expiry⟩)
  return { s with sessions := sessions }.emit (.SessionSet user delegate perms expiry)

/-- The nonce takes its next value. -/
def bumpNonce (s : HubState) (user : Address) : Except Error HubState := do
  let nonce ← uint256 (s.nonces user + 1)
  return { s with nonces := update s.nonces user nonce }.emit (.NonceIncremented user nonce)

/-- `setSession`. -/
def setSession (call : Call Digest) (s : HubState) (delegate : Address) (perms : BitVec 256)
    (expiry : ℕ) : Except Error HubState := do
  let s ← setSessionInternal call s call.sender delegate perms expiry
  bumpNonce s call.sender

/-- `revokeSession`. -/
def revokeSession (call : Call Digest) (s : HubState) (delegate : Address) :
    Except Error HubState := do
  let s ← setSessionInternal call s call.sender delegate 0 0
  bumpNonce s call.sender

section Signed

variable (hashTypedData : SetSession → Digest)

/-- `setSessionBySig`; `hashTypedData` is the digest of the typed data. -/
def setSessionBySig (call : Call Digest) (s : HubState) (m : SetSession) (sig : List UInt8) :
    Except Error HubState := do
  revertIf (call.timestamp > m.deadline) .DeadlineExpired
  revertIf (m.user = 0 ∨ m.delegate = 0) .ZeroAddress
  revertIf (m.user = m.delegate) .NotAuthorized
  revertIf (m.perms &&& ~~~validPermsMask ≠ 0) .NotAuthorized
  revertIf (m.perms ≠ 0 ∧ (m.expiry = 0 ∨ m.expiry ≤ call.timestamp)) .DeadlineExpired
  revertIf (m.perms = 0 ∧ m.expiry ≠ 0) .DeadlineExpired
  revertIf (m.nonce ≠ s.nonces m.user) .NotAuthorized
  revertIf (!call.isValidSignatureNow m.user (hashTypedData m) sig) .NotAuthorized
  let s ← bumpNonce s m.user
  setSessionInternal call s m.user m.delegate m.perms m.expiry

inductive Op
  | setSession (delegate : Address) (perms : BitVec 256) (expiry : ℕ)
  | revokeSession (delegate : Address)
  | setSessionBySig (m : SetSession) (sig : List UInt8)
  deriving DecidableEq, Repr

/-- Execute one call. -/
def exec (c : Call Digest × Op) (s : HubState) : Except Error HubState :=
  match c.2 with
  | .setSession delegate perms expiry => setSession c.1 s delegate perms expiry
  | .revokeSession delegate => revokeSession c.1 s delegate
  | .setSessionBySig m sig => setSessionBySig hashTypedData c.1 s m sig

end Signed

/-! ## What a call changes -/

/-- The change that a call asks for. -/
structure Change where
  user : Address
  delegate : Address
  session : Session
  deriving DecidableEq, Repr

/-- The change of a call; a session without permissions has no expiry. -/
def changeOf (c : Call Digest × Op) : Change :=
  match c.2 with
  | .setSession delegate perms expiry =>
      ⟨c.1.sender, delegate, ⟨perms, if perms = 0 then 0 else expiry⟩⟩
  | .revokeSession delegate => ⟨c.1.sender, delegate, ⟨0, 0⟩⟩
  | .setSessionBySig m _ => ⟨m.user, m.delegate, ⟨m.perms, m.expiry⟩⟩

/-- The signed message that a call delivers. -/
def messageOf (c : Call Digest × Op) : Option SetSession :=
  match c.2 with
  | .setSessionBySig m _ => some m
  | _ => none

/-- Number of calls that change a session of `user`. -/
def changes (calls : List (Call Digest × Op)) (user : Address) : ℕ :=
  calls.countP fun c ↦ (changeOf c).user = user

variable {hashTypedData : SetSession → Digest} {call : Call Digest} {s s' : HubState}

/-- One change of one session, which takes one value of one nonce. -/
structure Applied (change : Change) (s s' : HubState) : Prop where
  nonces : s'.nonces = update s.nonces change.user (s.nonces change.user + 1)
  sessions : s'.sessions = update s.sessions change.user
    (update (s.sessions change.user) change.delegate change.session)

theorem setSessionInternal_eq_ok {user delegate : Address} {perms : BitVec 256} {expiry : ℕ}
    (h : setSessionInternal call s user delegate perms expiry = .ok s') :
    s'.nonces = s.nonces ∧ s'.sessions = update s.sessions user
      (update (s.sessions user) delegate ⟨perms, if perms = 0 then 0 else expiry⟩) := by
  simp only [setSessionInternal, bind_eq_ok_iff, revertIf_eq_ok] at h
  obtain ⟨-, -, -, -, -, -, -, -, -, -, -, -, -, -, h⟩ := h
  obtain rfl := Except.ok.inj h
  exact ⟨rfl, rfl⟩

theorem bumpNonce_eq_ok {user : Address} (h : bumpNonce s user = .ok s') :
    s'.nonces = update s.nonces user (s.nonces user + 1) ∧ s'.sessions = s.sessions := by
  obtain ⟨nonce, hnonce, h⟩ := bind_eq_ok_iff.mp h
  obtain ⟨-, rfl⟩ := uint256_eq_ok.mp hnonce
  obtain rfl := Except.ok.inj h
  exact ⟨rfl, rfl⟩

theorem setSession_applied {user delegate : Address} {perms : BitVec 256} {expiry : ℕ}
    {s₁ : HubState} (hset : setSessionInternal call s user delegate perms expiry = .ok s₁)
    (hbump : bumpNonce s₁ user = .ok s') :
    Applied ⟨user, delegate, ⟨perms, if perms = 0 then 0 else expiry⟩⟩ s s' := by
  obtain ⟨hnonces, hsessions⟩ := setSessionInternal_eq_ok hset
  obtain ⟨hnonces', hsessions'⟩ := bumpNonce_eq_ok hbump
  constructor
  · rw [hnonces', hnonces]
  · rw [hsessions', hsessions]

/-- A delivered message carries the current nonce and a valid signature. -/
theorem setSessionBySig_applied {m : SetSession} {sig : List UInt8}
    (h : setSessionBySig hashTypedData call s m sig = .ok s') :
    Applied ⟨m.user, m.delegate, ⟨m.perms, m.expiry⟩⟩ s s' ∧ m.nonce = s.nonces m.user ∧
      call.isValidSignatureNow m.user (hashTypedData m) sig = true := by
  simp only [setSessionBySig, bind_eq_ok_iff, revertIf_eq_ok] at h
  obtain ⟨-, -, -, -, -, -, -, -, -, -, -, hrevoked, -, hnonce, -, hvalid, s₁, hbump, hset⟩ := h
  obtain ⟨hnonces, hsessions⟩ := bumpNonce_eq_ok hbump
  obtain ⟨hnonces', hsessions'⟩ := setSessionInternal_eq_ok hset
  have hexpiry : (if m.perms = 0 then 0 else m.expiry) = m.expiry := by
    split_ifs with hperms
    · by_contra hne
      exact hrevoked ⟨hperms, Ne.symm hne⟩
    · rfl
  refine ⟨⟨?_, ?_⟩, not_not.mp hnonce, by simpa using hvalid⟩
  · rw [hnonces', hnonces]
  · rw [hsessions', hsessions, hexpiry]

/-- Every accepted call is one change. -/
theorem exec_applied {c : Call Digest × Op} (h : exec hashTypedData c s = .ok s') :
    Applied (changeOf c) s s' := by
  obtain ⟨call, op⟩ := c
  cases op with
  | setSession delegate perms expiry =>
      obtain ⟨s₁, hset, hbump⟩ := bind_eq_ok_iff.mp h
      exact setSession_applied hset hbump
  | revokeSession delegate =>
      obtain ⟨s₁, hset, hbump⟩ := bind_eq_ok_iff.mp h
      exact setSession_applied hset hbump
  | setSessionBySig m sig => exact (setSessionBySig_applied h).1

/-! ## Runs -/

section Runs

variable {calls : List (Call Digest × Op)}

theorem changes_concat (calls : List (Call Digest × Op)) (c : Call Digest × Op) (user : Address) :
    changes (calls ++ [c]) user =
      changes calls user + if (changeOf c).user = user then 1 else 0 := by
  simp [changes, List.countP_append, List.countP_singleton]

/-- The nonce counts the accepted changes. -/
theorem run_nonces (hrun : runCalls (exec hashTypedData) calls initial = .ok s) (user : Address) :
    s.nonces user = changes calls user := by
  induction calls using List.reverseRecOn generalizing s with
  | nil =>
      obtain rfl := Except.ok.inj hrun
      rfl
  | append_singleton calls c ih =>
      obtain ⟨s₁, hcalls, hcall⟩ := runCalls_concat.mp hrun
      have happlied := exec_applied hcall
      rw [changes_concat, happlied.nonces, ← ih hcalls]
      by_cases huser : (changeOf c).user = user
      · subst huser
        rw [update_self, if_pos rfl]
      · rw [update_of_ne (Ne.symm huser), if_neg huser, Nat.add_zero]

/-- An accepted message stands at the place that its nonce names. -/
theorem run_message {before after : List (Call Digest × Op)} {c : Call Digest × Op} {m : SetSession}
    (hrun : runCalls (exec hashTypedData) (before ++ c :: after) initial = .ok s)
    (hm : messageOf c = some m) :
    m.nonce = changes before m.user ∧ (changeOf c).user = m.user ∧
      ∃ sig, c.1.isValidSignatureNow m.user (hashTypedData m) sig = true := by
  obtain ⟨call, op⟩ := c
  cases op with
  | setSession delegate perms expiry => cases hm
  | revokeSession delegate => cases hm
  | setSessionBySig m' sig =>
      obtain rfl := Option.some.inj hm
      obtain ⟨s₁, hbefore, hrest⟩ := runCalls_append.mp hrun
      obtain ⟨s₂, hcall, -⟩ := bind_eq_ok_iff.mp hrest
      obtain ⟨-, hnonce, hvalid⟩ := setSessionBySig_applied hcall
      exact ⟨hnonce.trans (run_nonces hbefore _), rfl, sig, hvalid⟩

/-- A message whose place another change has taken is never accepted. -/
theorem run_dead {before after : List (Call Digest × Op)} {c : Call Digest × Op} {m : SetSession}
    (hrun : runCalls (exec hashTypedData) (before ++ c :: after) initial = .ok s)
    (huser : (changeOf c).user = m.user) (hnonce : m.nonce ≤ changes before m.user) :
    ∀ c' ∈ after, messageOf c' ≠ some m := by
  intro c' hmem hm
  obtain ⟨l, r, rfl⟩ := List.append_of_mem hmem
  have hsplit : before ++ c :: (l ++ c' :: r) = (before ++ c :: l) ++ c' :: r := by simp
  rw [hsplit] at hrun
  have hplace := (run_message hrun hm).1
  have hcount : changes (before ++ c :: l) m.user =
      changes before m.user + (changes l m.user + 1) := by
    simp [changes, List.countP_append, huser]
  omega

/-- No message is accepted twice. -/
theorem run_once (hrun : runCalls (exec hashTypedData) calls initial = .ok s) :
    (calls.filterMap messageOf).Nodup := by
  induction calls using List.reverseRecOn generalizing s with
  | nil => exact List.nodup_nil
  | append_singleton calls c ih =>
      obtain ⟨s₁, hcalls, -⟩ := runCalls_concat.mp hrun
      rw [List.filterMap_append, List.nodup_append]
      refine ⟨ih hcalls, ?_, ?_⟩
      · cases hm : messageOf c <;> simp [hm]
      · rintro m hmem m' hmem' rfl
        obtain ⟨c₁, hc₁, hm₁⟩ := List.mem_filterMap.mp hmem
        obtain ⟨c₂, hc₂, hm₂⟩ := List.mem_filterMap.mp hmem'
        obtain rfl := List.mem_singleton.mp hc₂
        obtain ⟨l, r, rfl⟩ := List.append_of_mem hc₁
        have hsplit : (l ++ c₁ :: r) ++ [c₂] = l ++ c₁ :: (r ++ [c₂]) := by simp
        rw [hsplit] at hrun
        obtain ⟨hnonce, huser, -⟩ := run_message hrun hm₁
        exact run_dead hrun huser hnonce.le c₂ (by simp) hm₂

/-- A stored session is the one of the last accepted change. -/
theorem run_session (hrun : runCalls (exec hashTypedData) calls initial = .ok s)
    {user delegate : Address} (hset : (s.sessions user delegate).expiry ≠ 0) :
    ∃ before c after, calls = before ++ c :: after ∧
      changeOf c = ⟨user, delegate, s.sessions user delegate⟩ ∧
      ∀ c' ∈ after, ¬ ((changeOf c').user = user ∧ (changeOf c').delegate = delegate) := by
  induction calls using List.reverseRecOn generalizing s with
  | nil =>
      obtain rfl := Except.ok.inj hrun
      exact absurd rfl hset
  | append_singleton calls c ih =>
      obtain ⟨s₁, hcalls, hcall⟩ := runCalls_concat.mp hrun
      have happlied := exec_applied hcall
      by_cases hsame : (changeOf c).user = user ∧ (changeOf c).delegate = delegate
      · obtain ⟨rfl, rfl⟩ := hsame
        refine ⟨calls, c, [], rfl, ?_, by simp⟩
        rw [happlied.sessions, update_self, update_self]
      · have hkept : s.sessions user delegate = s₁.sessions user delegate := by
          rw [happlied.sessions]
          by_cases huser : (changeOf c).user = user
          · subst huser
            rw [update_self, update_of_ne fun h ↦ hsame ⟨rfl, h.symm⟩]
          · rw [update_of_ne (Ne.symm huser)]
        rw [hkept] at hset ⊢
        obtain ⟨before, c₁, after, rfl, hchange, hlast⟩ := ih hcalls hset
        refine ⟨before, c₁, after ++ [c], by simp, hchange, fun c' hmem ↦ ?_⟩
        rcases List.mem_append.mp hmem with hmem | hmem
        · exact hlast c' hmem
        · exact List.mem_singleton.mp hmem ▸ hsame

/-- An authorisation rests on the last accepted change for the pair. -/
theorem isAuthorized_session {user delegate : Address} {perms : BitVec 256}
    (h : isAuthorized call s user delegate perms = true) :
    perms ≠ 0 ∧ (s.sessions user delegate).expiry ≠ 0 ∧
      call.timestamp < (s.sessions user delegate).expiry ∧
      (s.sessions user delegate).perms &&& perms = perms := by
  unfold isAuthorized at h
  dsimp only at h
  split_ifs at h with huser hperms hknown hexpiry hcode
  obtain ⟨hset, hfuture⟩ := not_or.mp hexpiry
  exact ⟨hperms, hset, not_le.mp hfuture, by simpa using h⟩

end Runs

/-! ## Replay and widening -/

/-- Signatures that validate a digest belong to a message that the user signed. -/
def Unforgeable (hashTypedData : SetSession → Digest) (Signed : Address → SetSession → Prop)
    (call : Call Digest) : Prop :=
  ∀ user digest sig, call.isValidSignatureNow user digest sig = true →
    ∃ m, hashTypedData m = digest ∧ Signed user m

/-- A change was made by its user, directly or by a message that the user signed. -/
def MadeByUser (Signed : Address → SetSession → Prop) (c : Call Digest × Op) : Prop :=
  match messageOf c with
  | none => c.1.sender = (changeOf c).user
  | some m => m.user = (changeOf c).user ∧ Signed m.user m

theorem madeByUser {Signed : Address → SetSession → Prop} (hinj : Injective hashTypedData)
    {before after : List (Call Digest × Op)} {c : Call Digest × Op}
    (hforge : Unforgeable hashTypedData Signed c.1)
    (hrun : runCalls (exec hashTypedData) (before ++ c :: after) initial = .ok s) :
    MadeByUser Signed c := by
  unfold MadeByUser
  cases hm : messageOf c with
  | none =>
      obtain ⟨call, op⟩ := c
      cases op with
      | setSession delegate perms expiry => rfl
      | revokeSession delegate => rfl
      | setSessionBySig m sig => cases hm
  | some m =>
      obtain ⟨-, huser, sig, hvalid⟩ := run_message hrun hm
      obtain ⟨m', hdigest, hsigned⟩ := hforge _ _ _ hvalid
      exact ⟨huser.symm, hinj hdigest ▸ hsigned⟩

/-- In every run of calls that are accepted, in any order and by any senders: the
nonce of a user counts the accepted changes of that user; a signed message is
accepted at most once, at the place among the user's changes that its nonce
names, and never after another change has taken that place; and an authorisation
at some time is what the last accepted change for the pair granted, with a later
expiry, and that change was made by the user. -/
theorem sessions_serialised (hashTypedData : SetSession → Digest) (hinj : Injective hashTypedData)
    (Signed : Address → SetSession → Prop) (calls : List (Call Digest × Op))
    (hforge : ∀ c ∈ calls, Unforgeable hashTypedData Signed c.1) (s : HubState)
    (hrun : runCalls (exec hashTypedData) calls initial = .ok s) :
    (∀ user, s.nonces user = changes calls user) ∧
      (∀ c s', exec hashTypedData c s = .ok s' →
        s'.nonces = update s.nonces (changeOf c).user (s.nonces (changeOf c).user + 1)) ∧
      (calls.filterMap messageOf).Nodup ∧
      (∀ before c after m, calls = before ++ c :: after → messageOf c = some m →
        Signed m.user m ∧ m.nonce = changes before m.user) ∧
      (∀ before c after m, calls = before ++ c :: after → (changeOf c).user = m.user →
        m.nonce ≤ changes before m.user → ∀ c' ∈ after, messageOf c' ≠ some m) ∧
      ∀ (call : Call Digest) user delegate perms, isAuthorized call s user delegate perms = true →
        ∃ before c after, calls = before ++ c :: after ∧ MadeByUser Signed c ∧
          (changeOf c).user = user ∧ (changeOf c).delegate = delegate ∧ perms ≠ 0 ∧
          (changeOf c).session.perms &&& perms = perms ∧
          call.timestamp < (changeOf c).session.expiry ∧
          ∀ c' ∈ after, ¬ ((changeOf c').user = user ∧ (changeOf c').delegate = delegate) := by
  refine ⟨run_nonces hrun, fun c s' hc ↦ (exec_applied hc).nonces, run_once hrun, ?_, ?_, ?_⟩
  · rintro before c after m rfl hm
    have hmade := madeByUser hinj (hforge c (by simp)) hrun
    rw [MadeByUser, hm] at hmade
    exact ⟨hmade.2, (run_message hrun hm).1⟩
  · rintro before c after m rfl huser hnonce
    exact run_dead hrun huser hnonce
  · intro call user delegate perms hauth
    obtain ⟨hperms, hset, hfuture, hgranted⟩ := isAuthorized_session hauth
    obtain ⟨before, c, after, rfl, hchange, hlast⟩ := run_session hrun hset
    refine ⟨before, c, after, rfl, madeByUser hinj (hforge c (by simp)) hrun, ?_⟩
    rw [hchange]
    exact ⟨rfl, rfl, hperms, hgranted, hfuture, hlast⟩

/-! ## A signed session -/

/-- User 7 lets delegate 8 take over and unlock until time 1000. -/
def signedGrant : SetSession :=
  { user := 7, delegate := 8, perms := 0x4001#256, expiry := 1000, nonce := 0, deadline := 500 }

/-- A call at a time when user 7 has signed one grant. -/
def signingCall (timestamp sender : ℕ) : Call SetSession where
  timestamp := timestamp
  sender := sender
  delegatedEOA := fun _ ↦ false
  isValidSignatureNow := fun user digest _ ↦ user = 7 ∧ digest = signedGrant

/-- A stranger delivers the grant, and the user grants another delegate. -/
def grantCalls : List (Call SetSession × Op) :=
  [(signingCall 100 5, .setSessionBySig signedGrant []),
    (signingCall 200 7, .setSession 9 1#256 2000)]

theorem sessions_serialised_grant :
    ∃ s, runCalls (exec id) grantCalls initial = .ok s ∧ s.nonces 7 = 2 ∧
      isAuthorized (signingCall 300 5) s 7 8 0x4000#256 = true ∧
      s.nonces 7 = changes grantCalls 7 := by
  have hok : ((runCalls (exec id) grantCalls initial).toOption.any fun s ↦
      s.nonces 7 = 2 ∧ isAuthorized (signingCall 300 5) s 7 8 0x4000#256 = true) = true := by
    decide
  cases hrun : runCalls (exec id) grantCalls initial with
  | error e => simp [hrun, Except.toOption] at hok
  | ok s =>
      have hforge : ∀ c ∈ grantCalls,
          Unforgeable id (fun user m ↦ user = 7 ∧ m = signedGrant) c.1 := by
        intro c hc user digest sig hvalid
        obtain ⟨timestamp, sender, hcall⟩ : ∃ t u, c.1 = signingCall t u := by
          rcases List.mem_cons.mp hc with rfl | hc
          · exact ⟨_, _, rfl⟩
          · exact ⟨_, _, congrArg Prod.fst (List.mem_singleton.mp hc)⟩
        rw [hcall] at hvalid
        obtain ⟨rfl, rfl⟩ := of_decide_eq_true hvalid
        exact ⟨signedGrant, rfl, rfl, rfl⟩
      have hserial := sessions_serialised id injective_id
        (fun user m ↦ user = 7 ∧ m = signedGrant) grantCalls hforge s hrun
      have hstate : s.nonces 7 = 2 ∧
          isAuthorized (signingCall 300 5) s 7 8 0x4000#256 = true := by
        simpa [hrun, Except.toOption] using hok
      exact ⟨s, rfl, hstate.1, hstate.2, hserial.1 7⟩

end ClaimRush.DelegationHub
