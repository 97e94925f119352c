import ClaimRush.Lib.Transition
import ClaimRush.TxManager.Manager

/-!
# The manager and the network

Calls wait for the promise lock in the order in which they are made.  The network
answers the running call, and mines accepted transactions in the order of their
nonces, or never.  The nonce of the account may also be used by another sender.
-/

namespace ClaimRush.TxManager

/-- A transaction that was accepted for broadcast. -/
structure Tx where
  hash : ℕ
  /-- The call that broadcast it. -/
  ticket : ℕ
  nonce : ℕ
  deriving DecidableEq, Repr

/-- A call that ended, with the mined transactions at its last receipt read. -/
structure Finished where
  ticket : ℕ
  outcome : CallOutcome
  minedAtLastCheck : List Tx
  deriving DecidableEq, Repr

structure State where
  nextNonce : Option ℕ := none
  /-- Calls that wait for the lock. -/
  waiting : List Request := []
  /-- The call that holds the lock. -/
  running : Option Running := none
  /-- Number of calls that took the lock. -/
  started : ℕ := 0
  finished : List Finished := []
  /-- The nonce of the account: every smaller nonce is used. -/
  accountNonce : ℕ := 0
  accepted : List Tx := []
  mined : List Tx := []
  /-- The mined transactions at the last receipt read of the running call. -/
  minedAtLastCheck : List Tx := []
  deriving DecidableEq, Repr

/-- What happens next. -/
inductive Event
  /-- `writeContract` is called. -/
  | call (request : Request)
  /-- The first waiting call takes the lock. -/
  | acquire
  /-- The nonce clients answer. -/
  | nonces (answers : List NonceAnswer)
  /-- `estimateFeesPerGas` answers. -/
  | estimate (fees : Option FeeParams)
  /-- The broadcast is answered with the hash of an accepted transaction. -/
  | sent
  /-- The broadcast is answered with an error. -/
  | rejected (e : BroadcastError)
  /-- The broadcast of an accepted transaction is answered with an error, which may
  also be one that names a nonce or an underpriced replacement. -/
  | lost (e : BroadcastError)
  | receipt (success : Bool)
  | notFound (timedOut : Bool)
  | readError
  /-- An accepted transaction is mined. -/
  | mine (hash : ℕ)
  /-- Another sender uses the nonce of the account. -/
  | foreign
  deriving DecidableEq, Repr

namespace State

variable (policy : TxReplacementPolicy) (s : State)

/-- The running call goes on, or it releases the lock. -/
def proceed (c : Running) : Next → State
  | .running nextNonce c' => { s with nextNonce := nextNonce, running := some c' }
  | .done nextNonce o => { s with
      nextNonce := nextNonce, running := none
      finished := s.finished ++ [⟨c.ticket, o, s.minedAtLastCheck⟩] }

/-- The transaction that the running call broadcasts. -/
def tx (c : Running) : Tx := ⟨s.accepted.length, c.ticket, c.nonce⟩

def accept (c : Running) : State := { s with accepted := s.accepted ++ [s.tx c] }

/-- A receipt is read. -/
def check : State := { s with minedAtLastCheck := s.mined }

/-- The answer of the network to the running call. -/
def answer (c : Running) : Event → Option State
  | .nonces answers =>
      let net := getNetworkPendingNonce answers
      match c.await with
      | .allocate => some (s.proceed c (onAllocate s.nextNonce c net))
      | .resync e => some (s.proceed c (onResync policy s.nextNonce c e net))
      | _ => none
  | .estimate fees =>
      match c.await with
      | .initialFees => some (s.proceed c (onInitialFees s.nextNonce c fees))
      | .underpricedFees => some (s.proceed c (onBumpedFees policy s.nextNonce c fees))
      | .nextFees => some (s.proceed c (onBumpedFees policy s.nextNonce c fees))
      | _ => none
  | .sent =>
      match c.await with
      | .broadcast => some ((s.accept c).proceed c (onSent s.nextNonce c s.accepted.length))
      | _ => none
  | .rejected e =>
      match c.await with
      | .broadcast => some (s.proceed c (onRejected policy s.nextNonce c e))
      | _ => none
  | .lost e =>
      match c.await with
      | .broadcast => some ((s.accept c).proceed c (onRejected policy s.nextNonce c e))
      | _ => none
  | .receipt success =>
      match c.await with
      | .receipt hash => some (s.check.proceed c (onReceipt s.nextNonce c hash success))
      | _ => none
  | .notFound timedOut =>
      match c.await with
      | .receipt _ => some (s.check.proceed c (onNotFound policy s.nextNonce c timedOut))
      | _ => none
  | .readError =>
      match c.await with
      | .receipt _ => some (s.check.proceed c (.done none .readFailed))
      | _ => none
  | _ => none

/-- One step of the system; `none` is an event that cannot happen. -/
def apply : Event → Option State
  | .call request => some { s with waiting := s.waiting ++ [request] }
  | .acquire =>
      match s.running, s.waiting with
      | none, request :: rest => some { s with
          waiting := rest, running := some { ticket := s.started, request := request }
          started := s.started + 1, minedAtLastCheck := [] }
      | _, _ => none
  | .mine hash =>
      match s.accepted.find? (fun t ↦ decide (t.hash = hash)) with
      | some t =>
          if t.nonce = s.accountNonce then
            some { s with accountNonce := s.accountNonce + 1, mined := s.mined ++ [t] }
          else none
      | none => none
  | .foreign => some { s with accountNonce := s.accountNonce + 1 }
  | e =>
      match s.running with
      | some c => s.answer policy c e
      | none => none

end State

/-- The runs in which every event meets the condition `ok`. -/
def system (policy : TxReplacementPolicy) (ok : State → Event → Prop) : TransitionSystem State where
  init s := s = {}
  step s s' := ∃ e, ok s e ∧ s.apply policy e = some s'

/-- Every behaviour of the network. -/
def anyNetwork (_ : State) (_ : Event) : Prop := True

instance (s : State) (e : Event) : Decidable (anyNetwork s e) := inferInstanceAs (Decidable True)

section Computed

variable (policy : TxReplacementPolicy) (ok : State → Event → Prop) [∀ s e, Decidable (ok s e)]

/-- A sequence of events, each of which must meet the condition. -/
def runEvents : List Event → State → Option State
  | [], s => some s
  | e :: rest, s => if ok s e then (s.apply policy e).bind (runEvents rest) else none

variable {policy ok}

theorem runEvents_reachable {events : List Event} {s s' : State}
    (hs : (system policy ok).Reachable s) (hrun : runEvents policy ok events s = some s') :
    (system policy ok).Reachable s' := by
  induction events generalizing s with
  | nil =>
      obtain rfl := Option.some.inj hrun
      exact hs
  | cons e rest ih =>
      unfold runEvents at hrun
      split_ifs at hrun with hok
      obtain ⟨s₁, happly, hrest⟩ := Option.bind_eq_some_iff.mp hrun
      exact ih (hs.step ⟨e, hok, happly⟩) hrest

variable (policy ok) in
/-- A computed run, for a checked property of its end. -/
theorem runEvents_witness (events : List Event) (P : State → Bool)
    (hrun : (runEvents policy ok events {}).any P = true) :
    ∃ s, (system policy ok).Reachable s ∧ P s = true := by
  cases h : runEvents policy ok events {} with
  | none =>
      rw [h] at hrun
      cases hrun
  | some s =>
      rw [h] at hrun
      exact ⟨s, runEvents_reachable (.init rfl) h, hrun⟩

end Computed

end ClaimRush.TxManager
