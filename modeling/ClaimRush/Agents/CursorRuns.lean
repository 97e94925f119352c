import ClaimRush.Agents.EventCursor
import ClaimRush.Lib.Transition

/-!
# Runs of the event cursor

On a chain that does not reorganise, the ring holds the last recorded events,
and between records the stored hash is the one of the last processed block,
as long as failed reads of it do not leave an older hash behind.
-/

namespace ClaimRush.Agents

variable {params : EventCursorParams} {fileSize : Persisted → ℕ} {chain : ℕ → ℕ}

/-! ## The key ring -/

theorem dropOldest_eq (n : ℕ) : ∀ (keys : List EventKey), keys.Nodup →
    dropOldest n keys.toFinset keys =
      (keys.drop (keys.length - n), (keys.drop (keys.length - n)).toFinset) := by
  intro keys hnodup
  induction keys with
  | nil => simp [dropOldest]
  | cons oldest keys ih =>
      obtain ⟨holdest, hnodup⟩ := List.nodup_cons.mp hnodup
      simp only [dropOldest]
      split_ifs with hlong
      · have herase : (oldest :: keys).toFinset.erase oldest = keys.toFinset := by
          rw [List.toFinset_cons, Finset.erase_insert (by simpa using holdest)]
        have hdrop : (oldest :: keys).length - n = keys.length - n + 1 := by
          rw [List.length_cons]
          omega
        rw [herase, ih hnodup, hdrop, List.drop_succ_cons]
      · have hdrop : (oldest :: keys).length - n = 0 := by
          rw [List.length_cons]
          omega
        rw [hdrop, List.drop_zero]

/-- The ring without repetition, and its set. -/
structure Ring (params : EventCursorParams) (c : EventCursor) (recorded : List LogId) : Prop where
  set : c.recentSet = c.recentKeys.toFinset
  nodup : c.recentKeys.Nodup
  keys : c.recentKeys.map EventKey.id = recorded.drop (recorded.length - params.maxRecentKeys)

/-- The logs of the last `maxRecentKeys` records. -/
def Agent.recent (params : EventCursorParams) (a : Agent) : List LogId :=
  a.recorded.drop (a.recorded.length - params.maxRecentKeys)

theorem Ring.length_le {c : EventCursor} {recorded : List LogId} (h : Ring params c recorded) :
    c.recentKeys.length ≤ params.maxRecentKeys := by
  have hlength := congrArg List.length h.keys
  rw [List.length_map, List.length_drop] at hlength
  omega

theorem Ring.push {c : EventCursor} {recorded : List LogId} {ev : ClaimRushEvent}
    (h : Ring params c recorded) (hnew : c.shouldProcess ev = true) :
    Ring params (c.pushKey params ev) (recorded ++ [ev.log]) := by
  have hnew : keyForEvent ev ∉ c.recentSet := of_decide_eq_true hnew
  have hnodup : (c.recentKeys ++ [keyForEvent ev]).Nodup := by
    rw [List.nodup_append]
    refine ⟨h.nodup, List.nodup_singleton _, ?_⟩
    intro key hkey key' hkey' heq
    rw [List.mem_singleton.mp hkey'] at heq
    rw [h.set, List.mem_toFinset, ← heq] at hnew
    exact hnew hkey
  have hset : insert (keyForEvent ev) c.recentSet =
      (c.recentKeys ++ [keyForEvent ev]).toFinset := by
    rw [h.set]
    ext key
    simp [or_comm]
  simp only [EventCursor.pushKey, hnew, if_false, hset, dropOldest_eq _ _ hnodup]
  refine ⟨rfl, hnodup.sublist (List.drop_sublist ..), ?_⟩
  have hlength := congrArg List.length h.keys
  rw [List.length_map, List.length_drop] at hlength
  rw [List.map_drop, List.map_append, h.keys, List.map_singleton, id_keyForEvent,
    ← List.drop_append_of_le_length (Nat.sub_le ..), List.drop_drop]
  congr 1
  simp only [List.length_append, List.length_singleton]
  omega

/-! ## Invariants -/

/-- The cursor and its file along a run. -/
structure Tracked (params : EventCursorParams) (chain : ℕ → ℕ) (a : Agent) : Prop where
  ring : Ring params a.cursor a.recorded
  block : a.cursor.lastProcessedBlock = none →
    a.inFlight = [] ∧ a.cursor.lastProcessedBlockHash = none
  /-- Between records the file holds the cursor. -/
  saved : a.inFlight = [] → a.file = some (a.cursor.persisted params) ∨
    a.file = none ∧ a.cursor = .base
  hash : a.inFlight = [] → ∀ hash, a.cursor.lastProcessedBlockHash = some hash →
    a.cursor.lastProcessedBlock.map chain = some hash

/-- What can happen: `getBlock` answers a request with the hash of the block or fails, and the
process restarts between records. -/
def Enabled (params : EventCursorParams) (fileSize : Persisted → ℕ) (chain : ℕ → ℕ) (a : Agent) :
    CursorEvent → Prop
  | .deliver _ => True
  | .answer blockNumber hash =>
      blockNumber ∈ a.inFlight ∧ ∀ h, hash = some h → h = chain blockNumber
  | .restart hash => a.inFlight = [] ∧ ∀ last,
      (a.loaded params fileSize).lastProcessedBlock = some last →
      ∀ h, hash = some h → h = chain last

/-- The condition on a step.  An event among the recent keys comes again only from the source that
it was recorded from; the last answer that is waited for is the hash of the last processed block, or
a failure when no older hash is stored; the file that a new process reads is not too large, and its
validation of a stored hash is answered. -/
def Meets (fileSize : Persisted → ℕ) (chain : ℕ → ℕ) (a : Agent) : CursorEvent → Prop
  | .deliver ev => ∀ key ∈ a.cursor.recentKeys, key.id = ev.log → key = keyForEvent ev
  | .answer blockNumber hash => a.inFlight.erase blockNumber = [] →
      (hash.isSome = true ∧ a.cursor.lastProcessedBlock = some blockNumber) ∨
        (hash = none ∧ (a.cursor.lastProcessedBlockHash = none ∨
          a.cursor.lastProcessedBlockHash = a.cursor.lastProcessedBlock.map chain))
  | .restart hash => (∀ p, a.file = some p → fileSize p ≤ MAX_CURSOR_FILE_BYTES) ∧
      (a.cursor.lastProcessedBlockHash ≠ none → hash ≠ none)

section Steps

variable {a : Agent}

theorem Tracked.start : Tracked params chain .start where
  ring := ⟨rfl, List.nodup_nil, by simp [Agent.start, EventCursor.base]⟩
  block := fun _ ↦ ⟨rfl, rfl⟩
  saved := fun _ ↦ .inr ⟨rfl, rfl⟩
  hash := by simp [Agent.start, EventCursor.base]

variable (params) in
theorem pushKey_block (c : EventCursor) (ev : ClaimRushEvent) :
    (c.pushKey params ev).lastProcessedBlock = c.lastProcessedBlock ∧
      (c.pushKey params ev).lastProcessedBlockHash = c.lastProcessedBlockHash := by
  unfold EventCursor.pushKey
  dsimp only
  split_ifs <;> exact ⟨rfl, rfl⟩

theorem Tracked.deliver (h : Tracked params chain a) (ev : ClaimRushEvent) :
    Tracked params chain (a.deliver params ev) := by
  unfold Agent.deliver
  split_ifs with hnew
  · dsimp only
    split_ifs
    · obtain ⟨hset, hnodup, hkeys⟩ := h.ring.push hnew
      exact ⟨⟨hset, hnodup, hkeys⟩, by simp, by simp, by simp⟩
    · obtain ⟨hblock, hhash⟩ := pushKey_block params a.cursor ev
      refine ⟨h.ring.push hnew, ?_, fun _ ↦ .inl rfl, ?_⟩
      · intro hnone
        simp only [Agent.persist, hblock, hhash] at hnone ⊢
        exact h.block hnone
      · intro hidle hash hsome
        simp only [Agent.persist, hblock, hhash] at hsome ⊢
        exact h.hash hidle hash hsome
  · exact h

theorem Tracked.answer (h : Tracked params chain a) {blockNumber : ℕ} {hash : Option ℕ}
    (henabled : Enabled params fileSize chain a (.answer blockNumber hash))
    (hmeets : Meets fileSize chain a (.answer blockNumber hash)) :
    Tracked params chain (a.answer params blockNumber hash) := by
  obtain ⟨hmem, hanswer⟩ := henabled
  have hlast : a.cursor.lastProcessedBlock ≠ none := fun hnone ↦ by simp [(h.block hnone).1] at hmem
  refine ⟨⟨h.ring.set, h.ring.nodup, h.ring.keys⟩, fun hnone ↦ absurd hnone hlast,
    fun _ ↦ .inl rfl, ?_⟩
  intro hidle stored hstored
  have hstored : (hash <|> a.cursor.lastProcessedBlockHash) = some stored := hstored
  change a.cursor.lastProcessedBlock.map chain = some stored
  rcases hmeets hidle with ⟨hsome, hblock⟩ | ⟨rfl, hold⟩
  · obtain ⟨got, rfl⟩ := Option.isSome_iff_exists.mp hsome
    obtain rfl : got = stored := by simpa using hstored
    rw [hblock, hanswer got rfl]
    rfl
  · have hstored : a.cursor.lastProcessedBlockHash = some stored := by simpa using hstored
    rcases hold with hnone | heq
    · rw [hnone] at hstored
      cases hstored
    · rw [← heq, hstored]

/-- Between records a new process loads the cursor of the old one. -/
theorem Tracked.loaded_eq (h : Tracked params chain a) (hidle : a.inFlight = [])
    (hsize : ∀ p, a.file = some p → fileSize p ≤ MAX_CURSOR_FILE_BYTES) :
    a.loaded params fileSize = a.cursor := by
  rcases h.saved hidle with hfile | ⟨hfile, hbase⟩
  · have hkeep : ¬(MAX_CURSOR_FILE_BYTES < fileSize (a.cursor.persisted params) ∨
        (a.cursor.persisted params).chainId ≠ params.chainId) := by
      rintro (hlarge | hchain)
      · exact Nat.not_lt.mpr (hsize _ hfile) hlarge
      · exact hchain rfl
    have hdrop : a.cursor.recentKeys.length - params.maxRecentKeys = 0 :=
      Nat.sub_eq_zero_of_le h.ring.length_le
    simp only [Agent.loaded, EventCursor.load, hfile, if_neg hkeep]
    simp [EventCursor.persisted, hdrop, ← h.ring.set]
  · rw [Agent.loaded, hfile, hbase]
    rfl

/-- A file that is too large counts as none. -/
theorem Tracked.loaded_cases (h : Tracked params chain a) (hidle : a.inFlight = []) :
    a.loaded params fileSize = .base ∨ a.loaded params fileSize = a.cursor := by
  by_cases hsize : ∀ p, a.file = some p → fileSize p ≤ MAX_CURSOR_FILE_BYTES
  · exact .inr (h.loaded_eq hidle hsize)
  · push Not at hsize
    obtain ⟨p, hfile, hlarge⟩ := hsize
    left
    simp [Agent.loaded, EventCursor.load, hfile, hlarge]

/-- A right hash is found again, unless the read fails. -/
theorem Tracked.validate (h : Tracked params chain a) (hidle : a.inFlight = []) {hash : Option ℕ}
    (hanswer : ∀ last, a.cursor.lastProcessedBlock = some last →
      ∀ got, hash = some got → got = chain last) :
    a.cursor.validateAgainstChain params hash = (a.cursor, true) ∨
      a.cursor.lastProcessedBlockHash ≠ none ∧ hash = none := by
  unfold EventCursor.validateAgainstChain
  cases hlast : a.cursor.lastProcessedBlock with
  | none => exact .inl rfl
  | some last =>
      cases hstored : a.cursor.lastProcessedBlockHash with
      | none => exact .inl rfl
      | some stored =>
          cases hash with
          | none => exact .inr ⟨Option.some_ne_none _, rfl⟩
          | some got =>
              have hchain := h.hash hidle stored hstored
              rw [hlast] at hchain
              obtain rfl : got = stored :=
                (hanswer last hlast got rfl).trans (Option.some.inj hchain)
              simp

theorem Tracked.restart (h : Tracked params chain a) {hash : Option ℕ}
    (henabled : Enabled params fileSize chain a (.restart hash))
    (hmeets : Meets fileSize chain a (.restart hash)) :
    Tracked params chain (a.restart params fileSize hash) := by
  obtain ⟨hidle, hanswer⟩ := henabled
  obtain ⟨hsize, hanswered⟩ := hmeets
  have hloaded := h.loaded_eq hidle hsize
  rw [hloaded] at hanswer
  have hkept := (h.validate hidle hanswer).resolve_right fun ⟨hstored, hnone⟩ ↦
    hanswered hstored hnone
  unfold Agent.restart
  rw [hloaded, hkept]
  exact ⟨h.ring, fun hnone ↦ ⟨rfl, (h.block hnone).2⟩, fun _ ↦ h.saved hidle, fun _ ↦ h.hash hidle⟩

end Steps

/-! ## Runs -/

/-- Runs of enabled steps that meet a condition. -/
def cursorRuns (params : EventCursorParams) (fileSize : Persisted → ℕ) (chain : ℕ → ℕ)
    (meets : Agent → CursorEvent → Prop) : TransitionSystem Agent where
  init a := a = .start
  step a a' := ∃ e, Enabled params fileSize chain a e ∧ meets a e ∧ a' = e.exec params fileSize a

/-- What the cursor promises of a state and of its next step. -/
structure CursorExact (params : EventCursorParams) (fileSize : Persisted → ℕ) (chain : ℕ → ℕ)
    (meets : Agent → CursorEvent → Prop) (a : Agent) : Prop where
  /-- Between records a stored hash is the one of the last processed block. -/
  hash : a.inFlight = [] → ∀ hash, a.cursor.lastProcessedBlockHash = some hash →
    a.cursor.lastProcessedBlock.map chain = some hash
  /-- A restart rewinds and forgets the keys only when its own read fails. -/
  rewinds : ∀ hash, Enabled params fileSize chain a (.restart hash) →
    ((a.loaded params fileSize).validateAgainstChain params hash).2 = false → hash = none
  /-- An event among the last recorded ones is not processed again. -/
  again : ∀ ev, meets a (.deliver ev) → ev.log ∈ a.recent params →
    a.cursor.shouldProcess ev = false
  /-- An event that is skipped was recorded. -/
  skipped : ∀ ev, a.cursor.shouldProcess ev = false → ev.log ∈ a.recorded

theorem Tracked.exact {a : Agent} (h : Tracked params chain a) :
    CursorExact params fileSize chain (Meets fileSize chain) a := by
  refine ⟨h.hash, ?_, ?_, ?_⟩
  · intro hash ⟨hidle, hanswer⟩ hrewound
    obtain hloaded | hloaded :
        a.loaded params fileSize = .base ∨ a.loaded params fileSize = a.cursor :=
      h.loaded_cases hidle
    · rw [hloaded] at hrewound
      cases hrewound
    · rw [hloaded] at hanswer hrewound
      obtain hkept | ⟨-, hnone⟩ := h.validate hidle hanswer
      · rw [hkept] at hrewound
        cases hrewound
      · exact hnone
  · intro ev hmeets hrecent
    rw [Agent.recent, ← h.ring.keys] at hrecent
    obtain ⟨key, hkey, hid⟩ := List.mem_map.mp hrecent
    have hsame := hmeets key hkey hid
    simp [EventCursor.shouldProcess, h.ring.set, ← hsame, hkey]
  · intro ev hskipped
    have hmem : keyForEvent ev ∈ a.cursor.recentKeys := by
      simpa [EventCursor.shouldProcess, h.ring.set] using hskipped
    have hid := List.mem_map_of_mem (f := EventKey.id) hmem
    rw [h.ring.keys, id_keyForEvent] at hid
    exact List.mem_of_mem_drop hid

/-- In a run whose steps meet the condition the cursor neither repeats nor skips events. -/
theorem cursor_exact {a : Agent}
    (ha : (cursorRuns params fileSize chain (Meets fileSize chain)).Reachable a) :
    CursorExact params fileSize chain (Meets fileSize chain) a := by
  have htracked : Tracked params chain a := by
    refine ha.invariant (I := Tracked params chain) ?_ ?_
    · rintro a rfl
      exact .start
    · rintro a a' - h ⟨e, henabled, hmeets, rfl⟩
      cases e with
      | deliver ev => exact h.deliver ev
      | answer blockNumber hash => exact h.answer henabled hmeets
      | restart hash => exact h.restart henabled hmeets
  exact htracked.exact

/-! The chain in which the hash of a block is its number. -/

def cursorParams : EventCursorParams := ⟨8453, 12, 5000⟩

/-- The event of a block, with the transaction of the same number. -/
def eventAt (blockNumber : ℕ) : ClaimRushEvent := ⟨.rpc, ⟨blockNumber, 0⟩, blockNumber⟩

/-- A record whose read answers. -/
def recordAt (a : Agent) (blockNumber : ℕ) (hash : Option ℕ) : Agent :=
  (a.deliver cursorParams (eventAt blockNumber)).answer cursorParams blockNumber hash

/-- The hash of a block is its number, and a file has one byte for each key. -/
abbrev plainRuns (meets : Agent → CursorEvent → Prop) : TransitionSystem Agent :=
  cursorRuns cursorParams (fun p ↦ p.recentKeys.length) id meets

theorem recordAt_reachable {meets : Agent → CursorEvent → Prop} {a : Agent} {blockNumber : ℕ}
    {hash : Option ℕ} (ha : (plainRuns meets).Reachable a)
    (hdeliver : meets a (.deliver (eventAt blockNumber)))
    (hanswer : meets (a.deliver cursorParams (eventAt blockNumber)) (.answer blockNumber hash))
    (hmem : blockNumber ∈ (a.deliver cursorParams (eventAt blockNumber)).inFlight)
    (hhash : ∀ h, hash = some h → h = blockNumber) :
    (plainRuns meets).Reachable (recordAt a blockNumber hash) :=
  (ha.step ⟨.deliver (eventAt blockNumber), trivial, hdeliver, rfl⟩).step
    ⟨.answer blockNumber hash, ⟨hmem, hhash⟩, hanswer, rfl⟩

abbrev PlainMeets : Agent → CursorEvent → Prop := Meets (fun p ↦ p.recentKeys.length) id

/-- Three events recorded with their hashes. -/
def recordedThree : Agent :=
  recordAt (recordAt (recordAt .start 100 (some 100)) 101 (some 101)) 102 (some 102)

theorem recordedThree_reachable : (plainRuns PlainMeets).Reachable recordedThree := by
  have hfirst : (plainRuns PlainMeets).Reachable (recordAt .start 100 (some 100)) :=
    recordAt_reachable (.init rfl) (by unfold PlainMeets Meets; decide)
      (fun _ ↦ .inl ⟨rfl, rfl⟩) (by decide) (by simp)
  have hsecond : (plainRuns PlainMeets).Reachable
      (recordAt (recordAt .start 100 (some 100)) 101 (some 101)) :=
    recordAt_reachable hfirst (by unfold PlainMeets Meets; decide)
      (fun _ ↦ .inl ⟨rfl, rfl⟩) (by decide) (by simp)
  exact recordAt_reachable hsecond (by unfold PlainMeets Meets; decide)
    (fun _ ↦ .inl ⟨rfl, rfl⟩) (by decide) (by simp)

/-- A new process goes on after three events, and its last read answers. -/
theorem cursor_exact_recorded : ∃ a : Agent,
    a.recent cursorParams = [⟨100, 0⟩, ⟨101, 0⟩, ⟨102, 0⟩] ∧
      CursorExact cursorParams (fun p ↦ p.recentKeys.length) id PlainMeets a := by
  refine ⟨recordedThree.restart cursorParams (fun p ↦ p.recentKeys.length) (some 102), by decide,
    cursor_exact (recordedThree_reachable.step
      ⟨.restart (some 102), ⟨by decide, ?_⟩, ⟨?_, fun _ ↦ by simp⟩, rfl⟩)⟩
  · intro last hlast got hgot
    obtain rfl := Option.some.inj hgot
    exact Option.some.inj hlast
  · intro p hfile
    obtain rfl := Option.some.inj hfile
    decide

/-- The first event is recorded with its hash, the second without. -/
theorem not_cursor_exact :
    ¬∀ (params : EventCursorParams) (fileSize : Persisted → ℕ) (chain : ℕ → ℕ) (a : Agent),
      (cursorRuns params fileSize chain fun _ _ ↦ True).Reachable a →
        CursorExact params fileSize chain (fun _ _ ↦ True) a := by
  intro h
  have hreachable : (plainRuns fun _ _ ↦ True).Reachable
      (recordAt (recordAt .start 100 (some 100)) 101 none) :=
    recordAt_reachable (recordAt_reachable (.init rfl) trivial trivial (by decide) (by simp))
      trivial trivial (by decide) (by simp)
  have hexact := h _ _ _ _ hreachable
  have hblock := hexact.hash (by decide) 100 (by decide)
  exact absurd hblock (by decide)

end ClaimRush.Agents
