import ClaimRush.Agents.AsyncTtlCache

/-!
# Runs of the asynchronous cache

The marker of a computation expires like a value, and a computation that finishes
writes the map whatever happened to its key.  As long as a key is not asked for when
its computation has lost its marker, and no computation finishes whose key was
invalidated, what is served is fresh.
-/

namespace ClaimRush.Agents.AsyncTtlCache

variable {V : Type} {key : String} {maxEntries now : ℕ} {v : V}

/-! ## What a run may serve -/

/-- The value was dropped from the cache, or all values were. -/
def Happening.erases (key : String) : Happening V → Bool
  | .deleted key' => key = key'
  | .cleared => true
  | _ => false

/-- The history since the key was last invalidated. -/
def sinceErased (key : String) (log : List (Happening V)) : List (Happening V) :=
  log.takeWhile fun e ↦ !e.erases key

/-- A value for the key that is good until `expires`. -/
inductive Produced (log : List (Happening V)) (key : String) (v : V) (expires : ℕ) : Prop
  | finished {id time ttl : ℕ} (h : .finished id key v time ttl ∈ log)
      (hstarted : .started id key ∈ sinceErased key log) (hexpires : time + ttl = expires)
  | wrote {time ttl : ℕ} (h : .wrote key v time ttl ∈ sinceErased key log)
      (hexpires : time + ttl = expires)

/-- What is served is fresh, and what is written is not older than what was written. -/
def Justified (log : List (Happening V)) : Happening V → Prop
  | .served key v time => ∃ expires, Produced log key v expires ∧ time < expires
  | .finished id key _ _ _ => ∀ id' v time ttl, .finished id' key v time ttl ∈ log → id' < id
  | _ => True

def History : List (Happening V) → Prop
  | [] => True
  | e :: log => Justified log e ∧ History log

/-- At most one computation of a key in flight, and a history without fault. -/
structure Sound (s : World V) : Prop where
  single : (s.running.map Computation.key).Nodup
  history : History s.log

/-- The entry that a call for the key finds. -/
def Live (s : World V) (key : String) : Prop :=
  ∃ ent, s.map.lookup key = some ent ∧ s.clock < ent.expiresAtMs

/-- A key is not asked for while its computation is in flight without a live marker,
and a computation does not finish after its key was invalidated. -/
def Careful (s : World V) (now : ℕ) : Call V → Prop
  | .getOrSet key ttl _ =>
      (cacheable ttl).isSome → (∃ c ∈ s.running, c.key = key) → Live (s.tick now) key
  | .settle id (some _) =>
      ∀ c ∈ s.running, c.id = id → .started c.id c.key ∈ sinceErased c.key s.log
  | _ => True

/-! ## The map -/

variable {map : EntryMap V} {ent : CacheEntry V} {x : String × CacheEntry V}

theorem mem_put (h : x ∈ put key ent map) : x = (key, ent) ∨ x ∈ map := by
  unfold put at h
  split at h
  · obtain ⟨y, hy, rfl⟩ := List.mem_map.mp h
    split
    · exact .inl rfl
    · exact .inr hy
  · rcases List.mem_append.mp h with h | h
    · exact .inr h
    · exact .inl (List.mem_singleton.mp h)

theorem mem_erase (h : x ∈ erase key map) : x ∈ map ∧ x.1 ≠ key := by
  simpa [erase] using h

theorem mem_pruneIfNeeded (h : x ∈ pruneIfNeeded maxEntries map) : x ∈ map := by
  unfold pruneIfNeeded at h
  split at h
  · exact h
  · exact List.mem_of_mem_filter h

theorem mem_of_lookup (h : map.lookup key = some ent) : (key, ent) ∈ map := by
  obtain ⟨before, after, rfl, -⟩ := List.lookup_eq_some_iff.mp h
  simp

/-- What an entry holds was produced, or is being computed. -/
structure EntryOk (log : List (Happening V)) (x : String × CacheEntry V) : Prop where
  held : ∀ v, x.2.value = some v → Produced log x.1 v x.2.expiresAtMs
  filled : x.2.value = none → x.2.inFlight ≠ none
  marked : ∀ id, x.2.inFlight = some (.computation id) → .started id x.1 ∈ log

theorem EntryOk.accessed {log : List (Happening V)} (h : EntryOk log (key, ent)) (now : ℕ) :
    EntryOk log (key, { ent with lastAccessMs := now }) := ⟨h.held, h.filled, h.marked⟩

/-! ## The history -/

variable {log : List (Happening V)} {e : Happening V}

theorem sinceErased_push (h : e.erases key = false) :
    sinceErased key (e :: log) = e :: sinceErased key log := by
  unfold sinceErased
  rw [List.takeWhile_cons_of_pos (by simp [h])]

theorem Produced.push {expires : ℕ} (h : Produced log key v expires)
    (he : e.erases key = false) : Produced (e :: log) key v expires := by
  cases h with
  | finished h hstarted hexpires =>
      refine .finished (List.mem_cons_of_mem _ h) ?_ hexpires
      rw [sinceErased_push he]
      exact List.mem_cons_of_mem _ hstarted
  | wrote h hexpires =>
      refine .wrote ?_ hexpires
      rw [sinceErased_push he]
      exact List.mem_cons_of_mem _ h

theorem EntryOk.push (h : EntryOk log x) (he : e.erases x.1 = false) : EntryOk (e :: log) x where
  held := fun v hv ↦ (h.held v hv).push he
  filled := h.filled
  marked := fun id hid ↦ List.mem_cons_of_mem _ (h.marked id hid)

/-! ## The invariant -/

/-- Neither the start nor the end of a computation. -/
def Happening.plain : Happening V → Bool
  | .started .. => false
  | .finished .. => false
  | _ => true

structure Coherent (s : World V) : Prop where
  entries : ∀ x ∈ s.map, EntryOk s.log x
  begun : ∀ c ∈ s.running, .started c.id c.key ∈ s.log
  timed : ∀ c ∈ s.running, 0 < c.ttl
  waited : ∀ w ∈ s.waiting, .started w.1 w.2 ∈ s.log
  numbered : ∀ id key, .started id key ∈ s.log → id < s.started
  unique : ∀ id key key', .started id key ∈ s.log → .started id key' ∈ s.log → key = key'
  ended : ∀ id key v time ttl, .finished id key v time ttl ∈ s.log → id < s.started
  older : ∀ c ∈ s.running, ∀ id v time ttl, .finished id c.key v time ttl ∈ s.log → id < c.id
  single : (s.running.map Computation.key).Nodup
  history : History s.log

variable {s : World V}

theorem Coherent.sound (h : Coherent s) : Sound s := ⟨h.single, h.history⟩

theorem coherent_init : Coherent (World.init : World V) := by
  constructor <;> simp [World.init, History]

/-- Other entries, without an event. -/
theorem Coherent.remap (h : Coherent s) {map : EntryMap V} (hmap : ∀ x ∈ map, EntryOk s.log x) :
    Coherent { s with map := map } :=
  ⟨hmap, h.begun, h.timed, h.waited, h.numbered, h.unique, h.ended, h.older, h.single, h.history⟩

theorem Coherent.tick (h : Coherent s) (now : ℕ) : Coherent (s.tick now) :=
  ⟨h.entries, h.begun, h.timed, h.waited, h.numbered, h.unique, h.ended, h.older, h.single,
    h.history⟩

theorem Coherent.wait (h : Coherent s) {w : ℕ × String} (hw : .started w.1 w.2 ∈ s.log) :
    Coherent { s with waiting := s.waiting ++ [w] } := by
  refine { h with waited := fun w' hw' ↦ ?_ }
  rcases List.mem_append.mp hw' with hw' | hw'
  · exact h.waited w' hw'
  · rwa [List.mem_singleton.mp hw']

theorem Coherent.settled (h : Coherent s) (c : Computation) : Coherent (s.settled c) :=
  { h with
    begun := fun c' hc' ↦ h.begun c' (List.mem_of_mem_filter hc')
    timed := fun c' hc' ↦ h.timed c' (List.mem_of_mem_filter hc')
    waited := fun w hw ↦ h.waited w (List.mem_of_mem_filter hw)
    older := fun c' hc' ↦ h.older c' (List.mem_of_mem_filter hc')
    single := h.single.sublist (List.filter_sublist.map _) }

theorem mem_of_plain {a : Happening V} (ha : a.plain = false) (he : e.plain = true)
    (h : a ∈ e :: log) : a ∈ log := by
  rcases List.mem_cons.mp h with rfl | h
  · rw [ha] at he
    cases he
  · exact h

/-- An event that neither starts nor ends a computation. -/
theorem Coherent.push (h : Coherent s) (he : e.plain = true) (hjust : Justified s.log e)
    {map : EntryMap V} (hmap : ∀ x ∈ map, EntryOk (e :: s.log) x) :
    Coherent { s with map := map, log := e :: s.log } where
  entries := hmap
  begun := fun c hc ↦ List.mem_cons_of_mem _ (h.begun c hc)
  timed := h.timed
  waited := fun w hw ↦ List.mem_cons_of_mem _ (h.waited w hw)
  numbered := fun id key hid ↦ h.numbered id key (mem_of_plain rfl he hid)
  unique := fun id key key' hkey hkey' ↦
    h.unique id key key' (mem_of_plain rfl he hkey) (mem_of_plain rfl he hkey')
  ended := fun id key v time ttl hid ↦ h.ended id key v time ttl (mem_of_plain rfl he hid)
  older := fun c hc id v time ttl hid ↦ h.older c hc id v time ttl (mem_of_plain rfl he hid)
  single := h.single
  history := ⟨hjust, h.history⟩

theorem served_erases {key' : String} {time : ℕ} :
    (Happening.served key' v time).erases key = false := rfl

/-- A value that is held may be served. -/
theorem Coherent.serve (h : Coherent s) {expires : ℕ} (hv : Produced s.log key v expires)
    (hlive : s.clock < expires) : Coherent (s.serve key (some v)) :=
  h.push (e := .served key v s.clock) rfl ⟨expires, hv, hlive⟩ fun x hx ↦
    (h.entries x hx).push served_erases

/-! ## The calls -/

theorem Coherent.entry (h : Coherent s) (hlookup : s.map.lookup key = some ent) :
    EntryOk s.log (key, ent) := h.entries _ (mem_of_lookup hlookup)

theorem Coherent.access (h : Coherent s) (hlookup : s.map.lookup key = some ent) :
    Coherent { s with map := put key { ent with lastAccessMs := s.clock } s.map } := by
  refine h.remap fun x hx ↦ ?_
  rcases mem_put hx with rfl | hx
  · exact (h.entry hlookup).accessed s.clock
  · exact h.entries x hx

theorem Coherent.get (h : Coherent s) (key : String) :
    Coherent (s.call maxEntries (.get key)) := by
  simp only [World.call, AsyncTtlCache.get]
  cases hlookup : s.map.lookup key with
  | none => exact h
  | some ent =>
      dsimp only
      by_cases hexpired : ent.expiresAtMs ≤ s.clock
      · rw [if_pos hexpired]
        exact h.remap fun x hx ↦ h.entries x (mem_erase hx).1
      · rw [if_neg hexpired]
        have haccess := h.access hlookup
        have hentry := h.entry hlookup
        obtain ⟨expires, access, value, flight⟩ := ent
        cases value with
        | none => exact haccess
        | some v => exact haccess.serve (hentry.held v rfl) (Nat.lt_of_not_le hexpired)

theorem Coherent.set (h : Coherent s) (key : String) (v : V) (ttl : Option ℕ) :
    Coherent (s.call maxEntries (.set key v ttl)) := by
  simp only [World.call]
  cases cacheable ttl with
  | none => exact h
  | some ttl =>
      refine h.push (e := .wrote key v s.clock ttl) rfl trivial fun x hx ↦ ?_
      rcases mem_put (mem_pruneIfNeeded hx) with rfl | hx
      · refine ⟨fun v' hv' ↦ ?_, nofun, nofun⟩
        obtain rfl := Option.some.inj hv'
        exact .wrote (by rw [sinceErased_push rfl]; exact List.mem_cons_self) rfl
      · exact (h.entries x hx).push rfl

theorem Coherent.delete (h : Coherent s) (key : String) :
    Coherent (s.call maxEntries (.delete key)) := by
  refine h.push (e := .deleted key) rfl trivial fun x hx ↦ ?_
  obtain ⟨hmem, hne⟩ := mem_erase hx
  exact (h.entries x hmem).push (decide_eq_false hne)

theorem Coherent.clear (h : Coherent s) : Coherent (s.call maxEntries .clear) :=
  h.push (e := .cleared) rfl trivial nofun

/-- A new computation, where its key has none in flight. -/
theorem Coherent.start (h : Coherent s) {ttl : ℕ} (httl : 0 < ttl) (throws : Bool)
    (hidle : ∀ c ∈ s.running, c.key ≠ key) : Coherent (s.start maxEntries key ttl throws) := by
  have hnew : ∀ key', .started s.started key' ∉ s.log := fun key' hmem ↦
    absurd (h.numbered _ _ hmem) (Nat.lt_irrefl _)
  have hnumbered : ∀ id key', .started id key' ∈ .started s.started key :: s.log →
      id < s.started + 1 := by
    intro id key' hmem
    rcases List.mem_cons.mp hmem with heq | hmem
    · cases heq
      exact Nat.lt_succ_self _
    · exact Nat.lt_succ_of_lt (h.numbered id key' hmem)
  have hunique : ∀ id key' key'', .started id key' ∈ .started s.started key :: s.log →
      .started id key'' ∈ .started s.started key :: s.log → key' = key'' := by
    intro id key' key'' hmem hmem'
    rcases List.mem_cons.mp hmem with heq | hmem
    · cases heq
      rcases List.mem_cons.mp hmem' with heq | hmem'
      · cases heq
        rfl
      · exact absurd hmem' (hnew key'')
    · rcases List.mem_cons.mp hmem' with heq | hmem'
      · cases heq
        exact absurd hmem (hnew key')
      · exact h.unique id key' key'' hmem hmem'
  have hfinished : ∀ id key' v time ttl,
      .finished id key' v time ttl ∈ .started s.started key :: s.log →
        .finished id key' v time ttl ∈ s.log := fun id key' v time ttl hmem ↦
    (List.mem_cons.mp hmem).resolve_left nofun
  unfold World.start
  dsimp only
  cases throws with
  | true =>
      rw [if_pos rfl]
      refine ⟨fun x hx ↦ ?_, fun c hc ↦ List.mem_cons_of_mem _ (h.begun c hc), h.timed,
        fun w hw ↦ List.mem_cons_of_mem _ (h.waited w hw), hnumbered, hunique,
        fun id key' v time ttl hmem ↦
          Nat.lt_succ_of_lt (h.ended _ _ _ _ _ (hfinished _ _ _ _ _ hmem)),
        fun c hc id v time ttl hmem ↦ h.older c hc _ _ _ _ (hfinished _ _ _ _ _ hmem), h.single,
        trivial, h.history⟩
      rcases mem_put (mem_pruneIfNeeded hx) with rfl | hx
      · exact ⟨nofun, nofun, nofun⟩
      · rcases mem_put hx with rfl | hx
        · exact ⟨nofun, nofun, nofun⟩
        · exact (h.entries x hx).push rfl
  | false =>
      rw [if_neg nofun]
      refine ⟨fun x hx ↦ ?_, fun c hc ↦ ?_, fun c hc ↦ ?_, fun w hw ↦ ?_, hnumbered, hunique,
        fun id key' v time ttl hmem ↦
          Nat.lt_succ_of_lt (h.ended _ _ _ _ _ (hfinished _ _ _ _ _ hmem)),
        fun c hc id v time ttl hmem ↦ ?_, ?_, trivial, h.history⟩
      · rcases mem_put (mem_pruneIfNeeded hx) with rfl | hx
        · refine ⟨nofun, nofun, fun id hid ↦ ?_⟩
          cases hid
          exact List.mem_cons_self
        · exact (h.entries x hx).push rfl
      · rcases List.mem_append.mp hc with hc | hc
        · exact List.mem_cons_of_mem _ (h.begun c hc)
        · rw [List.mem_singleton.mp hc]
          exact List.mem_cons_self
      · rcases List.mem_append.mp hc with hc | hc
        · exact h.timed c hc
        · rwa [List.mem_singleton.mp hc]
      · rcases List.mem_append.mp hw with hw | hw
        · exact List.mem_cons_of_mem _ (h.waited w hw)
        · rw [List.mem_singleton.mp hw]
          exact List.mem_cons_self
      · have hmem := hfinished _ _ _ _ _ hmem
        rcases List.mem_append.mp hc with hc | hc
        · exact h.older c hc _ _ _ _ hmem
        · obtain rfl := List.mem_singleton.mp hc
          exact h.ended _ _ _ _ _ hmem
      · rw [List.map_append, List.nodup_append]
        refine ⟨h.single, List.nodup_singleton _, fun key' hkey' key'' hkey'' heq ↦ ?_⟩
        obtain ⟨c, hc, rfl⟩ := List.mem_map.mp hkey'
        simp only [List.map_cons, List.map_nil, List.mem_singleton] at hkey''
        exact hidle c hc (heq.trans hkey'')

/-- A live entry is served or waited for. -/
theorem find_live (hlookup : map.lookup key = some ent) (hlive : now < ent.expiresAtMs) :
    find key now map = (put key { ent with lastAccessMs := now } map,
      match ent.value, ent.inFlight with
      | some v, _ => .value v
      | none, some promise => .awaits promise
      | none, none => .starts) := by
  unfold find
  rw [hlookup]
  dsimp only
  rw [if_pos hlive]
  cases ent.value with
  | some v => rfl
  | none => cases ent.inFlight <;> rfl

theorem find_dead (hdead : ∀ ent, map.lookup key = some ent → ¬ now < ent.expiresAtMs) :
    find key now map = (map, .starts) := by
  unfold find
  cases hlookup : map.lookup key with
  | none => rfl
  | some ent =>
      dsimp only
      rw [if_neg (hdead ent hlookup)]

theorem Coherent.getOrSet (h : Coherent s) {ttl : Option ℕ} (throws : Bool)
    (hcareful : (cacheable ttl).isSome → (∃ c ∈ s.running, c.key = key) → Live s key) :
    Coherent (s.call maxEntries (.getOrSet key ttl throws)) := by
  simp only [World.call]
  cases httl : cacheable ttl with
  | none => exact h
  | some ttl' =>
      have hpos : 0 < ttl' := by
        obtain ⟨-, hpos⟩ := Option.filter_eq_some_iff.mp httl
        exact of_decide_eq_true hpos
      dsimp only
      by_cases hlive : Live s key
      · obtain ⟨ent, hlookup, hlt⟩ := hlive
        have hentry := h.entry hlookup
        have haccess := h.access hlookup
        rw [find_live hlookup hlt]
        obtain ⟨expires, access, value, flight⟩ := ent
        cases value with
        | some v => exact haccess.serve (hentry.held v rfl) hlt
        | none =>
            cases flight with
            | none => exact absurd rfl (hentry.filled rfl)
            | some promise =>
                cases promise with
                | rejected => exact haccess
                | computation id => exact haccess.wait (w := (id, key)) (hentry.marked id rfl)
      · have hdead : ∀ ent, s.map.lookup key = some ent → ¬ s.clock < ent.expiresAtMs :=
          fun ent hlookup hlt ↦ hlive ⟨ent, hlookup, hlt⟩
        rw [find_dead hdead]
        refine h.start hpos throws fun c hc hkey ↦ hlive ?_
        exact hcareful (by rw [httl]; rfl) ⟨c, hc, hkey⟩

/-! ## The end of a computation -/

theorem Coherent.fail (h : Coherent s) (c : Computation) : Coherent (s.fail c) := by
  refine (h.settled c).remap fun x hx ↦ ?_
  rcases mem_put hx with rfl | hx
  · exact ⟨nofun, nofun, nofun⟩
  · exact h.entries x hx

/-- The callers that wait are served one after the other. -/
theorem Coherent.serveAll (h : Coherent s) {expires : ℕ} (hlive : s.clock < expires)
    (hv : Produced s.log key v expires) (names : List String)
    (hnames : ∀ name ∈ names, name = key) :
    Coherent { s with log := names.map (fun name ↦ .served name v s.clock) ++ s.log } ∧
      Produced (names.map (fun name ↦ .served name v s.clock) ++ s.log) key v expires := by
  induction names with
  | nil => exact ⟨h, hv⟩
  | cons name names ih =>
      obtain ⟨rfl, hrest⟩ := List.forall_mem_cons.mp hnames
      obtain ⟨hcoherent, hproduced⟩ := ih hrest
      exact ⟨hcoherent.serve hproduced hlive, hproduced.push served_erases⟩

theorem Coherent.finish (h : Coherent s) {c : Computation} (hc : c ∈ s.running) (v : V)
    (hcurrent : .started c.id c.key ∈ sinceErased c.key s.log) :
    Coherent (s.finish maxEntries c v) := by
  have hsettled := h.settled c
  have hproduced : Produced (.finished c.id c.key v s.clock c.ttl :: s.log) c.key v
      (s.clock + c.ttl) := by
    refine .finished List.mem_cons_self ?_ rfl
    rw [sinceErased_push rfl]
    exact List.mem_cons_of_mem _ hcurrent
  have hstarted : ∀ id key, .started id key ∈ .finished c.id c.key v s.clock c.ttl :: s.log →
      .started id key ∈ s.log := fun id key hmem ↦ (List.mem_cons.mp hmem).resolve_left nofun
  -- The key has no other computation in flight.
  have hother : ∀ c' ∈ (s.settled c).running, c'.key ≠ c.key := by
    intro c' hc' hkey
    obtain ⟨hmem, hne⟩ := List.mem_filter.mp hc'
    obtain rfl := List.inj_on_of_nodup_map h.single hmem hc hkey
    exact absurd rfl (of_decide_eq_true hne)
  have hwritten : Coherent { s.settled c with
      map := AsyncTtlCache.set maxEntries c.key v c.ttl s.clock s.map
      log := .finished c.id c.key v s.clock c.ttl :: s.log } := by
    refine ⟨fun x hx ↦ ?_, fun c' hc' ↦ List.mem_cons_of_mem _ (hsettled.begun c' hc'),
      hsettled.timed, fun w hw ↦ List.mem_cons_of_mem _ (hsettled.waited w hw),
      fun id key hmem ↦ h.numbered id key (hstarted id key hmem),
      fun id key key' hmem hmem' ↦ h.unique id key key' (hstarted _ _ hmem) (hstarted _ _ hmem'),
      fun id key v' time ttl hmem ↦ ?_, fun c' hc' id v' time ttl hmem ↦ ?_, hsettled.single,
      h.older c hc, h.history⟩
    · rcases mem_put (mem_pruneIfNeeded hx) with rfl | hx
      · refine ⟨fun v' hv' ↦ ?_, nofun, nofun⟩
        obtain rfl := Option.some.inj hv'
        exact hproduced
      · exact (h.entries x hx).push rfl
    · rcases List.mem_cons.mp hmem with heq | hmem
      · cases heq
        exact h.numbered _ _ (h.begun c hc)
      · exact h.ended _ _ _ _ _ hmem
    · rcases List.mem_cons.mp hmem with heq | hmem
      · injection heq with _ hkey
        exact absurd hkey (hother c' hc')
      · exact hsettled.older c' hc' _ _ _ _ hmem
  refine (hwritten.serveAll (Nat.lt_add_of_pos_right (h.timed c hc)) hproduced _ ?_).1
  intro name hname
  obtain ⟨w, hw, rfl⟩ := List.mem_map.mp hname
  obtain ⟨hw, hid⟩ := List.mem_filter.mp hw
  have hid : w.1 = c.id := of_decide_eq_true hid
  exact h.unique c.id _ _ (hid ▸ h.waited w hw) (h.begun c hc)

theorem Coherent.settle (h : Coherent s) (id : ℕ) (result : Option V)
    (hcareful : Careful s s.clock (.settle id result)) :
    Coherent (s.call maxEntries (.settle id result)) := by
  simp only [World.call]
  cases hfind : s.running.find? fun c ↦ c.id = id with
  | none => exact h
  | some c =>
      have hid : c.id = id := by simpa using List.find?_some hfind
      have hc := List.mem_of_find?_eq_some hfind
      cases result with
      | none => exact h.fail c
      | some v => exact h.finish hc v (hcareful c hc hid)

/-! ## Careful runs -/

theorem Coherent.call (h : Coherent s) {call : Call V} (hcareful : Careful s now call) :
    Coherent ((s.tick now).call maxEntries call) := by
  have htick := h.tick now
  cases call with
  | get key => exact htick.get key
  | set key v ttl => exact htick.set key v ttl
  | delete key => exact htick.delete key
  | clear => exact htick.clear
  | getOrSet key ttl throws => exact htick.getOrSet throws hcareful
  | settle id result => exact htick.settle id result (by cases result <;> exact hcareful)

/-- Careful runs keep one computation of a key in flight and serve what is fresh. -/
theorem careful_sound (hs : (system (V := V) maxEntries Careful).Reachable s) : Sound s := by
  suffices h : Coherent s from h.sound
  refine hs.invariant ?_ ?_
  · rintro _ rfl
    exact coherent_init
  · rintro s _ - h ⟨now, call, hcareful, rfl⟩
    exact h.call hcareful

/-- A key asked for in vain is computed a second time. -/
theorem getOrSet_careless {ttl : Option ℕ}
    (hcareless : ¬ Careful s now (.getOrSet key ttl false)) :
    ¬ Sound ((s.tick now).call maxEntries (.getOrSet key ttl false)) := by
  simp only [Careful, Classical.not_imp] at hcareless
  obtain ⟨hsome, ⟨c, hc, hkey⟩, hdead⟩ := hcareless
  obtain ⟨ttl', httl⟩ := Option.isSome_iff_exists.mp hsome
  have hfind : find key now s.map = (s.map, .starts) :=
    find_dead fun ent hlookup hlt ↦ hdead ⟨ent, hlookup, hlt⟩
  intro hsound
  have hsingle := hsound.single
  simp only [World.call, httl, World.tick, hfind, World.start, if_neg Bool.false_ne_true,
    List.map_append, List.map_cons, List.map_nil] at hsingle
  obtain ⟨-, -, hdisjoint⟩ := List.nodup_append.mp hsingle
  exact hdisjoint c.key (List.mem_map_of_mem hc) key List.mem_cons_self hkey

/-! ## Two computations of one key -/

def World.run (maxEntries : ℕ) (s : World V) (calls : List (ℕ × Call V)) : World V :=
  calls.foldl (fun s c ↦ (s.tick c.1).call maxEntries c.2) s

/-- The clock goes on, and there is room for one more entry: nothing is pruned. -/
def Roomy (maxEntries : ℕ) (s : World V) (now : ℕ) (_ : Call V) : Prop :=
  s.clock ≤ now ∧ s.map.length < maxEntries

/-- A computation takes longer than its time to live. -/
theorem not_roomy_sound :
    ¬ ∀ (maxEntries : ℕ) (s : World ℕ),
      (system maxEntries (Roomy maxEntries)).Reachable s → Sound s := by
  intro h
  have hone : (system 2 (Roomy 2)).Reachable
      (World.run 2 .init [(0, .getOrSet "k" (some 1) false)] : World ℕ) :=
    .step (.init rfl) ⟨0, .getOrSet "k" (some 1) false, ⟨by decide, by decide⟩, rfl⟩
  have htwo : (system 2 (Roomy 2)).Reachable
      (World.run 2 .init [(0, .getOrSet "k" (some 1) false), (1, .getOrSet "k" (some 1) false)] :
        World ℕ) :=
    .step hone ⟨1, .getOrSet "k" (some 1) false, ⟨by decide, by decide⟩, rfl⟩
  exact absurd (h 2 _ htwo).single (by decide)

/-- Two callers share a computation, and a third is served from the map. -/
theorem careful_sound_shared :
    Sound (World.run 2 .init [(0, .getOrSet "k" (some 10) false),
      (1, .getOrSet "k" (some 10) false), (3, .settle 0 (some 7)), (12, .get "k")] : World ℕ) := by
  refine @careful_sound ℕ 2 _ ?_
  have hone : (system 2 Careful).Reachable
      (World.run 2 .init [(0, .getOrSet "k" (some 10) false)] : World ℕ) :=
    .step (.init rfl) ⟨0, .getOrSet "k" (some 10) false,
      fun _ ⟨_, hc, _⟩ ↦ absurd hc List.not_mem_nil, rfl⟩
  have htwo : (system 2 Careful).Reachable (World.run 2 .init
      [(0, .getOrSet "k" (some 10) false), (1, .getOrSet "k" (some 10) false)] : World ℕ) :=
    .step hone ⟨1, .getOrSet "k" (some 10) false,
      fun _ _ ↦ ⟨⟨10, 0, none, some (.computation 0)⟩, rfl, by decide⟩, rfl⟩
  have hthree : (system 2 Careful).Reachable (World.run 2 .init
      [(0, .getOrSet "k" (some 10) false), (1, .getOrSet "k" (some 10) false),
        (3, .settle 0 (some 7))] : World ℕ) := by
    refine .step htwo ⟨3, .settle 0 (some 7), fun c hc _ ↦ ?_, rfl⟩
    obtain rfl : c = ⟨0, "k", 10⟩ := List.mem_singleton.mp hc
    exact List.mem_cons_self
  exact .step hthree ⟨12, .get "k", trivial, rfl⟩

end ClaimRush.Agents.AsyncTtlCache
