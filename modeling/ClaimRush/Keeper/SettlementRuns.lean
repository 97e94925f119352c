import ClaimRush.Keeper.Settlement
import ClaimRush.Lib.Driven

/-!
# Runs of the settlement schedule

The opened windows form a chain: each is a whole number of periods after the one
before it, and what lies between them has elapsed.  The clock anchors the first
window within a period, and dates tell windows apart, when a period is a day or
longer.
-/

open Relation

namespace ClaimRush.Keeper

variable {config : SettlementConfig}

/-! ## The next window -/

theorem SettlementConfig.periodMs_pos (config : SettlementConfig) : 0 < config.periodMs := by
  have := config.period_ge
  unfold periodMs
  omega

theorem SettlementConfig.duration_pos (config : SettlementConfig) :
    0 < config.windowDurationMs := by
  have := config.duration_ge
  unfold windowDurationMs
  omega

theorem SettlementConfig.duration_le_period (config : SettlementConfig) :
    config.windowDurationMs ≤ config.periodMs :=
  Nat.mul_le_mul_right _ config.duration_le

/-- With a period of a day or more, the clock gives a window within one period. -/
theorem nextWindow_bounds (hday : 86400 ≤ config.settlementPeriodSecs) (now : ℕ) :
    now < config.nextWindow now ∧ config.nextWindow now ≤ now + config.periodMs := by
  have hle := config.period_le
  have hhour := config.hour_le
  have hweekday := config.day_le
  unfold SettlementConfig.nextWindow SettlementConfig.periodMs computeNextWindowMs
  have hanchor : setUTCHours now config.settlementHourUtc =
      now / 86400000 * 86400000 + config.settlementHourUtc * 3600000 := rfl
  dsimp only
  generalize hcurrent : getUTCDay (setUTCHours now config.settlementHourUtc) = currentDay
  have hcurrent : currentDay < 7 := hcurrent ▸ Nat.mod_lt _ (by decide)
  rw [hanchor, WEEK_SECS, DAY_MS]
  split_ifs <;> omega

variable (config) in
/-- The loop of `closeCycle` stops at the first window that has not elapsed. -/
theorem skipElapsed_spec (now : ℕ) : ∀ fuel start : ℕ, now < fuel + start →
    ∃ k, skipElapsed config now fuel start = start + k * config.periodMs ∧
      now < skipElapsed config now fuel start + config.windowDurationMs ∧
      ∀ j < k, start + j * config.periodMs + config.windowDurationMs ≤ now := by
  intro fuel
  have hperiod := config.periodMs_pos
  induction fuel with
  | zero =>
      intro start hfuel
      refine ⟨0, by simp [skipElapsed], ?_, by simp⟩
      simp only [skipElapsed]
      omega
  | succ fuel ih =>
      intro start hfuel
      simp only [skipElapsed]
      split_ifs with helapsed
      · obtain ⟨k, heq, hlate, hskip⟩ := @ih (start + config.periodMs) (by omega)
        refine ⟨k + 1, by rw [heq, Nat.succ_mul]; omega, hlate, ?_⟩
        intro j hj
        cases j with
        | zero => simpa using helapsed
        | succ j =>
            have := hskip j (by omega)
            rw [Nat.succ_mul]
            omega
      · exact ⟨0, by simp, by omega, by simp⟩

/-- `newer` is a whole number of periods after `older`, and the windows between have elapsed. -/
def Succeeds (config : SettlementConfig) (now newer older : ℕ) : Prop :=
  ∃ k, newer = older + (k + 1) * config.periodMs ∧
    ∀ j < k, older + (j + 1) * config.periodMs + config.windowDurationMs ≤ now

theorem Succeeds.mono {now now' newer older : ℕ} (h : Succeeds config now newer older)
    (hle : now ≤ now') : Succeeds config now' newer older := by
  obtain ⟨k, heq, hskip⟩ := h
  exact ⟨k, heq, fun j hj ↦ (hskip j hj).trans hle⟩

theorem Succeeds.lt {now newer older : ℕ} (h : Succeeds config now newer older) :
    older < newer := by
  obtain ⟨k, rfl, -⟩ := h
  exact Nat.lt_add_of_pos_right (Nat.mul_pos (Nat.succ_pos k) config.periodMs_pos)

variable (config) in
/-- `closeCycle` schedules a window that has not elapsed. -/
theorem closeCycle_spec (now : ℕ) {state : SettlementState} {cycle : SettlementCycleState}
    (hcurrent : state.current = some cycle) :
    Succeeds config now (closeCycle config state now).nextWindowMs cycle.windowOpenMs ∧
      now < (closeCycle config state now).nextWindowMs + config.windowDurationMs ∧
      (closeCycle config state now).current = none := by
  obtain ⟨k, heq, hlate, hskip⟩ := skipElapsed_spec config now (now + 1)
    (cycle.windowOpenMs + config.periodMs) (by omega)
  simp only [closeCycle, hcurrent]
  refine ⟨⟨k, by rw [heq, Nat.succ_mul]; omega, fun j hj ↦ ?_⟩, hlate, trivial⟩
  have := hskip j hj
  rw [Nat.succ_mul]
  omega

theorem Succeeds.le_add_period {now newer older : ℕ} (h : Succeeds config now newer older)
    (hpast : older ≤ now) : newer ≤ now + config.periodMs := by
  obtain ⟨k, rfl, hskip⟩ := h
  cases k with
  | zero => omega
  | succ k =>
      have := hskip k (Nat.lt_succ_self k)
      rw [Nat.succ_mul (k + 1)]
      omega

/-! ## Runs -/

inductive SettlementEvent
  | tick
  | spreadComplete
  | work (w : Work)
  | restart

def SettlementEvent.exec (config : SettlementConfig) (now : ℕ) (d : Daemon) :
    SettlementEvent → Daemon
  | .tick => d.tick config now
  | .spreadComplete => d.spreadComplete config now
  | .work w => d.work w
  | .restart => d.restart config now

def anyEvent (_ : ℕ) (_ : Daemon) (_ : SettlementEvent) : Prop := True

/-- A restart without a file, which reads the clock again, finds the same next window. -/
def KeepsAnchor (config : SettlementConfig) (now : ℕ) (d : Daemon) : SettlementEvent → Prop
  | .restart => d.file = none → config.nextWindow now = d.sState.nextWindowMs
  | _ => True

section Steps

variable (config : SettlementConfig) (ok : ℕ → Daemon → SettlementEvent → Prop)

/-- Ticks, work and restarts that meet the condition, from a first process without a file. -/
def settlement : TransitionSystem (Timed Daemon) where
  init c := c.state = .start config c.now
  step c c' := ∃ e : SettlementEvent, ok c'.now c.state e ∧ c.now ≤ c'.now ∧
    c'.state = e.exec config c'.now c.state

/-- What happens between two consecutive ticks. -/
def Between : Timed Daemon → Timed Daemon → Prop :=
  ReflTransGen fun c c' ↦ ∃ e : SettlementEvent, e ≠ .tick ∧ ok c'.now c.state e ∧
    c.now ≤ c'.now ∧ c'.state = e.exec config c'.now c.state

end Steps

/-- A cycle is inside its window. -/
def Daemon.Running (d : Daemon) (now : ℕ) : Prop :=
  ∃ cycle, d.sState.current = some cycle ∧ now < cycle.windowCloseMs

/-- The opened windows, the newest first. -/
def Daemon.windows (d : Daemon) : List ℕ := d.opened.map SettlementCycleState.windowOpenMs

/-- The first window of the schedule: the first opened one, or the next one. -/
def Daemon.first (d : Daemon) : ℕ := d.windows.getLastD d.sState.nextWindowMs

/-- The schedule after some run. -/
structure Scheduled (config : SettlementConfig) (now : ℕ) (d : Daemon) : Prop where
  chain : d.windows.IsChain (Succeeds config now)
  past : ∀ w ∈ d.windows, w ≤ now
  ids : ∀ c ∈ d.opened, c.cycleId = cycleIdFromWindowMs c.windowOpenMs
  /-- Before the first window nothing is persisted. -/
  fresh : d.windows = [] → d.file = none ∧ d.sState.current = none
  saved : d.windows ≠ [] → d.file = some d.sState
  current : ∀ cycle, d.sState.current = some cycle → d.windows.head? = some cycle.windowOpenMs ∧
    cycle.windowCloseMs = cycle.windowOpenMs + config.windowDurationMs
  next : d.sState.current = none → ∀ w ∈ d.windows.head?,
    Succeeds config now d.sState.nextWindowMs w ∧ d.sState.nextWindowMs ≤ now + config.periodMs

theorem Scheduled.mono {now now' : ℕ} {d : Daemon} (h : Scheduled config now d) (hle : now ≤ now') :
    Scheduled config now' d where
  chain := h.chain.imp fun _ _ hs ↦ hs.mono hle
  past := fun w hw ↦ (h.past w hw).trans hle
  ids := h.ids
  fresh := h.fresh
  saved := h.saved
  current := h.current
  next := fun hc w hw ↦
    ⟨(h.next hc w hw).1.mono hle, (h.next hc w hw).2.trans (Nat.add_le_add_right hle _)⟩

theorem Scheduled.start (now : ℕ) : Scheduled config now (.start config now) where
  chain := .nil
  past := by simp [Daemon.start, Daemon.windows]
  ids := by simp [Daemon.start]
  fresh := fun _ ↦ ⟨rfl, rfl⟩
  saved := fun h ↦ absurd rfl h
  current := by simp [Daemon.start, loadSettlementState]
  next := by simp [Daemon.start, Daemon.windows]

/-- A running cycle is the newest opened one. -/
theorem Scheduled.head {now : ℕ} {d : Daemon} {cycle : SettlementCycleState}
    (h : Scheduled config now d) (hcurrent : d.sState.current = some cycle) :
    d.windows ≠ [] ∧ cycle.windowOpenMs ≤ now := by
  have hhead := (h.current cycle hcurrent).1
  exact ⟨fun hnil ↦ by simp [hnil] at hhead, h.past _ (List.mem_of_mem_head? hhead)⟩

/-- Closing the running cycle keeps the schedule. -/
theorem Scheduled.close {now : ℕ} {d : Daemon} {cycle : SettlementCycleState}
    (h : Scheduled config now d) (hcurrent : d.sState.current = some cycle) :
    Scheduled config now (d.persist (closeCycle config d.sState now)) := by
  obtain ⟨hsucceeds, -, hnone⟩ := closeCycle_spec config now hcurrent
  obtain ⟨hopened, hpast⟩ := h.head hcurrent
  have hhead := (h.current cycle hcurrent).1
  constructor
  · exact h.chain
  · exact h.past
  · exact h.ids
  · exact fun hnil ↦ absurd hnil hopened
  · exact fun _ ↦ rfl
  · intro cycle' hcurrent'
    rw [Daemon.persist, hnone] at hcurrent'
    cases hcurrent'
  · intro _ w hw
    have hw : some cycle.windowOpenMs = some w := hhead.symm.trans hw
    obtain rfl := Option.some.inj hw
    exact ⟨hsucceeds, hsucceeds.le_add_period hpast⟩

theorem Scheduled.closeDue {now : ℕ} {d : Daemon} (h : Scheduled config now d) :
    Scheduled config now (d.closeDue config now) := by
  unfold Daemon.closeDue
  cases hcurrent : d.sState.current with
  | none => exact h
  | some cycle =>
      dsimp only
      split_ifs
      · exact h.close hcurrent
      · exact h

theorem Scheduled.openDue {now : ℕ} {d : Daemon} (h : Scheduled config now d) :
    Scheduled config now (d.openDue config now) := by
  unfold Daemon.openDue
  split_ifs with hopen
  · obtain ⟨hcurrent, hdue⟩ := hopen
    have hdue : d.sState.nextWindowMs ≤ now := of_decide_eq_true hdue
    have hnext := h.next hcurrent
    constructor
    · exact List.isChain_cons.mpr ⟨fun w hw ↦ (hnext w hw).1, h.chain⟩
    · intro w hw
      rcases List.mem_cons.mp hw with rfl | hw
      · exact hdue
      · exact h.past w hw
    · intro c hc
      rcases List.mem_cons.mp hc with rfl | hc
      · rfl
      · exact h.ids c hc
    · intro hnil
      cases hnil
    · exact fun _ ↦ rfl
    · intro cycle hcycle
      obtain rfl := Option.some.inj hcycle
      exact ⟨rfl, rfl⟩
    · intro hnone
      cases hnone
  · exact h

theorem Scheduled.spreadComplete {now : ℕ} {d : Daemon} (h : Scheduled config now d) :
    Scheduled config now (d.spreadComplete config now) := by
  unfold Daemon.spreadComplete
  cases hcurrent : d.sState.current with
  | none => exact h
  | some cycle =>
      dsimp only
      split_ifs
      · exact h.close hcurrent
      · exact h

theorem Scheduled.work {now : ℕ} {d : Daemon} (h : Scheduled config now d) (w : Work) :
    Scheduled config now (d.work w) := by
  unfold Daemon.work
  cases hcurrent : d.sState.current with
  | none => exact h
  | some cycle =>
      obtain ⟨hopened, -⟩ := h.head hcurrent
      obtain ⟨hopen, hclose⟩ := w.apply_window cycle
      constructor
      · exact h.chain
      · exact h.past
      · exact h.ids
      · exact fun hnil ↦ absurd hnil hopened
      · exact fun _ ↦ rfl
      · intro cycle' hcycle'
        obtain rfl := Option.some.inj hcycle'
        rw [hopen, hclose]
        exact h.current cycle hcurrent
      · intro hnone
        cases hnone

/-- A restart reads back what was persisted: the next window is never more than a period away. -/
theorem Scheduled.restart_eq {now : ℕ} {d : Daemon} (h : Scheduled config now d)
    (hopened : d.windows ≠ []) : d.restart config now = d := by
  have hkeep : loadSettlementState config d.file now = d.sState := by
    rw [h.saved hopened, loadSettlementState]
    split_ifs with hfar
    · obtain ⟨hcurrent, hfar⟩ := hfar
      obtain ⟨w, hw⟩ := Option.isSome_iff_exists.mp (List.isSome_head?.mpr hopened)
      have := (h.next hcurrent w hw).2
      omega
    · rfl
  rw [Daemon.restart, hkeep]

theorem Scheduled.restart {now : ℕ} {d : Daemon} (h : Scheduled config now d) :
    Scheduled config now (d.restart config now) := by
  by_cases hopened : d.windows = []
  · obtain ⟨hfile, -⟩ := h.fresh hopened
    have hcurrent : (d.restart config now).sState.current = none := by
      simp [Daemon.restart, loadSettlementState, hfile]
    constructor
    · exact h.chain
    · exact h.past
    · exact h.ids
    · exact fun _ ↦ ⟨hfile, hcurrent⟩
    · exact fun hne ↦ absurd hopened hne
    · intro cycle hcycle
      rw [hcurrent] at hcycle
      cases hcycle
    · intro _ w hw
      have hw : w ∈ d.windows.head? := hw
      simp [hopened] at hw
  · rw [h.restart_eq hopened]
    exact h

theorem Scheduled.exec {now now' : ℕ} {d : Daemon} (h : Scheduled config now d) (hle : now ≤ now')
    (e : SettlementEvent) : Scheduled config now' (e.exec config now' d) := by
  have h := h.mono hle
  cases e with
  | tick => exact h.closeDue.openDue
  | spreadComplete => exact h.spreadComplete
  | work w => exact h.work w
  | restart => exact h.restart

variable {ok : ℕ → Daemon → SettlementEvent → Prop}

theorem settlement_scheduled {c : Timed Daemon} (hc : (settlement config ok).Reachable c) :
    Scheduled config c.now c.state := by
  refine hc.invariant (I := fun c ↦ Scheduled config c.now c.state) ?_ ?_
  · intro c hinit
    rw [show c.state = .start config c.now from hinit]
    exact .start c.now
  · rintro c c' - hs ⟨e, -, hle, hstate⟩
    rw [hstate]
    exact hs.exec hle e

/-! ## The first window -/

/-- What leaves the opened windows leaves the first one, once there is one. -/
theorem first_eq_of_windows {d d' : Daemon} (hopened : d.windows ≠ [])
    (heq : d'.windows = d.windows) : d'.first = d.first := by
  obtain ⟨w, ws, hw⟩ := List.exists_cons_of_ne_nil hopened
  simp only [Daemon.first, heq, hw, List.getLastD_cons]

theorem Scheduled.closeDue_first {now : ℕ} {d : Daemon} (h : Scheduled config now d) :
    (d.closeDue config now).first = d.first := by
  unfold Daemon.closeDue
  cases hcurrent : d.sState.current with
  | none => rfl
  | some cycle =>
      dsimp only
      split_ifs
      · exact first_eq_of_windows (h.head hcurrent).1 rfl
      · rfl

/-- The next window is opened behind the older ones. -/
theorem openDue_first (d : Daemon) (now : ℕ) : (d.openDue config now).first = d.first := by
  unfold Daemon.openDue
  split_ifs
  · exact List.getLastD_cons ..
  · rfl

/-- An event that keeps the anchor keeps the first window. -/
theorem Scheduled.exec_first {now : ℕ} {d : Daemon} {e : SettlementEvent}
    (h : Scheduled config now d) (hok : KeepsAnchor config now d e) :
    (e.exec config now d).first = d.first := by
  cases e with
  | tick => exact (openDue_first _ now).trans h.closeDue_first
  | spreadComplete =>
      change (d.spreadComplete config now).first = d.first
      unfold Daemon.spreadComplete
      cases hcurrent : d.sState.current with
      | none => rfl
      | some cycle =>
          dsimp only
          split_ifs
          · exact first_eq_of_windows (h.head hcurrent).1 rfl
          · rfl
  | work w =>
      change (d.work w).first = d.first
      unfold Daemon.work
      cases d.sState.current <;> rfl
  | restart =>
      change (d.restart config now).first = d.first
      by_cases hopened : d.windows = []
      · have hfile := (h.fresh hopened).1
        have hnext : (d.restart config now).sState.nextWindowMs = d.sState.nextWindowMs := by
          simpa [Daemon.restart, loadSettlementState, hfile] using hok hfile
        exact congrArg d.windows.getLastD hnext
      · rw [h.restart_eq hopened]

/-- Restarts that keep the anchor keep the window of the first process. -/
theorem anchored_run {t₀ : ℕ} {c : Timed Daemon}
    (hrun : ReflTransGen (settlement config (KeepsAnchor config)).step ⟨t₀, .start config t₀⟩ c) :
    Scheduled config c.now c.state ∧ c.state.first = config.nextWindow t₀ := by
  induction hrun with
  | refl => exact ⟨.start t₀, rfl⟩
  | tail _ hstep ih =>
      obtain ⟨hscheduled, hfirst⟩ := ih
      obtain ⟨e, hok, hnow, hstate⟩ := hstep
      rw [hstate]
      exact ⟨hscheduled.exec hnow e, ((hscheduled.mono hnow).exec_first hok).trans hfirst⟩

/-! ## The opened windows -/

/-- Opening times strictly increase. -/
theorem Scheduled.increasing {now : ℕ} {d : Daemon} (h : Scheduled config now d) :
    d.windows.Pairwise (· > ·) :=
  (h.chain.imp fun _ _ hs ↦ hs.lt).pairwise

/-- Every opened window is a whole number of periods after the first one. -/
theorem periods_after_first {now first : ℕ} {ws : List ℕ} (h : ws.IsChain (Succeeds config now))
    (hfirst : ws.getLast? = some first) : ∀ w ∈ ws, ∃ m, w = first + m * config.periodMs := by
  induction ws with
  | nil => cases hfirst
  | cons newest ws ih =>
      cases ws with
      | nil =>
          intro w hw
          obtain rfl := List.mem_singleton.mp hw
          exact ⟨0, by simpa using hfirst⟩
      | cons older ws =>
          obtain ⟨⟨k, heq, -⟩, hrest⟩ := List.isChain_cons_cons.mp h
          rw [List.getLast?_cons_cons] at hfirst
          have ih := ih hrest hfirst
          intro w hw
          rcases List.mem_cons.mp hw with rfl | hw
          · obtain ⟨m, hm⟩ := ih older (.head _)
            exact ⟨m + (k + 1), by rw [heq, hm, Nat.add_mul m, Nat.add_assoc]⟩
          · exact ih w hw

/-- A window of the schedule up to the newest opened one was opened or has elapsed. -/
theorem opened_or_elapsed {now first k : ℕ} {ws : List ℕ} (h : ws.IsChain (Succeeds config now))
    (hfirst : ws.getLast? = some first)
    (hle : ∀ newest ∈ ws.head?, first + k * config.periodMs ≤ newest) :
    first + k * config.periodMs ∈ ws ∨
      first + k * config.periodMs + config.windowDurationMs ≤ now := by
  have hperiod := config.periodMs_pos
  induction ws with
  | nil => cases hfirst
  | cons newest ws ih =>
      cases ws with
      | nil =>
          obtain rfl : newest = first := by simpa using hfirst
          have hle := hle newest rfl
          have hzero : k * config.periodMs = 0 := by omega
          left
          simp [hzero]
      | cons older ws =>
          obtain ⟨hsucceeds, hrest⟩ := List.isChain_cons_cons.mp h
          have hfirst' : (older :: ws).getLast? = some first := by
            rwa [List.getLast?_cons_cons] at hfirst
          by_cases hbefore : first + k * config.periodMs ≤ older
          · rcases ih hrest hfirst' (by simpa using hbefore) with hmem | helapsed
            · exact .inl (.tail _ hmem)
            · exact .inr helapsed
          · have hle := hle newest rfl
            obtain ⟨m, rfl⟩ := periods_after_first hrest hfirst' older (.head _)
            obtain ⟨n, rfl, hskip⟩ := hsucceeds
            have hlt : m < k := by
              by_contra hge
              exact hbefore (Nat.add_le_add_left (Nat.mul_le_mul_right _ (Nat.not_lt.mp hge)) _)
            obtain ⟨j, rfl⟩ := Nat.exists_eq_add_of_lt hlt
            have heq : first + (m + j + 1) * config.periodMs =
                first + m * config.periodMs + (j + 1) * config.periodMs := by
              rw [Nat.add_assoc m, Nat.add_mul m, Nat.add_assoc]
            rw [heq] at hle ⊢
            rcases Nat.lt_or_ge j n with hj | hj
            · exact .inr (hskip j hj)
            · left
              have hge := Nat.mul_le_mul_right config.periodMs (Nat.succ_le_succ hj)
              have : (j + 1) * config.periodMs = (n + 1) * config.periodMs := by
                simp only [Nat.succ_eq_add_one] at hge
                omega
              rw [this]
              exact .head _

/-! ## Between two ticks -/

/-- The next window had not elapsed at the instant. -/
def Ahead (config : SettlementConfig) (t : ℕ) (d : Daemon) : Prop :=
  d.sState.current = none → t < d.sState.nextWindowMs + config.windowDurationMs

theorem tick_ahead (d : Daemon) (t : ℕ) : Ahead config t (d.tick config t) := by
  unfold Ahead Daemon.tick Daemon.openDue
  generalize d.closeDue config t = d
  split_ifs with hopen
  · simp [Daemon.persist, openCycle]
  · intro hcurrent
    have hdue : ¬d.sState.nextWindowMs ≤ t := by simpa [hcurrent, isWindowDue] using hopen
    omega

/-- Until the next tick the next window stays ahead of the last one. -/
theorem exec_ahead (hday : 86400 ≤ config.settlementPeriodSecs) {t now : ℕ} {d : Daemon}
    {e : SettlementEvent} (he : e ≠ .tick) (h : Scheduled config now d) (hle : t ≤ now)
    (ht : Ahead config t d) : Ahead config t (e.exec config now d) := by
  cases e with
  | tick => exact absurd rfl he
  | spreadComplete =>
      change Ahead config t (d.spreadComplete config now)
      unfold Daemon.spreadComplete
      cases hcurrent : d.sState.current with
      | none => exact ht
      | some cycle =>
          dsimp only
          split_ifs
          · exact fun _ ↦ hle.trans_lt (closeCycle_spec config _ hcurrent).2.1
          · exact ht
  | work w =>
      change Ahead config t (d.work w)
      unfold Daemon.work
      cases hcurrent : d.sState.current with
      | none => exact ht
      | some cycle => simp [Ahead, Daemon.persist]
  | restart =>
      change Ahead config t (d.restart config now)
      by_cases hopened : d.windows = []
      · intro _
        have hnext : (d.restart config now).sState.nextWindowMs = config.nextWindow now := by
          simp [Daemon.restart, loadSettlementState, (h.fresh hopened).1]
        have := (nextWindow_bounds hday now).1
        omega
      · rw [h.restart_eq hopened]
        exact ht

theorem between_ahead (hday : 86400 ≤ config.settlementPeriodSecs) {c c' : Timed Daemon}
    (hbetween : Between config ok c c') (hc : Scheduled config c.now c.state)
    (ht : Ahead config c.now c.state) :
    c.now ≤ c'.now ∧ Scheduled config c'.now c'.state ∧ Ahead config c.now c'.state := by
  induction hbetween with
  | refl => exact ⟨le_rfl, hc, ht⟩
  | tail _ hstep ih =>
      obtain ⟨hle, hscheduled, hahead⟩ := ih
      obtain ⟨e, he, -, hnow, hstate⟩ := hstep
      rw [hstate]
      exact ⟨hle.trans hnow, hscheduled.exec hnow e,
        exec_ahead hday he (hscheduled.mono hnow) (hle.trans hnow) hahead⟩

theorem Between.steps {c c' : Timed Daemon} (h : Between config ok c c') :
    ReflTransGen (settlement config ok).step c c' := by
  induction h with
  | refl => exact .refl
  | tail _ hstep ih =>
      obtain ⟨e, -, hok, hnow, hstate⟩ := hstep
      exact ih.tail ⟨e, hok, hnow, hstate⟩

/-- A tick at which no cycle runs leaves no cycle open before it opens the next window. -/
theorem closeDue_idle {t now : ℕ} {d : Daemon} (hle : t ≤ now) (hidle : ¬d.Running now)
    (ht : Ahead config t d) :
    (d.closeDue config now).sState.current = none ∧
      t < (d.closeDue config now).sState.nextWindowMs + config.windowDurationMs := by
  unfold Daemon.closeDue
  cases hcurrent : d.sState.current with
  | none => exact ⟨hcurrent, ht hcurrent⟩
  | some cycle =>
      have hover : cycle.windowCloseMs ≤ now := Nat.not_lt.mp fun hlt ↦ hidle ⟨cycle, hcurrent, hlt⟩
      obtain ⟨-, hlate, hnone⟩ := closeCycle_spec config now hcurrent
      simp only [hover, if_true]
      exact ⟨hnone, hle.trans_lt hlate⟩

/-- A window that holds two idle ticks in a row is open after the second one. -/
theorem opened_by_second_tick {t₁ t₂ first k : ℕ} {d : Daemon} (h : Scheduled config t₂ d)
    (hle : t₁ ≤ t₂) (hidle : ¬d.Running t₂) (hahead : Ahead config t₁ d) (hfirst : d.first = first)
    (hstart : first + k * config.periodMs ≤ t₁)
    (hend : t₂ < first + k * config.periodMs + config.windowDurationMs) :
    first + k * config.periodMs ∈ (d.tick config t₂).windows := by
  obtain ⟨hcurrent, hnext⟩ := closeDue_idle hle hidle hahead
  have hclosed := h.closeDue
  have hduration := config.duration_le_period
  replace hfirst : (d.closeDue config t₂).first = first := h.closeDue_first.trans hfirst
  unfold Daemon.tick
  generalize d.closeDue config t₂ = d' at *
  have hchain : (d'.sState.nextWindowMs :: d'.windows).IsChain (Succeeds config t₂) :=
    List.isChain_cons.mpr ⟨fun w hw ↦ (hclosed.next hcurrent w hw).1, hclosed.chain⟩
  have hlast : (d'.sState.nextWindowMs :: d'.windows).getLast? = some first := by
    rw [← hfirst, List.getLast?_cons, Daemon.first, List.getLastD_eq_getLast?]
  by_cases hdue : d'.sState.nextWindowMs ≤ t₂
  · have hwindows : (d'.openDue config t₂).windows = d'.sState.nextWindowMs :: d'.windows := by
      simp [Daemon.openDue, hcurrent, isWindowDue, hdue, Daemon.windows, openCycle]
    rw [hwindows]
    refine (opened_or_elapsed hchain hlast ?_).resolve_right (by omega)
    -- An earlier next window would have elapsed before the first tick.
    intro newest hnewest
    obtain rfl := Option.some.inj hnewest
    obtain ⟨m, hm⟩ := periods_after_first hchain hlast _ (.head _)
    rcases Nat.lt_or_ge m k with hlt | hge
    · have := Nat.mul_le_mul_right config.periodMs hlt
      rw [Nat.succ_mul] at this
      omega
    · rw [hm]
      exact Nat.add_le_add_left (Nat.mul_le_mul_right _ hge) _
  · have hwindows : (d'.openDue config t₂).windows = d'.windows := by
      simp [Daemon.openDue, isWindowDue, hdue]
    rw [hwindows]
    have hmem := (opened_or_elapsed hchain hlast (k := k) (by simp; omega)).resolve_right (by omega)
    rcases List.mem_cons.mp hmem with heq | hmem
    · omega
    · exact hmem

/-! ## Cycle ids -/

/-- The first instant of the year 10000. -/
def YEAR_10000_MS : ℕ := dayFromYear 10000 * DAY_MS

/-- Windows a day or more apart have different dates. -/
theorem cycleId_ne {w w' : ℕ} (hapart : w + DAY_MS ≤ w') (hw' : w' < YEAR_10000_MS) :
    cycleIdFromWindowMs w' ≠ cycleIdFromWindowMs w := by
  intro heq
  have hday : 0 < DAY_MS := by decide
  have hlt (x : ℕ) (hx : x < YEAR_10000_MS) : x / DAY_MS < dayFromYear 10000 :=
    Nat.div_lt_of_lt_mul (by rwa [Nat.mul_comm])
  have hdays := isoDate_text_inj (hlt w' hw') (hlt w (by omega)) (String.ofList_injective heq)
  have hnext := Nat.div_le_div_right (c := DAY_MS) hapart
  rw [Nat.add_div_right _ hday] at hnext
  omega

theorem Scheduled.distinct_ids (hday : 86400 ≤ config.settlementPeriodSecs) {now : ℕ} {d : Daemon}
    (h : Scheduled config now d) (hnow : now < YEAR_10000_MS) :
    d.opened.Pairwise fun c c' ↦ c.cycleId ≠ c'.cycleId := by
  have hperiod : DAY_MS ≤ config.periodMs := by
    unfold DAY_MS SettlementConfig.periodMs
    omega
  have hapart : d.windows.Pairwise fun w w' ↦ w' + config.periodMs ≤ w := by
    have htrans : IsTrans ℕ fun w w' ↦ w' + config.periodMs ≤ w := ⟨fun a b c hab hbc ↦ by omega⟩
    refine (h.chain.imp fun newer older hs ↦ ?_).pairwise
    obtain ⟨k, rfl, -⟩ := hs
    rw [Nat.succ_mul]
    omega
  refine (List.pairwise_map.mp hapart).imp_of_mem fun {c c'} hc hc' hle ↦ ?_
  rw [h.ids c hc, h.ids c' hc']
  exact cycleId_ne ((Nat.add_le_add_left hperiod _).trans hle)
    ((h.past _ (List.mem_map_of_mem hc)).trans_lt hnow)

/-! ## Short periods -/

variable (config) in
/-- A tick at the next window opens it. -/
theorem tick_windows (now : ℕ) {d : Daemon}
    (hcurrent : (d.closeDue config now).sState.current = none)
    (hnext : (d.closeDue config now).sState.nextWindowMs = now) :
    (d.tick config now).windows = now :: d.windows ∧
      ∃ cycle, (d.tick config now).sState.current = some cycle := by
  have hwindows : (d.closeDue config now).windows = d.windows := by
    unfold Daemon.closeDue
    cases d.sState.current with
    | none => rfl
    | some cycle =>
        dsimp only
        split_ifs <;> rfl
  unfold Daemon.tick Daemon.openDue
  simp only [hcurrent, hnext, isWindowDue, le_refl, decide_true, and_self, if_true]
  refine ⟨?_, _, rfl⟩
  rw [← hwindows]
  simp [Daemon.windows, openCycle, hnext]

/-- The cycle of a window is closed a period later, and the window of that instant is next. -/
theorem closeDue_next {w : ℕ} {d : Daemon} {cycle : SettlementCycleState}
    (hcurrent : d.sState.current = some cycle) (hopen : cycle.windowOpenMs = w)
    (hclose : cycle.windowCloseMs = w + config.windowDurationMs) :
    (d.closeDue config (w + config.periodMs)).sState.current = none ∧
      (d.closeDue config (w + config.periodMs)).sState.nextWindowMs = w + config.periodMs := by
  have hle : cycle.windowCloseMs ≤ w + config.periodMs := by
    rw [hclose]
    exact Nat.add_le_add_left config.duration_le_period _
  obtain ⟨⟨k, heq, hskip⟩, -, hnone⟩ :=
    closeCycle_spec config (w + config.periodMs) hcurrent
  simp only [Daemon.closeDue, hcurrent, hle, if_true]
  refine ⟨hnone, heq.trans ?_⟩
  cases k with
  | zero => rw [hopen, Nat.zero_add, Nat.one_mul]
  | succ k =>
      have hfirst := hskip 0 k.succ_pos
      have hpos := config.duration_pos
      rw [hopen] at hfirst
      omega

/-- What the schedule promises; its windows are the periods from the next window of the
first process on, and `ok` is what the runs in which they are opened must meet. -/
structure SettlementSchedule (config : SettlementConfig)
    (ok : ℕ → Daemon → SettlementEvent → Prop) : Prop where
  next : ∀ now, now < config.nextWindow now ∧ config.nextWindow now ≤ now + config.periodMs
  increasing : ∀ c, (settlement config anyEvent).Reachable c → c.state.windows.Pairwise (· > ·)
  congruent : ∀ c, (settlement config anyEvent).Reachable c →
    ∀ first, c.state.windows.getLast? = some first →
      ∀ w ∈ c.state.windows, w ≡ first [MOD config.periodMs]
  ids : ∀ c, (settlement config anyEvent).Reachable c → c.now < YEAR_10000_MS →
    c.state.opened.Pairwise fun a b ↦ a.cycleId ≠ b.cycleId
  closes : ∀ state now, now < (closeCycle config state now).nextWindowMs + config.windowDurationMs
  /-- Two consecutive ticks at which no cycle runs, inside the span of a window. -/
  opens : ∀ t₀ c t₁ c' t₂, ReflTransGen (settlement config ok).step ⟨t₀, .start config t₀⟩ c →
    c.now ≤ t₁ → Between config ok ⟨t₁, c.state.tick config t₁⟩ c' → c'.now ≤ t₂ →
    ¬c.state.Running t₁ → ¬c'.state.Running t₂ →
    ∀ k, config.nextWindow t₀ + k * config.periodMs ≤ t₁ →
      t₂ < config.nextWindow t₀ + k * config.periodMs + config.windowDurationMs →
        config.nextWindow t₀ + k * config.periodMs ∈ (c'.state.tick config t₂).windows

/-- Ticks at the first windows of the schedule, while their dates differ. -/
theorem consecutive_windows (h : SettlementSchedule config ok) (n : ℕ)
    (hn : config.nextWindow 0 + n * config.periodMs < YEAR_10000_MS) :
    ∃ c, (settlement config anyEvent).Reachable c ∧
      c.now = config.nextWindow 0 + n * config.periodMs ∧
      c.state.windows.head? = some c.now ∧ (∃ cycle, c.state.sState.current = some cycle) ∧
      n ≤ c.now / DAY_MS := by
  induction n with
  | zero =>
      obtain ⟨hwindows, hcurrent⟩ := tick_windows config (config.nextWindow 0)
        (d := .start config 0) rfl rfl
      have hinit : (settlement config anyEvent).Reachable ⟨0, .start config 0⟩ := .init rfl
      refine ⟨⟨config.nextWindow 0, (Daemon.start config 0).tick config (config.nextWindow 0)⟩,
        hinit.step ⟨.tick, trivial, Nat.zero_le _, rfl⟩, by simp, ?_, hcurrent, Nat.zero_le _⟩
      rw [hwindows]
      rfl
  | succ n ih =>
      have hnext : config.nextWindow 0 + (n + 1) * config.periodMs =
          config.nextWindow 0 + n * config.periodMs + config.periodMs := by
        rw [Nat.succ_mul, Nat.add_assoc]
      rw [hnext] at hn
      obtain ⟨c, hc, hnow, hhead, ⟨cycle, hcurrent⟩, hday⟩ := ih (by omega)
      obtain ⟨hopen, hclose⟩ := (settlement_scheduled hc).current cycle hcurrent
      have hopen : cycle.windowOpenMs = c.now := Option.some.inj (hopen.symm.trans hhead)
      obtain ⟨hidle, hdue⟩ := closeDue_next hcurrent hopen (hopen ▸ hclose)
      obtain ⟨hwindows, hcurrent'⟩ := tick_windows config _ hidle hdue
      have hc' : (settlement config anyEvent).Reachable
          ⟨c.now + config.periodMs, c.state.tick config (c.now + config.periodMs)⟩ :=
        .step hc ⟨.tick, trivial, Nat.le_add_right .., rfl⟩
      refine ⟨_, hc', by rw [hnext, ← hnow], by rw [hwindows]; rfl, hcurrent', ?_⟩
      -- The dates of the two newest windows differ.
      have hids := h.ids _ hc' (by simpa [hnow] using hn)
      have hscheduled := (settlement_scheduled hc').ids
      dsimp only at hids hscheduled ⊢
      generalize c.state.tick config (c.now + config.periodMs) = d at *
      obtain ⟨ws, hws⟩ := List.head?_eq_some_iff.mp hhead
      obtain ⟨newer, rest, hopened, hnewer, hrest⟩ := List.map_eq_cons_iff.mp hwindows
      obtain ⟨older, rest', rfl, holder, -⟩ := List.map_eq_cons_iff.mp (hrest.trans hws)
      rw [hopened] at hids hscheduled
      have hne := (List.pairwise_cons.mp hids).1 older (.head _)
      rw [hscheduled newer (.head _), hscheduled older (.tail _ (.head _)), hnewer, holder] at hne
      have hlt : c.now / DAY_MS < (c.now + config.periodMs) / DAY_MS := by
        refine lt_of_le_of_ne (Nat.div_le_div_right (Nat.le_add_right ..)) fun heq ↦ hne ?_
        rw [cycleIdFromWindowMs, cycleIdFromWindowMs, heq]
      omega

/-- With a period of less than a day, two windows share a date some day. -/
theorem not_schedule_of_short (hshort : config.settlementPeriodSecs < 86400) :
    ¬SettlementSchedule config ok := by
  intro h
  have hhour := config.hour_le
  have hge := config.period_ge
  have hfirst : config.nextWindow 0 ≤ 86400000 := by
    have hperiod : config.settlementPeriodSecs % WEEK_SECS ≠ 0 := by
      rw [WEEK_SECS]
      omega
    simp only [SettlementConfig.nextWindow, computeNextWindowMs, setUTCHours, hperiod, if_false,
      Nat.zero_div, Nat.zero_mul]
    split_ifs <;> omega
  have hperiod : config.periodMs ≤ 86399000 := by
    unfold SettlementConfig.periodMs
    omega
  have hyear : YEAR_10000_MS = 253402300800000 := by decide
  obtain ⟨c, -, hnow, -, -, hday⟩ := consecutive_windows h 172800 (by omega)
  rw [DAY_MS] at hday
  omega

/-- The schedule keeps its promises exactly when a period is a day or longer, and opens
its windows when no restart moves the first one before it is opened. -/
theorem settlement_schedule (config : SettlementConfig) :
    SettlementSchedule config (KeepsAnchor config) ↔ 86400 ≤ config.settlementPeriodSecs := by
  constructor
  · intro h
    exact Nat.not_lt.mp fun hshort ↦ not_schedule_of_short hshort h
  · intro hday
    constructor
    · exact nextWindow_bounds hday
    · exact fun c hc ↦ (settlement_scheduled hc).increasing
    · intro c hc first hfirst w hw
      obtain ⟨m, rfl⟩ := periods_after_first (settlement_scheduled hc).chain hfirst w hw
      simp [Nat.ModEq]
    · exact fun c hc hnow ↦ (settlement_scheduled hc).distinct_ids hday hnow
    · intro state now
      cases hcurrent : state.current with
      | some cycle => exact (closeCycle_spec config _ hcurrent).2.1
      | none =>
          have := (nextWindow_bounds hday now).1
          simp only [closeCycle, hcurrent]
          omega
    · intro t₀ c t₁ c' t₂ hc hle₁ hbetween hle₂ _ hidle k hstart hend
      obtain ⟨hscheduled₁, -⟩ := anchored_run hc
      obtain ⟨hle, hscheduled, hahead⟩ := between_ahead hday hbetween
        (hscheduled₁.exec hle₁ .tick) (tick_ahead c.state t₁)
      obtain ⟨-, hfirst⟩ := anchored_run
        ((hc.tail ⟨.tick, trivial, hle₁, rfl⟩).trans hbetween.steps)
      exact opened_by_second_tick (hscheduled.mono hle₂) (hle.trans hle₂) hidle hahead hfirst
        hstart hend

/-! With an hourly cadence, at five in the morning the next window is the one at one. -/

def hourlyConfig : SettlementConfig where
  settlementPeriodSecs := 3600
  settlementDayUtc := 4
  settlementHourUtc := 0
  settlementWindowDurationSecs := 3600
  period_ge := Nat.le_refl 3600
  period_le := Nat.le_of_ble_eq_true rfl
  day_le := Nat.le_of_ble_eq_true rfl
  hour_le := Nat.zero_le 23
  duration_ge := Nat.le_refl 3600
  duration_le := Nat.le_refl 3600

theorem not_settlement_schedule :
    ¬∀ config : SettlementConfig, SettlementSchedule config anyEvent := by
  intro h
  have hlate := ((h hourlyConfig).next 18000000).1
  rw [show hourlyConfig.nextWindow 18000000 = 3600000 by decide] at hlate
  omega

/-! With a daily cadence, the daemon starts at noon and is restarted a minute after its
first window, which is the next midnight. -/

def dailyConfig : SettlementConfig where
  settlementPeriodSecs := 86400
  settlementDayUtc := 4
  settlementHourUtc := 0
  settlementWindowDurationSecs := 86400
  period_ge := Nat.le_of_ble_eq_true rfl
  period_le := Nat.le_of_ble_eq_true rfl
  day_le := Nat.le_of_ble_eq_true rfl
  hour_le := Nat.zero_le 23
  duration_ge := Nat.le_of_ble_eq_true rfl
  duration_le := Nat.le_refl 86400

/-- The restart loses the window, and both ticks in it open nothing. -/
theorem not_daily_schedule : ¬SettlementSchedule dailyConfig anyEvent := by
  intro h
  have hrun : ReflTransGen (settlement dailyConfig anyEvent).step
      ⟨43200000, .start dailyConfig 43200000⟩
      ⟨86460000, (Daemon.start dailyConfig 43200000).restart dailyConfig 86460000⟩ :=
    .single ⟨.restart, trivial, by decide, rfl⟩
  have hopened := h.opens 43200000 _ 86520000 _ 86580000 hrun (by decide) .refl (by decide)
    (fun ⟨_, hcurrent, _⟩ ↦ by cases hcurrent) (fun ⟨_, hcurrent, _⟩ ↦ by cases hcurrent) 0
    (by decide) (by decide)
  exact absurd hopened (by decide)

end ClaimRush.Keeper
