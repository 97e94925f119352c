import ClaimRush.Lib.FiniteTotal
import ClaimRush.Lib.RingWindow
import ClaimRush.MineCore.Observed

/-!
# The window of recent takeovers

The ring holds the kings of the last takeovers and the table counts them.  No
king follows itself, so none has more than half of the window.
-/

open Function

namespace ClaimRush.MineCore

open Constants

variable {S : Type} (port : VeClaimNFT.IShareholderRoyalties S)

theorem TAKEOVER_WINDOW_LEN_pos : 0 < TAKEOVER_WINDOW_LEN := by
  simp [TAKEOVER_WINDOW_LEN]

/-- The window after the takeovers of `kings`, the newest first. -/
structure TakeoverWindow.Counts (t : TakeoverWindow) (kings : List Address) : Prop where
  ring : RingHolds TAKEOVER_WINDOW_LEN 0 t.takeoverWindow kings
  cursor : t.takeoverWindowCursor = kings.length % TAKEOVER_WINDOW_LEN
  count : ∀ a, t.takeoverWindowTakeovers a = (kings.take TAKEOVER_WINDOW_LEN).count a

namespace TakeoverWindow

variable {t : TakeoverWindow} {kings : List Address}

/-- A king in the next slot still has a count, and it is the oldest of the window. -/
theorem Counts.evicted (h : t.Counts kings) (hne : t.takeoverWindow t.takeoverWindowCursor ≠ 0) :
    t.takeoverWindowTakeovers (t.takeoverWindow t.takeoverWindowCursor) ≠ 0 := by
  have hpos := TAKEOVER_WINDOW_LEN_pos
  rw [h.cursor] at hne ⊢
  have hfull : TAKEOVER_WINDOW_LEN ≤ kings.length := by
    by_contra hfill
    exact hne (h.ring.next_blank (not_le.mp hfill))
  rw [h.ring.next_oldest hpos hfull, h.count]
  refine Nat.ne_of_gt (List.count_pos_iff.mpr ?_)
  exact List.mem_take_iff_getElem.mpr ⟨TAKEOVER_WINDOW_LEN - 1, by omega, rfl⟩

theorem raised_apply (counts : Address → ℕ) (newKing a : Address) :
    update counts newKing (counts newKing + 1) a = counts a + if newKing = a then 1 else 0 := by
  by_cases h : newKing = a
  · rw [← h, update_self, if_pos rfl]
  · rw [update_of_ne (Ne.symm h), if_neg h, Nat.add_zero]

theorem lowered_apply {counts : Address → ℕ} {evicted : Address} (hne : counts evicted ≠ 0)
    (a : Address) :
    update counts evicted (counts evicted - 1) a + (if evicted = a then 1 else 0) = counts a := by
  by_cases h : evicted = a
  · rw [← h, update_self, if_pos rfl]
    omega
  · rw [update_of_ne (Ne.symm h), if_neg h, Nat.add_zero]

theorem Counts.record (h : t.Counts kings) (hzero : 0 ∉ kings) (newKing : Address) :
    (t.recordTakeover newKing).Counts (newKing :: kings) := by
  have hpos := TAKEOVER_WINDOW_LEN_pos
  refine ⟨?_, ?_, fun a ↦ ?_⟩
  · show RingHolds _ 0 (update t.takeoverWindow t.takeoverWindowCursor newKing) _
    rw [h.cursor]
    exact h.ring.push newKing
  · show (t.takeoverWindowCursor + 1) % TAKEOVER_WINDOW_LEN = _
    rw [h.cursor, Nat.mod_add_mod, List.length_cons]
  unfold recordTakeover
  dsimp only
  rw [raised_apply]
  by_cases hfull : TAKEOVER_WINDOW_LEN ≤ kings.length
  · have hslot := h.ring.next_oldest hpos hfull
    rw [← h.cursor, List.get_eq_getElem] at hslot
    have hne : t.takeoverWindow t.takeoverWindowCursor ≠ 0 := by
      rw [hslot]
      exact fun hking ↦ hzero (hking ▸ List.getElem_mem _)
    have hcount := h.evicted hne
    rw [if_pos ⟨hne, hcount⟩]
    have hlowered := lowered_apply hcount a
    have hpush := count_take_push kings (m := TAKEOVER_WINDOW_LEN - 1) (by omega) newKing a
    rw [Nat.sub_add_cancel hpos, ← h.count, ← hslot] at hpush
    omega
  · have hblank := h.ring.next_blank (not_le.mp hfull)
    rw [← h.cursor] at hblank
    rw [if_neg fun hne ↦ hne.1 hblank, count_take_fill kings (not_le.mp hfull), h.count]

theorem Counts.total_eq (h : t.Counts kings) :
    FiniteEntries t.takeoverWindowTakeovers ∧
      total t.takeoverWindowTakeovers = min kings.length TAKEOVER_WINDOW_LEN := by
  have hmem (a : Address) (ha : t.takeoverWindowTakeovers a ≠ 0) :
      a ∈ (kings.take TAKEOVER_WINDOW_LEN).toFinset := by
    rw [h.count] at ha
    exact List.mem_toFinset.mpr (List.count_pos_iff.mp (Nat.pos_of_ne_zero ha))
  refine ⟨(Finset.finite_toSet _).subset hmem, ?_⟩
  rw [total_eq_sum hmem, Finset.sum_congr rfl fun a _ ↦ h.count a,
    List.sum_toFinset_count_eq_length, List.length_take, Nat.min_comm]

/-- No king has more than half of the window. -/
theorem Counts.le_half (h : t.Counts kings) (hchain : kings.IsChain (· ≠ ·)) (a : Address) :
    t.takeoverWindowTakeovers a ≤ 50 := by
  have hhalf := count_le_of_isChain_ne (hchain.take TAKEOVER_WINDOW_LEN) a
  have hlen := List.length_take_le TAKEOVER_WINDOW_LEN kings
  rw [← h.count] at hhalf
  rw [TAKEOVER_WINDOW_LEN] at hlen hhalf
  omega

/-- The liquid share before its clamp. -/
theorem Counts.share_le (h : t.Counts kings) (hchain : kings.IsChain (· ≠ ·)) (a : Address) :
    t.takeoverWindowTakeovers a * 10000 / TAKEOVER_WINDOW_LEN ≤ KING_LIQUID_SHARE_MAX_BPS := by
  have hhalf := h.le_half hchain a
  rw [TAKEOVER_WINDOW_LEN, KING_LIQUID_SHARE_MAX_BPS]
  omega

end TakeoverWindow

/-- Kings of the takeovers so far, the newest first. -/
def Observed.kings (o : Observed S) : List Address := o.takeovers.map Prod.fst

/-- The window holds the observed kings. -/
structure Windowed (o : Observed S) : Prop where
  counts : o.core.window.Counts o.kings
  current : o.game.currentKing = o.kings.headD 0
  nonzero : 0 ∉ o.kings
  chain : o.kings.IsChain (· ≠ ·)

namespace Windowed

variable {o : Observed S} {port}

theorem initial (h : (observed port).init o) : Windowed o := by
  obtain ⟨⟨-, self, royalties, helper, owner, mainnet, hcore⟩, -, htakeovers⟩ := h
  have hkings : o.kings = [] := by rw [Observed.kings, htakeovers, List.map_nil]
  have hcounts : o.core.window.Counts [] := by
    show o.config.world.core.window.Counts []
    rw [hcore]
    exact ⟨.nil _ _, (Nat.zero_mod _).symm, fun a ↦ by simp [MineCore.initial]⟩
  have hvacant : o.game.currentKing = 0 := by
    show o.config.world.core.game.currentKing = 0
    rw [hcore]
    rfl
  rw [← hkings] at hcounts
  refine ⟨hcounts, ?_, ?_, ?_⟩
  · rw [hvacant, hkings]
    rfl
  · rw [hkings]
    exact List.not_mem_nil
  · rw [hkings]
    exact .nil

/-- A step that makes no king leaves the window and the king. -/
theorem extend_none (h : Windowed o) {c : Config S} (hwindow : c.world.core.window = o.core.window)
    (hking : c.world.core.game.currentKing = o.game.currentKing) : Windowed (o.extend c none) where
  counts := by
    show c.world.core.window.Counts o.kings
    rw [hwindow]
    exact h.counts
  current := hking.trans h.current
  nonzero := h.nonzero
  chain := h.chain

/-- A takeover is recorded, and its king is another one. -/
theorem extend_some (h : Windowed o) {c : Config S} {call : Call} {newKing : Address}
    (htaken : Taken call newKing o.core c.world.core) : Windowed (o.extend c (some newKing)) := by
  obtain ⟨pricePaid, k, f, hover⟩ := htaken.takenOver
  refine ⟨?_, congrArg Game.currentKing hover.game, ?_, ?_⟩
  · show c.world.core.window.Counts (newKing :: o.kings)
    rw [hover.window]
    exact h.counts.record h.nonzero newKing
  · exact List.not_mem_cons_of_ne_of_not_mem hover.king_ne.symm h.nonzero
  · refine List.isChain_cons.mpr ⟨fun king (hking : king ∈ o.kings.head?) ↦ ?_, h.chain⟩
    have hcurrent : o.game.currentKing = king := by
      rw [h.current, List.headD_eq_head?_getD, Option.mem_def.mp hking]
      rfl
    rw [← hcurrent]
    refine htaken.other ?_
    show o.game.currentKing ≠ 0
    rw [hcurrent]
    exact fun hzero ↦ h.nonzero (hzero ▸ List.mem_of_mem_head? hking)

end Windowed

theorem reachable_windowed {o : Observed S} (ho : (observed port).Reachable o) : Windowed o := by
  refine ho.invariant (fun _ ↦ Windowed.initial) ?_
  rintro o o' - h hstep
  cases hstep with
  | @op w call op hnow hexec =>
      cases hking : op.newKing call with
      | some newKing =>
          exact h.extend_some ((exec_taken port call o.config.world hking).of_ok hexec)
      | none =>
          cases (exec_turn port call o.config.world hking).of_ok hexec with
          | pauseChanged paused hpause =>
              exact h.extend_none hpause.window (setPaused_king hpause.set)
          | genesisCollected hgenesis =>
              exact h.extend_none hgenesis.window (congrArg Game.currentKing hgenesis.game)
          | idle hidle => exact h.extend_none hidle.window (congrArg Game.currentKing hidle.game)
  | outside received furnace hnow => exact h.extend_none rfl rfl

/-- The table counts the kings of the last hundred takeovers.  A king that is
overwritten has a count to lose, and no count exceeds fifty, so the clamp of the
liquid share never binds. -/
theorem takeover_window_exact {o : Observed S} (ho : (observed port).Reachable o) :
    (∀ a, o.core.window.takeoverWindowTakeovers a = (o.kings.take 100).count a) ∧
    FiniteEntries o.core.window.takeoverWindowTakeovers ∧
    total o.core.window.takeoverWindowTakeovers = min o.kings.length 100 ∧
    (o.core.window.takeoverWindow o.core.window.takeoverWindowCursor ≠ 0 →
      o.core.window.takeoverWindowTakeovers
        (o.core.window.takeoverWindow o.core.window.takeoverWindowCursor) ≠ 0) ∧
    ∀ a, o.core.window.takeoverWindowTakeovers a ≤ 50 ∧
      o.core.window.takeoverWindowTakeovers a * 10000 / TAKEOVER_WINDOW_LEN ≤
        KING_LIQUID_SHARE_MAX_BPS := by
  have h := reachable_windowed port ho
  obtain ⟨hfinite, htotal⟩ := h.counts.total_eq
  have hcount := h.counts.count
  rw [TAKEOVER_WINDOW_LEN] at htotal hcount
  refine ⟨hcount, hfinite, htotal, h.counts.evicted, fun a ↦ ?_⟩
  exact ⟨h.counts.le_half h.chain a, h.counts.share_le h.chain a⟩

/-- Three takeovers by two accounts. -/
def alternation : List (Call × Op) :=
  opening ++
    [(gameCall 92010 21 ether (Nat.succ_pos _), .takeover plainReplies ether),
      (gameCall 92020 22 ether (Nat.succ_pos _), .takeover plainReplies ether),
      (gameCall 92030 21 ether (Nat.succ_pos _), .takeover plainReplies ether)]

theorem takeover_window_exact_alternation :
    ∃ o, (observed VeClaimNFT.acceptingPort).Reachable o ∧ o.kings = [21, 22, 21] ∧
      o.core.window.takeoverWindowTakeovers 21 = 2 ∧
      total o.core.window.takeoverWindowTakeovers = 3 := by
  obtain ⟨o, ho, hlast⟩ := observed_witness VeClaimNFT.acceptingPort deployedGame alternation
    (fun o ↦ decide (o.kings = [21, 22, 21])) deployedGame_init (by decide) (by decide +kernel)
  have hkings := of_decide_eq_true hlast
  obtain ⟨hcount, -, htotal, -⟩ := takeover_window_exact VeClaimNFT.acceptingPort ho
  refine ⟨o, ho, hkings, ?_, ?_⟩
  · rw [hcount, hkings]
    rfl
  · rw [htotal, hkings]
    rfl

end ClaimRush.MineCore
