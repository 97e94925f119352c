import ClaimRush.Furnace.Frame

/-!
# The reserve is backed

Reserve and stream together never exceed the CLAIM of the Furnace, as long as
every credit comes with its CLAIM.
-/

namespace ClaimRush.Furnace

open Account

variable {S : Type} {port : VeClaimNFT.IShareholderRoyalties S}

/-- The call counts on no CLAIM but what it brings. -/
def Op.Covered (op : Op S) : Prop := op.brought = 0

theorem backed_initial {self owner now : ℕ} {base : VeClaimNFT.World S} :
    ((World.mk (initial self owner now) base).account 0).Backed := by
  simp [Account.Backed, World.account, initial, LinearStream.liability, LinearStream.scheduled]

theorem Op.Effect.backed {op : Op S} {now : ℕ} {w w' : World S} (hop : op.Covered)
    (hs : Sound now w) (hb : (w.account 0).Backed)
    (h : op.Effect now (w.account op.brought) (w'.account 0)) : (w'.account 0).Backed := by
  obtain ⟨a, hmoves, hrewire⟩ := h
  rw [show op.brought = 0 from hop] at hmoves
  exact hrewire.backed (Moves.backed hmoves hs.shaped hb)

theorem reachable_backed {c : Timed (World S)} (hc : (systemOf port Op.Covered).Reachable c) :
    (c.state.account 0).Backed := by
  refine hc.invariant (I := fun c ↦ (c.state.account 0).Backed) ?_ ?_
  · rintro ⟨now, w⟩ ⟨self, owner, base, -, heq⟩
    change w = ⟨initial self owner now, base⟩ at heq
    rw [heq]
    exact backed_initial
  · rintro ⟨now, w⟩ ⟨now', w'⟩ hreach hbacked ⟨call, op, hop, hle, hok, rfl⟩
    have hsound := reachable_sound (systemOf_reachable hreach)
    have hlater : Sound call.timestamp w := ⟨hsound.shaped.later hle, hsound.distinct⟩
    exact ((exec_effect port call w op hsound.distinct).of_ok hok).backed hop hlater hbacked

end ClaimRush.Furnace
