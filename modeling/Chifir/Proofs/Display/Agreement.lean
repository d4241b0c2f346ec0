import Chifir.Proofs.Config.Overrides
import Chifir.Proofs.Machine.Checked
import Chifir.Proofs.Memory.Dumps

/-!
# Three checks of a window

A window is looked at three times: by the check of a configuration, by the display that is to show
it, and by memory when its block is read. The checks are written apart and compare with different
bounds.

1. `Config.exists_sized_iff` and `Memory.readsWindow_iff`: what the first and the last of them ask
   for. What the display asks for is `Window.exists_of_iff`.
2. `window_checks_agree`: the three accept the same numbers.
-/

namespace Chifir

variable {address width height : Int}

theorem Plan.sound_window_iff {border trace : Bool} :
    (Plan.mk address width height border none trace).Sound ↔
      0 < width ∧ 0 < height ∧ 0 ≤ address ∧ address + width * height ≤ addressLimit := by
  constructor
  · exact fun sound => ⟨sound.width_pos, sound.height_pos, sound.address_nonneg, sound.fits⟩
  · rintro ⟨wide, high, above, fits⟩
    have size : 0 < width * height := Int.mul_pos wide high
    have below : address ≤ 0xFFFFFFFF := by
      simp only [addressLimit] at fits
      omega
    exact ⟨above, below, wide, high, fits, by simp⟩

/-- A configuration with this window and the rest as usual is accepted if the window has a pixel and
lies in memory. -/
theorem Config.exists_sized_iff :
    (∃ c, Config.ofSettings (Config.sized address width height) = .ok c) ↔
      0 < width ∧ 0 < height ∧ 0 ≤ address ∧ address + width * height ≤ addressLimit := by
  have gives :
      (Config.sized address width height).Gives ⟨address, width, height, false, none, false⟩ :=
    ⟨rfl, rfl, rfl, rfl, .null, rfl⟩
  rw [← Plan.sound_window_iff]
  constructor
  · rintro ⟨c, accepted⟩
    have own := Config.ofSettings_eq_ok.1 accepted
    exact (Config.Gives.of_settings (own ▸ gives)).sound
  · intro sound
    obtain ⟨c, own⟩ := Config.exists_of_check ((Settings.check_eq_ok gives).2 ⟨sound, rfl⟩)
    exact ⟨c, Config.ofSettings_eq_ok.2 own⟩

/-- Every memory can be asked for the words of a window (`Memory.readBlock`) if the window lies in
memory. -/
theorem Memory.readsWindow_iff :
    (0 < width ∧ 0 < height ∧
        ∀ m : Memory, ∃ words, m.readBlock address (width * height) = .ok words) ↔
      0 < width ∧ 0 < height ∧ 0 ≤ address ∧ address + width * height ≤ addressLimit := by
  refine and_congr_right fun wide => and_congr_right fun high => ?_
  have size : 0 < width * height := Int.mul_pos wide high
  simp only [Memory.exists_readBlock_iff, forall_const, Memory.Spans, addressLimit]
  omega

/-- The configuration, the display and memory accept the same windows, among all integers. So the
window that a configuration was accepted with is one that the display takes, and it can be painted
from any memory; and no window is refused that could be read. -/
theorem window_checks_agree (address width height : Int) :
    ((∃ c, Config.ofSettings (Config.sized address width height) = .ok c) ↔
        ∃ window, Window.of address width height = .ok window) ∧
      ((∃ window, Window.of address width height = .ok window) ↔
        0 < width ∧ 0 < height ∧ ∀ m :
          Memory, ∃ words, m.readBlock address (width * height) = .ok words) ∧
      ∀ c, Config.ofSettings (Config.sized address width height) = .ok c →
        ∃ window, Window.of address width height = .ok window ∧ c.region = .window window ∧
          ∀ border m, ∃ frame, c.region.paintChecked border m = .ok frame := by
  refine ⟨?_, ?_, ?_⟩
  · rw [Config.exists_sized_iff, Window.exists_of_iff]
  · rw [Window.exists_of_iff, Memory.readsWindow_iff]
  · intro c accepted
    have whole : c.Whole address width height := by
      rw [Config.ofSettings_eq_ok] at accepted
      constructor <;> rw [accepted] <;> rfl
    obtain ⟨window, made, shown⟩ := Config.window_of_whole whole
    refine ⟨window, made, shown, fun border m => ?_⟩
    rw [shown, Region.paintChecked, Memory.readBlock_window]
    exact ⟨_, sendChecked_frame _ _ _ border⟩

end Chifir
