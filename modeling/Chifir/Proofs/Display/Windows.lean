import Chifir.Config.Basic
import Chifir.Proofs.Except

/-!
# The window of a configuration

1. `Window.exists_of_iff`: some numbers are those of a window if and only if it has a pixel and lies
   in memory.
2. `Config.window_of_whole`: a configuration whose display settings are whole numbers shows the
   window of these numbers. They passed its own check, and the display takes them too.
-/

namespace Chifir

namespace Window

/-- The numbers that `Window.of` makes a window of are its own. -/
theorem eq_of_of (w : Window) {address width height : Int}
    (accepted : Window.of address width height = .ok w) :
    address = w.address ∧ width = w.width ∧ height = w.height := by
  rw [Window.of] at accepted
  split at accepted
  · cases accepted
  · next size =>
    split at accepted
    · cases accepted
    · next place =>
      cases accepted
      dsimp only
      omega

/-- A window is found by `Window.of` if it has a pixel and lies in memory. -/
theorem exists_of_iff {address width height : Int} :
    (∃ window, Window.of address width height = .ok window) ↔
      0 < width ∧ 0 < height ∧ 0 ≤ address ∧ address + width * height ≤ addressLimit := by
  unfold Window.of
  split
  · next size =>
    refine iff_of_false (by rintro ⟨window, ⟨⟩⟩) ?_
    rintro ⟨wide, high, -⟩
    omega
  · next size =>
    split
    · next place =>
      refine iff_of_false (by rintro ⟨window, ⟨⟩⟩) ?_
      rintro ⟨-, -, above, fits⟩
      omega
    · next place =>
      exact iff_of_true ⟨_, rfl⟩ ⟨by omega, by omega, by omega, by omega⟩

end Window

theorem Region.of_whole_eq_ok {address width height : Int} {region : Region} :
    Region.of (.whole address) (.whole width) (.whole height) = .ok region ↔
      ∃ window, Window.of address width height = .ok window ∧ region = .window window := by
  simp only [Region.of]
  split
  · next window made => simp [made, eq_comm]
  · next refused => simp [refused]
  · next refused => simp [refused]

/-- A display is shown numbers as `Region.of` takes them. -/
theorem Settings.region?_eq_some {s : Settings} {region : Region} {address width height : Number}
    (givenAddress : s.address.asNumber? = some address)
    (givenWidth : s.width.asNumber? = some width) (givenHeight : s.height.asNumber? = some height) :
    s.region? = some region ↔ Region.of address width height = .ok region := by
  unfold region?
  rw [givenAddress, givenWidth, givenHeight]
  exact toOption_eq_some

/-- The display settings of a configuration are these whole numbers. -/
structure Config.Whole (c : Config) (address width height : Int) : Prop where
  address : c.settings.address.asNumber? = some (.whole address)
  width : c.settings.width.asNumber? = some (.whole width)
  height : c.settings.height.asNumber? = some (.whole height)

theorem Config.window_of_whole {c : Config} {address width height : Int}
    (whole : c.Whole address width height) :
    ∃ window, Window.of address width height = .ok window ∧ c.region = .window window :=
  Region.of_whole_eq_ok.1
    ((Settings.region?_eq_some whole.address whole.width whole.height).1 c.shown)

end Chifir
