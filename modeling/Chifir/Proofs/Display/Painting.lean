import Chifir.Proofs.Display.Bands
import Chifir.Proofs.Display.Windows
import Chifir.Proofs.Machine.Checked
import Chifir.Proofs.Memory.Blocks

/-!
# Frames show memory

A refresh reads a window of memory as one block, and what it sends is the picture of the words that
are not zero.

1. `Memory.Lit`: a pixel is lit. `Window.getElem?_pixels_lit` finds it in the block.
2. `Screen.toList_paint`, `Window.depicts`: a frame is the bands of the pixels, and they depict what
   is lit. `Screen.paint_eq_iff`: so it tells windows apart that differ in a pixel, and no others.
3. `refresh_depicts_window` puts it together for all windows of whole numbers that a display
   accepts. It accepts others as well, which it cannot paint, as `fractional_window_fails` shows.
-/

namespace Chifir

/-- The word for a pixel in a row-major window of this width is not zero. -/
def Memory.Lit (m : Memory) (address width : Int) (x row : Nat) : Prop :=
  ∃ v, m.read (address + x + row * width) = .ok v ∧ v ≠ 0

namespace Window

variable (w : Window) (m : Memory) {x row : Nat}

/-- The pixels of a window, row by row: a word that is not zero is lit. -/
def pixels : Array Bool := (m.block w.address w.words).map (· != 0)

theorem getElem?_pixels (i : Nat) :
    (w.pixels m)[i]? = if i < w.words then some (m.get (UInt32.ofNat (w.address + i)) != 0)
    else none := by
  have fits : w.address + w.words ≤ addressLimit := w.fits
  rw [pixels, Array.getElem?_map, m.getElem?_block fits]
  split
  · rfl
  · rfl

theorem lit_iff (inside : x + row * w.width < w.words) :
    m.Lit w.address w.width x row ↔ m.get (UInt32.ofNat (w.address + (x + row * w.width))) ≠ 0 := by
  have fits : w.address + w.words ≤ addressLimit := w.fits
  have number :
      (w.address : Int) + x + row * w.width = ((w.address + (x + row * w.width) : Nat) : Int) := by
    push_cast
    ring
  have address : Word.address (w.address + (x + row * w.width) : Nat) =
      .ok (UInt32.ofNat (w.address + (x + row * w.width))) := by
    rw [Word.address_eq_ok, Word.toInt, UInt32.toNat_ofNat_of_lt']
    show _ < addressLimit
    omega
  rw [Memory.Lit, number, Memory.read, address]
  constructor
  · rintro ⟨v, read, lit⟩
    cases read
    exact lit
  · exact fun lit => ⟨_, rfl, lit⟩

theorem getElem?_pixels_lit (column : x < w.width) :
    (w.pixels m)[x + row * w.width]? = some true ↔
      row < w.height ∧ m.Lit w.address w.width x row := by
  rw [getElem?_pixels]
  by_cases inside : x + row * w.width < w.words
  · rw [if_pos inside, w.lit_iff m inside, Option.some.injEq, bne_iff_ne]
    exact (and_iff_right ((Sixel.index_lt_iff column).1 inside)).symm
  · rw [if_neg inside]
    refine ⟨nofun, fun lit => absurd ((Sixel.index_lt_iff column).2 lit.1) inside⟩

theorem pixels_congr {m m' : Memory} (same : ∀ x row, x < w.width → row < w.height →
      (m'.Lit w.address w.width x row ↔ m.Lit w.address w.width x row)) :
    w.pixels m' = w.pixels m := by
  refine Array.ext_getElem? fun i => ?_
  rw [getElem?_pixels, getElem?_pixels]
  by_cases inside : i < w.words
  · have index : i % w.width + i / w.width * w.width = i := Nat.mod_add_div' i w.width
    have column := Nat.mod_lt i w.width_pos
    have place : i % w.width + i / w.width * w.width < w.words := by rwa [index]
    have lit := same _ _ column ((Sixel.index_lt_iff column).1 place)
    rw [w.lit_iff m' place, w.lit_iff m place, index] at lit
    rw [if_pos inside, if_pos inside, Option.some.injEq, Bool.eq_iff_iff, bne_iff_ne, bne_iff_ne]
    exact lit
  · rw [if_neg inside, if_neg inside]

end Window

/-! ## Frames -/

theorem Window.depicts (w : Window) (m : Memory) :
    Sixel.Depicts (Sixel.bandsFor (w.pixels m) w.width w.height) w.width w.height
      fun x row => row < w.height ∧ m.Lit w.address w.width x row :=
  (Sixel.depicts_bandsFor _ _ _).iff.2 fun _ _ column _ => w.getElem?_pixels_lit m column

namespace Screen

variable (s : Screen) (m m' : Memory)

/-- A frame is the bands of the `pixels`, in a border if there is one, and what opens and closes a
picture. -/
theorem toList_paint :
    (s.paint m).toList = Sixel.opening ++
      (Sixel.framed s.border s.window.width
        (Sixel.bandsFor (s.window.pixels m) s.window.width s.window.height)).flatMap
        (· ++ Sixel.nextBand) ++ Sixel.closing := by
  rw [paint, Sixel.frame, String.toList_ofList, ← Sixel.encode_eq]
  rfl

/-- Frames tell which pixels are lit, and nothing else, so `paint` is injective up to `Memory.Lit`.
-/
theorem paint_eq_iff :
    s.paint m' = s.paint m ↔ ∀ x row, x < s.window.width → row < s.window.height →
      (m'.Lit s.window.address s.window.width x row ↔
        m.Lit s.window.address s.window.width x row) := by
  constructor
  · intro same x row column below
    have sent := congrArg String.toList same
    rw [toList_paint, toList_paint] at sent
    have framed := congrArg Sixel.bandsOf (List.append_cancel_left (List.append_cancel_right sent))
    rw [Sixel.bandsOf_flatMap (Sixel.free_framed (s.window.depicts m').free),
      Sixel.bandsOf_flatMap (Sixel.free_framed (s.window.depicts m).free)] at framed
    have depicts := s.window.depicts m'
    rw [Sixel.framed_injective framed, (s.window.depicts m).iff] at depicts
    have lit := depicts x row column (by omega)
    simp only [below, true_and] at lit
    exact lit.symm
  · intro same
    have pixels := s.window.pixels_congr same
    rw [Window.pixels, Window.pixels] at pixels
    rw [paint, paint, pixels]

end Screen

theorem Machine.step_drw {m : Machine} (running : m.status = .running)
    (draws : m.get m.pc = Opcode.drw.word) :
    m.step.bus = m.bus ∧ m.step.display = m.display.refresh m.bus.memory := by
  rw [step_eq_perform running draws]
  refine ⟨bus_record m _, ?_⟩
  show (m.record _).display.refresh (m.record _).bus.memory = _
  rw [display_record, bus_record]

open Sixel in
/-- A display with any window that it accepts can show any memory. It counts and keeps the frame,
and sends it to an output that is bound to it. The frame is a picture of bands, which depict the
words of the window that are not zero and nothing below it; a border goes around them. So frames are
the same exactly if the same words are not zero. When the machine draws, memory stays as it is, its
pages included. -/
theorem refresh_depicts_window {address width height : Int} {window : Window}
    (accepted : Window.of address width height = .ok window) {d : Display} {border : Bool}
    (screen : d.screen = some ⟨window, border⟩) (m : Memory) :
    d.refreshChecked m (some ⟨.window window, border⟩) = .ok (d.refresh m) ∧
      (d.refresh m).frames = d.frames + 1 ∧
      (d.refresh m).output = d.output.map (· ++ (d.refresh m).lastFrame) ∧
      (∃ bands,
        Depicts bands width.toNat height.toNat
          (fun x row => row < height ∧ m.Lit address width x row) ∧
          (d.refresh m).lastFrame.toList = "\x1b[1;1H\x1bPq".toList ++
            (framed border width.toNat bands).flatMap (· ++ ['$', '-']) ++ "\x1b\\".toList) ∧
      (∀ m', (d.refresh m').lastFrame = (d.refresh m).lastFrame ↔
        ∀ x row : Nat, x < width → row < height →
          (m'.Lit address width x row ↔ m.Lit address width x row)) ∧
      ∀ machine : Machine, machine.status = .running → machine.get machine.pc = Opcode.drw.word →
        machine.display = d → machine.step.bus = machine.bus ∧
          machine.step.display = d.refresh machine.bus.memory := by
  obtain ⟨rfl, rfl, rfl⟩ := window.eq_of_of accepted
  have shown (m : Memory) : (d.refresh m).lastFrame = Screen.paint ⟨window, border⟩ m := by
    rw [Display.refresh, screen]
  refine ⟨Display.refreshChecked_eq ⟨screen, ?_⟩ m, ?_, ?_, ?_,
    fun m' => ?_, fun machine running draws shows => ?_⟩
  · rintro s shows
    cases shows
    rfl
  · rw [Display.refresh, screen]
  · rw [Display.refresh, screen]
  · refine ⟨_, ?_, (congrArg String.toList (shown m)).trans
      (Screen.toList_paint ⟨window, border⟩ m)⟩
    simp only [Int.toNat_natCast, Int.ofNat_lt]
    exact window.depicts m
  · rw [shown, shown, Screen.paint_eq_iff]
    simp only [Int.ofNat_lt]
  · subst shows
    exact Machine.step_drw running draws

def cornerWindow : Window := { address := 0xFFFFFFF2, width := 2, height := 7 }

def cornerDisplay : Display where
  screen := some ⟨cornerWindow, true⟩
  frames := 3
  output := some ""

def cornerCells : List (Word × Word) := [(0xFFFFFFF2, 5), (0xFFFFFFFF, 1)]

def corners : Memory := Machine.cellsAt cornerCells

theorem pixels_corners :
    cornerWindow.pixels corners = ([true] ++ List.replicate 12 false ++ [true]).toArray := by
  have words := corners.toList_block cornerWindow.fits
  simp only [corners, Machine.get_cellsAt] at words
  apply Array.toList_inj.1
  rw [Window.pixels, Array.toList_map, corners, Window.words, words]
  decide

theorem refresh_depicts_window_corners :
    Window.of 0xFFFFFFF2 2 7 = .ok cornerWindow ∧
      cornerDisplay.refreshChecked corners (some ⟨.window cornerWindow, true⟩) =
        .ok (cornerDisplay.refresh corners) ∧
      (cornerDisplay.refresh corners).output =
        some "\x1b[1;1H\x1bPq____$-~@?~$-~?@~$-@@@@$-\x1b\\" ∧
      ∃ bands, Sixel.Depicts bands 2 7
          (fun x row => (row : Int) < 7 ∧ corners.Lit 0xFFFFFFF2 2 x row) ∧
        (cornerDisplay.refresh corners).lastFrame.toList = "\x1b[1;1H\x1bPq".toList ++
          (Sixel.framed true 2 bands).flatMap (· ++ ['$', '-']) ++ "\x1b\\".toList := by
  have accepted : Window.of 0xFFFFFFF2 2 7 = .ok cornerWindow := rfl
  obtain ⟨refreshed, _, _, depicted, _⟩ :=
    refresh_depicts_window accepted (d := cornerDisplay) rfl corners
  have sent : (cornerDisplay.refresh corners).output =
      some "\x1b[1;1H\x1bPq____$-~@?~$-~?@~$-@@@@$-\x1b\\" := by
    show some ("" ++ Sixel.frame (cornerWindow.pixels corners) 2 7 true) = _
    rw [pixels_corners]
    decide +kernel
  exact ⟨accepted, refreshed, sent, depicted⟩

/-- A display also accepts a window with a width that is not given as a whole number. But nothing
can be painted from it. -/
theorem fractional_window_fails :
    ∃ region, Region.of (.whole 0x10000) (.real (.ofInt 2)) (.whole 6) = .ok region ∧
      cornerDisplay.refreshChecked .empty (some ⟨region, true⟩) = .error (.paint .repetition) := by
  have fails : (Region.of (.whole 0x10000) (.real (.ofInt 2)) (.whole 6)).toOption.any fun region =>
      (cornerDisplay.refreshChecked .empty (some ⟨region, true⟩)).map (·.frames) =
        .error (.paint .repetition) := by
    decide +kernel
  obtain ⟨region, accepted, fails⟩ := exists_of_any_toOption fails
  rw [decide_eq_true_eq] at fails
  exact ⟨region, accepted, map_eq_error.1 fails⟩

end Chifir
