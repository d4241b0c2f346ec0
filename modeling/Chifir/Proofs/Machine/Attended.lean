import Chifir.Machine.Attended
import Chifir.Proofs.Machine.Budgets
import Chifir.Proofs.Machine.Table

/-!
# What an attended run hears

1. `exists_hear_key`: a `key` instruction gets the last of the bytes that its source gives, and
   leaves nothing of them for the next one.
2. `runAttended_of_silent`, `runAttended_of_unpainted`: while nobody types, an attended run is a run
   by itself, or a run to the first frame if frames cannot be painted.
-/

namespace Chifir.Machine

variable {ε : Type} {keys : Nat → Except ε (List UInt8)} {m : Machine} {asked : Nat}

/-! ## One key -/

theorem asksKey_iff :
    m.asksKey = true ↔ m.status = .running ∧ m.get m.pc = Opcode.key.word := by
  rw [asksKey, Bool.and_eq_true, beq_iff_eq, beq_iff_eq, Opcode.ofWord?_eq_some]
  rfl

theorem hear_of_deaf (deaf : m.asksKey = false) : m.hear keys asked = .ok (asked, m) := by
  rw [hear, deaf, if_neg nofun]

/-- Nothing waits in a keyboard that is drained whole, and no key is held back in it. -/
structure Drained (k : Keyboard) : Prop where
  remote : k.source ≠ .direct
  waiting : k.waiting = []
  last : k.last = none

/-- A `key` instruction that is heard gets the last of the bytes that have come, or 0 if none have.
The keyboard is `Drained` again behind it. -/
theorem exists_hear_key {bytes : List UInt8} (asks : m.asksKey = true)
    (drained : Drained m.keyboard) (gives : keys asked = .ok bytes) :
    ∃ heard, m.hear keys asked = .ok (asked + 1, heard) ∧
      heard.step.get (m.get (m.pc + 1)) = (bytes.getLast?.getD 0).toUInt32 ∧
      Drained heard.step.keyboard := by
  obtain ⟨running, fetched⟩ := asksKey_iff.1 asks
  let heard : Machine := { m with keyboard := m.keyboard.send bytes }
  have sent : heard.keyboard = { m.keyboard with waiting := bytes } := by
    show m.keyboard.send bytes = _
    unfold Keyboard.send
    split
    · next direct => exact absurd direct drained.remote
    · rw [drained.waiting, List.nil_append]
  have remote : heard.keyboard.source ≠ .direct := by
    rw [sent]
    exact drained.remote
  have latest : heard.keyboard.latest = bytes.getLast?.getD 0 := by
    rw [Keyboard.latest, Keyboard.arrived, if_neg remote, sent]
    simp [drained.last]
  have follows : heard.Follows .key (heard.row .key) heard.step :=
    follows_step running fetched fun divides => absurd divides (by decide)
  refine ⟨heard, by rw [hear, asks, if_pos rfl, gives]; rfl, ?_, ?_⟩
  · rw [follows.get_eq]
    show (if _ = _ then Word.ofInt heard.keyboard.latest.toNat else _) = _
    rw [latest, Word.ofInt_byte]
    exact if_pos rfl
  · rw [follows.keyboard, if_pos rfl]
    refine ⟨remote, ?_, rfl⟩
    rw [Keyboard.polled, if_neg remote]

/-! ## Silence -/

theorem hear_of_silent (silent : ∀ n, keys n = .ok []) :
    ∃ asked', m.hear keys asked = .ok (asked', m) := by
  by_cases asks : m.asksKey = true
  · have same : m.keyboard.send [] = m.keyboard := by
      unfold Keyboard.send
      split
      · rfl
      · rw [List.append_nil]
    refine ⟨asked + 1, ?_⟩
    rw [hear, if_pos asks, silent]
    show Except.ok (asked + 1, { m with keyboard := m.keyboard.send [] }) = _
    rw [same]
  · exact ⟨asked, hear_of_deaf (Bool.eq_false_iff.2 asks)⟩

/-- An attended run in silence is a run by itself: `runFor` with the same budget. -/
theorem runAttended_of_silent (silent : ∀ n, keys n = .ok []) (asked budget : Nat) :
    m.runAttended keys true asked budget = (.stopped (m.runFor budget).1, (m.runFor budget).2) := by
  induction budget generalizing asked m with
  | zero => rfl
  | succ budget ih =>
    obtain ⟨asked', heard⟩ := hear_of_silent silent
    rw [runAttended, heard, Nat.add_comm budget, runFor_add Nat.one_pos]
    dsimp only
    rcases m.runFor 1 with ⟨reason, m'⟩
    cases reason with
    | timeout => exact ih asked'
    | halt | fault | breakpoint | cancelled => rfl

/-- If frames cannot be painted, it is a run to the first of them, as `runToFrame` gives it. -/
theorem runAttended_of_unpainted (silent : ∀ n, keys n = .ok []) (asked budget : Nat) :
    m.runAttended keys false asked budget =
      match m.runToFrame budget with
      | (some reason, m) => (.stopped reason, m)
      | (none, m) => (.unpainted, m) := by
  induction budget generalizing asked m with
  | zero => rfl
  | succ budget ih =>
    obtain ⟨asked', heard⟩ := hear_of_silent silent
    rw [runAttended, heard, runToFrame]
    dsimp only
    rcases m.runFor 1 with ⟨reason, m'⟩
    cases reason with
    | timeout =>
      dsimp only
      by_cases none : m'.display.frames = 0
      · rw [if_pos none, if_pos (by simpa using none)]
        exact ih asked'
      · rw [if_neg none, if_neg (by simpa using none)]
    | halt | fault | breakpoint | cancelled => rfl

end Chifir.Machine
