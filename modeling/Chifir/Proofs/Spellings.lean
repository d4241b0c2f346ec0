import Chifir.Instruction.Disassembly
import Chifir.Proofs.Assembly.Reassembly
import Chifir.Proofs.Config.Overrides
import Chifir.Proofs.Memory.Dumps
import Chifir.Proofs.Monitor.Commands
import Chifir.Proofs.Text.Numerals

/-!
# Spellings of numbers

A number is spelled in arguments, in settings and in what is printed, and each place has its own
rules for it.

1. `override_of_isSetting`: a setting that is spelled is the setting that is a number.
2. `ShowsAddress`: an address stands in a text and can be read from it (`showsAddress`).
3. `spellings_denote`: every spelling is read as its number, and every address that is printed is
   read back.
-/

namespace Chifir

open Json (Members Str Value)
open Text

/-! ## Settings -/

def integerKeys : List String := ["display_address", "display_width", "display_height", "max_steps"]

theorem assign_of_isSetting {digits : List Char} {n : Nat} {text key : String}
    (given : IsSetting digits n) (around : Surrounds isNumeralBlank digits text)
    (integer : key ∈ integerKeys) (s : Settings) :
    Config.assign s (.whole key) (.text (.whole text)) = Config.assign s (.whole key)
      (.number n) := by
  have read : Config.integerOf (.text (.whole text)) = Config.integerOf (.number n) := by
    rw [Config.integerOf, readInt_any_of_surrounds given around]
    rfl
  simp only [integerKeys, List.mem_cons, List.not_mem_nil, or_false] at integer
  rcases integer with rfl | rfl | rfl | rfl <;> simp only [Config.assign, read]

/-- A setting that is spelled is as good as a number. -/
theorem override_of_isSetting {digits : List Char} {n : Nat} {text key : String}
    (given : IsSetting digits n) (around : Surrounds isNumeralBlank digits text)
    (integer : key ∈ integerKeys) (base : Config) (before after : Members) :
    base.override (before ++ (.whole key, .text (.whole text)) :: after) =
      base.override (before ++ (.whole key, .number n) :: after) := by
  refine Config.override_congr ?_ (assign_of_isSetting given around integer) base before after
  rintro same
  cases same
  exact absurd integer (by decide)

/-! ## Addresses -/

/-- Behind `before`, a text has eight characters that are read as the address. -/
def ShowsAddress (before text : String) (address : Int) : Prop :=
  ∃ digits behind, text = before ++ (digits ++ behind) ∧ digits.length = 8 ∧
    readHex digits = .ok address

theorem showsAddress {before text behind : String} {address : Int} (known : IsAddress address)
    (same : text = before ++ (hex8 address ++ behind)) : ShowsAddress before text address := by
  refine ⟨hex8 address, behind, same, ?_, readHex_hex8 address⟩
  obtain ⟨n, rfl⟩ := Int.eq_ofNat_of_zero_le known.1
  exact length_hex8 (by exact_mod_cast known.2)

/-- The texts in which dumps, disassemblies and the monitor show an address, with what stands before
it. -/
inductive Prints : String → String → Int → Prop
  | dump {m : Memory} {start length : Int} {text row : String} {i : Nat}
      (dumped : m.hexdump start length = .ok text) (nonempty : length ≠ 0)
      (there : (linesOf text)[i]? = some row) : Prints "" row (start + 4 * i)
  | disassembly {instructions : List (Instruction Word)} {x : Instruction Word} {row : String}
      {i : Nat} (there : (linesOf (disassemblyText instructions))[i]? = some row)
      (own : instructions[i]? = some x) :
      Prints "" row (Word.toInt x.address)
  | breakpoint {m m' : Monitor} {token line : String} {rest : List String} {n : Int}
      (denotes : m.addressOf token = .ok n)
      (done : m.perform .breakAt (token :: rest) = .ok ([line], m')) :
      Prints "breakpoint at " line n
  | watchpoint {m m' : Monitor} {token line : String} {rest : List String} {n : Int}
      (denotes : m.addressOf token = .ok n)
      (done : m.perform .watch (token :: rest) = .ok ([line], m')) : Prints "watchpoint at " line n
  | report (n : Notice) : Prints "watch " (Monitor.report n) (Word.toInt n.address)
  | summary (m : Machine) :
      Prints s!"{m.status.name} steps={m.steps} pc=" m.summary (Word.toInt m.pc)
  | fault (f : Fault) : Prints s!"{f.kind.name} at " f.message (Word.toInt f.culprit.address)

theorem text_eq (i : Instruction Word) :
    ∃ behind, i.toInt.text = hex8 (Word.toInt i.address) ++ behind := by
  refine ⟨String.ofList (':' :: ' ' :: (markOf i.quad.opcode ++ (bareRow i.quad).toList)),
    String.toList_injective ?_⟩
  rw [String.toList_append, String.toList_ofList]
  exact toList_text _ _

theorem showsAddress_of_prints {before text : String} {n : Int} (printed : Prints before text n)
    (known : IsAddress n) :
    ShowsAddress before text n := by
  cases printed with
  | @dump m start length _ _ i dumped nonempty there =>
    have spans := Memory.exists_hexdump_iff.1 ⟨_, dumped⟩
    have words : length.toNat ≠ 0 := by
      have := spans.2.2.1
      omega
    obtain ⟨_, _, _, _, shows⟩ := (Memory.shows_of_hexdump dumped).row i text words there
    have number : ((start.toNat + 4 * i : Nat) : Int) = start + 4 * i := by
      have := spans.1
      omega
    rw [← number] at known ⊢
    exact showsAddress known
      (shows.printed.trans (by rw [String.append_assoc, String.empty_append]))
  | @disassembly instructions x _ i there own =>
    have rows : linesOf (disassemblyText instructions) = instructions.map fun i =>
        i.toInt.text := by
      refine linesOf_joinLines ?_ fun row mem => ?_
      · rw [Ne, List.map_eq_nil_iff]
        rintro rfl
        cases own
      · obtain ⟨y, _, rfl⟩ := List.mem_map.1 mem
        exact isRow_text _ y.quad
    rw [rows, List.getElem?_map, own] at there
    cases there
    obtain ⟨behind, same⟩ := text_eq x
    exact showsAddress known (same.trans String.empty_append.symm)
  | @breakpoint m m' token line rest _ denotes done =>
    cases (Monitor.perform_breakAt ⟨token, rfl, denotes⟩).symm.trans done
    exact showsAddress known (congrArg _ (String.append_empty).symm)
  | @watchpoint m m' token line rest _ denotes done =>
    obtain ⟨_, given, done⟩ := bind_eq_ok.1 done
    cases given
    obtain ⟨_, denoted, said⟩ := bind_eq_ok.1 done
    cases denoted.symm.trans denotes
    obtain ⟨_, _, said⟩ := bind_eq_ok.1 said
    cases said
    exact showsAddress known (congrArg _ (String.append_empty).symm)
  | report n =>
    simp only [Monitor.report, toString_text, String.append_assoc]
    exact showsAddress known rfl
  | summary m =>
    obtain ⟨behind, same⟩ := text_eq m.current
    unfold Machine.summary
    rw [same]
    cases m.fault? with
    | none =>
      simp only [toString_text]
      exact showsAddress known (by simp only [String.append_assoc]; rfl)
    | some fault =>
      simp only [toString_text]
      exact showsAddress known (by simp only [String.append_assoc]; rfl)
  | fault f =>
    simp only [Fault.message, toString_text]
    exact showsAddress known (by simp only [String.append_assoc]; rfl)

/-! ## Every place -/

/-- Each number has spellings in all bases. From all its spellings it is read, with blanks around
it; a setting that is spelled gives the configuration or the error that the number gives, if no
separator stands around it. Printed addresses are read back. -/
theorem spellings_denote :
    (∀ radix n, 1 < radix → radix ≤ 16 → IsNumeral radix (Nat.toDigits radix n) n) ∧
    (∀ s n text, IsArgument s n → Surrounds isBlank s text → readArgument text = .ok n) ∧
    (∀ s n text, IsHexArgument s n → Surrounds isBlank s text → readHex text = .ok n) ∧
    (∀ s n text, IsSetting s n → Surrounds isNumeralBlank s text →
      ∀ key ∈ integerKeys, ∀ (base : Config) (before after : Members),
        base.override (before ++ (.whole key, .text (.whole text)) :: after) =
          base.override (before ++ (.whole key, .number n) :: after)) ∧
    ∀ before text n, Prints before text n → IsAddress n → ShowsAddress before text n := by
  refine ⟨?_, ?_, ?_, ?_, ?_⟩
  · exact fun radix n more few => isNumeral_toDigits more few n
  · exact fun s n text given around => readArgument_of_surrounds given around
  · exact fun s n text given around => readHex_of_surrounds given around
  · exact fun s n text given around key integer base before after =>
      override_of_isSetting given around integer base before after
  · exact fun before text n printed known => showsAddress_of_prints printed known

/-- A mark in capitals behind a separator, hexadecimal digits that begin like a mark, a setting in
another base, and the address of an instruction. -/
theorem spellings_denote_marked :
    readArgument "\x1c0Xa0 " = .ok 0xA0 ∧ readHex "0b10\t" = .ok 0xB10 ∧
      Config.mini.override
        [(.whole "trace", .truth true), (.whole "max_steps", .text (.whole " 0B10"))] =
          Config.mini.override [(.whole "trace", .truth true), (.whole "max_steps", .number 2)] ∧
      ShowsAddress "" "FFFFFFFE: nop 0 0 0" 0xFFFFFFFE := by
  obtain ⟨_, arguments, addresses, settings, printed⟩ := spellings_denote
  have upper : IsNumeral 16 ['a', '0'] 0xA0 :=
    isNumeral_of_digits (by decide) (List.all_eq_true.1 (by decide))
  have digits : IsNumeral 16 ['0', 'b', '1', '0'] 0xB10 :=
    isNumeral_of_digits (by decide) (List.all_eq_true.1 (by decide))
  have binary : IsNumeral 2 ['1', '0'] 2 :=
    isNumeral_of_digits (by decide) (List.all_eq_true.1 (by decide))
  have mark : ['0', 'X'] ∈ hexMarks := by decide
  have letter : ('B', 2) ∈ baseLetters := by decide
  let last : Instruction Word := ⟨0xFFFFFFFE, 16, 0, 0, 0⟩
  have shown : (linesOf (disassemblyText [last]))[0]? = some "FFFFFFFE: nop 0 0 0" := by
    decide +kernel
  refine ⟨?_, ?_, ?_, ?_⟩
  · exact arguments _ _ _ (.marked mark upper)
      (.of_all ['\x1c'] [' '] (by decide) (by decide) (by decide))
  · exact addresses _ _ _ (.bare digits) (.of_all [] ['\t'] (by decide) (by decide) (by decide))
  · exact settings _ _ _ (.marked letter binary)
      (.of_all [' '] [] (by decide) (by decide) (by decide)) "max_steps"
      (by decide) _ [(.whole "trace", .truth true)] []
  · exact printed _ _ _ (.disassembly (x := last) shown rfl) (by decide)

/-- A separator is a blank around an argument, but not around a setting. -/
theorem separator_around_setting :
    let spelled := Config.headless.override [(.whole "display_address", .text (.whole "\x1c5"))]
    let number := Config.headless.override [(.whole "display_address", .number 5)]
    IsSetting ['5'] 5 ∧ Surrounds isBlank ['5'] "\x1c5" ∧ readArgument "\x1c5" = .ok 5 ∧
      spelled.toOption.isNone ∧ number.toOption.isSome ∧ spelled ≠ number := by
  intro spelled number
  have five : IsSetting ['5'] 5 := .decimal (.digit (by decide) (by decide)) (by decide) (by decide)
  have around : Surrounds isBlank ['5'] "\x1c5" :=
    .of_all ['\x1c'] [] (by decide) (by decide) (by decide)
  have refused : spelled.toOption.isNone := by decide +kernel
  have accepted : number.toOption.isSome := by decide +kernel
  refine ⟨five, around, by decide +kernel, refused, accepted, fun same => ?_⟩
  rw [same, Option.isNone_iff_eq_none] at refused
  rw [refused] at accepted
  cases accepted

end Chifir
