import Chifir.CommandLine.Command
import Chifir.Proofs.Assembly.Spelling
import Chifir.Proofs.CommandLine.Files

/-!
# Assembled files

An output file is a program: it can be run and disassembled like the source that it was assembled
from.

1. `words_read_source`, `words_read_image`: the words of a program are read from a source and from
   an image.
2. `execute_run_congr`: on any host, a run depends on the words of its program and on what its
   options find at the paths that they ask for (`RunRequest.optionPaths`).
3. `output_is_program`: hence it makes no difference whether a source or its output is run or
   disassembled, wherever the output lies.
-/

namespace Chifir.CommandLine

open Text Assembly

/-! ## Reading programs -/

namespace Program

variable {disk : Disk} {path source : String} {content : Content} {words : List Word}

theorem readSource_eq (found : disk.read path = .ok content)
    (text : content.asText = .ok (unixBreaks source)) :
    readSource disk path = .ok (unixBreaks source) := by
  rw [readSource, found]
  simp only [mapError_ok, ok_bind, text]

theorem words_read_source (sourced : extension path ≠ ".bin") (found : disk.read path = .ok content)
    (text : content.asText = .ok (unixBreaks source)) (accepted : assemble source = .ok words) :
    (read disk path).map (·.words) = .ok words := by
  rw [read, if_neg (by simpa using sourced), readSource_eq found text, ok_bind, ofSource_unixBreaks]
  rw [assemble] at accepted
  simp only [accepted, mapError_ok, ok_bind]
  rfl

theorem words_read_image (image : extension path = ".bin")
    (found : disk.read path = .ok (.bytes (Image.encode words))) :
    (read disk path).map (·.words) = .ok words := by
  rw [read, if_pos (by simpa using image), found]
  simp only [mapError_ok, ok_bind, Content.asBytes, Image.decode_encode]
  rfl

end Program

/-! ## Options -/

/-- The paths that the options of a run ask for: that of its configuration, and those that its
serial line is opened with. -/
def RunRequest.optionPaths (r : RunRequest) (host : Host) (disk : Disk) : List String :=
  (if r.config.isEmpty then [] else [shortPath r.config]) ++
    if r.serialPort.isEmpty then [] else (host.serial r.serialPort r.baud).paths disk

/-- Reading and writing at a path come to the same on both disks. -/
def Disk.AlikeAt (disk disk' : Disk) (path : String) : Prop :=
  disk.read path = disk'.read path ∧ disk.target path = disk'.target path

section Congruence
variable {host : Host} {disk disk' : Disk}

theorem Opening.on_congr {opening : Opening}
    (alike : ∀ path ∈ opening.paths disk, disk.AlikeAt disk' path) :
    opening.on disk = opening.on disk' := by
  induction opening with
  | done outcome => rfl
  | read path next ih =>
    obtain ⟨first, rest⟩ := List.forall_mem_cons.1 alike
    rw [on, on, ← first.1]
    exact ih _ rest
  | clear path next ih =>
    obtain ⟨first, rest⟩ := List.forall_mem_cons.1 alike
    rw [on, on, ← first.2]
    simp only [ih _ rest]

theorem RunRequest.configuration_congr {r : RunRequest}
    (alike : ∀ path ∈ r.optionPaths host disk, disk.AlikeAt disk' path) :
    r.configuration disk = r.configuration disk' := by
  unfold RunRequest.configuration
  by_cases none : r.config.isEmpty = true
  · rw [if_pos none, if_pos none]
  · have mem : shortPath r.config ∈ r.optionPaths host disk := by
      rw [optionPaths, if_neg none]
      exact List.mem_append_left _ (List.mem_singleton_self _)
    rw [if_neg none, if_neg none]
    simp only [(alike _ mem).1]

theorem RunRequest.connect_congr {r : RunRequest}
    (alike : ∀ path ∈ r.optionPaths host disk, disk.AlikeAt disk' path) :
    r.connect host disk = r.connect host disk' := by
  unfold RunRequest.connect
  by_cases none : r.serialPort.isEmpty = true
  · rw [if_pos none, if_pos none]
  · rw [if_neg none, if_neg none, Opening.on_congr]
    intro path mem
    refine alike path ?_
    rw [optionPaths, if_neg none]
    exact List.mem_append_right _ mem

variable {path path' : String} {words : List Word}

/-- What a run does depends on the words of its program and on what is found at its `optionPaths`.
-/
theorem execute_run_congr {r : RunRequest}
    (own : (Program.read disk path).map (·.words) = .ok words)
    (own' : (Program.read disk' path').map (·.words) = .ok words)
    (alike : ∀ path ∈ r.optionPaths host disk, disk.AlikeAt disk' path) (stdin : String) :
    execute host disk stdin (.run { r with program := path }) =
      execute host disk' stdin (.run { r with program := path' }) := by
  obtain ⟨program, found, rfl⟩ := map_eq_ok.1 own
  obtain ⟨program', found', equal⟩ := map_eq_ok.1 own'
  have numbers : program.numbers = program'.numbers := by
    rw [Program.numbers, Program.numbers, equal]
  have configuration : RunRequest.configuration { r with program := path } disk =
      RunRequest.configuration { r with program := path' } disk' := r.configuration_congr alike
  have connect : RunRequest.connect { r with program := path } host disk =
      RunRequest.connect { r with program := path' } host disk' := r.connect_congr alike
  rw [execute, execute, RunRequest.execute, RunRequest.execute, found, found', configuration,
    connect]
  simp only [ok_bind, RunRequest.runAlone, RunRequest.runAlong, numbers]
  rfl

theorem execute_disassemble_congr {r : DisassembleRequest}
    (own : (Program.read disk path).map (·.words) = .ok words)
    (own' : (Program.read disk' path').map (·.words) = .ok words) (stdin : String) :
    execute host disk stdin (.disassemble { r with program := path }) =
      execute host disk' stdin (.disassemble { r with program := path' }) := by
  obtain ⟨program, found, rfl⟩ := map_eq_ok.1 own
  obtain ⟨program', found', equal⟩ := map_eq_ok.1 own'
  have numbers : program.numbers = program'.numbers := by
    rw [Program.numbers, Program.numbers, equal]
  rw [execute, execute, DisassembleRequest.execute, DisassembleRequest.execute, found, found']
  simp only [ok_bind, numbers]
  rfl

end Congruence

/-! ## Outputs -/

section Outputs
variable {host : Host} {disk : Disk} {stdin input output name source : String} {content : Content}
  {words : List Word}

theorem chosenFormat_of_not_listing (unlisted : extension output ≠ ".lst") :
    AssembleRequest.chosenFormat { input, output } =
      if extension output = ".bin" then .binary else .hex := by
  unfold AssembleRequest.chosenFormat
  split
  · next given => cases given
  split
  · next image => rw [if_pos image]
  · next listing => exact absurd listing unlisted
  · next text _ => rw [if_neg text]

/-- What is written to an output file: bytes if its `extension` asks for an image, else rows of
digits. -/
def outputOf (output : String) (words : List Word) : Content :=
  if extension output = ".bin" then .bytes (Image.encode words)
  else .text (line (imageRows (words.map Word.toInt)))

theorem execute_assemble (held : disk.read input = .ok content)
    (text : content.asText = .ok (unixBreaks source)) (accepted : assemble source = .ok words)
    (named : output ≠ "") (target : disk.target output = .ok name)
    (unlisted : extension output ≠ ".lst") :
    execute host disk stdin (.assemble { input, output }) =
      { status := 0
        output := {
          stderr := line s!"Assembled {words.length} words -> {output}"
          written := [(name, outputOf output words)] } } := by
  have readable : Program.readSource disk input = .ok (unixBreaks source) :=
    Program.readSource_eq held text
  have result := accepted
  rw [assemble] at result
  have content : AssembleRequest.render (AssembleRequest.chosenFormat { input, output })
      (Assembly.ofSource source) = outputOf output words := by
    rw [chosenFormat_of_not_listing unlisted, outputOf, ← words_of_assemble accepted]
    split
    · rfl
    · rfl
  have filled : output.isEmpty = false := by simpa using named
  rw [execute, AssembleRequest.execute, readable, ok_bind, ofSource_unixBreaks]
  simp only [result, mapError_ok, ok_bind, content, filled, target]
  rfl

/-- The words of a source are read from its output, in whichever format `outputOf` has written them.
-/
theorem words_read_output (disk : Disk) (whole : words.length % 4 = 0)
    (found : disk.read output = .ok (outputOf output words)) :
    (Program.read disk output).map (·.words) = .ok words := by
  unfold outputOf at found
  split at found
  · next image => exact Program.words_read_image image found
  · next sourced =>
    have plain : Content.asText (.text (line (imageRows (words.map Word.toInt)))) =
        .ok (unixBreaks (line (imageRows (words.map Word.toInt)))) := rfl
    exact Program.words_read_source sourced found plain (assemble_imageRows whole).2

/-- A source that is assembled to another file can be replaced by it. On every disk that has become
of the one before because the output was written, both have the same words, and on every host it
ends alike to run or disassemble them. It also ends like running or disassembling the source before
there was the output, as long as the options find what they found then. In particular numbers in
rows of four are source text of these numbers. -/
theorem output_is_program (host : Host) (stdin : String) (held : disk.read input = .ok content)
    (text : content.asText = .ok (unixBreaks source)) (accepted : assemble source = .ok words)
    (sourced : extension input ≠ ".bin") (named : output ≠ "")
    (target : disk.target output = .ok name) (other : disk.target input ≠ .ok name)
    (unlisted : extension output ≠ ".lst") :
    let e := execute host disk stdin (.assemble { input, output })
    e.status = 0 ∧
      (∃ result, e.output.written = [(name, result)] ∧
        ∀ after, disk.Wrote name result after →
          (Program.read after output).map (·.words) = .ok words ∧
          (∀ (r : RunRequest) (stdin : String),
            execute host after stdin (.run { r with program := output }) =
                execute host after stdin (.run { r with program := input }) ∧
              ((∀ path ∈ r.optionPaths host after, after.AlikeAt disk path) →
                execute host after stdin (.run { r with program := output }) =
                  execute host disk stdin (.run { r with program := input }))) ∧
          ∀ (r : DisassembleRequest) (stdin : String),
            execute host after stdin (.disassemble { r with program := output }) =
                execute host after stdin (.disassemble { r with program := input }) ∧
              execute host after stdin (.disassemble { r with program := output }) =
                execute host disk stdin (.disassemble { r with program := input })) ∧
      ∀ words : List Word, words.length % 4 = 0 →
        assemble (imageRows (words.map Word.toInt)) = .ok words := by
  intro e
  have done : e = _ := execute_assemble held text accepted named target unlisted
  have whole : words.length % 4 = 0 := by
    obtain ⟨_, _, _, image⟩ := laid_of_assemble accepted
    rw [image, Assembly.imageOf, ← List.flatMap_assoc, length_flatMap_toList, Nat.mul_mod_right]
  have before : (Program.read disk input).map (·.words) = .ok words :=
    Program.words_read_source sourced held text accepted
  refine ⟨by rw [done], ⟨outputOf output words, by rw [done], fun after wrote => ?_⟩,
    fun words whole => (assemble_imageRows whole).1⟩
  have of_output : (Program.read after output).map (·.words) = .ok words :=
    words_read_output after whole (wrote.written output target)
  have of_input : (Program.read after input).map (·.words) = .ok words :=
    Program.words_read_source sourced (wrote.kept input content held other) text accepted
  refine ⟨of_output, fun r stdin => ⟨?_, fun alike => ?_⟩, fun r stdin => ⟨?_, ?_⟩⟩
  · exact execute_run_congr of_output of_input (fun _ _ => ⟨rfl, rfl⟩) stdin
  · exact execute_run_congr of_output before alike stdin
  · exact execute_disassemble_congr of_output of_input stdin
  · exact execute_disassemble_congr of_output before stdin

end Outputs

/-- An image in another directory, written from a source with line breaks of another kind, and run
with keys from a serial line. -/
theorem output_is_program_image :
    let source := "start: add 1 ADD\r\n lpc start"
    let words : List Word := [7, 1, 0xADD, 0, 1, 0, 0, 0]
    let files : Files := [("prog.asm", .text source)]
    let after := Files.disk (("/tmp/out.BIN", .bytes (Image.encode words)) :: files)
    let onLoop : RunRequest := { serialPort := "loop://", maxSteps := some (.value 3) }
    (files.read "prog.asm" = .ok (.text source) ∧ assemble source = .ok words ∧
        extension "prog.asm" ≠ ".bin" ∧ files.target "/tmp/./out.BIN" = .ok "/tmp/out.BIN" ∧
        files.target "prog.asm" ≠ .ok "/tmp/out.BIN" ∧ extension "/tmp/./out.BIN" ≠ ".lst") ∧
      (execute .looped files.disk ""
        (.assemble { input := "prog.asm", output := "/tmp/./out.BIN" })).status = 0 ∧
      (Program.read after "/tmp/./out.BIN").map (·.words) = .ok words ∧
      execute .looped after "" (.run { onLoop with program := "/tmp/./out.BIN" }) =
        execute .looped files.disk "" (.run { onLoop with program := "prog.asm" }) ∧
      execute .looped after "" (.disassemble { program := "/tmp/./out.BIN" }) =
        execute .looped files.disk "" (.disassemble { program := "prog.asm" }) := by
  intro source words files after onLoop
  have held : files.disk.read "prog.asm" = .ok (.text source) := by decide +kernel
  have accepted : assemble source = .ok words := by decide +kernel
  have sourced : extension "prog.asm" ≠ ".bin" := by decide +kernel
  have target : files.target "/tmp/./out.BIN" = .ok "/tmp/out.BIN" := by decide +kernel
  have other : files.target "prog.asm" ≠ .ok "/tmp/out.BIN" := by decide +kernel
  have unlisted : extension "/tmp/./out.BIN" ≠ ".lst" := by decide +kernel
  obtain ⟨done, ⟨result, written, same⟩, _⟩ := output_is_program .looped ""
    held rfl accepted sourced (by decide) target other unlisted
  have image : result = .bytes (Image.encode words) := by
    have written' : (execute .looped files.disk ""
        (.assemble { input := "prog.asm", output := "/tmp/./out.BIN" })).output.written =
          [("/tmp/out.BIN", .bytes (Image.encode words))] := by decide +kernel
    rw [written'] at written
    cases written
    rfl
  subst image
  obtain ⟨loads, runs, looks⟩ := same after (Files.wrote files _ (by decide))
  have unasked : onLoop.optionPaths .looped after = [] := by rfl
  refine ⟨⟨held, accepted, sourced, target, other, unlisted⟩, done, loads, ?_, (looks {} "").2⟩
  exact (runs onLoop "").2 (by rw [unasked]; nofun)

/-- Capital letters do not keep a source from being taken for an image, for which it is too short.
-/
theorem capital_source_is_no_program :
    let files : Files := [("prog.BIN", .text "nop")]
    let e := execute .looped files.disk "" (.assemble { input := "prog.BIN", output := "out.hex" })
    let after := Files.disk (e.output.written ++ files)
    "prog.BIN".endsWith ".bin" = false ∧ assemble "nop" = .ok [16, 0, 0, 0] ∧
      extension "out.hex" ≠ ".lst" ∧ e.status = 0 ∧
      (execute .looped after "" (.disassemble { program := "out.hex" })).status = 0 ∧
      (execute .looped after "" (.disassemble { program := "prog.BIN" })).status = 2 := by
  decide +kernel

end Chifir.CommandLine
