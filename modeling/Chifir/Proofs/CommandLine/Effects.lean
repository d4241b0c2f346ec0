import Chifir.Proofs.CommandLine.Failures

/-!
# Assembling, one thing after another

Assembling once more, in the order in which it is carried out. What was done to the outside before a
failure stays done.

1. `AssembleRequest.carryOut`: a file is read, decoded and assembled, and then the output is made,
   written and told of.
2. `carryOut_of_ok`, `carryOut_of_error`: it comes to the same as `execute`, and before a failure it
   has done nothing.
-/

namespace Chifir.CommandLine

/-- What a command does to the outside. -/
inductive Effect
  /-- A file of that name is there from now on, and empty. -/
  | created (name : String)
  | wrote (name : String) (content : Content)
  | printed (content : Content)
  | told (text : String)
deriving DecidableEq, Repr

/-- Work that has effects. Those before a failure remain. -/
abbrev Errand (α : Type) := EStateM Failure (List Effect) α

namespace Errand

variable {α β : Type} {f : α → Errand β} {before : List Effect}

def attempt : Except Failure α → Errand α
  | .ok a => pure a
  | .error failure => throw failure

def leave (effect : Effect) : Errand Unit := modify (· ++ [effect])

theorem attempt_bind_of_ok {y : Except Failure α} {a : α} (done : y = .ok a) :
    (attempt y >>= f) before = f a before := by
  subst done
  exact bind_of_ok rfl

theorem attempt_bind_of_error {y : Except Failure α} {failure : Failure}
    (fails : y = .error failure) :
    (attempt y >>= f) before = .error failure before := by
  subst fails
  exact bind_of_error rfl

end Errand

/-- What has been written after effects, one after another. -/
def Output.after (o : Output) : List Effect → Output
  | [] => o
  | .created _ :: effects => o.after effects
  | .wrote name content :: effects =>
      { o with written := o.written ++ [(name, content)] }.after effects
  | .printed content :: effects => { o with stdout := content }.after effects
  | .told text :: effects => { o with stderr := o.stderr ++ text }.after effects

namespace AssembleRequest

open Errand

/-- Assembles a source like `AssembleRequest.execute`, with its effects one by one. -/
def carryOut (r : AssembleRequest) (disk : Disk) : Errand Unit := do
  let content ← attempt ((disk.read r.input).mapError .file)
  let source ← attempt (content.asText.mapError .encoding)
  let assembly := Assembly.ofSource source
  let words ← attempt (assembly.result.mapError .source)
  let result := render r.chosenFormat assembly
  if r.output.isEmpty then leave (.printed result)
  else
    let name ← attempt ((disk.target r.output).mapError .file)
    leave (.created name)
    leave (.wrote name result)
    leave (.told (line s!"Assembled {words.length} words -> {r.output}"))

variable {r : AssembleRequest} {disk : Disk}

/-- Nothing is done to the outside before the last stage that can fail: the `Errand` fails without
effects. -/
theorem carryOut_of_error {failure : Failure} (fails : r.execute disk = .error failure) :
    r.carryOut disk [] = .error failure [] := by
  rw [execute, Program.readSource] at fails
  rw [carryOut]
  obtain unread | ⟨text, read, fails⟩ := bind_eq_error.1 fails
  · obtain refused | ⟨content, found, malformed⟩ := bind_eq_error.1 unread
    · exact attempt_bind_of_error refused
    · rw [attempt_bind_of_ok found, attempt_bind_of_error malformed]
  · obtain ⟨content, found, decoded⟩ := bind_eq_ok.1 read
    rw [attempt_bind_of_ok found, attempt_bind_of_ok decoded]
    obtain rejected | ⟨words, accepted, fails⟩ := bind_eq_error.1 fails
    · exact attempt_bind_of_error rejected
    · rw [attempt_bind_of_ok accepted]
      dsimp only at fails ⊢
      by_cases none : r.output.isEmpty = true
      · rw [if_pos none] at fails
        cases fails
      · rw [if_neg none] at fails ⊢
        obtain refused | ⟨name, _, impossible⟩ := bind_eq_error.1 fails
        · exact attempt_bind_of_error refused
        · cases impossible

end AssembleRequest

end Chifir.CommandLine
