import Chifir.Proofs.CommandLine.Effects
import Chifir.Proofs.CommandLine.Files
import Chifir.Proofs.Machine.Table
import Chifir.Proofs.Machine.Runs

/-!
# Exit statuses

The status of a command tells what failed first, if anything did.

1. `Failure.IsExpected`: the failures of status 1. `Request.fails_of_absent`: a file that is not
   there is one of them, but `path_through_file_fails_otherwise`.
2. `RunRequest.endsPlainly_of_run`: a run that ends has halted, faulted or used up its budget,
   because a machine that was just built is not asked to stop and has no breakpoints.
3. `status_tells_first_failure`: for every command line.
-/

namespace Chifir

namespace Machine

variable {m after : Machine} {reason : StopReason}

/-- Nothing stops the machine but what its program does. -/
structure Unattended (m : Machine) : Prop where
  unmarked : m.breakpoints = []
  unasked : m.stopRequested = false

/-- What a run of such a machine ends with: it faults with a record of the fault. -/
structure EndsPlainly (reason : StopReason) (after : Machine) : Prop where
  reasons : reason = .halt ∨ reason = .fault ∨ reason = .timeout
  culprit : reason = .fault → ∃ fault, after.fault? = some fault
  unattended : after.Unattended

theorem endsPlainly_runFor (free : m.Unattended) (budget : Nat) :
    EndsPlainly (m.runFor budget).1 (m.runFor budget).2 := by
  refine ends_runFrom Unattended EndsPlainly (fun {m} free => ?steps)
    (fun {m pass reason m'} free stops => ?stops) (fun {m pass} free _ => ?timeouts) m.resumeAt
      budget ⟨free.unmarked, free.unasked⟩
  case steps =>
    refine ⟨?_, ?_⟩
    · rw [breakpoints_step, free.unmarked]
    · rw [stopRequested_step, free.unasked]
  case stops =>
    cases status : m.status with
    | running =>
      have goes : m.stopBefore pass = none := by
        refine stopBefore_eq_none.2 ⟨status, free.unasked, fun met => ?_⟩
        rw [free.unmarked] at met
        cases met
      rw [goes] at stops
      cases stops
    | halted =>
      rw [stopBefore, status] at stops
      cases stops
      exact ⟨.inl rfl, fun faulted => (by cases faulted), free⟩
    | faulted fault =>
      rw [stopBefore, status] at stops
      cases stops
      refine ⟨.inr (.inl rfl), fun _ => ⟨fault, ?_⟩, free⟩
      rw [fault?, status]
      rfl
  case timeouts => exact ⟨.inr (.inr rfl), fun faulted => (by cases faulted), free⟩

theorem endsPlainly_runToFrame (free : m.Unattended) {budget : Nat}
    (ran : m.runToFrame budget = (some reason, after)) : EndsPlainly reason after := by
  induction budget generalizing m with
  | zero =>
    have ends := endsPlainly_runFor free 0
    cases ran
    exact ends
  | succ budget ih =>
    have ends := endsPlainly_runFor free 1
    rw [runToFrame] at ran
    split at ran
    · next m' timeout =>
      rw [timeout] at ends
      split at ran
      · exact ih ends.unattended ran
      · cases ran
    · next outcome other same =>
      rw [same] at ends
      cases ran
      exact ends

theorem unattended_load (free : m.Unattended) (words : List Int) (base : Int) :
    (m.load words base).1.Unattended := by
  rw [load]
  split
  · exact ⟨free.unmarked, free.unasked⟩
  · exact ⟨free.unmarked, free.unasked⟩

end Machine

namespace CommandLine

open Text

/-! ## Failures -/

/-- The failures that are told from all others: a path that the system finds nothing at, a source
that is rejected, and a program that faults. -/
inductive Failure.IsExpected : Failure → Prop
  | missing (path : String) : IsExpected (.file (.notFound path))
  | rejected (error : Assembly.SourceError) : IsExpected (.source error)
  | faulted (fault : Fault) : IsExpected (.fault fault)

theorem Failure.status_eq_one {failure : Failure} : failure.status = 1 ↔ failure.IsExpected := by
  constructor
  · intro one
    unfold status at one
    split at one
    · exact .missing _
    · exact .rejected _
    · exact .faulted _
    · cases one
  · rintro (_ | _ | _)
    · rfl
    · rfl
    · rfl

theorem Failure.status_eq_two {failure : Failure} : failure.status = 2 ↔ ¬ failure.IsExpected := by
  rw [← status_eq_one]
  unfold status
  split
  · decide
  · decide
  · decide
  · decide

/-! ## Runs -/

namespace RunRequest

variable {r : RunRequest} {disk : Disk} {config : Config} {m after : Machine} {reason : StopReason}

theorem unattended_of_starts (starts : r.Starts disk config m) : m.Unattended := by
  obtain ⟨_, program, _, loaded⟩ := starts
  have built : (r.machine config).Unattended := ⟨rfl, rfl⟩
  have held := Machine.unattended_load built program.numbers 0
  rw [loaded] at held
  exact held

theorem endsPlainly_of_run (free : m.Unattended) (ran : r.run config m = .ok (reason, after)) :
    Machine.EndsPlainly reason after := by
  unfold run at ran
  split at ran
  · unfold runUnpainted at ran
    split at ran
    · cases ran
    · next ended =>
      split at ran
      · cases ran
      · cases ran
        exact Machine.endsPlainly_runToFrame free ended
  · unfold runPainted at ran
    split at ran
    · next ended =>
      cases ran
      have ends := Machine.endsPlainly_runFor free (m.allowance none)
      rw [Machine.runFor_of_run? ended] at ends
      exact ends
    · cases ran

theorem exists_fault_of_ends (ended : r.Ends disk .fault) :
    ∃ fault, r.Fails disk (.fault fault) := by
  obtain ⟨config, m, after, starts, ran⟩ := ended
  obtain ⟨fault, culprit⟩ := (endsPlainly_of_run (unattended_of_starts starts) ran).culprit rfl
  exact ⟨fault, .fault starts ran culprit⟩

/-- Nothing fails if and only if the program halts or uses up its budget. -/
theorem failure?_eq_none {host : Host} (alone : r.IsAlone host) :
    r.failure? host disk = none ↔ r.Ends disk .halt ∨ r.Ends disk .timeout := by
  constructor
  · intro succeeds
    obtain ⟨failure, fails, _⟩ | ⟨config, m, starts⟩ := fails_or_starts alone disk
    · rw [failure?_of_error fails] at succeeds
      cases succeeds
    · cases ran : r.run config m with
      | error failure =>
        have comes := execute_of_starts alone starts
        rw [ran] at comes
        rw [failure?_of_error comes] at succeeds
        cases succeeds
      | ok result =>
        obtain ⟨reason, after⟩ := result
        obtain rfl | rfl | rfl := (endsPlainly_of_run (unattended_of_starts starts) ran).reasons
        · exact .inl ⟨config, m, after, starts, ran⟩
        · obtain ⟨fault, fails⟩ := exists_fault_of_ends ⟨config, m, after, starts, ran⟩
          rw [failure?_of_fails alone fails] at succeeds
          cases succeeds
        · exact .inr ⟨config, m, after, starts, ran⟩
  · rintro (⟨config, m, after, starts, ran⟩ | ⟨config, m, after, starts, ran⟩)
    · exact failure?_of_starts alone starts ran
    · exact failure?_of_starts alone starts ran

end RunRequest

/-! ## Statuses -/

section Statuses
variable {host : Host} {disk : Disk} {request : Request} {failure : Failure}

theorem status_finished (outcome : Except Failure Output) :
    (finished outcome).status = ((failureOf outcome).map Failure.status).getD 0 := by
  cases outcome with
  | ok output => rfl
  | error failure => rfl

/-- The status is that of the `failure?` which is reported, and 0 without one. -/
theorem status_execute (stdin : String) (ends : request.Ends host disk) :
    (execute host disk stdin request).status =
      ((request.failure? host disk).map Failure.status).getD 0 := by
  cases request with
  | assemble r => exact status_finished (r.execute disk)
  | disassemble r => exact status_finished (r.execute disk)
  | run r =>
    rw [execute, Request.failure?, RunRequest.failure?]
    split
    · next fails => rw [fails]; rfl
    · next done => rw [done]; rfl
    · next faulted => rw [faulted]; rfl
  | monitor _ => cases ends

/-- A request looks for the file at this path before it does anything else. -/
def Request.BeginsWith : Request → String → Prop
  | .assemble r, path => r.input = path
  | .run r, path => r.program = path
  | .disassemble r, path => r.program = path
  | .monitor _, _ => False

theorem textFails_of_absent {files : Files} {path name : String} (file : IsFilePath path name)
    (absent : files.lookup name = none) : TextFails files.disk path (.file (.notFound path)) :=
  .unopened (Files.read_of_absent file absent)

theorem programFails_of_absent {files : Files} {path name : String} (file : IsFilePath path name)
    (absent : files.lookup name = none) :
    ProgramFails files.disk path (.file (.notFound path)) := by
  by_cases image : extension path = ".bin"
  · exact .unopened image (Files.read_of_absent file absent)
  · exact .text image (textFails_of_absent file absent)

theorem Request.fails_of_absent {files : Files} {path name : String}
    (begins : request.BeginsWith path) (file : IsFilePath path name)
    (absent : files.lookup name = none) :
    request.Fails files.disk (.file (.notFound path)) := by
  cases request with
  | assemble r =>
    obtain rfl : r.input = path := begins
    exact .unassembled (.text (textFails_of_absent file absent))
  | run r =>
    obtain rfl : r.program = path := begins
    exact .program (programFails_of_absent file absent)
  | disassemble r =>
    obtain rfl : r.program = path := begins
    exact .program (programFails_of_absent file absent)
  | monitor _ => cases begins

/-- Two stages do not fail first, so `Request.Fails` tells one failure at most. -/
theorem Request.Fails.unique {failure' : Failure} (ends : request.Ends host disk)
    (fails : request.Fails disk failure) (fails' : request.Fails disk failure') :
    failure' = failure := by
  have reported := (Request.failure?_eq_some ends).2 fails
  rw [(Request.failure?_eq_some ends).2 fails'] at reported
  exact Option.some.inj reported

/-- A status of a failure means that one of its kind fails first (`Request.Fails`). -/
theorem status_eq_iff (stdin : String) (ends : request.Ends host disk) {n : Nat}
    (positive : n ≠ 0) :
    (execute host disk stdin request).status = n ↔ ∃ failure, request.Fails disk failure ∧
    failure.status = n := by
  simp only [status_execute stdin ends, ← Request.failure?_eq_some ends]
  cases request.failure? host disk with
  | none => simp [positive.symm]
  | some failure => simp

theorem status_eq_zero (stdin : String) (ends : request.Ends host disk) :
    (execute host disk stdin request).status = 0 ↔ ∀ failure, ¬ request.Fails disk failure := by
  simp only [status_execute stdin ends, ← Request.failure?_eq_some ends]
  cases request.failure? host disk with
  | none => simp
  | some failure =>
    have failed : failure.status ≠ 0 := by
      unfold Failure.status
      split <;> decide
    simp [failed]

theorem exit_of_unassembled {r : AssembleRequest} (fails : r.Unassembled disk failure)
    (stdin : String) :
    execute host disk stdin (.assemble r) = failed failure := by
  have comes : r.execute disk = .error failure :=
    AssembleRequest.execute_eq_error.2 (.unassembled fails)
  rw [execute, comes]
  rfl

/-- The status of a command is 1 if an expected failure comes first, 2 if another one does, and 0 if
nothing fails. Only one thing fails first, for instance that the program is not there. A run has
status 0 if it halts or its budget ends it, and 1 if it faults. What cannot be read or assembled
leaves the outside as it was. -/
theorem status_tells_first_failure {arguments : List String} (stdin : String)
    (read : Request.read arguments = .ok request) (ends : request.Ends host disk) :
    ∃ e, answer host arguments disk stdin = .exit e ∧
      (e.status = 1 ↔ ∃ failure, request.Fails disk failure ∧ failure.IsExpected) ∧
      (e.status = 2 ↔ ∃ failure, request.Fails disk failure ∧ ¬ failure.IsExpected) ∧
      (e.status = 0 ↔ ∀ failure, ¬ request.Fails disk failure) ∧
      (∀ failure failure', request.Fails disk failure → request.Fails disk failure' →
        failure' = failure) ∧
      (∀ (files : Files) path name, disk = files.disk → request.BeginsWith path →
        IsFilePath path name → files.lookup name = none → e.status = 1) ∧
      (∀ r, request = .run r →
        (e.status = 0 ↔ r.Ends disk .halt ∨ r.Ends disk .timeout) ∧
        (r.Ends disk .fault → e.status = 1)) ∧
      ∀ r failure, request = .assemble r → r.Unassembled disk failure →
        r.carryOut disk [] = .error failure [] ∧ e.output.stdout = .text "" ∧
          e.output.written = [] := by
  refine ⟨execute host disk stdin request, by rw [answer, read], ?one, ?two,
    status_eq_zero stdin ends, fun _ _ fails fails' => fails.unique ends fails', ?absent, ?run,
    ?unassembled⟩
  case one => simpa only [Failure.status_eq_one] using status_eq_iff stdin ends (n := 1) (by decide)
  case two => simpa only [Failure.status_eq_two] using status_eq_iff stdin ends (n := 2) (by decide)
  case absent =>
    rintro files path name rfl begins file absent
    exact (status_eq_iff stdin ends Nat.one_ne_zero).2
      ⟨_, request.fails_of_absent begins file absent, rfl⟩
  case run =>
    rintro r rfl
    refine ⟨?_, fun faulted => ?_⟩
    · rw [status_eq_zero stdin ends, ← RunRequest.failure?_eq_none ends.1,
        Option.eq_none_iff_forall_ne_some]
      simp only [ne_eq, r.failure?_eq_some ends.1 ends.2, Request.Fails]
    · obtain ⟨fault, fails⟩ := RunRequest.exists_fault_of_ends faulted
      exact (status_eq_iff stdin ends Nat.one_ne_zero).2 ⟨_, fails, rfl⟩
  case unassembled =>
    rintro r failure rfl fails
    rw [exit_of_unassembled fails]
    exact ⟨AssembleRequest.carryOut_of_error
      (AssembleRequest.execute_eq_error.2 (.unassembled fails)), rfl, rfl⟩

end Statuses

/-- A label that nothing defines, bytes that are no text, a program that is not there, and a loop
that its budget ends. -/
theorem status_tells_first_failure_mixed :
    let files : Files :=
      [("bad.asm", .text "add nowhere"), ("raw.asm", .bytes [0xff]),
        ("loop.asm", .text "loop: jmp loop")]
    let bad : AssembleRequest := { input := "bad.asm", output := "out.lst" }
    let raw : DisassembleRequest := { program := "raw.asm" }
    let gone : DisassembleRequest := { program := "./gone.bin" }
    let loop : RunRequest := { program := "loop.asm", maxSteps := some (.value 5) }
    (Request.read ["assemble", "bad.asm", "-o", "out.lst"] = .ok (.assemble bad) ∧
        Request.read ["disasm", "raw.asm"] = .ok (.disassemble raw) ∧
        Request.read ["disasm", "./gone.bin"] = .ok (.disassemble gone) ∧
        Request.read ["run", "loop.asm", "--max-steps", "5"] = .ok (.run loop) ∧
        (Request.assemble bad).Ends .looped files.disk ∧
          (Request.disassemble raw).Ends .looped files.disk ∧
        (Request.disassemble gone).Ends .looped files.disk ∧
          (Request.run loop).Ends .looped files.disk) ∧
      (∃ e, answer .looped ["assemble", "bad.asm", "-o", "out.lst"] files.disk "" = .exit e ∧
        e.status = 1 ∧ e.output.written = [] ∧
          ∃ failure, bad.carryOut files.disk [] = .error failure []) ∧
      (∃ e, answer .looped ["disasm", "raw.asm"] files.disk "" = .exit e ∧ e.status = 2) ∧
      (∃ e, answer .looped ["disasm", "./gone.bin"] files.disk "" = .exit e ∧ e.status = 1) ∧
      ∃ e, answer .looped ["run", "loop.asm", "--max-steps", "5"] files.disk "" = .exit e ∧
        e.status = 0 ∧ (loop.Ends files.disk .halt ∨ loop.Ends files.disk .timeout) := by
  intro files bad raw gone loop
  have readBad : Request.read ["assemble", "bad.asm", "-o", "out.lst"] = .ok (.assemble bad) := by
    with_unfolding_all rfl
  have readRaw : Request.read ["disasm", "raw.asm"] = .ok (.disassemble raw) := by rfl
  have readGone : Request.read ["disasm", "./gone.bin"] = .ok (.disassemble gone) := by rfl
  have readLoop : Request.read ["run", "loop.asm", "--max-steps", "5"] = .ok (.run loop) := by rfl
  have endsLoop : (Request.run loop).Ends .looped files.disk := by
    have done : (loop.execute .looped files.disk).isOk = true := by decide +kernel
    refine ⟨⟨rfl, rfl⟩, fun endless => ?_⟩
    rw [endless] at done
    cases done
  refine ⟨⟨readBad, readRaw, readGone, readLoop, trivial, trivial, trivial, endsLoop⟩, ?bad, ?raw,
    ?gone, ?loop⟩
  case bad =>
    have ends : (Request.assemble bad).Ends .looped files.disk := trivial
    obtain ⟨e, comes, one, _, _, _, _, _, untouched⟩ := status_tells_first_failure "" readBad ends
    have has : HasText files.disk "bad.asm" "add nowhere" :=
      ⟨.text "add nowhere", by decide +kernel, by decide +kernel⟩
    have rejected :
        assemble "add nowhere" = .error ⟨1, "add nowhere", .undefinedLabel "nowhere"⟩ := by
      decide +kernel
    have fails :
        bad.Unassembled files.disk (.source ⟨1, "add nowhere", .undefinedLabel "nowhere"⟩) :=
      .rejected has rejected
    obtain ⟨nothing, _, unwritten⟩ := untouched bad _ rfl fails
    exact ⟨e, comes, one.2 ⟨_, .unassembled fails, .rejected _⟩, unwritten, _, nothing⟩
  case raw =>
    have ends : (Request.disassemble raw).Ends .looped files.disk := trivial
    obtain ⟨e, comes, _, two, _⟩ := status_tells_first_failure "" readRaw ends
    have found : files.disk.read "raw.asm" = .ok (.bytes [0xff]) := by decide +kernel
    have malformed : Content.asText (.bytes [0xff]) = .error ⟨.startByte, 0xff, 0, 1⟩ := by
      decide +kernel
    have fails : raw.Fails files.disk (.encoding ⟨.startByte, 0xff, 0, 1⟩) :=
      .program (.text (by decide +kernel) (.undecoded found malformed))
    exact ⟨e, comes, two.2 ⟨_, fails, fun expected => by cases expected⟩⟩
  case gone =>
    have ends : (Request.disassemble gone).Ends .looped files.disk := trivial
    obtain ⟨e, comes, _, _, _, _, absent, _⟩ := status_tells_first_failure "" readGone ends
    have file : IsFilePath "./gone.bin" "gone.bin" := by constructor <;> decide +kernel
    exact ⟨e, comes, absent files _ _ rfl rfl file rfl⟩
  case loop =>
    obtain ⟨e, comes, _, _, zero, _, _, runs, _⟩ := status_tells_first_failure "" readLoop endsLoop
    have done : (execute .looped files.disk "" (.run loop)).status = 0 := by decide +kernel
    have e_eq : e = execute .looped files.disk "" (.run loop) := by
      rw [answer, readLoop] at comes
      exact (Answer.exit.inj comes).symm
    exact ⟨e, comes, e_eq ▸ done, (runs loop rfl).1.1 (e_eq ▸ done)⟩

/-- A path through a file leads to nothing, yet has the status of other failures. -/
theorem path_through_file_fails_otherwise :
    let files : Files := [("p.asm", .text "nop")]
    files.lookup "p.asm/x" = none ∧ files.read "p.asm/x" = .error (.notDirectory "p.asm/x") ∧
      ∃ request e, Request.read ["disasm", "p.asm/x"] = .ok request ∧
        request.Ends .looped files.disk ∧
          answer .looped ["disasm", "p.asm/x"] files.disk "" = .exit e ∧
        e.output.stderr = "Internal error: [Errno 20] Not a directory: 'p.asm/x'\n" ∧
          e.status = 2 := by
  intro files
  refine ⟨rfl, by decide +kernel, .disassemble { program := "p.asm/x" }, _, by rfl, trivial, rfl,
    ?_, ?_⟩
  · decide +kernel
  · decide +kernel

end CommandLine

end Chifir
