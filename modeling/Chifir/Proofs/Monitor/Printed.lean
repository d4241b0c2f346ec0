import Chifir.Proofs.Assembly.Reassembly
import Chifir.Proofs.Assembly.Listing
import Chifir.Proofs.Memory.Dumps
import Chifir.Proofs.Monitor.Watches
import Chifir.Proofs.Text.Numerals

/-!
# What the monitor prints, line by line

Of all that the monitor prints, only the help and the dumps are longer than a line, and only what a
new breakpoint is announced with begins with the words for it.

1. `isInline_message`: words for a complaint are one line, whatever was typed.
2. `announcedIn_breakpoint`, `announcedIn_said`: the command that sets a breakpoint announces it,
   and no other command does.
-/

namespace Chifir

open Text

/-! ## Single lines -/

def IsInline (text : String) : Prop := '\n' ∉ text.toList

instance (text : String) : Decidable (IsInline text) := inferInstanceAs (Decidable (¬ _))

section Inline
variable {s t : String}

theorem isInline_append : IsInline (s ++ t) ↔ IsInline s ∧ IsInline t := by
  rw [IsInline, String.toList_append, List.mem_append, not_or]
  rfl

theorem IsInline.append (first : IsInline s) (second : IsInline t) : IsInline (s ++ t) :=
  isInline_append.2 ⟨first, second⟩

theorem isInline_of_isRow (row : IsRow s.toList) : IsInline s :=
  fun mem => absurd (row '\n' mem) (by decide)

theorem isInline_hex8 (n : Int) : IsInline (hex8 n) := isInline_of_isRow (isSolid_hex8 n).isRow

theorem isInline_hexPrefixed (n : Int) : IsInline (hexPrefixed n) := by
  rw [IsInline, hexPrefixed, String.toList_ofList]
  intro mem
  rcases List.mem_append.1 mem with sign | digits
  · unfold minus at sign
    split at sign
    · exact absurd sign (by decide)
    · exact absurd sign List.not_mem_nil
  · have solid := (isDigits_hexDigits n.natAbs).isSolid.isRow
    have inline : '\n' ∉ '0' :: 'x' :: hexDigits n.natAbs := by
      simp only [List.mem_cons, not_or]
      exact ⟨by decide, by decide, fun mem => absurd (solid '\n' mem) (by decide)⟩
    exact inline digits

theorem isInline_nat (n : Nat) : IsInline (toString n) := by
  rw [IsInline, Nat.toString_eq_ofList_toDigits, String.toList_ofList]
  intro mem
  exact absurd (Nat.isDigit_of_mem_toDigits (by decide) (by decide) mem) (by decide)

theorem isInline_quoted (s : String) : IsInline (quoted s) := by
  have mark : '\n' ≠ quoteMark s.toList := by
    unfold quoteMark
    split <;> decide
  have each (c : Char) : '\n' ∉ quotedChar (quoteMark s.toList) c := by
    have digits (width : Nat) : '\n' ∉ padLeft '0' width (hexDigits c.toNat) := fun mem =>
      absurd (((isDigits_hexDigits c.toNat).padLeft width).isSolid.isRow '\n' mem) (by decide)
    unfold quotedChar
    by_cases same : c = '\n'
    · subst same
      rw [if_neg (by simpa using mark)]
      decide
    · split
      · simp [Ne.symm same]
      · split
        · decide
        · split
          · next feed => exact absurd (beq_iff_eq.1 feed) same
          · split
            · decide
            · split
              · simp [Ne.symm same]
              · unfold escaped
                split
                · simp [digits]
                · split
                  · simp [digits]
                  · simp [digits]
  rw [IsInline, quoted, String.toList_ofList, quote]
  simp only [List.cons_append, List.mem_cons, List.mem_append, List.mem_flatMap, List.not_mem_nil,
    or_false, not_or, not_exists, not_and]
  exact ⟨mark, fun c _ => each c, mark⟩

theorem isInline_malformed (base : Base) (s : String) :
    IsInline (malformedMessage base (quoted s)) := by
  have shown : IsInline (String.ofList ((quoted s).toList.take shownLimit)) := by
    rw [IsInline, String.toList_ofList]
    exact fun mem => isInline_quoted s (List.mem_of_mem_take mem)
  unfold malformedMessage
  exact .append (.append (.append (by decide) (isInline_nat _)) (by decide)) shown

theorem isInline_message (complaint : Complaint) : IsInline complaint.message := by
  unfold Complaint.message
  split
  · decide
  · next error =>
    unfold NumeralError.message
    split
    · exact isInline_malformed _ _
    · exact .append (.append (.append (by decide) (isInline_nat _)) (by decide))
        (.append (.append (by decide) (isInline_nat _)) (by decide))
  · next error =>
    unfold AddressError.message
    split
    · exact .append (by decide) (isInline_hexPrefixed _)
    · exact .append
        (.append (.append (.append (by decide) (isInline_hexPrefixed _)) (by decide))
          (isInline_hexPrefixed _)) (by decide)
  · next error =>
    unfold KeyboardError.message
    split
    · exact .append (by decide) (isInline_hexPrefixed _)
    · decide
  · decide

theorem isInline_fault (f : Fault) : IsInline f.message := by
  have name : IsInline f.kind.name := by cases f.kind <;> decide
  have place :=
    (name.append (by decide : IsInline " at ")).append
      (isInline_hex8 (Word.toInt f.culprit.address))
  have number {s t : String} (before : IsInline s) (between : IsInline t) (w : Word) :
      IsInline (s ++ t ++ hexPrefixed (Word.toInt w)) :=
        (before.append between).append (isInline_hexPrefixed _)
  let q := f.culprit.quad
  have operands :=
    number (number ((by decide : IsInline "a=").append (isInline_hexPrefixed (Word.toInt q.a)))
      (by decide : IsInline " b=") q.b) (by decide : IsInline " c=") q.c
  unfold Fault.message
  exact (((number place (by decide) _).append (by decide)).append operands).append (by decide)

theorem isInline_summary (m : Machine) : IsInline m.summary := by
  have name : IsInline m.status.name := by
    unfold Status.name
    split <;> decide
  have text : IsInline m.current.toInt.text := isInline_of_isRow (isRow_text _ m.current.quad)
  have line :=
    ((((name.append (by decide : IsInline " steps=")).append (isInline_nat m.steps)).append
    (by decide : IsInline " pc="))).append text
  unfold Machine.summary
  split
  · exact line
  · next fault _ =>
    have kind : IsInline fault.kind.name := by cases fault.kind <;> decide
    exact (line.append (by decide : IsInline " fault=")).append kind

end Inline

namespace Monitor

/-! ## Announcements -/

def announcement : List Char :=
  ['b', 'r', 'e', 'a', 'k', 'p', 'o', 'i', 'n', 't', ' ', 'a', 't', ' ']

/-- The address that a line announces. -/
def announced? (row : List Char) : Option Int :=
  if announcement.isPrefixOf row
    then (readHex (String.ofList (row.drop announcement.length))).toOption else none

/-- The addresses that the lines of what was printed announce. -/
def announcedIn (printed : List String) : List Int :=
  (printed.flatMap Listing.rowsOf).filterMap announced?

theorem announcedIn_append (printed printed' : List String) :
    announcedIn (printed ++ printed') = announcedIn printed ++ announcedIn printed' := by
  rw [announcedIn, List.flatMap_append, List.filterMap_append]
  rfl

theorem announcedIn_eq_nil {printed : List String}
    (each : ∀ text ∈ printed, announcedIn [text] = []) :
    announcedIn printed = [] := by
  induction printed with
  | nil => rfl
  | cons text printed ih =>
    obtain ⟨first, others⟩ := List.forall_mem_cons.1 each
    rw [← List.singleton_append, announcedIn_append, first, ih others]
    rfl

theorem announced?_of_head {row : List Char} (other : row.head? ≠ some 'b') :
    announced? row = none := by
  refine if_neg fun begins => other ?_
  obtain ⟨rest, rfl⟩ := List.isPrefixOf_iff_prefix.1 begins
  rfl

theorem announcedIn_joinLines {rows : List String} (some : rows ≠ [])
    (plain : ∀ row ∈ rows, IsInline row ∧ row.toList.head? ≠ .some 'b') :
    announcedIn [joinLines rows] = [] := by
  rw [announcedIn, List.flatMap_singleton, Listing.rowsOf_joinLines some fun row mem =>
    (plain row mem).1]
  rw [List.filterMap_eq_nil_iff]
  intro row mem
  obtain ⟨text, known, rfl⟩ := List.mem_map.1 mem
  exact announced?_of_head (plain text known).2

theorem rowsOf_of_isInline {text : String} (inline : IsInline text) :
    Listing.rowsOf text = [text.toList] := by
  have alone :=
    List.splitOn_intercalate '\n' (List.forall_mem_singleton.2 inline) (List.cons_ne_nil _ _)
  rwa [List.intercalate_singleton] at alone

/-- Neither of two texts goes on as the other does. -/
def Parts (s t : List Char) : Prop := ¬ s <+: t ∧ ¬ t <+: s

instance (s t : List Char) : Decidable (Parts s t) := inferInstanceAs (Decidable (_ ∧ _))

theorem announcedIn_of_parts {start rest : String} (inline : IsInline (start ++ rest))
    (parts : Parts announcement start.toList) : announcedIn [start ++ rest] = [] := by
  have other : announced? (start ++ rest).toList = none := by
    refine if_neg fun begins => ?_
    rw [String.toList_append, List.isPrefixOf_iff_prefix] at begins
    rcases List.prefix_or_prefix_of_prefix begins (List.prefix_append _ _) with more | less
    · exact parts.1 more
    · exact parts.2 less
  rw [announcedIn, List.flatMap_singleton, rowsOf_of_isInline inline]
  exact List.filterMap_eq_nil_iff.2 (List.forall_mem_singleton.2 other)

/-- What is said of a new breakpoint announces it, whatever number it is. -/
theorem announcedIn_breakpoint (n : Int) : announcedIn [s!"breakpoint at {hex8 n}"] = [n] := by
  have inline : IsInline s!"breakpoint at {hex8 n}" := .append (by decide) (isInline_hex8 n)
  have text : s!"breakpoint at {hex8 n}".toList = announcement ++ (hex8 n).toList :=
    String.toList_append
  have begins : announcement.isPrefixOf (announcement ++ (hex8 n).toList) = true :=
    List.isPrefixOf_iff_prefix.2 (List.prefix_append _ _)
  rw [announcedIn, List.flatMap_singleton, rowsOf_of_isInline inline, text, List.filterMap_cons,
    announced?, if_pos begins, List.drop_left, String.ofList_toList, readHex_hex8]
  rfl

/-! ## What else is said -/

theorem announcedIn_help : announcedIn [helpText] = [] := by
  refine announcedIn_joinLines (List.cons_ne_nil _ _) ?_
  simp only [List.forall_mem_cons, IsInline]
  -- Each row is the list of its letters, and need not be read as text.
  repeat rw [String.toList_ofList]
  simp

theorem announcedIn_summary (m : Machine) : announcedIn [m.summary] = [] := by
  have begins : ∃ rest, m.summary = m.status.name ++ rest := by
    unfold Machine.summary
    split
    · exact ⟨_, by simp only [toString_text, String.append_assoc]; rfl⟩
    · exact ⟨_, by simp only [toString_text, String.append_assoc]; rfl⟩
  have parts : Parts announcement m.status.name.toList := by
    unfold Status.name
    split <;> decide
  obtain ⟨rest, same⟩ := begins
  have inline := isInline_summary m
  rw [same] at inline ⊢
  exact announcedIn_of_parts inline parts

theorem announcedIn_reason (reason : StopReason) : announcedIn [reason.name] = [] := by
  cases reason <;> decide +kernel

theorem announcedIn_end (reason : StopReason) (m : Machine) :
    announcedIn [s!"{reason.name}: {m.summary}"] = [] := by
  have name : IsInline reason.name ∧
    Parts announcement (reason.name ++ ": ").toList := by cases reason <;> decide
  exact announcedIn_of_parts ((name.1.append (by decide)).append (isInline_summary m)) name.2

theorem announcedIn_fault (f : Fault) : announcedIn [s!"fault: {f.message}"] = [] :=
  announcedIn_of_parts (.append (by decide) (isInline_fault f)) (by decide)

theorem announcedIn_watchpoint (n : Int) : announcedIn [s!"watchpoint at {hex8 n}"] = [] :=
  announcedIn_of_parts (.append (by decide) (isInline_hex8 n)) (by decide)

theorem announcedIn_write (w : Write) : announcedIn [w.line] = [] := by
  unfold Write.line
  simp only [toString_text, String.append_assoc]
  refine announcedIn_of_parts (.append (by decide) ?_) (by decide)
  exact .append (isInline_hex8 _)
    (.append (by decide) (.append (isInline_hex8 _) (.append (by decide) (isInline_hex8 _))))

theorem announcedIn_hexdump {memory : Memory} {start length : Int} {text : String}
    (dumped : memory.hexdump start length = .ok text) : announcedIn [text] = [] := by
  have spans := Memory.exists_hexdump_iff.1 ⟨text, dumped⟩
  cases (Memory.hexdump_eq spans).symm.trans dumped
  generalize (memory.block start.toNat length.toNat).toList = block
  by_cases none : block = []
  · subst none
    rfl
  · refine announcedIn_joinLines (dumpRows_ne_nil _ none) fun row mem => ?_
    obtain ⟨i, there⟩ := List.mem_iff_getElem?.1 mem
    obtain ⟨_, inside, shows⟩ := row_of_getElem? there
    refine ⟨isInline_of_isRow inside, fun begins => ?_⟩
    -- A row begins with a digit in upper case.
    rw [shows.printed, String.append_assoc, String.toList_append,
      List.head?_append_of_ne_nil _ (isSolid_hex8 _).1] at begins
    rcases mem_hex8 (List.mem_of_mem_head? begins) with dash | ⟨d, small, same⟩
    · cases dash
    · exact absurd same.symm (by revert d; decide)

theorem announcedIn_complaint {name : String} {verb : Verb} (named : Verb.ofName? name = some verb)
    (complaint : Complaint) :
    announcedIn [s!"{name}: {complaint.message}"] = [] := by
  have known : IsInline name ∧ Parts announcement (name ++ ": ").toList := by
    unfold Verb.ofName? at named
    split at named
    all_goals first | decide | cases named
  exact announcedIn_of_parts ((known.1.append (by decide)).append (isInline_message complaint))
    known.2

theorem announcedIn_unknown {word : String} (inline : IsInline word) :
    announcedIn [s!"unknown command '{lowered word}' (try help)"] = [] := by
  simp only [toString_text, String.append_assoc]
  exact announcedIn_of_parts
    (.append (by decide) (.append (lineFeed_not_mem_lowered inline) (by decide))) (by decide)

section Said
variable {m m' : Monitor} {verb : Verb} {arguments : List String} {said : List String}

/-- A run says how it ended, and what the fault is if the machine has faulted. -/
theorem said_of_run {left : Monitor} (done : m.perform .run arguments = .ok (said, left)) :
    ∃ limit reason, m.machine.run? limit = some (reason, left.machine) ∧
      said = s!"{reason.name}: {left.machine.summary}" ::
        (left.machine.fault?.map fun fault => s!"fault: {fault.message}").toList := by
  obtain ⟨limit, _, done⟩ := bind_eq_ok.1 done
  cases ran : m.machine.run? limit with
  | none =>
    rw [ran] at done
    cases done
  | some outcome =>
    rw [ran] at done
    cases done
    exact ⟨limit, outcome.1, ran, rfl⟩

/-- Only the command that sets a breakpoint announces one: `announcedIn` finds nothing in what the
others say. -/
theorem announcedIn_said (other : verb ≠ .breakAt)
    (done : m.perform verb arguments = .ok (said, m')) :
    announcedIn said = [] := by
  refine announcedIn_eq_nil fun text mem => ?_
  cases verb with
  | breakAt => exact absurd rfl other
  | quit =>
    cases done
    cases mem
  | unwatch =>
    obtain ⟨_, _, done⟩ := bind_eq_ok.1 done
    obtain ⟨_, _, done⟩ := bind_eq_ok.1 done
    cases done
    cases mem
  | key =>
    obtain ⟨_, _, done⟩ := bind_eq_ok.1 done
    obtain ⟨_, _, done⟩ := bind_eq_ok.1 done
    obtain ⟨_, _, done⟩ := bind_eq_ok.1 done
    cases done
    cases mem
  | help =>
    cases done
    obtain rfl := List.mem_singleton.1 mem
    exact announcedIn_help
  | inspect | reset =>
    cases done
    obtain rfl := List.mem_singleton.1 mem
    exact announcedIn_summary _
  | step =>
    obtain ⟨_, _, done⟩ := bind_eq_ok.1 done
    cases done
    rcases List.mem_append.1 mem with ended | last
    · obtain ⟨reason, _, rfl⟩ := Option.map_eq_some_iff.1 (Option.mem_toList.1 ended)
      exact announcedIn_reason reason
    · obtain rfl := List.mem_singleton.1 last
      exact announcedIn_summary _
  | run =>
    obtain ⟨_, reason, _, rfl⟩ := said_of_run done
    rcases List.mem_cons.1 mem with rfl | faulted
    · exact announcedIn_end _ _
    · obtain ⟨fault, _, rfl⟩ := Option.map_eq_some_iff.1 (Option.mem_toList.1 faulted)
      exact announcedIn_fault fault
  | watch =>
    obtain ⟨_, _, done⟩ := bind_eq_ok.1 done
    obtain ⟨_, _, done⟩ := bind_eq_ok.1 done
    obtain ⟨_, _, done⟩ := bind_eq_ok.1 done
    cases done
    obtain rfl := List.mem_singleton.1 mem
    exact announcedIn_watchpoint _
  | mem =>
    obtain ⟨_, _, done⟩ := bind_eq_ok.1 done
    obtain ⟨_, _, done⟩ := bind_eq_ok.1 done
    obtain ⟨_, _, done⟩ := bind_eq_ok.1 done
    obtain ⟨rows, dumped, done⟩ := bind_eq_ok.1 done
    cases done
    obtain rfl := List.mem_singleton.1 mem
    exact announcedIn_hexdump (mapError_eq_ok.1 dumped)

end Said

end Monitor

end Chifir
