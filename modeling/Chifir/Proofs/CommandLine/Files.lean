import Mathlib.Data.List.Basic
import Chifir.CommandLine.Files
import Chifir.Proofs.Except

/-!
# One file more

1. `Disk.Wrote` is what a file system keeps to when a file is written, wherever the file lies.
2. `Files.read_eq_ok`, `Files.target_eq_ok`: a file is read and written in the directory that all
   names of its path but the last lead to. No file has a part in where that is (`approach_of_ok`).
3. `Files.wrote`: so the directory with one file more is what its disk has become.
-/

namespace Chifir.CommandLine

/-- The disk `before` has become the disk `after` because something was written under a `name`.
Every path that was written under this name leads to the new content now, and a file that goes by
another name holds what it held. -/
structure Disk.Wrote (before : Disk) (name : String) (content : Content) (after : Disk) : Prop where
  written : ∀ path, before.target path = .ok name → after.read path = .ok content
  kept : ∀ path held, before.read path = .ok held → before.target path ≠ .ok name →
    after.read path = .ok held

/-- A path of the file of that name in the directory `here`, whether there is one or not. -/
structure IsFilePath (path name : String) : Prop where
  plain : path.toList.contains '\x00' = false
  short : path.utf8ByteSize ≤ pathLimit
  relative : path.startsWith "/" = false
  unended : path.endsWith "/" = false
  dots : ∀ n ∈ (namesIn path).dropLast, n = "."
  last : (namesIn path).getLast? = some name
  proper : name ≠ "." ∧ name ≠ ".."
  fits : name.utf8ByteSize ≤ nameLimit

namespace Files

variable {files : Files} {path name key : String} {names : List String} {content : Content}
  {d d' : Directory}

/-! ## Where paths go -/

def startOf (path : String) : Directory := if path.startsWith "/" then .root else .here

theorem approach_eq (files : Files) (path : String) : files.approach path =
    if path.toList.contains '\x00' then .error .nullByte
    else if path.isEmpty then .error (.notFound path)
    else if pathLimit < path.utf8ByteSize then .error (.nameTooLong path)
    else do
      return (← files.walk path (startOf path) (namesIn path).dropLast, (namesIn path).getLast?) :=
  rfl

theorem approach_eq_ok {last : Option String} : files.approach path = .ok (d, last) ↔
    path.toList.contains '\x00' = false ∧ path.isEmpty = false ∧ path.utf8ByteSize ≤ pathLimit ∧
      files.walk path (startOf path) (namesIn path).dropLast = .ok d ∧
      (namesIn path).getLast? = last := by
  rw [approach_eq]
  split
  · next null => exact ⟨nofun, fun fits => absurd null (Bool.eq_false_iff.1 fits.1)⟩
  split
  · next empty => exact ⟨nofun, fun fits => absurd empty (Bool.eq_false_iff.1 fits.2.1)⟩
  split
  · next long => exact ⟨nofun, fun fits => absurd fits.2.2.1 (Nat.not_le.2 long)⟩
  next plain filled short =>
    rw [bind_eq_ok]
    constructor
    · rintro ⟨d', walked, same⟩
      obtain ⟨rfl, rfl⟩ := Prod.mk.inj (Except.ok.inj same)
      exact ⟨Bool.eq_false_iff.2 plain, Bool.eq_false_iff.2 filled, Nat.not_lt.1 short, walked, rfl⟩
    · rintro ⟨_, _, _, walked, rfl⟩
      exact ⟨d, walked, rfl⟩

/-- A name that is looked up, which the two names with dots alone are not. -/
@[mk_iff]
structure IsProper (name : String) : Prop where
  one : name ≠ "."
  two : name ≠ ".."
  fits : name.utf8ByteSize ≤ nameLimit

theorem follow_eq_ok {entry : Option Entry} : files.follow path d name = .ok entry ↔
    name = "." ∧ entry = some (.directory d) ∨ name = ".." ∧ entry = some (.directory d.parent) ∨
      IsProper name ∧ entry = files.lookUp? d name := by
  unfold follow
  split
  · simp [isProper_iff, eq_comm]
  · simp [isProper_iff, eq_comm]
  next one two =>
    have one : name ≠ "." := one
    have two : name ≠ ".." := two
    split
    · next long => simp [isProper_iff, one, two, Nat.not_le.2 long]
    · next fits => simp [isProper_iff, one, two, Nat.not_lt.1 fits, eq_comm]

theorem follow_of_directory (arrives : files.follow path d name = .ok (some (.directory d')))
    (files' : Files) : files'.follow path d name = .ok (some (.directory d')) := by
  rw [follow_eq_ok] at arrives ⊢
  refine arrives.imp_right (Or.imp_right fun ⟨proper, found⟩ => ⟨proper, ?_⟩)
  unfold lookUp? at found ⊢
  split
  · next system => rw [found, if_pos system]
  next system =>
    rw [if_neg system] at found
    split at found
    · cases found
    · cases held : files.lookup (d.key name) <;> rw [held] at found <;> cases found

/-- Files are no part of the way through directories, so `walk` leads to the same with other files.
-/
theorem walk_of_ok (walked : files.walk path d names = .ok d') (files' : Files) :
    files'.walk path d names = .ok d' := by
  induction names generalizing d with
  | nil => exact walked
  | cons n rest ih =>
    rw [walk] at walked ⊢
    obtain ⟨entry, found, further⟩ := bind_eq_ok.1 walked
    match entry with
    | none => cases further
    | some (.file _) => cases further
    | some (.directory between) =>
      rw [follow_of_directory found files']
      exact ih further

theorem approach_of_ok {last : Option String} (approach : files.approach path = .ok (d, last))
    (files' : Files) : files'.approach path = .ok (d, last) := by
  obtain ⟨plain, filled, short, walked, last⟩ := approach_eq_ok.1 approach
  exact approach_eq_ok.2 ⟨plain, filled, short, walk_of_ok walked files', last⟩

/-! ## Files that are read and written -/

theorem read_eq_ok : files.read path = .ok content ↔
    path.endsWith "/" = false ∧ ∃ d name, files.approach path = .ok (d, some name) ∧
      files.follow path d name = .ok (some (.file content)) := by
  rw [read, bind_eq_ok]
  constructor
  · rintro ⟨⟨d, _ | name⟩, approach, looked⟩
    · cases looked
    · obtain ⟨entry, found, looked⟩ := bind_eq_ok.1 looked
      match entry with
      | none => cases looked
      | some (.directory _) => cases looked
      | some (.file content') =>
        dsimp only at looked
        split at looked
        · cases looked
        · next unended =>
          cases looked
          exact ⟨Bool.eq_false_iff.2 unended, d, name, approach, found⟩
  · rintro ⟨unended, d, name, approach, found⟩
    refine ⟨_, approach, ?_⟩
    simp only [found, ok_bind, unended]
    rfl

/-- What stands at a name is no directory, so that a file can be written there. -/
def IsWritable (files : Files) (path : String) (d : Directory) (name : String) : Prop :=
  ∃ entry, files.follow path d name = .ok entry ∧ ∀ d', entry ≠ some (.directory d')

theorem target_eq_ok : files.target path = .ok key ↔
    path.endsWith "/" = false ∧ ∃ d name, files.approach path = .ok (d, some name) ∧
      files.IsWritable path d name ∧ d.key name = key := by
  rw [target, bind_eq_ok]
  constructor
  · rintro ⟨⟨d, _ | name⟩, approach, looked⟩
    · cases looked
    · dsimp only at looked
      split at looked
      · cases looked
      · next unended =>
        obtain ⟨entry, found, looked⟩ := bind_eq_ok.1 looked
        refine ⟨Bool.eq_false_iff.2 unended, d, name, approach, ⟨entry, found, ?_⟩, ?_⟩
        · rintro d' rfl
          cases looked
        · match entry with
          | none => exact Except.ok.inj looked
          | some (.directory _) => cases looked
          | some (.file _) => exact Except.ok.inj looked
  · rintro ⟨unended, d, name, approach, ⟨entry, found, file⟩, rfl⟩
    refine ⟨_, approach, ?_⟩
    simp only [found, ok_bind, unended]
    match entry with
    | none => rfl
    | some (.directory d') => exact absurd rfl (file d')
    | some (.file _) => rfl

theorem lookUp?_cons_self (real : d.key name ≠ nullDevice)
    (file : ¬ (d = .root ∧ name ∈ Directory.systemNames)) :
    Files.lookUp? ((d.key name, content) :: files) d name = some (.file content) := by
  rw [lookUp?, if_neg file, if_neg, List.lookup_cons_self]
  · rfl
  · rintro ⟨rfl, rfl⟩
    exact real rfl

theorem lookUp?_cons_of_ne (other : d.key name ≠ key) :
    Files.lookUp? ((key, content) :: files) d name = files.lookUp? d name := by
  rw [lookUp?, lookUp?, List.lookup_cons, beq_eq_false_iff_ne.2 other]

theorem follow_cons_self (writable : files.IsWritable path d name)
    (real : d.key name ≠ nullDevice) :
    Files.follow ((d.key name, content) :: files) path d name = .ok (some (.file content)) := by
  obtain ⟨entry, found, file⟩ := writable
  obtain ⟨_, rfl⟩ | ⟨_, rfl⟩ | ⟨proper, rfl⟩ := follow_eq_ok.1 found
  · exact absurd rfl (file d)
  · exact absurd rfl (file d.parent)
  · refine follow_eq_ok.2 (.inr (.inr ⟨proper, (lookUp?_cons_self real fun system => ?_).symm⟩))
    exact file _ (if_pos system)

theorem follow_cons_of_ne (other : d.key name ≠ key) :
    Files.follow ((key, content) :: files) path d name = files.follow path d name := by
  unfold follow
  split
  · rfl
  · rfl
  · rw [lookUp?_cons_of_ne other]

/-- A directory with a file more than before is what has become of it because that file was written,
unless it is the `nullDevice`, which holds nothing. -/
theorem wrote (files : Files) (content : Content) (real : key ≠ nullDevice) :
    files.disk.Wrote key content (Files.disk ((key, content) :: files)) where
  written path target := by
    obtain ⟨unended, d, name, approach, writable, rfl⟩ := target_eq_ok.1 target
    exact read_eq_ok.2 ⟨unended, d, name, approach_of_ok approach _, follow_cons_self writable real⟩
  kept path held found apart := by
    obtain ⟨unended, d, name, approach, entry⟩ := read_eq_ok.1 found
    have other : d.key name ≠ key := fun same =>
      apart (target_eq_ok.2 ⟨unended, d, name, approach, ⟨_, entry, nofun⟩, same⟩)
    refine read_eq_ok.2 ⟨unended, d, name, approach_of_ok approach _, ?_⟩
    rw [follow_cons_of_ne other, entry]

/-! ## Files in the directory -/

theorem walk_dots (dots : ∀ n ∈ names, n = ".") : files.walk path d names = .ok d := by
  induction names with
  | nil => rfl
  | cons n rest ih =>
    obtain ⟨rfl, others⟩ := List.forall_mem_cons.1 dots
    rw [walk]
    exact ih others

theorem isEmpty_of_isFilePath (file : IsFilePath path name) : path.isEmpty = false := by
  have nameless : namesIn "" = [] := by decide +kernel
  refine String.isEmpty_eq_false_iff.2 fun empty => ?_
  have last := file.last
  rw [empty, nameless] at last
  cases last

theorem approach_of_isFilePath (file : IsFilePath path name) (files : Files) :
    files.approach path = .ok (.here, some name) := by
  refine approach_eq_ok.2 ⟨file.plain, isEmpty_of_isFilePath file, file.short, ?_, file.last⟩
  rw [startOf, file.relative]
  exact walk_dots file.dots

/-- A file that is not there is not found, wherever its path has dots. -/
theorem read_of_absent (file : IsFilePath path name) (absent : files.lookup name = none) :
    files.read path = .error (.notFound path) := by
  have missing : files.follow path .here name = .ok none := by
    refine follow_eq_ok.2 (.inr (.inr ⟨⟨file.proper.1, file.proper.2, file.fits⟩, ?_⟩))
    rw [lookUp?, if_neg nofun, if_neg nofun, Directory.key, absent]
    rfl
  rw [read, approach_of_isFilePath file, ok_bind]
  simp only [missing, ok_bind]
  rfl

end Files

end Chifir.CommandLine
