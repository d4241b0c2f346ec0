import Mathlib.Algebra.Order.Ring.Int
import Mathlib.Data.List.Induction
import Mathlib.Data.List.TakeWhile
import Chifir.Instruction.Basic
import Chifir.Memory.Bus
import Chifir.Memory.Dump
import Chifir.Proofs.Except
import Chifir.Proofs.Word

/-!
# Memory as a map

Pages are a matter of storage: from outside, memory is a map from addresses to numbers, which a
history of accesses has made. `Reflects` says what memory shows of the writes since it was last
cleared.

1. `Bus.access`, `Bus.accessAll`: one access, and one after another.
2. `Stores.set`, `stores_access`: one write, and any access but clearing, add to what is stored what
   they write.
3. `stores_accessAll`: so it is with every history, by induction on it.
4. `memory_refines_map`: what memory shows after any history, and what the accesses do that are
   refused, that only look, or that stop on their way.
-/

namespace Chifir

/-! ## Accesses -/

/-- What is asked of memory from outside. Only `write`, `load` and `clear` change it
(`Access.looks`). -/
inductive Access
  | write (n v : Int)
  | load (words : List Int) (base : Int)
  | clear
  | read (n : Int)
  | readBlock (start length : Int)
  | hexdump (start length : Int)
  | decode (n : Int)
  | isAllocated (n : Int)
  | touched
  | pageCount
deriving DecidableEq, Repr

inductive Answer
  | done
  | word (w : Word)
  | block (words : Array Word)
  | rows (text : String)
  | instruction (i : Instruction Word)
  | truth (b : Bool)
  | addresses (pages : List Nat)
  | number (n : Nat)
deriving DecidableEq, Repr

def Access.looks : Access → Bool
  | write .. | load .. | clear => false
  | _ => true

namespace Bus

/-- One access: what is answered, and memory afterwards. -/
def access (b : Bus) : Access → Except AddressError Answer × Bus
  | .write n v =>
    match b.write n v with
    | .ok b' => (.ok .done, b')
    | .error e => (.error e, b)
  | .load words base =>
    match b.load words base with
    | (b', none) => (.ok .done, b')
    | (b', some e) => (.error e, b')
  | .clear => (.ok .done, b.clear)
  | .read n => ((b.memory.read n).map .word, b)
  | .readBlock start length => ((b.memory.readBlock start length).map .block, b)
  | .hexdump start length => ((b.memory.hexdump start length).map .rows, b)
  | .decode n => ((b.memory.decodeAt n).map .instruction, b)
  | .isAllocated n => ((b.memory.isAllocated n).map .truth, b)
  | .touched => (.ok (.addresses b.memory.touched), b)
  | .pageCount => (.ok (.number b.memory.pageCount), b)

def accessAll (b : Bus) (accesses : List Access) : Bus :=
  accesses.foldl (fun b x => (b.access x).2) b

theorem accessAll_cons (b : Bus) (x : Access) (accesses : List Access) :
    b.accessAll (x :: accesses) = (b.access x).2.accessAll accesses := rfl

theorem accessAll_concat (b : Bus) (accesses : List Access) (x : Access) :
    b.accessAll (accesses ++ [x]) = ((b.accessAll accesses).access x).2 := List.foldl_concat ..

end Bus

/-! ## What a history has written -/

def IsAddress (n : Int) : Prop := 0 ≤ n ∧ n < 2 ^ 32

instance (n : Int) : Decidable (IsAddress n) := inferInstanceAs (Decidable (_ ∧ _))

/-- Numbers behind those that they are to be written at, which are consecutive. -/
def cellsFrom (base : Int) : List Int → List (Int × Int)
  | [] => []
  | v :: rest => (base, v) :: cellsFrom (base + 1) rest

/-- The writes before the first one that has no address. -/
def within (cells : List (Int × Int)) : List (Int × Int) :=
  cells.takeWhile fun cell => IsAddress cell.1

/-- What an access writes, in order. -/
def Access.writes : Access → List (Int × Int)
  | write n v => within [(n, v)]
  | load words base => within (cellsFrom base words)
  | _ => []

/-- What has been written since memory was last cleared, the newest first. -/
def recentWrites (accesses : List Access) : List (Int × Int) :=
  (accesses.reverse.takeWhile (· ≠ .clear)).flatMap fun x => x.writes.reverse

/-- Memory is, from outside, the map that writes have made, of which the newest comes first. -/
structure Memory.Reflects (m : Memory) (writes : List (Int × Int)) : Prop where
  /-- An address has the number written to it last, reduced to a word. -/
  read : ∀ n, IsAddress n →
    ∃ w, m.read n = .ok w ∧ Word.toInt w = (writes.lookup n).getD 0 % 2 ^ 32
  ascending : m.touched.Pairwise (· < ·)
  /-- The pages are those written to. -/
  mem_touched : ∀ first, first ∈ m.touched ↔
    ∃ n v, (n, v) ∈ writes ∧ first = 4096 * (n.toNat / 4096)
  pageCount : m.pageCount = m.touched.length
  isAllocated : ∀ n, IsAddress n →
    m.isAllocated n = .ok (decide (4096 * (n.toNat / 4096) ∈ m.touched))

/-! ## One write -/

theorem exists_toInt {n : Int} (address : IsAddress n) : ∃ a, n = Word.toInt a :=
  ⟨Word.ofInt n, Word.address_eq_ok.1 (if_pos address)⟩

theorem isAddress_toInt (a : Word) : IsAddress (Word.toInt a) := by
  have small := a.toNat_lt
  simp only [IsAddress, Word.toInt]
  omega

theorem address_of_not {n : Int} (beyond : ¬ IsAddress n) :
    Word.address n = .error (.outOfRange n) :=
  if_neg beyond

namespace Memory

theorem hasPage_set (m : Memory) (a v : Word) (page : Nat) :
    (m.set a v).hasPage page = (decide (pageOf a = page) || m.hasPage page) := by
  rw [hasPage, hasPage, set, Std.TreeMap.contains_alter]
  by_cases same : pageOf a = page <;> simp [same]

structure Stores (m : Memory) (writes : List (Int × Int)) : Prop where
  get : ∀ a, m.get a = Word.ofInt ((writes.lookup (Word.toInt a)).getD 0)
  hasPage : ∀ page, m.hasPage page = true ↔ ∃ n v, (n, v) ∈ writes ∧ page = n.toNat / 4096

variable {m : Memory} {writes : List (Int × Int)}

theorem stores_empty : empty.Stores [] := by
  refine ⟨fun a => ?_, fun page => ?_⟩
  · rw [get_empty]
    rfl
  · simp [hasPage, empty]

theorem Stores.set (stores : m.Stores writes) (a : Word) (v : Int) :
    (m.set a (Word.ofInt v)).Stores ((Word.toInt a, v) :: writes) := by
  refine ⟨fun c => ?_, fun page => ?_⟩
  · rw [get_set, List.lookup_cons]
    by_cases same : a = c
    · simp [same]
    · have other : (Word.toInt c == Word.toInt a) = false :=
        beq_eq_false_iff_ne.2 fun equal => same (Word.toInt_injective equal).symm
      rw [if_neg same, other]
      exact stores.get c
  · rw [hasPage_set, Bool.or_eq_true, decide_eq_true_eq, stores.hasPage]
    simp only [List.mem_cons, Prod.mk.injEq, or_and_right, exists_or]
    refine or_congr ⟨?_, ?_⟩ Iff.rfl
    · rintro rfl
      exact ⟨_, v, ⟨rfl, rfl⟩, rfl⟩
    · rintro ⟨_, _, ⟨rfl, rfl⟩, rfl⟩
      rfl

theorem mem_touched {first : Nat} :
    first ∈ m.touched ↔ ∃ page, m.hasPage page = true ∧ first = 4096 * page := by
  simp only [touched, List.mem_map, Std.TreeMap.mem_keys, hasPage, pageSize,
    Std.TreeMap.mem_iff_contains]
  refine exists_congr fun page => and_congr_right fun _ => ?_
  omega

theorem Stores.reflects (stores : m.Stores writes) : m.Reflects writes where
  read := by
    intro n address
    obtain ⟨a, rfl⟩ := exists_toInt address
    refine ⟨m.get a, ?_, ?_⟩
    · rw [read, Word.address_toInt]
      rfl
    · rw [stores.get, Word.toInt_ofInt]
      rfl
  ascending := by
    rw [touched, List.pairwise_map]
    have ordered := m.pages.ordered_keys
    exact ordered.imp fun less => by
      rw [Nat.compare_eq_lt] at less
      exact Nat.mul_lt_mul_of_pos_right less (by decide)
  mem_touched := by
    intro first
    rw [mem_touched]
    constructor
    · rintro ⟨page, has, rfl⟩
      obtain ⟨n, v, mem, rfl⟩ := (stores.hasPage page).1 has
      exact ⟨n, v, mem, rfl⟩
    · rintro ⟨n, v, mem, rfl⟩
      exact ⟨_, (stores.hasPage _).2 ⟨n, v, mem, rfl⟩, rfl⟩
  pageCount := by rw [pageCount, touched, List.length_map, Std.TreeMap.length_keys]
  isAllocated := by
    intro n address
    obtain ⟨a, rfl⟩ := exists_toInt address
    rw [isAllocated, Word.address_toInt, ok_bind, isTouched]
    refine congrArg Except.ok (Bool.eq_iff_iff.2 ?_)
    rw [decide_eq_true_iff, mem_touched]
    constructor
    · intro has
      exact ⟨_, has, rfl⟩
    · rintro ⟨page, has, equal⟩
      rwa [show pageOf a = page from Nat.eq_of_mul_eq_mul_left (by decide) equal]

end Memory

/-! ## Every history -/

namespace Bus

open Memory (Stores)

variable {b : Bus} {writes : List (Int × Int)}

theorem write_toInt (b : Bus) (a : Word) (v : Int) :
    b.write (Word.toInt a) v = .ok (b.set a (Word.ofInt v)) := by
  rw [write, Word.address_toInt]
  rfl

theorem write_of_not (b : Bus) {n : Int} (beyond : ¬ IsAddress n) (v : Int) :
    b.write n v = .error (.outOfRange n) := by
  rw [write, address_of_not beyond]
  rfl

theorem access_write (b : Bus) (a : Word) (v : Int) :
    b.access (.write (Word.toInt a) v) = (.ok .done, b.set a (Word.ofInt v)) := by
  rw [access, write_toInt]

theorem access_write_of_not (b : Bus) {n : Int} (beyond : ¬ IsAddress n) (v : Int) :
    b.access (.write n v) = (.error (.outOfRange n), b) := by
  rw [access, write_of_not b beyond]

theorem access_read_of_not (b : Bus) {n : Int} (beyond : ¬ IsAddress n) :
    b.access (.read n) = (.error (.outOfRange n), b) := by
  rw [access, Memory.read, address_of_not beyond]
  rfl

/-- Loading writes one number after another, up to the first that has no address. -/
theorem load_eq (b : Bus) (words : List Int) (base : Int) :
    b.load words base =
      (b.accessAll ((within (cellsFrom base words)).map fun cell => .write cell.1 cell.2),
        ((cellsFrom base words).find? fun cell => ¬ IsAddress cell.1).map fun cell =>
          .outOfRange cell.1) := by
  induction words generalizing b base with
  | nil => rfl
  | cons v rest ih =>
    rw [load, cellsFrom, within, List.takeWhile_cons, List.find?_cons]
    by_cases address : IsAddress base
    · obtain ⟨a, rfl⟩ := exists_toInt address
      rw [if_pos (decide_eq_true address), decide_eq_false (not_not_intro address), write_toInt]
      rw [List.map_cons, accessAll_cons, access_write]
      exact ih ..
    · rw [if_neg (by simpa using address), decide_eq_true address, write_of_not b address]
      rfl

theorem stores_writes {cells : List (Int × Int)} (addresses : ∀ cell ∈ cells, IsAddress cell.1)
    (stores : b.memory.Stores writes) :
    (b.accessAll (cells.map fun cell => .write cell.1 cell.2)).memory.Stores
    (cells.reverse ++ writes) := by
  induction cells generalizing b writes with
  | nil => exact stores
  | cons cell cells ih =>
    obtain ⟨address, rest⟩ := List.forall_mem_cons.1 addresses
    obtain ⟨a, at_a⟩ := exists_toInt address
    obtain ⟨n, v⟩ := cell
    subst at_a
    rw [List.map_cons, accessAll_cons, access_write, List.reverse_cons, List.append_assoc]
    apply ih rest
    rw [memory_set]
    exact stores.set a v

theorem isAddress_of_mem_within {cells : List (Int × Int)} {cell : Int × Int}
    (mem : cell ∈ within cells) :
    IsAddress cell.1 := by
  simpa using List.mem_takeWhile_imp mem

theorem stores_access (stores : b.memory.Stores writes) {x : Access} (keeps : x ≠ .clear) :
    (b.access x).2.memory.Stores (x.writes.reverse ++ writes) := by
  cases x with
  | clear => exact absurd rfl keeps
  | write n v =>
    by_cases address : IsAddress n
    · have only : ∀ cell ∈ [(n, v)], IsAddress cell.1 := List.forall_mem_singleton.2 address
      rw [Access.writes, within, List.takeWhile_cons_of_pos (by simpa using address)]
      exact stores_writes only stores
    · rw [access_write_of_not b address, Access.writes, within,
        List.takeWhile_cons_of_neg (by simpa using address)]
      exact stores
  | load words base =>
    have loaded : (b.access (.load words base)).2 = (b.load words base).1 := by
      rw [access]
      split <;> simp_all
    rw [loaded, load_eq]
    exact stores_writes (fun _ => isAddress_of_mem_within) stores
  | _ => exact stores

theorem stores_accessAll (watchpoints : List Watchpoint) (accesses : List Access) :
    (accessAll { watchpoints } accesses).memory.Stores (recentWrites accesses) := by
  induction accesses using List.reverseRecOn with
  | nil => exact Memory.stores_empty
  | append_singleton accesses x ih =>
    rw [accessAll_concat, recentWrites, List.reverse_append]
    by_cases clears : x = .clear
    · subst clears
      exact Memory.stores_empty
    · rw [List.reverse_singleton, List.singleton_append,
        List.takeWhile_cons_of_pos (by simpa using clears)]
      exact stores_access ih clears

end Bus

/-- After any history of accesses memory shows the last number written to each address since it was
last cleared. Looking changes nothing, nor does an access to a number that is no address. Loading is
the writes one after another, up to the first that has no address, with which it fails. -/
theorem memory_refines_map (watchpoints : List Watchpoint) (accesses : List Access) :
    let b := Bus.accessAll { watchpoints } accesses
    b.memory.Reflects (recentWrites accesses) ∧
      (∀ x, x.looks → (b.access x).2 = b) ∧
      (∀ n, ¬ IsAddress n →
        b.access (.read n) = (.error (.outOfRange n), b) ∧
        ∀ v, b.access (.write n v) = (.error (.outOfRange n), b)) ∧
      ∀ words base, b.access (.load words base) =
        (match (cellsFrom base words).find? fun cell => ¬ IsAddress cell.1 with
          | none => .ok .done
          | some cell => .error (.outOfRange cell.1),
        b.accessAll ((within (cellsFrom base words)).map fun cell => .write cell.1 cell.2)) := by
  intro b
  refine ⟨(Bus.stores_accessAll watchpoints accesses).reflects, ?looks, ?beyond, ?load⟩
  case looks =>
    intro x looks
    cases x <;> first | rfl | cases looks
  case beyond =>
    intro n beyond
    exact ⟨b.access_read_of_not beyond, b.access_write_of_not beyond⟩
  case load =>
    intro words base
    rw [Bus.access, Bus.load_eq]
    cases (cellsFrom base words).find? fun cell => ¬ IsAddress cell.1 <;> rfl

/-- A history that clears memory, writes on both sides of a page's border and a negative number, and
loads two numbers at the top, of which the second has no address. -/
theorem memory_refines_map_top :
    let history : List Access :=
      [.write 5 7, .clear, .write 4095 1, .write 4096 (-1), .write (-1) 3, .load [8, 9] 4294967295]
    let b := Bus.accessAll {} history
    (recentWrites history = [(4294967295, 8), (4096, -1), (4095, 1)] ∧
      b.memory.Reflects (recentWrites history)) ∧ ((Access.hexdump 4095 2).looks ∧
        (b.access (.hexdump 4095 2)).2 = b) ∧
      (¬ IsAddress 4294967296 ∧
        b.access (.write 4294967296 3) = (.error (.outOfRange 4294967296), b)) ∧
      b.access (.load [8, 9] 4294967295) =
        (.error (.outOfRange 4294967296), b.accessAll [.write 4294967295 8]) := by
  intro history b
  obtain ⟨reflects, looks, beyond, load⟩ := memory_refines_map [] history
  have top : ¬ IsAddress 4294967296 := by decide
  exact ⟨⟨by decide, reflects⟩, ⟨rfl, looks (.hexdump 4095 2) rfl⟩, ⟨top, (beyond _ top).2 3⟩,
    load [8, 9] 4294967295⟩

end Chifir
