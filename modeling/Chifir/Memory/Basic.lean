import Std.Data.TreeMap
import Chifir.Word

/-!
# Memory

The machine has 2³² words of memory, kept in pages of 4096. A page exists from the first write into
it; a word of a page that does not exist is zero.

1. `Memory.get` and `Memory.set` read and write at an address; `get_set` is the law of the two.
2. `Memory.block` reads consecutive words page by page.
3. `Memory.read`, `Memory.write`, `Memory.readBlock` and `Memory.load` take numbers from outside and
   check them.
-/

namespace Chifir

def pageSize : Nat := 4096

abbrev Page := Vector Word pageSize

def Page.blank : Page := Vector.replicate pageSize 0

/-- Memory as the pages that were written to, by number. A word of any other page is zero. -/
structure Memory where
  pages : Std.TreeMap Nat Page := ∅

namespace Memory

def empty : Memory := {}

instance : Inhabited Memory := ⟨empty⟩

def pageOf (a : Word) : Nat := a.toNat / pageSize

/-- Where in its page an address lies; `pageOf` is the number of that page. -/
def offsetOf (a : Word) : Fin pageSize := ⟨a.toNat % pageSize, Nat.mod_lt _ (by decide)⟩

/-- The word at an address: zero unless its page exists. -/
def get (m : Memory) (a : Word) : Word :=
  match m.pages[pageOf a]? with
  | none => 0
  | some page => page[offsetOf a]

/-- Memory with a word replaced, the page of which exists afterwards. -/
def set (m : Memory) (a v : Word) : Memory :=
  { pages := m.pages.alter (pageOf a) fun page? => some ((page?.getD .blank).set (offsetOf a) v) }

/-- Memory without pages. -/
def clear (_ : Memory) : Memory := empty

def pageCount (m : Memory) : Nat := m.pages.size

/-- The first addresses of the pages that exist, ascending. -/
def touched (m : Memory) : List Nat := m.pages.keys.map (· * pageSize)

def hasPage (m : Memory) (page : Nat) : Bool := m.pages.contains page

def isTouched (m : Memory) (a : Word) : Bool := m.hasPage (pageOf a)

/-- Appends `length` words from `start` on to `words`, one page at a time. -/
def blockFrom (m : Memory) (start length : Nat) (words : Array Word) : Array Word :=
  if length = 0 then words
  else
    -- A piece ends with its page at the latest, and it is never empty.
    let offset := start % pageSize
    let count := min (pageSize - offset) length
    let piece :=
      match m.pages[start / pageSize]? with
      | none => Array.replicate count 0
      | some page => page.toArray.extract offset (offset + count)
    blockFrom m (start + count) (length - count) (words ++ piece)
termination_by length
decreasing_by
  have : start % pageSize < pageSize := Nat.mod_lt _ (by decide)
  omega

def block (m : Memory) (start length : Nat) : Array Word := blockFrom m start length #[]

/-! ## Requests from outside -/

/-- The word at a number, if it is an address. -/
def read (m : Memory) (n : Int) : Except AddressError Word := return m.get (← Word.address n)

/-- Writes a number, reduced to a word by `Word.ofInt`, at a number, if that is an address. -/
def write (m : Memory) (n v : Int) : Except AddressError Memory :=
  return m.set (← Word.address n) (Word.ofInt v)

/-- Consecutive words; the block may not run past the top of memory. -/
def readBlock (m : Memory) (start length : Int) : Except AddressError (Array Word) := do
  let a ← Word.address start
  if length < 0 ∨ addressLimit < start + length then throw (.blockTooLong start length)
  return m.block a.toNat length.toNat

/-- Writes numbers one after another from `base` on. The first that has no address ends it, and the
ones before stay written. -/
def load (m : Memory) : List Int → Int → Memory × Option AddressError
  | [], _ => (m, none)
  | v :: rest, base =>
    match m.write base v with
    | .ok m => m.load rest (base + 1)
    | .error e => (m, some e)

def isAllocated (m : Memory) (n : Int) : Except AddressError Bool :=
  return m.isTouched (← Word.address n)

/-! ## Laws -/

theorem pageOf_offsetOf_inj {a b : Word} (hp : pageOf a = pageOf b)
    (ho : offsetOf a = offsetOf b) : a = b := by
  apply UInt32.toNat_inj.1
  have h := Fin.mk.inj_iff.1 ho
  simp only [pageOf, pageSize] at hp h
  omega

/-- A word written by `set` is read back, and no other changes. -/
theorem get_set (m : Memory) (a b v : Word) :
    (m.set a v).get b = if a = b then v else m.get b := by
  simp only [get, set, Std.TreeMap.getElem?_alter, Std.LawfulEqCmp.compare_eq_iff_eq]
  by_cases hp : pageOf a = pageOf b
  · simp only [hp, if_true]
    by_cases hab : a = b
    · subst hab
      simp
    · have ho : (offsetOf a).val ≠ (offsetOf b).val := fun h =>
        hab (pageOf_offsetOf_inj hp (Fin.ext h))
      rw [if_neg hab]
      cases m.pages[pageOf b]? with
      | none => simp [Page.blank, Vector.getElem_set_ne _ _ ho]
      | some page => simp [Vector.getElem_set_ne _ _ ho]
  · have hab : a ≠ b := fun h => hp (congrArg pageOf h)
    simp [hp, hab]

@[simp] theorem get_empty (a : Word) : empty.get a = 0 := by
  simp [get, empty]

end Memory

end Chifir
