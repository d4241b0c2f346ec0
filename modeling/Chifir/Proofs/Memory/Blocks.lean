import Mathlib.Data.List.Basic
import Chifir.Memory.Basic

/-!
# Blocks of memory

A block is read page by page, and a page that does not exist gives zeros. What comes out is what
reading one word after another would give.

1. `get_page`: the words that follow on an address in its page.
2. `toList_piece`: what one page gives to a block.
3. `toList_block`: the whole block, by induction on its pieces. `getElem?_block` is its words one by
   one.
-/

namespace Chifir.Memory

variable (m : Memory) {start count length : Nat}

theorem get_page (i : Nat) (inPage : start % pageSize + i < pageSize)
    (inside : start + i < addressLimit) :
    m.get (UInt32.ofNat (start + i)) = match m.pages[start / pageSize]? with
      | none => 0
      | some page => page.get ⟨start % pageSize + i, inPage⟩ := by
  have number : (UInt32.ofNat (start + i)).toNat = start + i := UInt32.toNat_ofNat_of_lt' inside
  have page : (start + i) / pageSize = start / pageSize := by
    simp only [pageSize] at inPage ⊢
    omega
  have offset : (start + i) % pageSize = start % pageSize + i := by
    simp only [pageSize] at inPage ⊢
    omega
  simp only [get, pageOf, offsetOf, number, page, offset]
  rfl

theorem toList_piece (inPage : start % pageSize + count ≤ pageSize)
    (inside : start + count ≤ addressLimit) :
    (match m.pages[start / pageSize]? with
      | none => Array.replicate count 0
      | some page => page.toArray.extract (start % pageSize) (start % pageSize + count)).toList =
        (List.range' start count).map fun n => m.get (UInt32.ofNat n) := by
  have word (i : Nat) (small : i < count) :=
    m.get_page i (show start % pageSize + i < pageSize by omega) (by omega)
  cases found : m.pages[start / pageSize]? with
  | none =>
    simp only [found] at word
    refine List.ext_getElem (by simp) fun i _ here => ?_
    have small : i < count := by simpa using here
    rw [List.getElem_map, List.getElem_range', Nat.one_mul, word i small]
    exact Array.getElem_replicate ..
  | some page =>
    simp only [found] at word
    refine List.ext_getElem (by simp; omega) fun i _ here => ?_
    have small : i < count := by simpa using here
    rw [List.getElem_map, List.getElem_range', Nat.one_mul, word i small]
    exact Array.getElem_extract ..

theorem toList_blockFrom (inside : start + length ≤ addressLimit) (words : Array Word) :
    (m.blockFrom start length words).toList =
      words.toList ++ (List.range' start length).map fun n => m.get (UInt32.ofNat n) := by
  fun_induction blockFrom m start length words with
  | case1 => simp
  | case2 start length words nonempty offset count piece ih =>
    have inPage : start % pageSize + count ≤ pageSize := by
      have := Nat.mod_lt start (show 0 < pageSize by decide)
      omega
    have taken : piece.toList = (List.range' start count).map fun n => m.get (UInt32.ofNat n) :=
      m.toList_piece inPage (by omega)
    have split : List.range' start length = List.range' start count ++ List.range' (start + count)
        (length - count) := by
      rw [List.range'_append_1]
      congr
      omega
    rw [ih (by omega), Array.toList_append, taken, List.append_assoc, split, List.map_append]

theorem toList_block (inside : start + length ≤ addressLimit) :
    (m.block start length).toList = (List.range' start length).map fun n => m.get
    (UInt32.ofNat n) := by
  rw [block, m.toList_blockFrom inside]
  rfl

theorem getElem?_block (inside : start + length ≤ addressLimit) (i : Nat) :
    (m.block start length)[i]? = if i < length then some (m.get (UInt32.ofNat (start + i)))
    else none := by
  rw [← Array.getElem?_toList, m.toList_block inside, List.getElem?_map]
  by_cases small : i < length
  · rw [if_pos small, List.getElem?_range' small, Nat.one_mul]
    rfl
  · rw [if_neg small, List.getElem?_eq_none (by simpa using small)]
    rfl

end Chifir.Memory
