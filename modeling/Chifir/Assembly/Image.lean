import Chifir.Assembly.Emission

/-!
# Images

An image file holds words as four bytes each, the lowest first. Only lengths divisible by four are
images.

`Image.decode` takes exactly what `Image.encode` gives (`decode_eq_ok`), so each list of words has
one image.
-/

namespace Chifir.Image

/-- The four bytes of a word, the lowest first. -/
def bytesOf (w : Word) : List UInt8 :=
  let n := w.toNat
  [UInt8.ofNat n, UInt8.ofNat (n / 0x100), UInt8.ofNat (n / 0x10000), UInt8.ofNat (n / 0x1000000)]

/-- The word of four bytes, the lowest first. -/
def wordOf (a b c d : UInt8) : Word :=
  UInt32.ofNat (a.toNat + 0x100 * b.toNat + 0x10000 * c.toNat + 0x1000000 * d.toNat)

/-- The bytes of an image: those of `bytesOf` for each word. -/
def encode (words : List Word) : List UInt8 := words.flatMap bytesOf

/-- A number of bytes that is no image. -/
structure LengthError where
  length : Nat
deriving DecidableEq, Repr

def LengthError.message (e : LengthError) : String :=
  s!"Binary image length {e.length} is not a multiple of 4"

/-- The words of whole groups of four bytes; what is left over is dropped. -/
def wordsOf : List UInt8 → List Word
  | a :: b :: c :: d :: r => wordOf a b c d :: wordsOf r
  | _ => []

/-- The words of an image, or a `LengthError` if a byte is left over. -/
def decode (bytes : List UInt8) : Except LengthError (List Word) :=
  if bytes.length % 4 = 0 then .ok (wordsOf bytes) else .error ⟨bytes.length⟩

theorem wordsOf_bytesOf_append (w : Word) (r : List UInt8) :
    wordsOf (bytesOf w ++ r) = w :: wordsOf r := by
  have hw := w.toNat_lt
  simp only [bytesOf, List.cons_append, List.nil_append, wordsOf, List.cons.injEq, and_true]
  apply UInt32.toNat_inj.1
  simp only [wordOf, UInt32.toNat_ofNat', UInt8.toNat_ofNat']
  omega

theorem wordsOf_encode (words : List Word) : wordsOf (encode words) = words := by
  induction words with
  | nil => rfl
  | cons w ws ih => rw [encode, List.flatMap_cons, wordsOf_bytesOf_append, ← encode, ih]

theorem length_encode (words : List Word) : (encode words).length = 4 * words.length := by
  induction words with
  | nil => rfl
  | cons w ws ih =>
    rw [encode, List.flatMap_cons, ← encode, List.length_append, ih]
    simp [bytesOf]
    omega

/-- Decoding what `encode` makes of words gives the words. -/
theorem decode_encode (words : List Word) : decode (encode words) = .ok words := by
  rw [decode, length_encode, if_pos (by omega), wordsOf_encode]

theorem bytesOf_wordOf (a b c d : UInt8) : bytesOf (wordOf a b c d) = [a, b, c, d] := by
  have ha := a.toNat_lt
  have hb := b.toNat_lt
  have hc := c.toNat_lt
  have hd := d.toNat_lt
  simp only [bytesOf, wordOf, List.cons.injEq, and_true]
  refine ⟨?_, ?_, ?_, ?_⟩ <;> apply UInt8.toNat_inj.1 <;>
    simp only [UInt8.toNat_ofNat', UInt32.toNat_ofNat'] <;> omega

theorem encode_wordsOf {bytes : List UInt8} (h : bytes.length % 4 = 0) :
    encode (wordsOf bytes) = bytes := by
  fun_induction wordsOf bytes with
  | case1 a b c d r ih =>
    rw [encode, List.flatMap_cons, bytesOf_wordOf, ← encode, ih (by simp at h; omega)]
    rfl
  | case2 bytes hr =>
    match bytes with
    | [] => rfl
    | [_] => simp at h
    | [_, _] => simp at h
    | [_, _, _] => simp at h
    | a :: b :: c :: d :: r => exact absurd rfl (hr a b c d r)

/-- Exactly what `encode` gives can be decoded. -/
theorem decode_eq_ok {bytes : List UInt8} {words : List Word} :
    decode bytes = .ok words ↔ bytes = encode words := by
  constructor
  · intro h
    rw [decode] at h
    split at h
    · rename_i hl
      cases h
      exact (encode_wordsOf hl).symm
    · cases h
  · rintro rfl
    exact decode_encode words

end Chifir.Image
