import Chifir.Text.Hexadecimal

/-!
# UTF-8

1. `decode` reads bytes as text and stops at the first sequence that is not well formed.
2. A `Utf8Error` holds the offending bytes and their place; `Utf8Error.message` words it.
3. `decodeLeniently` reads any bytes and puts a mark where a sequence is not well formed.
4. `encode` is the bytes of a text.
-/

namespace Chifir.Text

inductive Utf8Fault
  | startByte
  | continuationByte
  | truncated
deriving DecidableEq, Repr

/-- The bytes from `first` to before `past` are no character; `byte` is the first of them. -/
structure Utf8Error where
  fault : Utf8Fault
  byte : UInt8
  first : Nat
  past : Nat
deriving DecidableEq, Repr

def Utf8Fault.message : Utf8Fault → String
  | startByte => "invalid start byte"
  | continuationByte => "invalid continuation byte"
  | truncated => "unexpected end of data"

def byteHex (b : UInt8) : String := String.ofList (padLeft '0' 2 (hexDigits b.toNat))

/-- The words for a rejected sequence: one byte by its value, several by their places. -/
def Utf8Error.message (e : Utf8Error) : String :=
  if e.past = e.first + 1 then
    s!"'utf-8' codec can't decode byte 0x{byteHex e.byte} in position {e.first}: {e.fault.message}"
  else
    s!"'utf-8' codec can't decode bytes in position {e.first}-{e.past - 1}: {e.fault.message}"

def isContinuation (b : UInt8) : Bool := 0x80 ≤ b && b < 0xC0

/-- Which second bytes may follow a first one: overlong forms, surrogates and numbers past the last
code point are ruled out here. -/
def secondFits (b b₂ : UInt8) : Bool :=
  isContinuation b₂ &&
    (if b == 0xE0 then 0xA0 ≤ b₂
    else if b == 0xED then b₂ < 0xA0
    else if b == 0xF0 then 0x90 ≤ b₂
    else if b == 0xF4 then b₂ < 0x90
    else true)

/-- How many bytes a sequence with this first byte has; 0 if none starts so. -/
def sequenceLength (b : UInt8) : Nat :=
  if b < 0x80 then 1
  else if b < 0xC2 then 0
  else if b < 0xE0 then 2
  else if b < 0xF0 then 3
  else if b < 0xF5 then 4
  else 0

def tailBits (b : UInt8) : Nat := b.toNat % 64

/-- The first character of some bytes and the bytes after it; else the fault and how many bytes it
covers. -/
def decodeChar : List UInt8 → Except (Utf8Fault × Nat) (Option (Char × List UInt8))
  | [] => .ok none
  | b :: r =>
    let char (n : Nat) (rest : List UInt8) := Except.ok (some (Char.ofNat n, rest))
    match sequenceLength b, r with
    | 1, _ => char b.toNat r
    | 2, b₂ :: r₂ =>
      if ! isContinuation b₂ then .error (.continuationByte, 1)
      else char (b.toNat % 32 * 64 + tailBits b₂) r₂
    | 3, b₂ :: r₂ =>
      if ! secondFits b b₂ then .error (.continuationByte, 1)
      else
        match r₂ with
        | [] => .error (.truncated, 2)
        | b₃ :: r₃ =>
          if ! isContinuation b₃ then .error (.continuationByte, 2)
          else char ((b.toNat % 16 * 64 + tailBits b₂) * 64 + tailBits b₃) r₃
    | 4, b₂ :: r₂ =>
      if ! secondFits b b₂ then .error (.continuationByte, 1)
      else
        match r₂ with
        | [] => .error (.truncated, 2)
        | b₃ :: r₃ =>
          if ! isContinuation b₃ then .error (.continuationByte, 2)
          else
            match r₃ with
            | [] => .error (.truncated, 3)
            | b₄ :: r₄ =>
              if ! isContinuation b₄ then .error (.continuationByte, 3)
              else
                char (((b.toNat % 8 * 64 + tailBits b₂) * 64 + tailBits b₃) * 64 + tailBits b₄) r₄
    -- What is left are sequences that end with their first byte.
    | 0, _ => .error (.startByte, 1)
    | _, _ => .error (.truncated, 1)

/-- A decoded character leaves fewer bytes, so `decodeFrom` ends. -/
theorem decodeChar_length {s rest : List UInt8} {c : Char}
    (h : decodeChar s = .ok (some (c, rest))) : rest.length < s.length := by
  unfold decodeChar at h
  repeat' split at h
  all_goals simp_all
  all_goals
    obtain ⟨-, rfl⟩ := h
    omega

/-- Decodes bytes that stand at `position`; `done` are the characters before them, newest first. -/
def decodeFrom (position : Nat) (done : List Char) (s : List UInt8) :
    Except Utf8Error (List Char) :=
  match _h : decodeChar s with
  | .ok none => .ok done.reverse
  | .ok (some (c, rest)) => decodeFrom (position + sequenceLength (s.headD 0)) (c :: done) rest
  | .error (fault, count) => .error ⟨fault, s.headD 0, position, position + count⟩
termination_by s.length
decreasing_by exact decodeChar_length _h

def decode (bytes : List UInt8) : Except Utf8Error String :=
  (decodeFrom 0 [] bytes).map String.ofList

def replacement : Char := '\ufffd'

/-- The text that bytes encode, with a mark for each sequence that is not well formed. -/
def decodeLeniently (bytes : List UInt8) : List Char :=
  match bytes with
  | [] => []
  | b :: r =>
    match _h : decodeChar (b :: r) with
    | .ok none => []
    | .ok (some (c, rest)) => c :: decodeLeniently rest
    | .error (_, count) => replacement :: decodeLeniently (r.drop (count - 1))
termination_by bytes.length
decreasing_by
  · exact decodeChar_length _h
  · simp only [List.length_drop, List.length_cons]
    omega

def encode (s : String) : List UInt8 := s.toUTF8.toList

end Chifir.Text
