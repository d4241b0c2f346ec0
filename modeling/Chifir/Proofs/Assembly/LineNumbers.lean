import Mathlib.Data.List.Infix
import Chifir.Proofs.Assembly.Language
import Chifir.Proofs.Text.Rows

/-!
# Numbers of lines

`LineBreak` are the eight ways to end a line, and `joined` puts lines together with any of them
between each two.

1. `splitLines_joined`: what is joined is split into the same lines, unless an empty line stands
   between a carriage return and a line feed, which are one break then.
2. `length_splitLines`: every text has one line more than it has breaks.
3. `splitting_inverts_joining`: these are the lines that errors count.
-/

namespace Chifir

namespace Text

/-! ## Breaks -/

/-- The ways to end a line. -/
inductive LineBreak
  | lineFeed
  | carriageReturn
  /-- A carriage return and a line feed. -/
  | both
  | verticalTab
  | formFeed
  | nextLine
  | lineSeparator
  | paragraphSeparator
deriving DecidableEq, Repr

def LineBreak.chars : LineBreak → List Char
  | lineFeed => ['\n']
  | carriageReturn => ['\r']
  | both => ['\r', '\n']
  | verticalTab => ['\x0b']
  | formFeed => ['\x0c']
  | nextLine => ['\u0085']
  | lineSeparator => ['\u2028']
  | paragraphSeparator => ['\u2029']

def IsLine (line : List Char) : Prop := ∀ b : LineBreak, ¬ b.chars <:+: line

theorem exists_lineBreak {c : Char} (ends : isBreak c = true) : ∃ b : LineBreak, b.chars = [c] := by
  have known : c.toNat = 0x0A ∨ c.toNat = 0x0B ∨ c.toNat = 0x0C ∨ c.toNat = 0x0D ∨ c.toNat = 0x85 ∨
      c.toNat = 0x2028 ∨ c.toNat = 0x2029 := by
    simp only [isBreak, Bool.or_eq_true, Bool.and_eq_true, decide_eq_true_eq, beq_iff_eq] at ends
    omega
  have named (x : Char) (same : c.toNat = x.toNat) : c = x := Char.toNat_inj.1 same
  rcases known with n | n | n | n | n | n | n
  · exact ⟨.lineFeed, by rw [named '\n' n]; rfl⟩
  · exact ⟨.verticalTab, by rw [named '\x0b' n]; rfl⟩
  · exact ⟨.formFeed, by rw [named '\x0c' n]; rfl⟩
  · exact ⟨.carriageReturn, by rw [named '\r' n]; rfl⟩
  · exact ⟨.nextLine, by rw [named '\u0085' n]; rfl⟩
  · exact ⟨.lineSeparator, by rw [named '\u2028' n]; rfl⟩
  · exact ⟨.paragraphSeparator, by rw [named '\u2029' n]; rfl⟩

theorem LineBreak.exists_head (b : LineBreak) : ∃ c r, b.chars = c :: r ∧ isBreak c = true := by
  cases b <;> exact ⟨_, _, rfl, by decide⟩

theorem isLine_iff {line : List Char} : IsLine line ↔ IsRow line := by
  constructor
  · intro free c mem
    by_contra ends
    obtain ⟨b, alone⟩ := exists_lineBreak (Bool.eq_true_of_not_eq_false ends)
    refine free b ?_
    rw [alone]
    exact (List.singleton_infix_iff c line).2 mem
  · intro row b within
    obtain ⟨c, r, same, ends⟩ := b.exists_head
    have mem : c ∈ line := within.subset (by rw [same]; exact List.mem_cons_self)
    rw [row c mem] at ends
    cases ends

/-! ## Joining -/

/-- Lines with a break before each but the first. -/
def joined (first : List Char) : List (LineBreak × List Char) → List Char
  | [] => first
  | (b, line) :: rest => first ++ (b.chars ++ joined line rest)

/-- No empty line stands between a carriage return and a line feed. -/
def Apart (rest : List (LineBreak × List Char)) : Prop :=
  rest.IsChain fun x y => ¬ (x.1 = .carriageReturn ∧ x.2 = [] ∧ y.1 = .lineFeed)

/-- A break ends the line, and a carriage return does so alone if no line feed is behind it. -/
theorem splitLinesFrom_break {b : LineBreak} {line r : List Char}
    (alone : b = .carriageReturn → r.head? ≠ some '\n') :
    splitLinesFrom line (b.chars ++ r) = line.reverse :: splitLinesFrom [] r := by
  cases b with
  | both => exact splitLinesFrom.eq_2 line r
  | carriageReturn =>
    show splitLinesFrom line ('\r' :: r) = _
    rw [splitLinesFrom]
    · rfl
    · rintro r' - rfl
      exact alone rfl rfl
  | lineFeed | verticalTab | formFeed | nextLine | lineSeparator | paragraphSeparator =>
    exact splitLinesFrom_of_ne (by decide)

/-- A line feed is the first of what is joined only as a break behind an empty line. -/
theorem head?_joined {b : LineBreak} {line : List Char} {rest : List (LineBreak × List Char)}
    (inside : IsRow line) (apart : Apart ((b, line) :: rest)) (returns : b = .carriageReturn) :
    (joined line rest).head? ≠ some '\n' := by
  intro head
  cases line with
  | cons c line =>
    have first : c = '\n' := by
      cases rest <;> exact Option.some.inj head
    have plain := inside c List.mem_cons_self
    rw [first] at plain
    cases plain
  | nil =>
    cases rest with
    | nil => cases head
    | cons x rest =>
      obtain ⟨b', line'⟩ := x
      have other : b' ≠ .lineFeed :=
        fun feeds => (List.isChain_cons_cons.1 apart).1 ⟨returns, rfl, feeds⟩
      cases b' with
      | lineFeed => exact other rfl
      | carriageReturn | both | verticalTab | formFeed | nextLine | lineSeparator
      | paragraphSeparator => cases head

theorem splitLines_joined {first : List Char} {rest : List (LineBreak × List Char)}
    (inside : IsRow first) (others : ∀ x ∈ rest, IsRow x.2) (apart : Apart rest) :
    splitLines (joined first rest) = first :: rest.map Prod.snd := by
  unfold splitLines
  induction rest generalizing first with
  | nil => exact splitLines_row inside
  | cons x rest ih =>
    obtain ⟨b, line⟩ := x
    obtain ⟨own, others⟩ := List.forall_mem_cons.1 others
    rw [joined, splitLinesFrom_row inside, splitLinesFrom_break (head?_joined own apart),
      List.append_nil, List.reverse_reverse, ih own others (List.IsChain.of_cons apart)]
    rfl

/-! ## Counting -/

/-- How often a line feed is right behind a carriage return. -/
def pairs (s : List Char) : Nat := (s.zip s.tail).count ('\r', '\n')

theorem pairs_cons (c : Char) (r : List Char) :
    pairs (c :: r) = (if c = '\r' ∧ r.head? = some '\n' then 1 else 0) + pairs r := by
  cases r with
  | nil => simp [pairs]
  | cons c' r => simp [pairs, List.count_cons, Nat.add_comm]

theorem length_splitLinesFrom (line s : List Char) :
    (splitLinesFrom line s).length + pairs s = 1 + s.countP isBreak := by
  fun_induction splitLinesFrom line s with
  | case1 line => rfl
  | case2 line r ih =>
    rw [pairs_cons, pairs_cons, if_pos ⟨rfl, rfl⟩, if_neg (by simp),
      List.countP_cons_of_pos (by decide), List.countP_cons_of_pos (by decide), List.length_cons]
    omega
  | case3 line c r pair ends ih =>
    rw [pairs_cons, if_neg, List.countP_cons_of_pos ends, List.length_cons]
    · omega
    · rintro ⟨returns, feeds⟩
      obtain ⟨r', rfl⟩ := List.head?_eq_some_iff.1 feeds
      exact pair r' returns rfl
  | case4 line c r _ plain ih =>
    rw [pairs_cons, if_neg, List.countP_cons_of_neg plain]
    · omega
    · rintro ⟨rfl, -⟩
      exact plain (by decide)

/-- Each break ends a line, and a carriage return and a line feed are counted once if they stand
together (`pairs`). -/
theorem length_splitLines (s : List Char) :
    (splitLines s).length + pairs s = 1 + s.countP isBreak :=
  length_splitLinesFrom [] s

end Text

open Text Assembly

/-- Lines that are joined with breaks of any kind are split into the same lines, if no empty one
stands between a carriage return and a line feed. The lines of every text have no breaks in them,
and there is one more than there are breaks. An error gives the number of its line among them, from
one on, and that line. -/
theorem splitting_inverts_joining :
    (∀ first rest, IsLine first → (∀ x ∈ rest, IsLine x.2) → Apart rest →
      splitLines (joined first rest) = first :: rest.map Prod.snd) ∧
    (∀ s, (∀ line ∈ splitLines s, IsLine line) ∧
      (splitLines s).length + pairs s = 1 + s.countP isBreak) ∧
    ∀ source e, assemble source = .error e →
      ∃ i, e.line = i + 1 ∧ (splitLines source.toList)[i]? = some e.source.toList := by
  refine ⟨fun first rest inside others apart => ?_,
    fun s => ⟨fun line mem => ?_, length_splitLines s⟩, fun source e rejected => ?_⟩
  · exact splitLines_joined (isLine_iff.1 inside) (fun x mem => isLine_iff.1 (others x mem)) apart
  · exact isLine_iff.2 (isRow_of_mem_splitLinesFrom (by simp [IsRow]) mem)
  · obtain ⟨i, blames⟩ := blames_of_assemble rejected
    refine ⟨i, blames.number, ?_⟩
    obtain ⟨line, there, same⟩ :=
      Option.map_eq_some_iff.1 (List.getElem?_map.symm.trans blames.source)
    rw [there, ← same, String.toList_ofList]

/-- A carriage return behind another, an empty line between two line feeds, and a line feed before a
carriage return. The error is in the last line. -/
theorem splitting_inverts_joining_mixed :
    let rest : List (LineBreak × List Char) :=
      [(.carriageReturn, ['n', 'o', 'p']), (.carriageReturn, []), (.both, []), (.lineFeed, []),
        (.carriageReturn, ['x'])]
    joined [] rest = "\rnop\r\r\n\n\rx".toList ∧
      splitLines (joined [] rest) = [] :: rest.map Prod.snd ∧
        assemble "\rnop\r\r\n\n\rx" = .error ⟨6, "x", .unknownMnemonic "x"⟩ ∧
      (splitLines (joined [] rest))[5]? = some ['x'] := by
  intro rest
  obtain ⟨inverts, _, numbers⟩ := splitting_inverts_joining
  have text : joined [] rest = "\rnop\r\r\n\n\rx".toList := by decide
  have inside : ∀ x ∈ rest, IsRow x.2 := by decide
  have apart : Apart rest := by simp [Apart, rest]
  have split :=
    inverts [] rest (isLine_iff.2 (by decide)) (fun x mem => isLine_iff.2 (inside x mem)) apart
  have rejected : assemble "\rnop\r\r\n\n\rx" = .error ⟨6, "x", .unknownMnemonic "x"⟩ := by
    decide +kernel
  obtain ⟨i, number, there⟩ := numbers _ _ rejected
  obtain rfl : i = 5 := by simpa using number.symm
  rw [text] at split ⊢
  exact ⟨rfl, split, rejected, there⟩

end Chifir
