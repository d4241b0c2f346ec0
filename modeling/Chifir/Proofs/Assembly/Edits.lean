import Mathlib.Logic.Relation
import Chifir.Proofs.Assembly.Items
import Chifir.Proofs.Text.LetterCase

/-!
# The layout of a source

A program means the same however its source is laid out. A step from one layout to another is an
`Edit`: a `LineEdit` of one line, an empty line more or less, or a label that gets a line of its
own.

1. `LineEdit.itemsOfLine_eq`: an edited line has the same items.
2. `Edit.items_eq`: so has an edited source.
3. `edits_keep`: sources with edits between them are accepted alike, with the same words, labels and
   next address.
-/

namespace Chifir

open Text Assembly

namespace Assembly

/-! ## Edits -/

/-- A text of blanks. -/
def IsGap (gap : List Char) : Prop := ∀ c ∈ gap, isBlank c = true

-- not by inference, which may look at every character that there is
instance (gap : List Char) : Decidable (IsGap gap) :=
  decidable_of_iff (gap.all isBlank = true) (by simp [IsGap])

/-- Nothing, or a comment: whatever it says behind its semicolon. -/
def IsComment (comment : List Char) : Prop := comment.head?.all (· == ';') = true

instance (comment : List Char) : Decidable (IsComment comment) :=
  inferInstanceAs (Decidable (_ = _))

/-- What stands before the mnemonic of a line: blanks, or a token with a colon and blanks behind it.
-/
structure IsHeading (heading : List Char) : Prop where
  plain : ';' ∉ heading
  ends : heading.getLast?.all isBlank = true
  few : (Text.words heading).length ≤ 1
  marked : ∀ token ∈ Text.words heading, token.getLast? = some ':'

/-- A mnemonic is a token without a colon at its end. -/
structure IsMnemonic (mnemonic : List Char) : Prop where
  solid : IsSolid mnemonic
  plain : ';' ∉ mnemonic
  unmarked : mnemonic.getLast? ≠ some ':'

/-- Another layout of the same line. The blanks of a comment are part of the comment. -/
inductive LineEdit : List Char → List Char → Prop
  /-- A comment is replaced, put to the line or dropped. -/
  | comment {code comment comment' : List Char} (plain : ';' ∉ code) (before : IsComment comment)
      (after : IsComment comment') : LineEdit (code ++ comment) (code ++ comment')
  /-- Other blanks between tokens. -/
  | between {left gap gap' right : List Char} (plain : ';' ∉ left) (wide : gap ≠ [])
      (before : IsGap gap) (wide' : gap' ≠ []) (after : IsGap gap') :
      LineEdit (left ++ (gap ++ right)) (left ++ (gap' ++ right))
  /-- Other blanks at the start of the line, or none. -/
  | start {gap gap' rest : List Char} (before : IsGap gap) (after : IsGap gap') :
      LineEdit (gap ++ rest) (gap' ++ rest)
  /-- Other blanks at the end of the line, or none; a comment may follow them. -/
  | stop {code gap gap' comment : List Char} (plain : ';' ∉ code) (before : IsGap gap)
      (after : IsGap gap') (rest : IsComment comment) :
      LineEdit (code ++ (gap ++ comment)) (code ++ (gap' ++ comment))
  /-- Capital letters of the mnemonic for small ones, or small ones for capitals. -/
  | letters {heading mnemonic mnemonic' rest : List Char} (before : IsHeading heading)
      (word : IsMnemonic mnemonic) (same : SameLetters mnemonic mnemonic')
      (after : rest.head?.all (fun c => isBlank c || c == ';') = true) :
      LineEdit (heading ++ (mnemonic ++ rest)) (heading ++ (mnemonic' ++ rest))

/-- What ends a line. -/
inductive IsLineEnd : List Char → Prop
  | single {c : Char} (ends : isBreak c = true) : IsLineEnd [c]
  | pair : IsLineEnd ['\r', '\n']

def OpensLine (before : List Char) : Prop := before.getLast?.all isBreak = true

instance (before : List Char) : Decidable (OpensLine before) := inferInstanceAs (Decidable (_ = _))

def ClosesLine (after : List Char) : Prop := after.head?.all isBreak = true

instance (after : List Char) : Decidable (ClosesLine after) := inferInstanceAs (Decidable (_ = _))

/-- Another layout of the same source. An instruction has one label on its line at most: a token
with a colon that is not the first one is no mnemonic, so a line that has a label cannot take in
that of the line above it. -/
inductive Edit : List Char → List Char → Prop
  /-- One line is edited; no line break comes or goes. -/
  | line {before line line' after : List Char} (opens : OpensLine before)
      (edit : LineEdit line line') (row : IsRow line) (row' : IsRow line')
      (closes : ClosesLine after) :
      Edit (before ++ (line ++ after)) (before ++ (line' ++ after))
  /-- A line without code is put above a line. -/
  | above {before gap comment lineEnd after : List Char} (opens : OpensLine before)
      (blank : IsGap gap) (rest : IsComment comment) (row : IsRow (gap ++ comment))
      (ends : IsLineEnd lineEnd) :
      Edit (before ++ after) (before ++ (gap ++ comment ++ (lineEnd ++ after)))
  /-- A line without code is put below a line. -/
  | below {before gap comment lineEnd after : List Char} (ends : IsLineEnd lineEnd)
      (blank : IsGap gap) (rest : IsComment comment) (row : IsRow (gap ++ comment))
      (closes : ClosesLine after) :
      Edit (before ++ after) (before ++ (lineEnd ++ (gap ++ comment ++ after)))
  /-- A label leaves the line of its instruction for a line of its own just above. -/
  | label {before label token gap lineEnd line mnemonic after : List Char}
      {operands : List (List Char)} (opens : OpensLine before) (row : IsRow label)
      (plain : ';' ∉ label) (alone : Text.words label = [token])
      (marked : token.getLast? = some ':') (wide : gap ≠ []) (blank : IsGap gap)
      (inside : IsRow gap) (row' : IsRow line)
      (instruction : Statement.tokensOf line = mnemonic :: operands)
      (unmarked : mnemonic.getLast? ≠ some ':') (ends : IsLineEnd lineEnd)
      (closes : ClosesLine after) :
      Edit (before ++ (label ++ (gap ++ line) ++ after))
        (before ++ (label ++ (lineEnd ++ line) ++ after))

/-! ## Edited lines -/

section Lines
variable {code comment rest : List Char}

theorem tokensOf_append (plain : ';' ∉ code) (rest : List Char) :
    Statement.tokensOf (code ++ rest) = Text.words (code ++ rest.takeWhile (· != ';')) := by
  rw [Statement.tokensOf, List.takeWhile_append_of_pos]
  intro c mem
  simpa using ne_of_mem_of_not_mem mem plain

/-- A comment has no tokens. -/
theorem tokensOf_code (plain : ';' ∉ code) (none : IsComment comment) :
    Statement.tokensOf (code ++ comment) = Text.words code := by
  have stop : comment.takeWhile (· != ';') = [] := by
    cases comment with
    | nil => rfl
    | cons c comment =>
      have first : c = ';' := by simpa [IsComment] using none
      rw [first]
      rfl
  rw [tokensOf_append plain, stop, List.append_nil]

theorem IsGap.plain {gap : List Char} (blank : IsGap gap) : ';' ∉ gap := by
  intro mem
  cases blank ';' mem

theorem IsGap.ends {gap : List Char} (blank : IsGap gap) (wide : gap ≠ []) (left : List Char) :
    ∀ c, (left ++ gap).getLast? = some c → isBlank c = true := by
  intro c last
  rw [List.getLast?_append_of_ne_nil _ wide] at last
  exact blank c (List.mem_of_mem_getLast? last)

/-- Blanks behind a text cut it off from what follows. -/
theorem tokensOf_between {left gap : List Char} (plain : ';' ∉ left) (wide : gap ≠ [])
    (blank : IsGap gap) :
    Statement.tokensOf (left ++ (gap ++ rest)) = Text.words left ++ Statement.tokensOf rest := by
  have plain' : ';' ∉ left ++ gap := by simp [plain, blank.plain]
  rw [← List.append_assoc, tokensOf_append plain', words_append (blank.ends wide left),
    words_append_blank left blank]
  rfl

theorem tokensOf_mnemonic {heading mnemonic : List Char} (before : IsHeading heading)
    (solid : IsSolid mnemonic) (plain : ';' ∉ mnemonic)
    (after : rest.head?.all (fun c => isBlank c || c == ';') = true) :
    Statement.tokensOf (heading ++ (mnemonic ++ rest)) = Text.words heading ++ mnemonic ::
      Statement.tokensOf rest := by
  have plain' : ';' ∉ heading ++ mnemonic := by simp [before.plain, plain]
  have ends : ∀ c, heading.getLast? = some c → isBlank c = true := by
    intro c last
    have blank := before.ends
    rwa [last] at blank
  have apart : ∀ c, (rest.takeWhile (· != ';')).head? = some c → isBlank c = true := by
    intro c first
    cases rest with
    | nil => cases first
    | cons c' rest =>
      by_cases stop : c' = ';'
      · simp [stop] at first
      · rw [List.takeWhile_cons_of_pos (by simpa using stop)] at first
        cases first
        simpa [stop] using after
  have own : IsSplit ([] ++ (mnemonic ++ rest.takeWhile (· != ';')))
      (mnemonic :: Text.words (rest.takeWhile (· != ';'))) :=
    .word (by simp) solid.1 solid.2 apart (isSplit_words _)
  rw [← List.append_assoc, tokensOf_append plain', List.append_assoc, words_append ends]
  exact congrArg _ (words_of_isSplit own)

end Lines

/-- Where labels stand before a mnemonic, the line has an item for the label and one for the rest.
-/
theorem itemsOfTokens_append {labels : List (List Char)} {mnemonic : List Char}
    (few : labels.length ≤ 1) (marked : ∀ token ∈ labels, token.getLast? = some ':')
    (unmarked : mnemonic.getLast? ≠ some ':') (operands : List (List Char)) :
    itemsOfTokens ((labels ++ mnemonic :: operands).map String.ofList) =
      labels.map (.ofLabel ∘ String.ofList) ++
        [.ofInstruction (String.ofList mnemonic) (operands.map String.ofList)] := by
  cases labels with
  | nil =>
    have bare : ¬ IsMarked (String.ofList mnemonic) := by rwa [IsMarked, String.toList_ofList]
    exact if_neg bare
  | cons label labels =>
    obtain rfl : labels = [] :=
      List.length_eq_zero_iff.1 (Nat.le_zero.1 (Nat.le_of_succ_le_succ few))
    have claims : IsMarked (String.ofList label) := by
      rw [IsMarked, String.toList_ofList]
      exact marked label List.mem_cons_self
    exact if_pos claims

theorem read?_congr {mnemonic mnemonic' : String} (same : lowered mnemonic = lowered mnemonic') :
    Operation.read? mnemonic = Operation.read? mnemonic' := by
  rw [Operation.read?, Operation.read?, same]

/-- The number of instructions does not depend on how the mnemonic is written, which only errors
name. -/
theorem ofInstruction_congr {mnemonic mnemonic' : String}
    (same : lowered mnemonic = lowered mnemonic') (operands : List String) :
    Item.ofInstruction mnemonic operands = Item.ofInstruction mnemonic' operands := by
  unfold Item.ofInstruction
  rw [read?_congr same]
  cases Operation.read? mnemonic' with
  | none => rfl
  | some operation =>
    have alike (size : Nat) : operation.size mnemonic operands.length = .ok size ↔
        operation.size mnemonic' operands.length = .ok size := by
      rw [Operation.size_eq_ok, Operation.size_eq_ok]
    dsimp only
    cases counted : operation.size mnemonic operands.length with
    | ok size => rw [(alike size).1 counted]
    | error defect =>
      cases counted' : operation.size mnemonic' operands.length with
      | ok size =>
        rw [(alike size).2 counted'] at counted
        cases counted
      | error defect' => rfl

/-- An edited line has the same `itemsOfLine`, since its tokens differ in letter case at most. -/
theorem LineEdit.itemsOfLine_eq {line line' : List Char} (edit : LineEdit line line') :
    itemsOfLine line = itemsOfLine line' := by
  unfold itemsOfLine
  cases edit with
  | comment plain before after => rw [tokensOf_code plain before, tokensOf_code plain after]
  | between plain wide before wide' after =>
    rw [tokensOf_between plain wide before, tokensOf_between plain wide' after]
  | start before after =>
    rw [tokensOf_append before.plain, tokensOf_append after.plain, words_blank_append before,
      words_blank_append after]
  | @stop code gap gap' comment plain before after rest =>
    have trailing {gap : List Char} (blank : IsGap gap) :
        Statement.tokensOf (code ++ (gap ++ comment)) = Text.words code := by
      rw [← List.append_assoc, tokensOf_code (by simp [plain, blank.plain]) rest,
        words_append_blank code blank]
    rw [trailing before, trailing after]
  | letters before word same after =>
    have plain : ';' ∉ _ := fun mem => word.plain ((same.mem_iff (by decide)).2 mem)
    have unmarked : _ ≠ some ':' :=
      fun last => word.unmarked ((same.getLast?_iff (by decide)).2 last)
    rw [tokensOf_mnemonic before word.solid word.plain after,
      tokensOf_mnemonic before (same.isSolid word.solid) plain after,
      itemsOfTokens_append before.few before.marked word.unmarked,
      itemsOfTokens_append before.few before.marked unmarked, ofInstruction_congr
      (lowered_congr same)]

/-! ## Edited sources -/

theorem items_nil : items [] = [] := by decide +kernel

theorem items_opened {before : List Char} (opens : OpensLine before) (rest : List Char) :
    items (before ++ rest) = items before ++ items rest := by
  rcases before.eq_nil_or_concat with rfl | ⟨front, c, rfl⟩
  · rw [items_nil]
    rfl
  · have ends : isBreak c = true := by simpa [OpensLine] using opens
    rw [List.concat_eq_append, List.append_assoc, List.singleton_append, items_append front ends,
      items_append front ends, items_nil, List.append_nil]

theorem items_closed {after : List Char} (closes : ClosesLine after) (rest : List Char) :
    items (rest ++ after) = items rest ++ items after := by
  cases after with
  | nil => rw [items_nil, List.append_nil, List.append_nil]
  | cons c after =>
    have ends : isBreak c = true := closes
    have alone := items_append [] ends after
    rw [items_append rest ends, ← List.nil_append (c :: after), alone, items_nil]
    rfl

theorem items_lineEnd {lineEnd : List Char} (ends : IsLineEnd lineEnd) (before after : List Char) :
    items (before ++ (lineEnd ++ after)) = items before ++ items after := by
  cases ends with
  | single ends => exact items_append before ends after
  | pair =>
    have second := items_append [] (c := '\n') (by decide) after
    rw [items_nil] at second
    have first := items_append before (c := '\r') (by decide) ('\n' :: after)
    exact first.trans (congrArg _ second)

theorem items_bare {gap comment : List Char} (blank : IsGap gap) (rest : IsComment comment)
    (row : IsRow (gap ++ comment)) : items (gap ++ comment) = [] := by
  rw [items_row row, itemsOfLine, tokensOf_code blank.plain rest, words_eq_nil.2 blank]
  rfl

/-- A label and its instruction have the same items on one line as on two. -/
theorem items_label {label token gap line mnemonic : List Char} {operands : List (List Char)}
    (row : IsRow label) (plain : ';' ∉ label) (alone : Text.words label = [token])
    (marked : token.getLast? = some ':') (wide : gap ≠ []) (blank : IsGap gap) (inside : IsRow gap)
    (row' : IsRow line) (instruction : Statement.tokensOf line = mnemonic :: operands)
    (unmarked : mnemonic.getLast? ≠ some ':') :
    items (label ++ (gap ++ line)) = items label ++ items line := by
  have whole : IsRow (label ++ (gap ++ line)) :=
    List.forall_mem_append.2 ⟨row, List.forall_mem_append.2 ⟨inside, row'⟩⟩
  have first : itemsOfLine label = [.ofLabel (String.ofList token)] := by
    have claims : IsMarked (String.ofList token) := by rwa [IsMarked, String.toList_ofList]
    have bare := @tokensOf_code label [] plain rfl
    rw [List.append_nil, alone] at bare
    rw [itemsOfLine, bare]
    exact if_pos claims
  have second := @itemsOfTokens_append [] mnemonic (by decide) (by simp) unmarked operands
  have both :=
    @itemsOfTokens_append [token] mnemonic (Nat.le_refl 1) (by simpa using marked) unmarked operands
  rw [items_row whole, items_row row, items_row row', first, itemsOfLine, itemsOfLine,
    tokensOf_between plain wide blank, alone, instruction, both]
  exact congrArg _ second.symm

/-- An edited source has the same `items`, and so it is built to the same. -/
theorem Edit.items_eq {source source' : List Char} (edit : Edit source source') :
    items source = items source' := by
  cases edit with
  | line opens edit row row' closes =>
    rw [items_opened opens, items_opened opens, items_closed closes, items_closed closes,
      items_row row, items_row row', edit.itemsOfLine_eq]
  | above opens blank rest row ends =>
    rw [items_opened opens, items_opened opens, items_lineEnd ends, items_bare blank rest row]
    rfl
  | below ends blank rest row closes =>
    rw [items_lineEnd ends, items_closed closes, items_closed closes, items_bare blank rest row]
    rfl
  | label opens row plain alone marked wide blank inside row' instruction unmarked ends closes =>
    rw [items_opened opens, items_opened opens, items_closed closes, items_closed closes,
      items_label row plain alone marked wide blank inside row' instruction unmarked,
      items_lineEnd ends]

theorem items_eq_of_edits {source source' : List Char}
    (edits : Relation.EqvGen Edit source source') :
    items source = items source' := by
  induction edits with
  | rel _ _ edit => exact edit.items_eq
  | refl => rfl
  | symm _ _ _ ih => exact ih.symm
  | trans _ _ _ _ _ first second => exact first.trans second

/-- Sources with the same `items` are accepted alike, with the same words, labels and next address.
-/
theorem accepted_of_items_eq {s s' : String} (same : items s.toList = items s'.toList)
    {words : List Word} (accepted : assemble s = .ok words) :
    assemble s' = .ok words ∧ (Assembly.ofSource s').symbols = (Assembly.ofSource s).symbols ∧
      (Assembly.ofSource s').pc = (Assembly.ofSource s).pc := by
  have product := product?_eq_some (p := ⟨words, _, _⟩).2 ⟨accepted, rfl, rfl⟩
  rw [product?_ofSource, same, ← product?_ofSource] at product
  exact product?_eq_some.1 product

end Assembly

/-- A source is accepted exactly if it is with another layout, and then its words, its labels and
its next address are the same. -/
theorem edits_keep {s s' : String} (edits : Relation.EqvGen Edit s.toList s'.toList) :
    ((∃ words, assemble s = .ok words) ↔ ∃ words, assemble s' = .ok words) ∧
      ∀ words, assemble s = .ok words → assemble s' = .ok words ∧
        (Assembly.ofSource s').symbols = (Assembly.ofSource s).symbols ∧
        (Assembly.ofSource s').pc = (Assembly.ofSource s).pc := by
  have same := items_eq_of_edits edits
  refine ⟨⟨?_, ?_⟩, fun words accepted => accepted_of_items_eq same accepted⟩
  · rintro ⟨words, accepted⟩
    exact ⟨words, (accepted_of_items_eq same accepted).1⟩
  · rintro ⟨words, accepted⟩
    exact ⟨words, (accepted_of_items_eq same.symm accepted).1⟩

/-- A comment is put above a line and another is changed, the label leaves its line, and what is
left of that gets other blanks and letters. -/
theorem edits_keep_loop :
    let s := "loop: nop\njmp loop ; again"
    let s' := "; start\r\nloop:\n\tnOP\u2003\njmp\u00a0 loop ;; a:"
    Relation.EqvGen Edit s.toList s'.toList ∧ assemble s = .ok [16, 0, 0, 0, 1, 7, 0, 0] ∧
      assemble s' = .ok [16, 0, 0, 0, 1, 7, 0, 0] ∧
      (Assembly.ofSource s').symbols = (Assembly.ofSource s).symbols ∧
      (Assembly.ofSource s').pc = (Assembly.ofSource s).pc := by
  intro s s'
  have step {x y : String} {a b : List Char} (edit : Edit a b) (texts : x.toList = a ∧
    y.toList = b) :
      Relation.EqvGen Edit x.toList y.toList := by
    rw [texts.1, texts.2]
    exact .rel a b edit
  have onLine (before after : String) {x y : String} {line line' : List Char}
    (edit : LineEdit line line')
      (around : OpensLine before.toList ∧ ClosesLine after.toList) (rows : IsRow line ∧ IsRow line')
      (texts : x.toList = before.toList ++ (line ++ after.toList) ∧
        y.toList = before.toList ++ (line' ++ after.toList)) :
      Relation.EqvGen Edit x.toList y.toList :=
    step (.line around.1 edit rows.1 rows.2 around.2) texts
  have label : Relation.EqvGen Edit s.toList "loop:\nnop\njmp loop ; again".toList :=
    step (@Edit.label [] "loop:".toList "loop:".toList [' '] ['\n'] "nop".toList "nop".toList
      "\njmp loop ; again".toList []
      (by decide) (by decide +kernel) (by decide) (by decide +kernel) (by decide) (by decide)
      (by decide) (by decide +kernel) (by decide +kernel) (by decide +kernel) (by decide)
      (.single rfl) (by decide)) (by decide)
  have indent : Relation.EqvGen Edit "loop:\nnop\njmp loop ; again".toList
      "loop:\n\tnop\njmp loop ; again".toList :=
    onLine "loop:\n" "\njmp loop ; again"
      (@LineEdit.start [] ['\t'] "nop".toList (by decide) (by decide))
      (by decide) (by decide +kernel) (by decide)
  have letters : Relation.EqvGen Edit "loop:\n\tnop\njmp loop ; again".toList
      "loop:\n\tnOP\njmp loop ; again".toList :=
    onLine "loop:\n" "\njmp loop ; again"
      (@LineEdit.letters ['\t'] "nop".toList "nOP".toList [] (by constructor <;> decide +kernel)
        (by constructor <;> decide +kernel) (by decide) (by decide))
      (by decide) (by decide +kernel) (by decide)
  have trailing : Relation.EqvGen Edit "loop:\n\tnOP\njmp loop ; again".toList
      "loop:\n\tnOP\u2003\njmp loop ; again".toList :=
    onLine "loop:\n" "\njmp loop ; again"
      (@LineEdit.stop "\tnOP".toList [] ['\u2003'] []
        (by decide) (by decide) (by decide) (by decide))
      (by decide) (by decide +kernel) (by decide)
  have between : Relation.EqvGen Edit "loop:\n\tnOP\u2003\njmp loop ; again".toList
      "loop:\n\tnOP\u2003\njmp\u00a0 loop ; again".toList :=
    onLine "loop:\n\tnOP\u2003\n" ""
      (@LineEdit.between "jmp".toList [' '] ['\u00a0', ' '] "loop ; again".toList
        (by decide) (by decide) (by decide) (by decide) (by decide))
      (by decide) (by decide +kernel) (by decide)
  have comment : Relation.EqvGen Edit "loop:\n\tnOP\u2003\njmp\u00a0 loop ; again".toList
      "loop:\n\tnOP\u2003\njmp\u00a0 loop ;; a:".toList :=
    onLine "loop:\n\tnOP\u2003\n" ""
      (@LineEdit.comment "jmp\u00a0 loop ".toList "; again".toList ";; a:".toList
        (by decide) (by decide) (by decide))
      (by decide) (by decide +kernel) (by decide)
  have above : Relation.EqvGen Edit "loop:\n\tnOP\u2003\njmp\u00a0 loop ;; a:".toList s'.toList :=
    step (@Edit.above [] [] "; start".toList _ "loop:\n\tnOP\u2003\njmp\u00a0 loop ;; a:".toList
        (by decide) (by decide) (by decide) (by decide +kernel) .pair) (by decide)
  have edits : Relation.EqvGen Edit s.toList s'.toList :=
    (((((label.trans _ _ _ indent).trans _ _ _ letters).trans _ _ _ trailing).trans _ _ _
      between).trans _ _ _ comment).trans _ _ _ above
  have accepted : assemble s = .ok [16, 0, 0, 0, 1, 7, 0, 0] := by decide +kernel
  exact ⟨edits, accepted, (edits_keep edits).2 _ accepted⟩

/-- A label cannot leave its line for that of another label. -/
example : assemble "a:\nb: nop" = .ok [16, 0, 0, 0] ∧
    assemble "a: b: nop" = .error ⟨1, "a: b: nop", .unknownMnemonic "b:"⟩ := by
  decide +kernel

end Chifir
