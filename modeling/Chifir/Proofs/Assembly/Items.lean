import Chifir.Proofs.Assembly.Reading
import Chifir.Proofs.Text.Rows

/-!
# Sources without lines

Where the lines of a source end, what else stands in them and how they are numbered matters to no
word of the image. The `items` of a source are what is left without that: its labels and its
instructions, in order.

1. `items_append`: a break between two texts puts their items together, whatever the texts end and
   start with.
2. `walk` and `encodeAll` are the two walks over items, and `build` is both of them.
3. `product?_ofSource`: assembling a source builds its items. So sources with the same items come to
   the same.
-/

namespace Chifir

open Text

namespace Assembly

/-! ## Items -/

/-- A piece of a line: a label, an instruction with its `size`, or a `defect`, which no source can
have. -/
inductive Item
  | label (name : String)
  | instruction (operation : Operation) (size : Nat) (operands : List String)
  /-- What is wrong in itself, whatever stands in other lines. -/
  | defect
deriving DecidableEq

def Item.ofLabel (token : String) : Item :=
  let name := token.toList.dropLast
  if isName name then .label (String.ofList name) else .defect

def Item.ofInstruction (mnemonic : String) (operands : List String) : Item :=
  match Operation.read? mnemonic with
  | none => .defect
  | some operation =>
    match operation.size mnemonic operands.length, operands.forM checkOperand with
    | .ok size, .ok () => .instruction operation size operands
    | _, _ => .defect

def itemsOfBody : List String → List Item
  | [] => []
  | mnemonic :: operands => [.ofInstruction mnemonic operands]

def itemsOfTokens : List String → List Item
  | [] => []
  | token :: rest =>
      if IsMarked token then .ofLabel token :: itemsOfBody rest else itemsOfBody (token :: rest)

def itemsOfLine (line : List Char) : List Item :=
  itemsOfTokens ((Statement.tokensOf line).map String.ofList)

/-- The items of a source: those of its lines (`itemsOfLine`), one after another. -/
def items (source : List Char) : List Item := (splitLines source).flatMap itemsOfLine

theorem items_toList (source : String) :
    items source.toList = (linesOf source).flatMap fun line => itemsOfTokens (tokens line) := by
  rw [items, linesOf, List.flatMap_map]
  simp only [tokens, String.toList_ofList]
  rfl

theorem itemsOfLine_nil : itemsOfLine [] = [] := by decide +kernel

/-- A break between two texts puts their items together. If the first ends in a carriage return and
the break is a line feed, the two are one break, and all that is missing is an empty line. -/
theorem items_append (before : List Char) {c : Char} (ends : isBreak c = true) (after : List Char) :
    items (before ++ c :: after) = items before ++ items after :=
  flatMap_splitLines_append itemsOfLine_nil before ends after

theorem items_row {row : List Char} (inside : IsRow row) : items row = itemsOfLine row := by
  rw [items, splitLines_row inside, List.flatMap_singleton]

/-! ## The first walk -/

structure Code where
  address : Word
  operation : Operation
  size : Nat
  operands : List String

/-- What the first walk finds out: the instructions with their addresses, the labels, and the next
address. -/
structure Outline where
  codes : List Code
  symbols : Symbols
  pc : Word

/-- Gives addresses to instructions and labels. Only a label that is there already stops it, or a
defect. -/
def walk (symbols : Symbols) (pc : Word) : List Item → Option Outline
  | [] => some ⟨[], symbols, pc⟩
  | .label name :: rest =>
    match symbols.lookup name with
    | some _ => none
    | none => walk ((name, pc) :: symbols) pc rest
  | .instruction operation size operands :: rest =>
    (walk symbols (pc + 4 * UInt32.ofNat size) rest).map fun o =>
      { o with codes := ⟨pc, operation, size, operands⟩ :: o.codes }
  | .defect :: _ => none

theorem walk_append (symbols : Symbols) (pc : Word) (first second : List Item) :
    walk symbols pc (first ++ second) =
      (walk symbols pc first).bind fun o => (walk o.symbols o.pc second).map fun o' =>
        { o' with codes := o.codes ++ o'.codes } := by
  induction first generalizing symbols pc with
  | nil => simp [walk]
  | cons item first ih =>
    cases item with
    | label name =>
      rw [List.cons_append, walk, walk]
      cases symbols.lookup name with
      | some _ => rfl
      | none => exact ih _ _
    | instruction operation size operands =>
      rw [List.cons_append, walk, walk, ih, Option.map_bind, Option.bind_map]
      simp only [Function.comp_def, Option.map_map]
      rfl
    | defect => rfl

/-! ## The second walk -/

def Code.encode (symbols : Symbols) (c : Code) : Option (List Word) :=
  (c.operands.mapM (symbols.value c.address) >>= c.operation.encode c.address).toOption.map
    fun quads => quads.flatMap Quad.toList

def encodeAll (symbols : Symbols) : List Code → Option (List Word)
  | [] => some []
  | c :: rest => (c.encode symbols).bind fun own => (encodeAll symbols rest).map (own ++ ·)

theorem encodeAll_append (symbols : Symbols) (first second : List Code) :
    encodeAll symbols (first ++ second) =
      (encodeAll symbols first).bind fun own => (encodeAll symbols second).map (own ++ ·) := by
  induction first with
  | nil => simp [encodeAll]
  | cons c first ih =>
    rw [List.cons_append, encodeAll, encodeAll, ih, Option.bind_assoc]
    simp only [Option.map_bind, Option.bind_map, Function.comp_def, Option.map_map,
      List.append_assoc]

/-- What comes of a source that is accepted. -/
structure Product where
  words : List Word
  symbols : Symbols
  pc : Word

/-- What comes of items: `walk` binds the labels, and `encodeAll` encodes the instructions. -/
def build (items : List Item) : Option Product :=
  (walk [] 0 items).bind fun o => (encodeAll o.symbols o.codes).map (⟨·, o.symbols, o.pc⟩)

/-! ## Lines -/

def Statement.items (s : Statement) : List Item :=
  s.label.toList.map .label ++ s.mnemonic.toList.map fun mnemonic =>
    .ofInstruction mnemonic s.operands

theorem Statement.items_withTokens {s : Statement} (bare : s.mnemonic = none)
    (body : List (List Char)) :
    (s.withTokens body).items = s.label.toList.map .label ++ itemsOfBody
    (body.map String.ofList) := by
  cases body with
  | nil => rw [withTokens, items, bare]; rfl
  | cons mnemonic operands => rfl

/-- A statement has the items of its line, and a line that is none starts with a defect. -/
theorem items_of_parse (number : Nat) (line : String) :
    match Statement.parse number line with
    | .ok s => itemsOfTokens (tokens line) = s.items
    | .error _ => ∃ rest, itemsOfTokens (tokens line) = .defect :: rest := by
  unfold Statement.parse tokens
  cases taken : Statement.tokensOf line.toList with
  | nil =>
    simp only [taken]
    rfl
  | cons token rest =>
    rw [List.map_cons, itemsOfTokens]
    cases marked : Statement.labelOf? token with
    | none =>
      have bare : ¬ IsMarked (String.ofList token) := by simp [isMarked_iff, marked]
      simp only [taken, marked]
      rw [if_neg bare, Statement.items_withTokens rfl]
      rfl
    | some name =>
      simp only [taken, marked]
      rw [if_pos (isMarked_iff.2 ⟨name, marked⟩), Item.ofLabel, String.toList_ofList,
        labelOf?_eq_some.1 marked, List.dropLast_concat]
      by_cases good : isName name = true
      · simp only [if_pos good]
        rw [Statement.items_withTokens rfl]
        rfl
      · simp only [if_neg good]
        exact ⟨_, rfl⟩

def Placed.codes (p : Placed) : List Code :=
  match p.statement.mnemonic.bind Operation.read? with
  | none => []
  | some operation => [⟨p.address, operation, p.size, p.statement.operands⟩]

theorem walk_label (s : Statement) (symbols : Symbols) (pc : Word) (rest : List Item) :
    walk symbols pc (s.label.toList.map .label ++ rest) =
      match s.bind symbols pc with
      | .error _ => none
      | .ok bound => walk bound pc rest := by
  unfold Statement.bind
  cases s.label with
  | none => rfl
  | some name =>
    rw [Option.toList_some, List.map_singleton, List.singleton_append, walk]
    dsimp only
    cases symbols.lookup name with
    | some address => rfl
    | none => rfl

/-- The first walk takes a line as its `items`. -/
theorem walk_items (s : Statement) (symbols : Symbols) (pc : Word) (rest : List Item) :
    walk symbols pc (s.items ++ rest) =
      match (s.place symbols pc).error with
      | some _ => none
      | none => (walk (s.place symbols pc).symbols (s.place symbols pc).pc rest).map fun o =>
          { o with codes := (s.place symbols pc).lines.flatMap Placed.codes ++ o.codes } := by
  rw [Statement.items, List.append_assoc, walk_label]
  unfold Statement.place
  cases s.bind symbols pc with
  | error defect => rfl
  | ok bound =>
    cases named : s.mnemonic with
    | none =>
      have empty : Placed.codes { statement := s } = [] := by rw [Placed.codes, named]; rfl
      simp [empty]
    | some mnemonic =>
      simp only [Option.toList_some, List.map_singleton, List.singleton_append, Item.ofInstruction,
        Statement.count]
      cases read : Operation.read? mnemonic with
      | none => rfl
      | some operation =>
        dsimp only
        cases operation.size mnemonic s.operands.length with
        | error defect => rfl
        | ok size =>
          cases s.operands.forM checkOperand with
          | error defect => rfl
          | ok =>
            have own : Placed.codes { statement := s, size, address := pc } =
                [⟨pc, operation, size, s.operands⟩] := by
              simp [Placed.codes, named, read]
            simp [walk, own]

def Layout.outline? (l : Layout) : Option Outline :=
  match l.error with
  | some _ => none
  | none => some ⟨l.lines.flatMap Placed.codes, l.symbols, l.pc⟩

theorem outline?_layoutFrom (symbols : Symbols) (pc : Word) (number : Nat) (sources : List String) :
    (layoutFrom symbols pc number sources).outline? =
      walk symbols pc (sources.flatMap fun line => itemsOfTokens (tokens line)) := by
  induction sources generalizing symbols pc number with
  | nil => rfl
  | cons line sources ih =>
    have here := items_of_parse number line
    rw [List.flatMap_cons, layoutFrom]
    cases parsed : Statement.parse number line with
    | error defect =>
      simp only [parsed] at here
      obtain ⟨rest, wrong⟩ := here
      rw [wrong]
      rfl
    | ok s =>
      simp only [parsed] at here
      rw [here, walk_items]
      dsimp only
      cases failed : (s.place symbols pc).error with
      | some e =>
        simp only [Option.isSome_some, if_true, Layout.outline?, failed]
      | none =>
        rw [← ih (s.place symbols pc).symbols (s.place symbols pc).pc (number + 1)]
        simp only [Option.isSome_none, Bool.false_eq_true, if_false, Layout.outline?]
        cases (layoutFrom (s.place symbols pc).symbols (s.place symbols pc).pc (number + 1)
          sources).error with
        | some e => rfl
        | none => simp

theorem Placed.encode_codes {p : Placed} (named : ∀ mnemonic, p.statement.mnemonic = some mnemonic →
    ∃ operation, Operation.read? mnemonic = some operation) (symbols : Symbols) :
    encodeAll symbols p.codes = (p.encode symbols).toOption.map fun quads =>
      quads.flatMap Quad.toList := by
  unfold Placed.codes Placed.encode
  cases spelled : p.statement.mnemonic with
  | none => rfl
  | some mnemonic =>
    obtain ⟨operation, read⟩ := named mnemonic spelled
    simp [read, encodeAll, Code.encode]

/-- The second walk takes a line as its `codes`. -/
theorem encodeAll_codes {lines : List Placed}
    (named : ∀ p ∈ lines, ∀ mnemonic, p.statement.mnemonic = some mnemonic →
    ∃ operation, Operation.read? mnemonic = some operation) (symbols : Symbols) :
    encodeAll symbols (lines.flatMap Placed.codes) =
      match (emit symbols lines).2 with
      | some _ => none
      | none => some (imageOf (emit symbols lines).1) := by
  induction lines with
  | nil => rfl
  | cons p lines ih =>
    obtain ⟨first, others⟩ := List.forall_mem_cons.1 named
    rw [List.flatMap_cons, encodeAll_append, Placed.encode_codes first, ih others, emit]
    cases p.encode symbols with
    | error defect => rfl
    | ok quads =>
      dsimp only
      cases (emit symbols lines).2 with
      | some e => rfl
      | none => rfl

/-! ## Sources -/

end Assembly

def Assembly.product? (a : Assembly) : Option Assembly.Product :=
  match a.error with
  | some _ => none
  | none => some ⟨a.words, a.symbols, a.pc⟩

namespace Assembly

theorem named_of_layout {sources : List String} (clean : (layout sources).error = none) :
    ∀ p ∈ (layout sources).lines, ∀ mnemonic, p.statement.mnemonic = some mnemonic →
      ∃ operation, Operation.read? mnemonic = some operation := by
  intro p mem mnemonic named
  obtain ⟨i, found⟩ := List.mem_iff_getElem?.1 mem
  obtain ⟨_, _, _, _, here⟩ := (laid_of_layoutFrom clean).1.laidAt found
  obtain ⟨operation, read, _⟩ := Statement.count_eq_ok.1 (here.sized mnemonic named).2.1
  exact ⟨operation, read⟩

theorem product?_eq_some {a : Assembly} {p : Product} :
    a.product? = some p ↔ a.result = .ok p.words ∧ a.symbols = p.symbols ∧ a.pc = p.pc := by
  unfold product? result
  cases a.error with
  | some e => simp
  | none => rw [Option.some.injEq, Except.ok.injEq, Product.mk.injEq]

/-- Assembling a source builds its `items`, so nothing else of the source matters. -/
theorem product?_ofSource (source : String) :
    (Assembly.ofSource source).product? = build (items source.toList) := by
  have outline : (layout (linesOf source)).outline? = _ :=
    outline?_layoutFrom [] 0 1 (linesOf source)
  rw [build, items_toList, ← outline]
  unfold Assembly.ofSource product? Layout.outline?
  cases clean : (layout (linesOf source)).error with
  | some e => simp only [clean, Option.bind_none]
  | none =>
    have encoded := encodeAll_codes (named_of_layout clean) (layout (linesOf source)).symbols
    simp only [clean, Option.bind_some, encoded]
    cases (emit (layout (linesOf source)).symbols (layout (linesOf source)).lines).2 with
    | some e => rfl
    | none => rfl

end Assembly

end Chifir
