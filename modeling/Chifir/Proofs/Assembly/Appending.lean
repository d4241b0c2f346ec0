import Chifir.Proofs.Assembly.Items
import Chifir.Proofs.Quads

/-!
# Text behind a program

A program stays what it is when text is put behind it, with one exception: a label in the text takes
an operand of the program for itself if that is spelled like it, even if it was a number before.

1. `lookup_of_walk`, `label_of_walk`: the walk over further items keeps the labels it starts with,
   and gives the further ones no address before its own start.
2. `encodeAll_congr`: instructions are encoded in the same way if the labels agree on their
   operands.
3. `append_keeps`: both together for text behind a program.
-/

namespace Chifir

open Text Assembly

namespace Assembly

/-! ## Labels of further items -/

def room (codes : List Code) : Nat := 4 * (codes.map (·.size)).sum

@[simp] theorem room_cons (c : Code) (codes : List Code) :
    room (c :: codes) = 4 * c.size + room codes := by
  simp [room, Nat.mul_add]

theorem room_append (codes codes' : List Code) :
    room (codes ++ codes') = room codes + room codes' := by
  simp [room, Nat.mul_add]

/-- The cases of a `walk` that gets through its first item. -/
theorem cases_of_walk {symbols : Symbols} {pc : Word} {item : Item} {rest : List Item} {o : Outline}
    (walked : walk symbols pc (item :: rest) = some o) :
    (∃ name, item = .label name ∧ symbols.lookup name = none ∧
        walk ((name, pc) :: symbols) pc rest = some o) ∨
      ∃ operation size operands o', item = .instruction operation size operands ∧
        walk symbols (pc + 4 * UInt32.ofNat size) rest = some o' ∧
        o = { o' with codes := ⟨pc, operation, size, operands⟩ :: o'.codes } := by
  cases item with
  | label name =>
    rw [walk] at walked
    cases fresh : symbols.lookup name with
    | some a =>
      rw [fresh] at walked
      cases walked
    | none =>
      rw [fresh] at walked
      exact .inl ⟨name, rfl, fresh, walked⟩
  | instruction operation size operands =>
    rw [walk] at walked
    obtain ⟨o', further, rfl⟩ := Option.map_eq_some_iff.1 walked
    exact .inr ⟨operation, size, operands, o', rfl, further, rfl⟩
  | defect => cases walked

section Walk
variable {symbols : Symbols} {pc : Word} {items : List Item} {o : Outline} {name : String}

theorem keeps_of_walk (walked : walk symbols pc items = some o) {a : Word}
    (known : symbols.lookup name = some a) :
    o.symbols.lookup name = some a := by
  induction items generalizing symbols pc o with
  | nil =>
    cases walked
    exact known
  | cons item rest ih =>
    rcases cases_of_walk walked with ⟨own, rfl, fresh, further⟩ | ⟨_, _, _, o', rfl, further, rfl⟩
    · refine ih further ?_
      have other : name ≠ own := by
        rintro rfl
        rw [fresh] at known
        cases known
      rw [List.lookup_cons, beq_eq_false_iff_ne.2 other]
      exact known
    · have kept := ih further known
      exact kept

/-- It binds no others than those of its `items`. -/
theorem lookup_of_walk (walked : walk symbols pc items = some o) (other : .label name ∉ items) :
    o.symbols.lookup name = symbols.lookup name := by
  induction items generalizing symbols pc o with
  | nil =>
    cases walked
    rfl
  | cons item rest ih =>
    rw [List.mem_cons, not_or] at other
    rcases cases_of_walk walked with ⟨own, rfl, _, further⟩ | ⟨_, _, _, o', rfl, further, rfl⟩
    · have different : name ≠ own := fun same => other.1 (same ▸ rfl)
      rw [ih further other.2, List.lookup_cons, beq_eq_false_iff_ne.2 different]
    · have kept := ih further other.2
      exact kept

theorem pc_of_walk (walked : walk symbols pc items = some o) :
    o.pc = pc + UInt32.ofNat (room o.codes) := by
  induction items generalizing symbols pc o with
  | nil =>
    cases walked
    exact (UInt32.add_zero pc).symm
  | cons item rest ih =>
    rcases cases_of_walk walked with ⟨_, rfl, _, further⟩ | ⟨_, _, _, o', rfl, further, rfl⟩
    · exact ih further
    · rw [room_cons, ← skip_add]
      exact ih further

/-- The label of an item is bound to an address that is neither before the walk nor behind it. -/
theorem label_of_walk (walked : walk symbols pc items = some o) (mem : .label name ∈ items) :
    ∃ n ≤ room o.codes, o.symbols.lookup name = some (pc + UInt32.ofNat n) := by
  induction items generalizing symbols pc o with
  | nil => cases mem
  | cons item rest ih =>
    rcases cases_of_walk walked with
      ⟨own, rfl, _, further⟩ | ⟨operation, size, operands, o', rfl, further, rfl⟩
    · rcases List.mem_cons.1 mem with same | later
      · obtain rfl := Item.label.inj same
        refine ⟨0, Nat.zero_le _, keeps_of_walk further ?_⟩
        rw [List.lookup_cons_self]
        exact congrArg some (UInt32.add_zero pc).symm
      · exact ih further later
    · rcases List.mem_cons.1 mem with same | later
      · cases same
      · obtain ⟨n, inside, known⟩ := ih further later
        refine ⟨4 * size + n, ?_, ?_⟩
        · rw [room_cons]
          exact Nat.add_le_add_left inside _
        · rw [← skip_add]
          exact known

/-- A walk over further items goes on where the one before it has ended. -/
theorem walk_append_eq_some {further : List Item} {o' : Outline}
    (walked : walk symbols pc items = some o) :
    walk symbols pc (items ++ further) = some o' ↔
      ∃ o₂, walk o.symbols o.pc further = some o₂ ∧
        o' = { o₂ with codes := o.codes ++ o₂.codes } := by
  rw [walk_append, walked, Option.bind_some, Option.map_eq_some_iff]
  simp only [eq_comm]

theorem mem_of_walk (walked : walk symbols pc items = some o) {c : Code} (mem : c ∈ o.codes) :
    .instruction c.operation c.size c.operands ∈ items := by
  induction items generalizing symbols pc o with
  | nil =>
    cases walked
    cases mem
  | cons item rest ih =>
    rcases cases_of_walk walked with ⟨_, rfl, _, further⟩ | ⟨_, _, _, o', rfl, further, rfl⟩
    · exact .tail _ (ih further mem)
    · rcases List.mem_cons.1 mem with rfl | later
      · exact .head _
      · exact .tail _ (ih further later)

end Walk

/-! ## Instructions under further labels -/

theorem value_congr {symbols symbols' : Symbols} {token : String}
    (same : symbols'.lookup token = symbols.lookup token) (k : Word) :
    symbols'.value k token = symbols.value k token := by
  unfold Symbols.value
  rw [same]

theorem encodeAll_append_eq_some {symbols : Symbols} {first second : List Code}
    {words : List Word} :
    encodeAll symbols (first ++ second) = some words ↔
      ∃ own further, encodeAll symbols first = some own ∧ encodeAll symbols second = some further ∧
        words = own ++ further := by
  rw [encodeAll_append, Option.bind_eq_some_iff]
  simp only [Option.map_eq_some_iff]
  constructor
  · rintro ⟨own, here, further, later, rfl⟩
    exact ⟨own, further, here, later, rfl⟩
  · rintro ⟨own, further, here, later, rfl⟩
    exact ⟨own, here, further, later, rfl⟩

theorem encodeAll_congr {symbols symbols' : Symbols} {codes : List Code}
    (same : ∀ c ∈ codes, ∀ token ∈ c.operands, symbols'.lookup token = symbols.lookup token) :
    encodeAll symbols' codes = encodeAll symbols codes := by
  induction codes with
  | nil => rfl
  | cons c codes ih =>
    obtain ⟨first, others⟩ := List.forall_mem_cons.1 same
    have values : c.operands.mapM (symbols'.value c.address) = c.operands.mapM
        (symbols.value c.address) :=
      mapM_congr fun token mem => value_congr (first token mem) c.address
    rw [encodeAll, encodeAll, ih others, Code.encode, Code.encode, values]

/-- Instructions take the `room` that was counted for them. -/
theorem length_encodeAll {symbols : Symbols} {codes : List Code} {words : List Word}
    (sized : ∀ c ∈ codes, ∃ mnemonic, c.operation.size mnemonic c.operands.length = .ok c.size)
    (encoded : encodeAll symbols codes = some words) : words.length = room codes := by
  induction codes generalizing words with
  | nil =>
    cases encoded
    rfl
  | cons c codes ih =>
    obtain ⟨⟨mnemonic, counted⟩, others⟩ := List.forall_mem_cons.1 sized
    obtain ⟨own, here, rest⟩ := Option.bind_eq_some_iff.1 encoded
    obtain ⟨further, later, rfl⟩ := Option.map_eq_some_iff.1 rest
    obtain ⟨quads, made, rfl⟩ := Option.map_eq_some_iff.1 here
    obtain ⟨values, resolved, done⟩ := bind_eq_ok.1 (toOption_eq_some.1 made)
    rw [(forall₂_of_mapM resolved).length_eq] at counted
    obtain ⟨quads', done', length⟩ := Operation.length_encode (k := c.address) counted
    obtain rfl : quads = quads' := Except.ok.inj (done.symm.trans done')
    rw [List.length_append, length_flatMap_toList, length, ih others later, room_cons]

/-! ## Items of lines -/

theorem ofLabel_eq_label {token name : String} (marked : IsMarked token) :
    Item.ofLabel token = .label name ↔ isName name.toList = true ∧ token = name ++ ":" := by
  obtain ⟨front, text⟩ := List.getLast?_eq_some_iff.1 marked
  obtain rfl : token = String.ofList front ++ ":" := by
    rw [← ofList_append_colon, ← text, String.ofList_toList]
  have same : String.ofList front ++ ":" = name ++ ":" ↔ String.ofList front = name := by
    rw [← String.toList_inj, String.toList_append, String.toList_append, List.append_left_inj,
      String.toList_inj]
  rw [Item.ofLabel, text, List.dropLast_concat, same]
  constructor
  · intro own
    split at own
    · next good =>
      obtain rfl := Item.label.inj own
      exact ⟨by rwa [String.toList_ofList], rfl⟩
    · cases own
  · rintro ⟨good, rfl⟩
    rw [String.toList_ofList] at good
    rw [if_pos good]

theorem mem_itemsOfBody {item : Item} {ts : List String} :
    item ∈ itemsOfBody ts ↔
      ∃ mnemonic operands, ts = mnemonic :: operands ∧ item = .ofInstruction mnemonic operands := by
  cases ts with
  | nil => simp [itemsOfBody]
  | cons mnemonic operands => simp [itemsOfBody]

theorem ofInstruction_ne_label {mnemonic name : String} {operands : List String} :
    Item.ofInstruction mnemonic operands ≠ .label name := by
  unfold Item.ofInstruction
  split
  · simp
  · split <;> simp

theorem label_mem_iff {line name : String} :
    .label name ∈ itemsOfTokens (tokens line) ↔ Defines line name := by
  have noBody (ts : List String) : .label name ∉ itemsOfBody ts := fun mem => by
    obtain ⟨mnemonic, operands, -, same⟩ := mem_itemsOfBody.1 mem
    exact ofInstruction_ne_label same.symm
  unfold Defines
  cases whole : tokens line with
  | nil => simp [itemsOfTokens]
  | cons token rest =>
    rw [itemsOfTokens]
    split
    · next marked =>
      rw [List.mem_cons, or_iff_left (noBody rest), eq_comm, ofLabel_eq_label marked]
      simp
    · next bare =>
      refine iff_of_false (noBody _) ?_
      rintro ⟨_, _, first⟩
      refine bare ?_
      rw [(List.cons.inj first).1, IsMarked, String.toList_append]
      exact List.getLast?_concat

/-- The instruction of a line is made of its body. -/
theorem instruction_of_mem {line : String} {operation : Operation} {size : Nat}
    {operands : List String}
    (mem : .instruction operation size operands ∈ itemsOfTokens (tokens line)) :
    ∃ mnemonic, body line = mnemonic :: operands ∧
      operation.size mnemonic operands.length = .ok size := by
  have inBody : .instruction operation size operands ∈ itemsOfBody (body line) := by
    unfold body
    cases whole : tokens line with
    | nil =>
      rw [whole] at mem
      cases mem
    | cons token rest =>
      rw [whole, itemsOfTokens] at mem
      split at mem
      · next marked =>
        rw [List.mem_cons] at mem
        have noLabel : Item.instruction operation size operands ≠ .ofLabel token := by
          unfold Item.ofLabel
          dsimp only
          split <;> simp
        simpa [marked] using mem.resolve_left noLabel
      · next bare => simpa [bare] using mem
  obtain ⟨mnemonic, operands', whole, same⟩ := mem_itemsOfBody.1 inBody
  unfold Item.ofInstruction at same
  split at same
  · cases same
  · split at same
    · next counted _ =>
      cases same
      exact ⟨mnemonic, whole, counted⟩
    · cases same

theorem mem_items {source : String} {item : Item} :
    item ∈ items source.toList ↔ ∃ line ∈ linesOf source, item ∈ itemsOfTokens (tokens line) := by
  rw [items_toList, List.mem_flatMap]

/-! ## Sources -/

/-- What an accepted source is built from: the outline that `walk` finds and the words of
`encodeAll`. -/
theorem built_of_assemble {source : String} {words : List Word}
    (accepted : assemble source = .ok words) :
    ∃ o, walk [] 0 (items source.toList) = some o ∧ encodeAll o.symbols o.codes = some words ∧
      (Assembly.ofSource source).symbols = o.symbols ∧ (Assembly.ofSource source).pc = o.pc := by
  have product := product?_eq_some (p := ⟨words, _, _⟩).2 ⟨accepted, rfl, rfl⟩
  rw [product?_ofSource] at product
  obtain ⟨o, walked, built⟩ := Option.bind_eq_some_iff.1 product
  obtain ⟨words', encoded, same⟩ := Option.map_eq_some_iff.1 built
  obtain ⟨rfl, symbols, pc⟩ := Product.mk.inj same
  exact ⟨o, walked, encoded, symbols.symm, pc.symm⟩

theorem sized_of_walk {source : String} {o : Outline}
    (walked : walk [] 0 (items source.toList) = some o) :
    ∀ c ∈ o.codes, ∃ mnemonic, c.operation.size mnemonic c.operands.length = .ok c.size := by
  intro c mem
  obtain ⟨line, _, own⟩ := mem_items.1 (mem_of_walk walked mem)
  obtain ⟨mnemonic, _, counted⟩ := instruction_of_mem own
  exact ⟨mnemonic, counted⟩

/-- Where the last line of a text ends does not matter to what is put behind it. -/
theorem items_lineFeed (s₁ s₂ : String) :
    items (s₁ ++ "\n" ++ s₂).toList = items s₁.toList ++ items s₂.toList := by
  rw [String.toList_append, String.toList_append, List.append_assoc]
  exact items_append s₁.toList (by decide) s₂.toList

end Assembly

/-- Text behind a program leaves its words and its labels as they are, and has its own labels behind
them, if none of these is spelled like an operand of the program. The image has to leave an address
behind it for that, or the addresses wrap. -/
theorem append_keeps {s₁ s₂ : String} {words₁ words : List Word} (alone : assemble s₁ = .ok words₁)
    (both : assemble (s₁ ++ "\n" ++ s₂) = .ok words)
    (apart : ∀ line ∈ linesOf s₂, ∀ name, Defines line name →
      ∀ line' ∈ linesOf s₁, name ∉ (body line').tail) :
    words₁ <+: words ∧
      (∀ name a, (Assembly.ofSource s₁).symbols.lookup name = some a →
        (Assembly.ofSource (s₁ ++ "\n" ++ s₂)).symbols.lookup name = some a) ∧
      (words.length < 2 ^ 32 → ∀ line ∈ linesOf s₂, ∀ name, Defines line name →
        ∃ a, (Assembly.ofSource (s₁ ++ "\n" ++ s₂)).symbols.lookup name = some a ∧
          words₁.length ≤ a.toNat) := by
  obtain ⟨o₁, walked₁, encoded₁, symbols₁, _⟩ := built_of_assemble alone
  obtain ⟨o, walked, encoded, symbols, _⟩ := built_of_assemble both
  have length₁ := length_encodeAll (sized_of_walk walked₁) encoded₁
  have length := length_encodeAll (sized_of_walk walked) encoded
  rw [items_lineFeed] at walked
  obtain ⟨o₂, walked₂, rfl⟩ := (walk_append_eq_some walked₁).1 walked
  -- no operand of the program is one of the further labels
  have same : encodeAll o₂.symbols o₁.codes = encodeAll o₁.symbols o₁.codes := by
    refine encodeAll_congr fun c mem token operand => lookup_of_walk walked₂ fun label => ?_
    obtain ⟨line, there, defines⟩ := mem_items.1 label
    obtain ⟨line', there', instruction⟩ := mem_items.1 (mem_of_walk walked₁ mem)
    obtain ⟨mnemonic, operands, _⟩ := instruction_of_mem instruction
    refine apart line there token (label_mem_iff.1 defines) line' there' ?_
    rw [operands]
    exact operand
  obtain ⟨own, further, first, _, rfl⟩ := encodeAll_append_eq_some.1 encoded
  obtain rfl : own = words₁ := Option.some.inj (first.symm.trans (same.trans encoded₁))
  rw [symbols₁, symbols]
  refine ⟨List.prefix_append own further, fun name a known => keeps_of_walk walked₂ known, ?_⟩
  intro small line there name defines
  obtain ⟨n, inside, known⟩ :=
    label_of_walk walked₂ (mem_items.2 ⟨line, there, label_mem_iff.2 defines⟩)
  refine ⟨_, known, ?_⟩
  rw [room_append] at length
  rw [pc_of_walk walked₁, UInt32.zero_add, ← UInt32.ofNat_add, UInt32.toNat_ofNat',
    Nat.mod_eq_of_lt (by omega)]
  omega

/-- A program that ends in a carriage return, which makes one break with the line feed behind it.
The label of the text could be a number too. -/
theorem append_keeps_carriageReturn :
    let s₁ := "a: jmp end\nadd add 2 ; b\nend:\r"
    let s₂ := "b: nop\r\njeq end b"
    let words₁ : List Word := [1, 3, 0, 8, 7, 0xADD, 2, 0]
    let words : List Word := [1, 3, 0, 8, 7, 0xADD, 2, 0, 16, 0, 0, 0, 2, 15, 8, 8]
    assemble s₁ = .ok words₁ ∧ assemble (s₁ ++ "\n" ++ s₂) = .ok words ∧
      (∀ line ∈ linesOf s₂, ∀ name, Defines line name →
        ∀ line' ∈ linesOf s₁, name ∉ (body line').tail) ∧
      words₁ <+: words ∧
      ∃ a, (Assembly.ofSource (s₁ ++ "\n" ++ s₂)).symbols.lookup "b" = some a ∧
        words₁.length ≤ a.toNat := by
  intro s₁ s₂ words₁ words
  have alone : assemble s₁ = .ok words₁ := by decide +kernel
  have both : assemble (s₁ ++ "\n" ++ s₂) = .ok words := by decide +kernel
  have defines : ∀ line ∈ linesOf s₂, ∀ name, Defines line name → name = "b" := by
    intro line there name own
    have inside := mem_items.2 ⟨line, there, label_mem_iff.2 own⟩
    have all : items s₂.toList = [.label "b", .instruction (.instruction .nop) 1 [],
        .instruction (.expansion .jeq) 1 ["end", "b"]] := by
      decide +kernel
    rw [all] at inside
    simpa using inside
  have apart : ∀ line ∈ linesOf s₂, ∀ name, Defines line name →
      ∀ line' ∈ linesOf s₁, name ∉ (body line').tail := by
    intro line there name own
    rw [defines line there name own]
    decide +kernel
  obtain ⟨begins, _, behind⟩ := append_keeps alone both apart
  have own : Defines "b: nop" "b" := label_mem_iff.1 (by decide +kernel)
  exact ⟨alone, both, apart, begins, behind (by decide) "b: nop" (by decide +kernel) "b" own⟩

/-- An operand that was a number becomes a label that is put behind it. -/
example : assemble "nop add" = .ok [16, 0xADD, 0, 0] ∧
    assemble "nop add\nadd:" = .ok [16, 4, 0, 0] := by
  decide +kernel

end Chifir
