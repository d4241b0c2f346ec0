import Chifir.Text.Numeral

/-!
# Options

How arguments are told apart.

1. An argument that starts with a dash is an option, unless it is a dash alone, a negative number,
   or has a space in it and starts no option. After `--` nothing is an option (`classify`).
2. A long option may be cut short as long as one option only starts so; its value may follow after
   `=`. A short one may have its value, or further short options, right behind it or after `=`
   (`Grammar.lookUp`).
3. An option's value is the next argument, which may not be an option. A value `--` in the same
   argument is no value at all (`Given`).
4. What is not an option goes to the grammar's places in order (`Grammar.read`).
-/

namespace Chifir.CommandLine

/-- Why arguments are not carried out. -/
inductive Refusal
  /-- They break the rules of usage. -/
  | usage
  /-- They ask for help. -/
  | help
  /-- They ask for the version. -/
  | version
deriving DecidableEq, Repr

/-- What an option is given: a `value`, or `nothing` by the mark that ends the options. -/
inductive Given (α : Type)
  | value (x : α)
  | nothing
deriving DecidableEq, Repr

def Given.getD {α : Type} (g : Given α) (other : α) : α :=
  match g with
  | value x => x
  | nothing => other

/-- What a text in the argument of an option gives it. -/
def Given.ofText (text : String) : Given String := if text = "--" then nothing else value text

/-- What an option does to what was read so far; one with `value` takes a value. -/
inductive Action (σ : Type)
  | flag (act : σ → Except Refusal σ)
  | value (act : σ → Given String → Except Refusal σ)

structure OptionSpec (σ : Type) where
  names : List String
  action : Action σ

/-- The options of a command, which read the arguments into a `σ`. -/
structure Grammar (σ : Type) where
  options : List (OptionSpec σ)

/-- What stands behind the name of an option in the same argument. -/
inductive Attached
  | nothing
  /-- Behind a long name and an equals sign. -/
  | assigned (text : String)
  /-- Behind a short name, with an equals sign between them or without. -/
  | adjacent (text : String)

/-- An option found among the arguments: what it does and what stands behind its name. -/
structure Found (σ : Type) where
  action : Action σ
  attached : Attached

/-- What an argument is: `plain` text, the `separator` behind which all is plain, or an option. -/
inductive Token (σ : Type)
  | plain (text : String)
  | separator
  | option (found : Found σ)
  /-- An option that the grammar does not know. -/
  | unknown

/-- Whether a text is a negative number in decimal; a line feed may end it. -/
def isNegativeNumber (s : List Char) : Bool :=
  match if s.getLast? = some '\n' then s.dropLast else s with
  | '-' :: r =>
    let isDigit (c : Char) := (Text.decimalValue? c).isSome
    match r.dropWhile isDigit with
    | [] => ! r.isEmpty
    | '.' :: fraction => ! fraction.isEmpty && fraction.all isDigit
    | _ => false
  | _ => false

def cutAtEquals (s : String) : String × Attached :=
  let chars := s.toList
  match chars.dropWhile (· != '=') with
  | [] => (s, .nothing)
  | _ :: r =>
    let behind := String.ofList r
    (String.ofList (chars.takeWhile (· != '=')),
      if s.startsWith "--" then .assigned behind else .adjacent behind)

namespace Grammar

variable {σ : Type}

def names (g : Grammar σ) : List (String × Action σ) :=
  g.options.flatMap fun o => o.names.map (·, o.action)

/-- The options that an argument can mean that is not the name of one. -/
def candidates (g : Grammar σ) (argument : String) : List (Found σ) :=
  match argument.toList with
  | '-' :: '-' :: _ =>
    let (stem, attached) := cutAtEquals argument
    (g.names.filter fun (name, _) => stem.isPrefixOf name).map fun (_, action) =>
      ⟨action, attached⟩
  | '-' :: c :: r =>
    let short := String.ofList ['-', c]
    g.names.filterMap fun (name, action) =>
      if name = short then some ⟨action, .adjacent (String.ofList r)⟩
      else if argument.isPrefixOf name then some ⟨action, .nothing⟩
      else none
  | _ => []

/-- What an argument that starts with a dash is; an ambiguous one is against the rules. -/
def lookUp (g : Grammar σ) (argument : String) : Except Refusal (Token σ) :=
  match g.names.lookup argument with
  | some action => .ok (.option ⟨action, .nothing⟩)
  | none =>
    let (stem, attached) := cutAtEquals argument
    match g.names.lookup stem with
    | some action => .ok (.option ⟨action, attached⟩)
    | none =>
      match g.candidates argument with
      | [found] => .ok (.option found)
      | _ :: _ :: _ => .error .usage
      | [] =>
        if isNegativeNumber argument.toList || argument.toList.contains ' ' then
          .ok (.plain argument)
        else .ok .unknown

def classify (g : Grammar σ) (argument : String) : Except Refusal (Token σ) :=
  match argument.toList with
  | '-' :: _ :: _ => g.lookUp argument
  | _ => .ok (.plain argument)

def tokens (g : Grammar σ) : List String → Except Refusal (List (String × Token σ))
  | [] => .ok []
  | argument :: rest =>
    if argument = "--" then .ok ((argument, .separator) :: rest.map fun r => (r, .plain r))
    else do
      let token ← g.classify argument
      return (argument, token) :: (← g.tokens rest)

/-- What short options run together stand for: the `flags` in order, and at the end perhaps an
option that takes a value, with what is left of the letters. -/
structure Bundle (σ : Type) where
  flags : List (σ → Except Refusal σ)
  last : Option ((σ → Given String → Except Refusal σ) × Option String) := none

/-- Takes short options apart that run together behind one that was found. A letter that is no
option is against the rules. -/
def unbundle (g : Grammar σ) (action : Action σ) : List Char → Except Refusal (Bundle σ)
  | [] =>
    match action with
    | .flag act => .ok { flags := [act] }
    | .value act => .ok { flags := [], last := some (act, none) }
  | c :: r =>
    match action with
    | .value act => .ok { flags := [], last := some (act, some (String.ofList (c :: r))) }
    | .flag act =>
      match g.names.lookup (String.ofList ['-', c]) with
      | none => .error .usage
      | some next => do
        let others ← g.unbundle next r
        return { others with flags := act :: others.flags }

/-- What carrying out an option leads to: what was read so far, and whether the argument behind it
was taken. -/
structure Carried (σ : Type) where
  state : σ
  taken : Bool := false

/-- Gives an option its value, which is the `next` argument if none is attached. -/
def giveValue (act : σ → Given String → Except Refusal σ) (s : σ) (attached next : Option String) :
    Except Refusal (Carried σ) :=
  match attached, next with
  | some text, _ => return { state := ← act s (.ofText text) }
  | none, some text => return { state := ← act s (.value text), taken := true }
  | none, none => throw .usage

/-- Carries out an option; `next` is the argument behind it if that can be a value. -/
def carryOut (g : Grammar σ) (s : σ) (found : Found σ) (next : Option String) :
    Except Refusal (Carried σ) := do
  match found.action, found.attached with
  | .flag act, .nothing => return { state := ← act s }
  | .flag _, .assigned _ => throw .usage
  | .flag _, .adjacent letters =>
    if letters.isEmpty then throw .usage
    let bundle ← g.unbundle found.action letters.toList
    -- Nothing is carried out if the last letter wants a value and there is none.
    if bundle.last.any (·.2.isNone) && next.isNone then throw .usage
    let s ← bundle.flags.foldlM (fun s act => act s) s
    match bundle.last with
    | none => return { state := s }
    | some (act, attached) => giveValue act s attached next
  | .value act, .nothing => giveValue act s none next
  | .value act, .assigned text => giveValue act s (some text) next
  | .value act, .adjacent text => giveValue act s (some text) next

/-- Reads arguments with one `place` for what is not an option. Help and version are given at once;
whatever else is against the rules is found out at the latest in the end. -/
def readOne (g : Grammar σ) (place : σ → String → σ) (s : σ) (filled extras : Bool) :
    List (String × Token σ) → Except Refusal σ
  | [] => if filled && ! extras then .ok s else .error .usage
  | (_, .option found) :: (text, .plain value) :: rest => do
    let carried ← g.carryOut s found (some value)
    if carried.taken then g.readOne place carried.state filled extras rest
    else g.readOne place carried.state filled extras ((text, .plain value) :: rest)
  | (_, .option found) :: rest => do
    let carried ← g.carryOut s found none
    g.readOne place carried.state filled extras rest
  | (_, .unknown) :: rest => g.readOne place s filled true rest
  -- A mark behind the text that fills the place goes with it.
  | (_, .plain text) :: (mark, .separator) :: rest =>
    if filled then g.readOne place s true true ((mark, .separator) :: rest)
    else g.readOne place (place s text) true extras rest
  | (_, .plain text) :: rest =>
    if filled then g.readOne place s true true rest
    else g.readOne place (place s text) true extras rest
  | (_, .separator) :: (_, .plain text) :: rest =>
    if filled then g.readOne place s true true rest
    else g.readOne place (place s text) true extras rest
  | (_, .separator) :: rest => g.readOne place s filled true rest

def read (g : Grammar σ) (place : σ → String → σ) (start : σ) (arguments : List String) :
    Except Refusal σ := do
  g.readOne place start false false (← g.tokens arguments)

/-- Reads the options before the first argument that is none; gives that and all behind it. The flag
tells whether an unknown option was met. -/
def readLeadingFrom (g : Grammar σ) (s : σ) (extras : Bool) :
    List (String × Token σ) → Except Refusal (σ × Bool × List String)
  | [] => .ok (s, extras, [])
  | (_, .option found) :: (text, .plain value) :: rest => do
    let carried ← g.carryOut s found (some value)
    if carried.taken then g.readLeadingFrom carried.state extras rest
    else return (carried.state, extras, text :: (rest.map (·.1)))
  | (_, .option found) :: rest => do
    let carried ← g.carryOut s found none
    g.readLeadingFrom carried.state extras rest
  | (_, .unknown) :: rest => g.readLeadingFrom s true rest
  | (text, _) :: rest => .ok (s, extras, text :: rest.map (·.1))

def readLeading (g : Grammar σ) (start : σ) (arguments : List String) :
    Except Refusal (σ × Bool × List String) := do
  g.readLeadingFrom start false (← g.tokens arguments)

end Grammar

end Chifir.CommandLine
