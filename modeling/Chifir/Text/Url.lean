import Chifir.Text.Numeral
import Chifir.Text.Utf8

/-!
# Addresses of services

Behind the protocol of an address stands a host, a path, and after a question mark options that are
kept apart by `&`.

1. `Url.ofRest` takes the text behind `protocol://` apart.
2. `Url.options` are the options, each with the first value that it is given.
3. `Url.port?` is the number behind the host.
-/

namespace Chifir.Text

/-- The parts of an address behind its protocol. -/
structure Url where
  host : String
  path : String
  query : String
deriving DecidableEq, Repr

/-- Why a text is no address. -/
inductive UrlError
  /-- A square bracket without its partner. -/
  | bracket
  /-- A character in the host that normalization would turn into a mark that ends the host. -/
  | normalization (host : String)
deriving DecidableEq, Repr

def UrlError.message : UrlError → String
  | bracket => "Invalid IPv6 URL"
  | normalization host => s!"netloc '{host}' contains invalid characters under NFKC normalization"

namespace Url

/-- The characters beyond ASCII that normalization turns into one of the marks `/?#@:`, alone or
among others. -/
def hiddenMarks : List Nat := [
    0x2047, 0x2048, 0x2049, 0x2100, 0x2101, 0x2105, 0x2106, 0x2A74, 0xFE13, 0xFE16, 0xFE55,
    0xFE56, 0xFE5F, 0xFE6B, 0xFF03, 0xFF0F, 0xFF1A, 0xFF1F, 0xFF20]

/-- The text before the first `mark`, and the text behind it if there is one. -/
def cutAt (mark : Char) (s : List Char) : List Char × Option (List Char) :=
  (s.takeWhile (· != mark), (s.dropWhile (· != mark)).tail?)

/-- The parts of the text behind `protocol://`. Tabs and line ends are left out, and so is what
follows a `#`. -/
def ofRest (rest : String) : Except UrlError Url :=
  let chars := rest.toList.filter fun c => c != '\t' && c != '\n' && c != '\r'
  let inHost (c : Char) : Bool := c != '/' && c != '?' && c != '#'
  let host := chars.takeWhile inHost
  let (behind, _) := cutAt '#' (chars.dropWhile inHost)
  let (path, query) := cutAt '?' behind
  if host.contains '[' != host.contains ']' then .error .bracket
  else if host.any fun c => hiddenMarks.contains c.toNat then
    .error (.normalization (String.ofList host))
  else .ok ⟨String.ofList host, String.ofList path, String.ofList (query.getD [])⟩

def unescapedBytes : List Char → List UInt8
  | '%' :: x :: y :: r =>
    match hexValue? x, hexValue? y with
    | some high, some low => UInt8.ofNat (high * 16 + low) :: unescapedBytes r
    | _, _ => '%'.toNat.toUInt8 :: unescapedBytes (x :: y :: r)
  | c :: r => encode (String.singleton c) ++ unescapedBytes r
  | [] => []

/-- A name or a value in a query: a plus sign is a space there. -/
def unescape (s : List Char) : String :=
  String.ofList (decodeLeniently (unescapedBytes (s.map fun c => if c == '+' then ' ' else c)))

/-- The options of a query in order; of an option that is given more than once the first counts. -/
def options (u : Url) : List (String × String) :=
  let parts := (u.query.splitOn "&").filter (· != "")
  let pairs := parts.map fun part =>
    let (name, value) := cutAt '=' part.toList
    (unescape name, unescape (value.getD []))
  pairs.foldl
    (fun found pair => if (found.lookup pair.1).isSome then found else found ++ [pair]) []

def place (u : Url) : String := u.host ++ u.path

inductive PortError
  | malformed (text : String)
  | outOfRange
deriving DecidableEq, Repr

def PortError.message : PortError → String
  | malformed text => s!"Port could not be cast to integer value as {quoted text}"
  | outOfRange => "Port out of range 0-65535"

/-- The host without what stands before an `@`, cut at its port. A host in square brackets may hold
colons. -/
def hostAndPort (u : Url) : String × Option String :=
  let bare := (u.host.toList.reverse.takeWhile (· != '@')).reverse
  let (name, port) :=
    match cutAt '[' bare with
    | (_, some bracketed) =>
      let (name, behind) := cutAt ']' bracketed
      (name, (cutAt ':' (behind.getD [])).2)
    | (_, none) => cutAt ':' bare
  (String.ofList name, (port.filter (! ·.isEmpty)).map String.ofList)

def port? (u : Url) : Except PortError (Option Nat) :=
  match u.hostAndPort.2 with
  | none => .ok none
  | some text =>
    if ! text.toList.all Char.isDigit then .error (.malformed text)
    else
      let n := digitsToNat 10 text.toList
      if n ≤ 65535 then .ok (some n) else .error .outOfRange

end Url

end Chifir.Text
