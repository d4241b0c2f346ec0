import Chifir.Memory.Basic

/-!
# Watched memory

A `Bus` is memory with watchpoints. Each write at a watched address sends a notice to every watcher
registered there, once per registration and in order of registration. Watchers only look: `get_set`
and `memory_set` say that memory is as it would be without them.
-/

namespace Chifir

/-- A watcher is known by its name. -/
abbrev Watcher := String

/-- A request to be told of the writes at an address. -/
structure Watchpoint where
  address : Word
  watcher : Watcher
deriving DecidableEq, Repr

/-- What a watcher is told: where, and the words before and after the write. -/
structure Notice where
  watcher : Watcher
  address : Word
  before : Word
  after : Word
deriving DecidableEq, Repr

/-- Memory, the watchpoints in order of registration, and the notices sent and not yet collected. -/
structure Bus where
  memory : Memory := .empty
  watchpoints : List Watchpoint := []
  notices : Array Notice := #[]

instance : Inhabited Bus := ⟨{}⟩

namespace Bus

def get (b : Bus) (a : Word) : Word := b.memory.get a

/-- The notices that a write at an address sends. -/
def noticesOf (b : Bus) (a v : Word) : List Notice :=
  (b.watchpoints.filter (·.address = a)).map fun w => ⟨w.watcher, a, b.memory.get a, v⟩

/-- Writes a word and tells those who watch its address (`noticesOf`). -/
def set (b : Bus) (a v : Word) : Bus :=
  if b.watchpoints.isEmpty then { b with memory := b.memory.set a v }
  else { b with memory := b.memory.set a v, notices := b.notices ++ b.noticesOf a v }

/-- Writes a number at a number, if that is an address, and tells those who watch there. -/
def write (b : Bus) (n v : Int) : Except AddressError Bus :=
  return b.set (← Word.address n) (Word.ofInt v)

/-- Writes numbers one after another from `base` on. The first that has no address ends it, and the
ones before stay written. -/
def load (b : Bus) : List Int → Int → Bus × Option AddressError
  | [], _ => (b, none)
  | v :: rest, base =>
    match b.write base v with
    | .ok b => b.load rest (base + 1)
    | .error e => (b, some e)

def clear (b : Bus) : Bus := { b with memory := b.memory.clear }

/-- Registers a watcher at an address, once more if it is registered there already. -/
def watch (b : Bus) (a : Word) (watcher : Watcher) : Bus :=
  { b with watchpoints := b.watchpoints ++ [⟨a, watcher⟩] }

/-- Drops every registration of one watcher at a number. -/
def unwatch (b : Bus) (n : Int) (watcher : Watcher) : Bus :=
  { b with watchpoints := b.watchpoints.filter fun w =>
      ! (Word.toInt w.address == n && w.watcher == watcher) }

/-- Drops every registration at a number. -/
def unwatchAll (b : Bus) (n : Int) : Bus :=
  { b with watchpoints := b.watchpoints.filter fun w => Word.toInt w.address != n }

def collect (b : Bus) : List Notice × Bus := (b.notices.toList, { b with notices := #[] })

@[simp] theorem memory_set (b : Bus) (a v : Word) : (b.set a v).memory = b.memory.set a v := by
  rw [set]
  split <;> rfl

@[simp] theorem watchpoints_set (b : Bus) (a v : Word) :
    (b.set a v).watchpoints = b.watchpoints := by
  rw [set]
  split <;> rfl

/-- A write sends the notices of `noticesOf` after those sent before. -/
theorem notices_set (b : Bus) (a v : Word) :
    (b.set a v).notices = b.notices ++ b.noticesOf a v := by
  rw [set]
  split <;> rename_i h
  · simp [noticesOf, List.isEmpty_iff.1 h]
  · rfl

theorem get_set (b : Bus) (a c v : Word) : (b.set a v).get c = if a = c then v else b.get c := by
  simp [get, Memory.get_set]

end Bus

end Chifir
