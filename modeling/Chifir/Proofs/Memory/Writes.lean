import Chifir.Memory.Bus

/-!
# Writes

What becomes of memory is a list of writes, one after another (`Memory.Writes`). Those who watch are
told of each of them (`Write.notices`), and so they are when words are loaded:
`Bus.load_eq_loading`.
-/

namespace Chifir

structure Write where
  address : Word
  before : Word
  after : Word
deriving DecidableEq, Repr

/-- What those are told of a write who watch its address. -/
def Write.notices (w : Write) (watchpoints : List Watchpoint) : List Notice :=
  (watchpoints.filter (·.address = w.address)).map fun p =>
    ⟨p.watcher, w.address, w.before, w.after⟩

namespace Memory

/-- These writes, one after another, make `m'` of `m`. -/
inductive Writes : Memory → List Write → Memory → Prop
  | nil (m : Memory) : Writes m [] m
  | cons {m m' : Memory} {w : Write} {ws : List Write} (before : w.before = m.get w.address)
      (later : Writes (m.set w.address w.after) ws m') : Writes m (w :: ws) m'

/-- The writes that load these numbers from `base` on, up to the first that has no address. -/
def loading (m : Memory) : List Int → Int → List Write
  | [], _ => []
  | v :: rest, base =>
    match Word.address base with
    | .ok a => ⟨a, m.get a, Word.ofInt v⟩ :: (m.set a (Word.ofInt v)).loading rest (base + 1)
    | .error _ => []

theorem writes_loading (m : Memory) (words : List Int) (base : Int) :
    m.Writes (m.loading words base) (m.load words base).1 := by
  induction words generalizing m base with
  | nil => exact .nil m
  | cons v rest ih =>
    unfold loading load write
    cases Word.address base with
    | error e => exact .nil m
    | ok a => exact .cons rfl (ih _ _)

end Memory

namespace Bus

/-- Watched memory is loaded as memory is, and each write of `loading` sends its notices. -/
theorem load_eq_loading (b : Bus) (words : List Int) (base : Int) :
    (b.load words base).1.memory = (b.memory.load words base).1 ∧
      (b.load words base).2 = (b.memory.load words base).2 ∧
      (b.load words base).1.watchpoints = b.watchpoints ∧
      (b.load words base).1.notices.toList =
        b.notices.toList ++ (b.memory.loading words base).flatMap (·.notices b.watchpoints) := by
  induction words generalizing b base with
  | nil => exact ⟨rfl, rfl, rfl, (List.append_nil _).symm⟩
  | cons v rest ih =>
    unfold load Memory.load Memory.loading write Memory.write
    cases Word.address base with
    | error e => exact ⟨rfl, rfl, rfl, (List.append_nil _).symm⟩
    | ok a =>
      obtain ⟨memory, error, watchpoints, notices⟩ := ih (b.set a (Word.ofInt v)) (base + 1)
      rw [memory_set] at memory error notices
      rw [watchpoints_set] at watchpoints notices
      refine ⟨memory, error, watchpoints, ?_⟩
      show ((b.set a (Word.ofInt v)).load rest (base + 1)).1.notices.toList = _
      rw [notices, notices_set, Array.toList_appendList, List.append_assoc, List.flatMap_cons]
      rfl

theorem load_unwatched {b : Bus} (unwatched : b.watchpoints = []) (words : List Int) (base : Int) :
    (b.load words base).1 = { b with memory := (b.memory.load words base).1 } := by
  obtain ⟨memory, _, watchpoints, notices⟩ := b.load_eq_loading words base
  have silent : (b.memory.loading words base).flatMap (·.notices b.watchpoints) = [] := by
    rw [unwatched]
    exact List.flatMap_eq_nil_iff.2 fun _ _ => rfl
  rw [silent, List.append_nil] at notices
  show (⟨(b.load words base).1.memory, (b.load words base).1.watchpoints,
    (b.load words base).1.notices⟩ : Bus) = _
  rw [memory, watchpoints, Array.toList_inj.1 notices]

end Bus

end Chifir
