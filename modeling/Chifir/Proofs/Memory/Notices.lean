import Chifir.Proofs.Memory.Histories
import Chifir.Proofs.Memory.Writes

/-!
# Notices

Whoever is registered at an address is told of every write there, and of nothing else. Who that is,
and what there was before, the history says.

1. `Bus.call`, `Bus.callAll`: accesses to memory and changes to its watchpoints, one after another.
2. `registered`, `lastWritten`: who watches an address, and what it holds, by the history alone.
   `registered_concat` is what one call does to the former.
3. `BusCall.tells`, `toldFrom`: the notices that are due.
4. `Keeps.call`: memory and watchpoints are what the history says, kept by every call.
5. `notices_exact`: the notices of any history.
-/

namespace Chifir

/-! ## Calls -/

/-- What is done with watched memory from outside: an `access`, or a change of who watches an
address. -/
inductive BusCall
  | access (x : Access)
  | watch (n : Int) (watcher : Watcher)
  | unwatch (n : Int) (watcher : Watcher)
  | unwatchAll (n : Int)
deriving DecidableEq, Repr

namespace BusCall

def access? : BusCall → Option Access
  | access x => some x
  | _ => none

/-- A call as it goes on: loading is one write after another, up to the first that has no address.
-/
def steps : BusCall → List BusCall
  | access (.load words base) =>
      (within (cellsFrom base words)).map fun cell => access (.write cell.1 cell.2)
  | c => [c]

end BusCall

namespace Bus

def call (b : Bus) : BusCall → Except AddressError Answer × Bus
  | .access x => b.access x
  | .watch n watcher =>
    match Word.address n with
    | .ok a => (.ok .done, b.watch a watcher)
    | .error e => (.error e, b)
  | .unwatch n watcher => (.ok .done, b.unwatch n watcher)
  | .unwatchAll n => (.ok .done, b.unwatchAll n)

def callAll (b : Bus) (calls : List BusCall) : Bus := calls.foldl (fun b c => (b.call c).2) b

theorem callAll_concat (b : Bus) (calls : List BusCall) (c : BusCall) :
    b.callAll (calls ++ [c]) = ((b.callAll calls).call c).2 := List.foldl_concat ..

end Bus

/-! ## What a history says -/

namespace BusCall

/-- The watcher that a call registers at an address, if it does. -/
def added (n : Int) : BusCall → List Watcher
  | watch n' watcher => if n' = n then [watcher] else []
  | _ => []

/-- Whether a call removes the registrations of a watcher at an address. -/
def removes (n : Int) (watcher : Watcher) : BusCall → Bool
  | unwatch n' watcher' => n == n' && watcher == watcher'
  | unwatchAll n' => n == n'
  | _ => false

end BusCall

/-- The watchers registered at an address and not removed since, in order of registration. -/
def registered (n : Int) : List BusCall → List Watcher
  | [] => []
  | c :: later =>
      (c.added n).filter (fun watcher => ! later.any (·.removes n watcher)) ++ registered n later

/-- The word at an address: the last number written there since memory was last cleared. -/
def lastWritten (n : Int) (past : List BusCall) : Word :=
  Word.ofInt (((recentWrites (past.filterMap BusCall.access?)).lookup n).getD 0)

/-- The notices due for a call that is a single step: a write is told to all that are registered at
its address. -/
def BusCall.tells (past : List BusCall) : BusCall → List Notice
  | access (.write n v) =>
    if IsAddress n then
      (registered n past).map fun watcher =>
      ⟨watcher, Word.ofInt n, lastWritten n past, Word.ofInt v⟩
    else []
  | _ => []

/-- The notices due for calls that are single steps, one after another. -/
def toldFrom (past : List BusCall) : List BusCall → List Notice
  | [] => []
  | c :: later => c.tells past ++ toldFrom (past ++ [c]) later

/-- A call removes some of those who were registered, and may register one more. -/
theorem registered_concat (n : Int) (past : List BusCall) (c : BusCall) :
    registered n (past ++ [c]) = (registered n past).filter
      (fun watcher => ! c.removes n watcher) ++ c.added n := by
  induction past with
  | nil => simp [registered]
  | cons d past ih => simp [registered, ih, List.filter_filter, Bool.and_comm]

/-! ## What the bus keeps -/

namespace Bus

variable {b : Bus} {past : List BusCall} {c : BusCall}

theorem watchpoints_access (b : Bus) (x : Access) : (b.access x).2.watchpoints = b.watchpoints := by
  cases x with
  | write n v =>
    by_cases address : IsAddress n
    · obtain ⟨a, rfl⟩ := exists_toInt address
      rw [access_write, watchpoints_set]
    · rw [access_write_of_not b address]
  | load words base =>
    have kept := (b.load_eq_loading words base).2.2.1
    rw [access]
    split <;> simp_all
  | _ => rfl

/-- What an access makes of memory has nothing to do with watchpoints. -/
theorem memory_access {b b' : Bus} (same : b.memory = b'.memory) (x : Access) :
    (b.access x).2.memory = (b'.access x).2.memory := by
  cases x with
  | write n v =>
    by_cases address : IsAddress n
    · obtain ⟨a, rfl⟩ := exists_toInt address
      rw [access_write, access_write, memory_set, memory_set, same]
    · rw [access_write_of_not b address, access_write_of_not b' address, same]
  | load words base =>
    have loaded := (b.load_eq_loading words base).1
    have loaded' := (b'.load_eq_loading words base).1
    rw [access, access]
    split <;> split <;> simp_all
  | clear => rfl
  | _ => exact same

def watchersAt (b : Bus) (a : Word) : List Watcher :=
  (b.watchpoints.filter (·.address = a)).map (·.watcher)

theorem watchersAt_call (b : Bus) (c : BusCall) (a : Word) :
    (b.call c).2.watchersAt a =
      (b.watchersAt a).filter (fun watcher => ! c.removes (Word.toInt a) watcher) ++ c.added
      (Word.toInt a) := by
  cases c with
  | access x =>
    rw [call, watchersAt, watchpoints_access]
    simp [BusCall.removes, BusCall.added, watchersAt]
  | watch n watcher =>
    by_cases address : IsAddress n
    · obtain ⟨a', rfl⟩ := exists_toInt address
      rw [call, Word.address_toInt]
      by_cases same : a' = a <;>
        simp [watch, watchersAt, BusCall.removes, BusCall.added, same, Word.toInt_injective.eq_iff]
    · have other : n ≠ Word.toInt a := fun same => address (same ▸ isAddress_toInt a)
      rw [call, address_of_not address]
      simp [BusCall.removes, BusCall.added, other]
  | unwatch n watcher =>
    show ((b.watchpoints.filter _).filter _).map _ = _ ++ []
    rw [List.append_nil, watchersAt, List.filter_map, List.filter_filter, List.filter_filter]
    refine congrArg (List.map _) (List.filter_congr fun w _ => ?_)
    by_cases here : w.address = a <;> simp [BusCall.removes, here]
  | unwatchAll n =>
    show ((b.watchpoints.filter _).filter _).map _ = _ ++ []
    rw [List.append_nil, watchersAt, List.filter_map, List.filter_filter, List.filter_filter]
    refine congrArg (List.map _) (List.filter_congr fun w _ => ?_)
    by_cases here : w.address = a <;> simp [BusCall.removes, here, bne]

/-- Memory and watchpoints are what the history says. -/
structure Keeps (b : Bus) (past : List BusCall) : Prop where
  memory : b.memory = (accessAll {} (past.filterMap BusCall.access?)).memory
  watchers : ∀ a, b.watchersAt a = registered (Word.toInt a) past

theorem Keeps.call (keeps : b.Keeps past) (c : BusCall) : (b.call c).2.Keeps (past ++ [c]) := by
  refine ⟨?_, fun a => ?_⟩
  · rw [List.filterMap_append, List.filterMap_cons, List.filterMap_nil]
    cases c with
    | access x =>
      rw [BusCall.access?, accessAll_concat]
      exact memory_access keeps.memory x
    | watch n watcher =>
      simp only [BusCall.access?, List.append_nil, ← keeps.memory, Bus.call]
      cases Word.address n <;> rfl
    | unwatch | unwatchAll =>
      simp only [BusCall.access?, List.append_nil, ← keeps.memory]
      rfl
  · rw [watchersAt_call, registered_concat, keeps.watchers]

theorem keeps_callAll (history : List BusCall) : (callAll {} history).Keeps history := by
  induction history using List.reverseRecOn with
  | nil => exact ⟨rfl, fun _ => rfl⟩
  | append_singleton past c ih =>
    rw [callAll_concat]
    exact ih.call c

theorem Keeps.get (keeps : b.Keeps past) (a : Word) :
    b.get a = lastWritten (Word.toInt a) past := by
  rw [Bus.get, keeps.memory]
  exact (stores_accessAll [] _).get a

/-! ## What is told -/

theorem Keeps.noticesOf (keeps : b.Keeps past) (a : Word) (v : Int) :
    b.noticesOf a (Word.ofInt v) = (BusCall.access (.write (Word.toInt a) v)).tells past := by
  rw [BusCall.tells, if_pos (isAddress_toInt a), ← keeps.watchers, ← keeps.get, watchersAt,
    List.map_map, Word.ofInt_toInt]
  rfl

/-- A call that is a single step sends the notices that are due, after those sent before. -/
theorem Keeps.notices_call (keeps : b.Keeps past) (single : c.steps = [c]) :
    (b.call c).2.notices.toList = b.notices.toList ++ c.tells past := by
  cases c with
  | access x =>
    cases x with
    | write n v =>
      by_cases address : IsAddress n
      · obtain ⟨a, rfl⟩ := exists_toInt address
        rw [Bus.call, access_write, notices_set, Array.toList_appendList, keeps.noticesOf]
      · rw [Bus.call, access_write_of_not b address, BusCall.tells, if_neg address, List.append_nil]
    | load words base =>
      have itself : BusCall.access (.load words base) ∈
          (BusCall.access (.load words base)).steps := by
        rw [single]
        exact List.mem_singleton_self _
      obtain ⟨cell, _, same⟩ := List.mem_map.1 itself
      cases same
    | _ => exact (List.append_nil _).symm
  | watch n watcher =>
    rw [Bus.call]
    cases Word.address n <;> exact (List.append_nil _).symm
  | unwatch | unwatchAll => exact (List.append_nil _).symm

theorem callAll_append (b : Bus) (calls calls' : List BusCall) :
    b.callAll (calls ++ calls') = (b.callAll calls).callAll calls' := List.foldl_append ..

/-- Loading is one write after another, so `callAll` may take a call in its `steps`. -/
theorem callAll_steps (b : Bus) (c : BusCall) : b.callAll c.steps = (b.call c).2 := by
  cases c with
  | access x =>
    cases x with
    | load words base =>
      have loaded : (b.access (.load words base)).2 = (b.load words base).1 := by
        rw [access]
        split <;> simp_all
      rw [call, loaded, load_eq, BusCall.steps, callAll, accessAll, List.foldl_map, List.foldl_map]
      rfl
    | _ => rfl
  | _ => rfl

theorem callAll_flatMap_steps (b : Bus) (history : List BusCall) :
    b.callAll (history.flatMap BusCall.steps) = b.callAll history := by
  induction history generalizing b with
  | nil => rfl
  | cons c later ih =>
    rw [List.flatMap_cons, callAll_append, callAll_steps, ih]
    rfl

end Bus

theorem BusCall.steps_of_mem {c d : BusCall} (mem : d ∈ c.steps) : d.steps = [d] := by
  cases c with
  | access x =>
    cases x with
    | load words base =>
      obtain ⟨cell, _, rfl⟩ := List.mem_map.1 mem
      rfl
    | _ =>
      obtain rfl := List.mem_singleton.1 mem
      rfl
  | _ =>
    obtain rfl := List.mem_singleton.1 mem
    rfl

theorem toldFrom_concat (past calls : List BusCall) (c : BusCall) :
    toldFrom past (calls ++ [c]) = toldFrom past calls ++ c.tells (past ++ calls) := by
  induction calls generalizing past with
  | nil => simp [toldFrom]
  | cons d calls ih => simp [toldFrom, ih]

theorem Bus.notices_callAll {calls : List BusCall} (single : ∀ c ∈ calls, c.steps = [c]) :
    (callAll {} calls).notices.toList = toldFrom [] calls := by
  induction calls using List.reverseRecOn with
  | nil => rfl
  | append_singleton past c ih =>
    rw [List.forall_mem_append] at single
    obtain ⟨earlier, last⟩ := single
    have told := (keeps_callAll past).notices_call (last c (List.mem_singleton_self c))
    rw [callAll_concat, told, ih earlier, toldFrom_concat, List.nil_append]

/-- After any history, the notices sent are those that are due: each write that has an address has
been told to all that were registered there and not removed since, in order of registration and as
often as they were registered, with the word that reading gave before and the one that it gives
afterwards. All else is told to nobody. Memory is what it would be without watchpoints, and only the
calls that are for it change who watches an address. -/
theorem notices_exact (history : List BusCall) :
    let b := Bus.callAll {} history
    b.notices.toList = toldFrom [] (history.flatMap BusCall.steps) ∧
      b.memory = (Bus.accessAll {} (history.filterMap BusCall.access?)).memory ∧
      (∀ n, IsAddress n → b.memory.read n = .ok (lastWritten n history) ∧
        b.watchersAt (Word.ofInt n) = registered n history ∧
        ∀ v, ∃ after, b.call (.access (.write n v)) = (.ok .done, after) ∧
          after.memory.read n = .ok (Word.ofInt v)) ∧
      (∀ n, ¬ IsAddress n → (∀ v, b.call (.access (.write n v)) = (.error (.outOfRange n), b)) ∧
        ∀ watcher, b.call (.watch n watcher) = (.error (.outOfRange n), b)) ∧
      ∀ a n watcher,
        let watchers := b.watchersAt a
        let here := n = Word.toInt a
        (b.call (.watch n watcher)).2.watchersAt a =
          (if here then watchers ++ [watcher] else watchers) ∧
            (b.call (.unwatch n watcher)).2.watchersAt a =
              (if here then watchers.filter (· != watcher) else watchers) ∧
          (b.call (.unwatchAll n)).2.watchersAt a = (if here then [] else watchers) ∧
          ∀ x, (b.call (.access x)).2.watchersAt a = watchers := by
  intro b
  have keeps : b.Keeps history := Bus.keeps_callAll history
  refine ⟨?told, keeps.memory, ?inside, ?beyond, ?changes⟩
  case told =>
    rw [show b = Bus.callAll {} (history.flatMap BusCall.steps)
      from (Bus.callAll_flatMap_steps {} history).symm]
    refine Bus.notices_callAll fun c mem => ?_
    obtain ⟨d, _, there⟩ := List.mem_flatMap.1 mem
    exact BusCall.steps_of_mem there
  case inside =>
    intro n address
    obtain ⟨a, rfl⟩ := exists_toInt address
    refine ⟨?_, ?_, fun v => ⟨_, b.access_write a v, ?_⟩⟩
    · rw [Memory.read, Word.address_toInt, ok_bind, ← keeps.get]
      rfl
    · rw [Word.ofInt_toInt, keeps.watchers]
    · rw [Bus.memory_set, Memory.read, Word.address_toInt, ok_bind, Memory.get_set, if_pos rfl]
      rfl
  case beyond =>
    intro n beyond
    refine ⟨b.access_write_of_not beyond, fun watcher => ?_⟩
    rw [Bus.call, address_of_not beyond]
  case changes =>
    intro a n watcher
    simp only [Bus.watchersAt_call]
    by_cases here : n = Word.toInt a
    · subst here
      simp [BusCall.removes, BusCall.added, bne]
    · have other : (Word.toInt a == n) = false := beq_eq_false_iff_ne.2 (Ne.symm here)
      simp [BusCall.removes, BusCall.added, here, other]

/-- A watcher that is registered twice and another, a load that stops at the top of memory, and one
in which a watched word is written; between them memory is cleared and registrations are removed. -/
theorem notices_exact_twice :
    let history : List BusCall :=
      [.watch 5 "a", .watch 5 "b", .watch 5 "a", .access (.write 5 (-1)), .unwatch 5 "a",
        .access (.load [7, 8] 4), .access .clear, .access (.write 4294967301 3),
        .watch 4294967295 "b", .access (.load [1, 2] 4294967295), .access (.write 5 9),
        .unwatchAll 5, .access (.write 5 10)]
    (Bus.callAll {} history).notices.toList =
        [⟨"a", 5, 0, 0xFFFFFFFF⟩, ⟨"b", 5, 0, 0xFFFFFFFF⟩, ⟨"a", 5, 0, 0xFFFFFFFF⟩,
          ⟨"b", 5, 0xFFFFFFFF, 8⟩, ⟨"b", 4294967295, 0, 1⟩, ⟨"b", 5, 0, 9⟩] ∧
      IsAddress 4294967295 ∧
        (Bus.callAll {} history).memory.read 4294967295 = .ok (lastWritten 4294967295 history) ∧
      ¬ IsAddress 4294967296 ∧ (Bus.callAll {} history).call (.watch 4294967296 "a") =
        (.error (.outOfRange 4294967296), Bus.callAll {} history) := by
  intro history
  obtain ⟨told, _, inside, beyond, _⟩ := notices_exact history
  have top : IsAddress 4294967295 := by decide
  have past : ¬ IsAddress 4294967296 := by decide
  exact ⟨told.trans (by decide +kernel), top, (inside _ top).1, past, (beyond _ past).2 "a"⟩

end Chifir
