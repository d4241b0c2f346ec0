import Mathlib.Data.List.DropRight
import Mathlib.Data.List.Induction
import Chifir.Keyboard

/-!
# What a poll answers

The sources of a keyboard are drained in different ways, and a program cannot tell them apart.

1. `Keyboard.act`, `Keyboard.answers`: one event, and the answers of events one after another.
2. `codeAfter`: the code that a poll is to answer, as the events before it say.
3. `ReadIn.flatten_eq`: however large the pieces are in which a terminal is read, the bytes are the
   same.
4. `Remembers.act`: what waits in the source and which key is remembered, kept by every event.
5. `polls_follow_law`: all answers, by induction on the events.
-/

namespace Chifir

/-! ## Events -/

/-- What is done with a keyboard. Bytes that are sent wait in its source until a poll. -/
inductive KeyEvent
  | press (code : Int)
  | feed (bytes : List UInt8)
  /-- Bytes arrive in the source. -/
  | send (bytes : List UInt8)
  | poll
  | reset
deriving DecidableEq, Repr

/-- What an event answers: a poll answers a code, a press may be refused, and the others have
nothing to say. -/
abbrev KeyAnswer := Except KeyboardError (Option UInt8)

namespace Keyboard

def act (k : Keyboard) : KeyEvent → KeyAnswer × Keyboard
  | .press code =>
    match k.press code with
    | .ok pressed => (.ok none, pressed)
    | .error e => (.error e, k)
  | .feed bytes => (.ok none, k.feed bytes)
  | .send bytes => (.ok none, k.send bytes)
  | .poll => (.ok (some k.poll.1), k.poll.2)
  | .reset => (.ok none, k.reset)

def after (k : Keyboard) (events : List KeyEvent) : Keyboard :=
  events.foldl (fun k e => (k.act e).2) k

def answers (k : Keyboard) : List KeyEvent → List KeyAnswer
  | [] => []
  | e :: later => (k.act e).1 :: (k.act e).2.answers later

end Keyboard

/-! ## The law -/

def IsKeyCode (code : Int) : Prop := 0 ≤ code ∧ code ≤ 0xFF

instance (code : Int) : Decidable (IsKeyCode code) := inferInstanceAs (Decidable (_ ∧ _))

namespace KeyEvent

def sent : KeyEvent → List UInt8
  | send bytes => bytes
  | _ => []

/-- The keys that an event gives to the keyboard itself. A refused press gives none. -/
def keys : KeyEvent → List UInt8
  | press code => if IsKeyCode code then [UInt8.ofNat code.toNat] else []
  | feed bytes => bytes
  | _ => []

end KeyEvent

def sentSincePoll (past : List KeyEvent) : List UInt8 :=
  (past.rtakeWhile (· ≠ .poll)).flatMap KeyEvent.sent

/-- All keys given to the keyboard itself since the last poll or reset, whichever was later. -/
def keysSinceForgotten (past : List KeyEvent) : List UInt8 :=
  (past.rtakeWhile fun e => e ≠ .poll ∧ e ≠ .reset).flatMap KeyEvent.keys

/-- The code that a poll is to answer: the last byte sent comes before the last key given otherwise.
-/
def codeAfter (past : List KeyEvent) : UInt8 :=
  ((sentSincePoll past).getLast? <|> (keysSinceForgotten past).getLast?).getD 0

/-- What an event is to answer, by what has been done before. -/
def KeyEvent.due (past : List KeyEvent) : KeyEvent → KeyAnswer
  | press code => if IsKeyCode code then .ok none else .error (.codeOutOfRange code)
  | poll => .ok (some (codeAfter past))
  | _ => .ok none

def dueFrom (past : List KeyEvent) : List KeyEvent → List KeyAnswer
  | [] => []
  | e :: later => e.due past :: dueFrom (past ++ [e]) later

/-! ## Reading in pieces -/

/-- The pieces in which bytes may be read from a terminal until none is left: each as large as the
read likes, but for its limit, and none empty. -/
inductive ReadIn : List UInt8 → List (List UInt8) → Prop
  | done : ReadIn [] []
  | piece {piece rest : List UInt8} {pieces : List (List UInt8)} (some : piece ≠ [])
      (short : piece.length ≤ terminalChunk) (later : ReadIn rest pieces) :
      ReadIn (piece ++ rest) (piece :: pieces)

theorem ReadIn.flatten_eq {waiting : List UInt8} {pieces : List (List UInt8)}
    (read : ReadIn waiting pieces) :
    pieces.flatten = waiting := by
  induction read with
  | done => rfl
  | piece _ _ _ ih => rw [List.flatten_cons, ih]

theorem readIn_drainInChunks (waiting : List UInt8) : ReadIn waiting (drainInChunks waiting) := by
  fun_induction drainInChunks waiting with
  | case1 waiting none =>
    rw [List.isEmpty_iff.1 none]
    exact .done
  | case2 waiting left ih =>
    have some : waiting.take terminalChunk ≠ [] := by
      simpa [List.take_eq_nil_iff, terminalChunk] using left
    have read := ReadIn.piece some (List.length_take_le ..) ih
    rwa [List.take_append_drop] at read

/-! ## What a keyboard remembers -/

variable {k : Keyboard} {source : KeySource} {past : List KeyEvent} {e : KeyEvent}

theorem sentSincePoll_concat (past : List KeyEvent) (e : KeyEvent) :
    sentSincePoll (past ++ [e]) = if e = .poll then [] else sentSincePoll past ++ e.sent := by
  by_cases polls : e = .poll <;> simp [sentSincePoll, polls]

theorem keysSinceForgotten_concat (past : List KeyEvent) (e : KeyEvent) :
    keysSinceForgotten (past ++ [e]) =
      if e = .poll ∨ e = .reset then [] else keysSinceForgotten past ++ e.keys := by
  by_cases polls : e = .poll
  · simp [keysSinceForgotten, polls]
  · by_cases resets : e = .reset <;> simp [keysSinceForgotten, polls, resets]

namespace Keyboard

def Bare (k : Keyboard) : Prop := k.source = .direct → k.waiting = []

theorem Bare.drain_eq (bare : k.Bare) : k.drain = (k.waiting, []) := by
  by_cases direct : k.source = .direct
  · rw [drain, direct, bare direct]
  · exact k.drain_eq direct

/-- A poll takes all that waits, and forgets the `last` key. -/
theorem Bare.poll_eq (bare : k.Bare) :
    k.poll = ((k.waiting.getLast? <|> k.last).getD 0, { k with waiting := [], last := none }) := by
  rw [poll, bare.drain_eq]
  rfl

theorem act_press (k : Keyboard) (code : Int) :
    k.act (.press code) =
      if IsKeyCode code then (.ok none, { k with last := some (UInt8.ofNat code.toNat) })
      else (.error (.codeOutOfRange code), k) := by
  by_cases within : IsKeyCode code
  · rw [act, show k.press code = .ok _ from if_pos within, if_pos within]
  · rw [act, show k.press code = .error _ from if_neg within, if_neg within]

theorem source_act (k : Keyboard) (e : KeyEvent) : (k.act e).2.source = k.source := by
  cases e with
  | press code =>
    rw [act_press]
    split <;> rfl
  | send bytes =>
    rw [act, send]
    split <;> rfl
  | feed | poll | reset => rfl

theorem Bare.waiting_act (bare : k.Bare) (reaches : k.source = .direct → e.sent = []) :
    (k.act e).2.waiting = if e = .poll then [] else k.waiting ++ e.sent := by
  cases e with
  | press code =>
    rw [act_press]
    split <;> simp [KeyEvent.sent]
  | send bytes =>
    rw [act, send]
    split
    · next direct => rw [reaches direct, List.append_nil, if_neg (by simp)]
    · rfl
  | poll =>
    rw [act, bare.poll_eq]
    rfl
  | feed | reset => simp [act, feed, reset, KeyEvent.sent]

theorem Bare.last_act (bare : k.Bare) (e : KeyEvent) :
    (k.act e).2.last = if e = .poll ∨ e = .reset then none else e.keys.getLast? <|> k.last := by
  cases e with
  | press code =>
    rw [act_press]
    split <;> simp [KeyEvent.keys, *]
  | send bytes =>
    rw [act, send]
    split <;> simp [KeyEvent.keys]
  | poll =>
    rw [act, bare.poll_eq]
    rfl
  | feed => simp [act, feed, KeyEvent.keys]
  | reset => rfl

/-- Whatever its source, a keyboard has waiting there what was sent since the last poll, and it
remembers the last key since that poll or a later reset. -/
structure Remembers (k : Keyboard) (past : List KeyEvent) : Prop where
  waiting : k.waiting = sentSincePoll past
  last : k.last = (keysSinceForgotten past).getLast?
  bare : k.Bare

theorem remembers_nil (source : KeySource) : ({ source } : Keyboard).Remembers [] :=
  ⟨rfl, rfl, fun _ => rfl⟩

/-- Every event keeps what a keyboard `Remembers`, as long as nothing is sent where there is no
source. -/
theorem Remembers.act (remembers : k.Remembers past) (reaches : k.source = .direct → e.sent = []) :
    (k.act e).2.Remembers (past ++ [e]) := by
  obtain ⟨waiting, last, bare⟩ := remembers
  have left := bare.waiting_act reaches
  refine ⟨?_, ?_, fun direct => ?_⟩
  · rw [left, sentSincePoll_concat, waiting]
  · rw [bare.last_act, keysSinceForgotten_concat, last]
    by_cases forgets : e = .poll ∨ e = .reset
    · rw [if_pos forgets, if_pos forgets]
      rfl
    · rw [if_neg forgets, if_neg forgets, List.getLast?_append]
      exact Option.or_eq_orElse.symm
  · rw [source_act] at direct
    rw [left, reaches direct, bare direct]
    split <;> rfl

theorem Remembers.answer (remembers : k.Remembers past) (e : KeyEvent) :
    (k.act e).1 = e.due past := by
  cases e with
  | press code =>
    rw [act_press, KeyEvent.due]
    split <;> rfl
  | poll =>
      rw [Keyboard.act, remembers.bare.poll_eq, KeyEvent.due, codeAfter, remembers.waiting,
        remembers.last]
  | feed | send | reset => rfl

/-! ## All events -/

variable {events : List KeyEvent}

/-- Bytes are sent only to a keyboard that has a source. -/
def Reached (source : KeySource) (events : List KeyEvent) : Prop :=
  source = .direct → ∀ bytes, KeyEvent.send bytes ∉ events

theorem sent_of_reached (reached : Reached source events) (mem : e ∈ events)
    (direct : source = .direct) :
    e.sent = [] := by
  cases e with
  | send bytes => exact absurd mem (reached direct bytes)
  | _ => rfl

theorem Remembers.answers (remembers : k.Remembers past) (reached : Reached k.source events) :
    k.answers events = dueFrom past events := by
  induction events generalizing k past with
  | nil => rfl
  | cons e later ih =>
    have next := remembers.act (sent_of_reached reached List.mem_cons_self)
    have onward : Reached (k.act e).2.source later := fun direct bytes mem =>
      reached ((source_act k e).symm.trans direct) bytes (List.mem_cons_of_mem e mem)
    rw [Keyboard.answers, dueFrom, remembers.answer, ih next onward]

theorem remembers_after (reached : Reached source events) :
    (({ source } : Keyboard).after events).source = source ∧
      (({ source } : Keyboard).after events).Remembers events := by
  induction events using List.reverseRecOn with
  | nil => exact ⟨rfl, remembers_nil source⟩
  | append_singleton past e ih =>
    obtain ⟨same, remembers⟩ :=
      ih fun direct bytes mem => reached direct bytes (List.mem_append_left _ mem)
    rw [after, List.foldl_concat]
    refine ⟨(source_act _ e).trans same, remembers.act fun direct => ?_⟩
    exact sent_of_reached reached (by simp) (same.symm.trans direct)

/-- Whatever its source, a keyboard answers each poll as `codeAfter` says, by what has been done
before. A press of what is no code is refused and changes nothing, a reset leaves all that waits,
and in whatever pieces a terminal is read, a poll gets the same bytes. So all sources that bytes are
sent to give the same answers. -/
theorem polls_follow_law (reached : Reached source events) :
    let k := ({ source } : Keyboard).after events
    ({ source } : Keyboard).answers events = dueFrom [] events ∧
      (∀ code, ¬ IsKeyCode code → k.act (.press code) = (.error (.codeOutOfRange code), k)) ∧
      (k.act .reset).2.waiting = k.waiting ∧
      ReadIn k.waiting (drainInChunks k.waiting) ∧
        (∀ pieces, ReadIn k.waiting pieces → pieces.flatten = k.drain.1) ∧
      ∀ other, source ≠ .direct → other ≠ .direct →
        ({ source := other } : Keyboard).answers events =
          ({ source } : Keyboard).answers events := by
  intro k
  obtain ⟨same, remembers⟩ := remembers_after reached
  have law := (remembers_nil source).answers reached
  refine ⟨law, fun code beyond => ?_, rfl, readIn_drainInChunks _, fun pieces read => ?_,
    fun other _ linked => ?_⟩
  · rw [act_press, if_neg beyond]
  · rw [read.flatten_eq, remembers.bare.drain_eq]
  · rw [law, (remembers_nil other).answers fun direct => absurd direct linked]

/-- A burst that a terminal is not read in at once, between keys that are pressed. A reset forgets
the key and not the burst. -/
theorem polls_follow_law_burst :
    let burst : List UInt8 := .replicate 1024 7 ++ [9]
    let events : List KeyEvent :=
      [.press 65, .send burst, .reset, .press 300, .poll, .poll, .feed [1, 2], .send [], .feed [],
        .poll]
    Reached .terminal events ∧
      ({ source := .terminal } : Keyboard).answers events =
        [.ok none, .ok none, .ok none, .error (.codeOutOfRange 300), .ok (some 9), .ok (some 0),
          .ok none, .ok none, .ok none, .ok (some 2)] := by
  intro burst events
  have reached : Reached .terminal events := fun direct => by cases direct
  exact ⟨reached, (polls_follow_law reached).1.trans (by decide +kernel)⟩

end Keyboard

end Chifir
