import Chifir.Proofs.Display.Windows
import Chifir.Proofs.Text.LetterCase

/-!
# Plans

A `Plan` is what settings come to: numbers and truth values instead of values that may spell them.

1. `Value.Counts`, `Value.Bounds` and `Value.Holds` are the accepted forms of an integer, of a
   budget and of a truth value. `Config.integerOf` and `Config.truthOf` take just these
   (`Value.counts_iff`, `Value.bounds_iff`, `Value.holds_iff`).
2. A plan is `Sound` if its window lies in memory and its budget is not negative. Settings pass
   their check if and only if their plan is sound (`Settings.check_eq_ok`), and then a display shows
   the window of the plan (`Settings.isShown_of_region?`).
3. Settings that pass have a plan unless one of them is a binary64 number (`Settings.exists_plan`).
-/

namespace Chifir

open Json (Value)

namespace Json.Value

/-! ## Accepted forms -/

/-- The forms of an integer: itself, a truth value, which counts as 0 or 1, or a numeral that may
name its base. -/
inductive Counts : Value → Int → Prop
  | number (n : Int) : Counts (.number n) n
  | truth (b : Bool) : Counts (.truth b) (if b then 1 else 0)
  | numeral {s : String} {n : Int} (spelled : Text.readInt .any s = .ok n) :
      Counts (.text (.whole s)) n

/-- The forms of a budget: those of an integer, and `null`, which is without bound. -/
inductive Bounds : Value → Option Int → Prop
  | null : Bounds .null none
  | counts {value : Value} {n : Int} (counts : value.Counts n) : Bounds value (some n)

/-- The forms of a truth value: itself, or its word in any letter case with blanks around it. -/
inductive Holds : Value → Bool → Prop
  | truth (b : Bool) : Holds (.truth b) b
  | yes {s : String} (spelled : Text.Spells "true".toList s.toList) : Holds (.text (.whole s)) true
  | no {s : String} (spelled : Text.Spells "false".toList s.toList) : Holds (.text (.whole s)) false

/-- A value is no binary64 number. -/
def IsExact (value : Value) : Prop := ∀ x, value ≠ .real x

/-- What a setting for a budget comes to: `null` to none, and a number to itself. -/
inductive IsBudget : Value → Option Int → Prop
  | null : IsBudget .null none
  | number {value : Value} {n : Int} (given : value.asNumber? = some (.whole n)) :
      IsBudget value (some n)

theorem isExact_of_whole {value : Value} {n : Int} (given : value.asNumber? = some (.whole n)) :
    value.IsExact := by
  rintro x rfl
  cases given

theorem IsBudget.isExact {value : Value} {budget : Option Int} (given : value.IsBudget budget) :
    value.IsExact := by
  rcases given with _ | given
  · exact fun x same => nomatch same
  · exact isExact_of_whole given

theorem IsBudget.unique {value : Value} {a b : Option Int} (first : value.IsBudget a)
    (second : value.IsBudget b) :
    a = b := by
  rcases first with _ | first
  · rcases second with _ | ⟨⟨⟩⟩
    rfl
  · rcases second with _ | second
    · cases first
    · cases first.symm.trans second
      rfl

theorem counts_iff {value : Value} {n : Int} :
    value.Counts n ↔ ∃ setting, Config.integerOf value = .ok setting ∧
      setting.asNumber? = some (.whole n) := by
  constructor
  · rintro (_ | _ | spelled)
    · exact ⟨_, rfl, rfl⟩
    · exact ⟨_, rfl, rfl⟩
    · exact ⟨.number n, by rw [Config.integerOf, spelled], rfl⟩
  · rintro ⟨setting, read, given⟩
    unfold Config.integerOf at read
    split at read
    · split at read
      · next spelled =>
        cases read
        cases given
        exact .numeral spelled
      · cases read
    · cases read
    · cases read
      cases value <;> cases given
      · exact .truth _
      · exact .number _

theorem bounds_iff {value : Value} {budget : Option Int} :
    value.Bounds budget ↔ ∃ setting, Config.integerOf value = .ok setting ∧
      setting.IsBudget budget := by
  constructor
  · rintro (_ | counts)
    · exact ⟨.null, rfl, .null⟩
    · obtain ⟨setting, read, given⟩ := counts_iff.1 counts
      exact ⟨setting, read, .number given⟩
  · rintro ⟨setting, read, _ | given⟩
    · unfold Config.integerOf at read
      split at read
      · split at read <;> cases read
      · cases read
      · cases read
        exact .null
    · exact .counts (counts_iff.2 ⟨setting, read, given⟩)

theorem holds_iff {key : String} {value : Value} {b : Bool} :
    value.Holds b ↔ Config.truthOf key value = .ok b := by
  have plainYes : ∀ x ∈ "true".toList, Text.IsPlain x := by simp [Text.IsPlain]
  have plainNo : ∀ x ∈ "false".toList, Text.IsPlain x := by simp [Text.IsPlain]
  constructor
  · rintro (_ | spelled | spelled)
    · rfl
    · have lowered := (Text.lower_trim_eq_iff (by decide) plainYes).2 spelled
      simp only [Config.truthOf, lowered]
      rfl
    · have lowered := (Text.lower_trim_eq_iff (by decide) plainNo).2 spelled
      simp only [Config.truthOf, lowered]
      rfl
  · intro read
    unfold Config.truthOf at read
    split at read
    · cases read
      exact .truth b
    · split at read
      · next lowered =>
        cases read
        exact .yes ((Text.lower_trim_eq_iff (by decide) plainYes).1
          (by rw [← lowered, String.toList_ofList]))
      · next lowered =>
        cases read
        exact .no ((Text.lower_trim_eq_iff (by decide) plainNo).1
          (by rw [← lowered, String.toList_ofList]))
      · cases read
    · cases read

theorem Counts.unique {value : Value} {m n : Int} (first : value.Counts m)
    (second : value.Counts n) : m = n := by
  obtain ⟨setting, read, given⟩ := counts_iff.1 first
  obtain ⟨setting', read', given'⟩ := counts_iff.1 second
  cases read.symm.trans read'
  cases given.symm.trans given'
  rfl

theorem Bounds.unique {value : Value} {a b : Option Int} (first : value.Bounds a)
    (second : value.Bounds b) :
    a = b := by
  rcases first with _ | first
  · rcases second with _ | ⟨⟨⟩⟩
    rfl
  · rcases second with _ | second
    · cases first
    · rw [first.unique second]

theorem Holds.unique {value : Value} {a b : Bool} (first : value.Holds a) (second : value.Holds b) :
    a = b := by
  have read : Config.truthOf "trace" value = .ok a := holds_iff.1 first
  exact Except.ok.inj (read.symm.trans (holds_iff.1 second))

end Json.Value

/-! ## Plans -/

/-- What settings come to: numbers and truth values, however they were spelled. -/
structure Plan where
  address : Int
  width : Int
  height : Int
  border : Bool
  maxSteps : Option Int
  trace : Bool
deriving DecidableEq

namespace Plan

/-- The numbers of a plan go together: its window has a pixel and lies in memory, and its budget is
not negative. -/
structure Sound (p : Plan) : Prop where
  address_nonneg : 0 ≤ p.address
  address_le : p.address ≤ 0xFFFFFFFF
  width_pos : 0 < p.width
  height_pos : 0 < p.height
  fits : p.address + p.width * p.height ≤ addressLimit
  budget_nonneg : ∀ n, p.maxSteps = some n → 0 ≤ n

/-- What the display shows is the window of a plan, which has the same `address`, `width` and
`height`. -/
def IsShown (p : Plan) (region : Region) : Prop :=
  ∃ window : Window, region = .window window ∧
    p.address = window.address ∧ p.width = window.width ∧ p.height = window.height

def budget (p : Plan) : Option Nat := p.maxSteps.map Int.toNat

end Plan

namespace Settings

/-- Settings come to a plan: each of them has the number or the truth value that the plan has for
it. -/
structure Gives (s : Settings) (p : Plan) : Prop where
  address : s.address.asNumber? = some (.whole p.address)
  width : s.width.asNumber? = some (.whole p.width)
  height : s.height.asNumber? = some (.whole p.height)
  border : s.border = p.border
  maxSteps : s.maxSteps.IsBudget p.maxSteps
  trace : s.trace = p.trace

variable {s : Settings} {p : Plan}

/-- Settings come to one plan at most, so `Gives` may be read as a function. -/
theorem Gives.unique {q : Plan} (first : s.Gives p) (second : s.Gives q) : p = q := by
  have address := first.address.symm.trans second.address
  have width := first.width.symm.trans second.width
  have height := first.height.symm.trans second.height
  have border := first.border.symm.trans second.border
  have maxSteps := first.maxSteps.unique second.maxSteps
  have trace := first.trace.symm.trans second.trace
  cases p
  cases q
  simp_all

theorem checkAddress_eq_ok (gives : s.Gives p) {address : Number} :
    s.checkAddress = .ok address ↔ address = .whole p.address ∧ 0 ≤ p.address ∧
      p.address ≤ 0xFFFFFFFF := by
  simp only [checkAddress, numberOf, gives.address, ok_bind, Number.le_whole, Bool.and_eq_true,
    decide_eq_true_eq]
  split
  · next inside =>
    constructor
    · rintro ⟨⟩
      exact ⟨rfl, inside.1, inside.2⟩
    · rintro ⟨rfl, -⟩
      rfl
  · next outside =>
    refine iff_of_false (by rintro ⟨⟩) ?_
    rintro ⟨-, inside⟩
    exact outside inside

theorem checkSize_eq_ok (gives : s.Gives p) {size : Number × Number} :
    s.checkSize = .ok size ↔ size = (.whole p.width, .whole p.height) ∧ 0 < p.width ∧
      0 < p.height := by
  simp only [checkSize, numberOf, gives.width, gives.height, ok_bind, Number.le_whole,
    decide_eq_true_eq]
  split
  · next narrow =>
    refine iff_of_false (by rintro ⟨⟩) ?_
    rintro ⟨-, wide, -⟩
    exact absurd wide (Int.not_lt.2 narrow)
  · next wide =>
    split
    · next flat =>
      refine iff_of_false (by rintro ⟨⟩) ?_
      rintro ⟨-, -, high⟩
      exact absurd high (Int.not_lt.2 flat)
    · next high =>
      constructor
      · rintro ⟨⟩
        exact ⟨rfl, Int.not_le.1 wide, Int.not_le.1 high⟩
      · rintro ⟨rfl, -⟩
        rfl

theorem checkBudget_eq_ok (gives : s.Gives p) {budget : Option Nat} :
    s.checkBudget = .ok budget ↔ budget = p.budget ∧ ∀ n, p.maxSteps = some n → 0 ≤ n := by
  have given := gives.maxSteps
  unfold checkBudget Plan.budget
  generalize s.maxSteps = value, p.maxSteps = bound at given ⊢
  rcases given with _ | given
  · constructor
    · rintro ⟨⟩
      exact ⟨rfl, by simp⟩
    · rintro ⟨rfl, -⟩
      rfl
  · next n =>
    split
    · cases given
    · simp only [numberOf, given, ok_bind, Number.lt_whole, decide_eq_true_eq, Option.map_some,
        Option.some.injEq, forall_eq', Number.ceil?_whole]
      split
      · next negative =>
        refine iff_of_false (by rintro ⟨⟩) ?_
        rintro ⟨-, nonneg⟩
        exact absurd negative (Int.not_lt.2 nonneg)
      · next nonneg =>
        constructor
        · rintro ⟨⟩
          exact ⟨rfl, Int.not_lt.1 nonneg⟩
        · rintro ⟨rfl, -⟩
          rfl

theorem checkTop_eq_ok {address width height : Int} :
    checkTop (.whole address) (.whole width) (.whole height) = .ok () ↔
      address + width * height ≤ addressLimit := by
  simp only [checkTop, Number.mul, Number.add, mapError_ok, ok_bind, Number.lt_whole,
    decide_eq_true_eq]
  split
  · next past =>
    refine iff_of_false (by rintro ⟨⟩) ?_
    exact Int.not_le.2 past
  · next fits => exact iff_of_true rfl (Int.not_lt.1 fits)

/-- Settings pass their check if and only if their plan is sound. -/
theorem check_eq_ok (gives : s.Gives p) {budget : Option Nat} :
    s.check = .ok budget ↔ p.Sound ∧ budget = p.budget := by
  constructor
  · intro passed
    obtain ⟨address, placed, passed⟩ := bind_eq_ok.1 passed
    obtain ⟨size, sized, passed⟩ := bind_eq_ok.1 passed
    obtain ⟨_, ended, bounded⟩ := bind_eq_ok.1 passed
    obtain ⟨rfl, nonneg, low⟩ := (checkAddress_eq_ok gives).1 placed
    obtain ⟨rfl, wide, high⟩ := (checkSize_eq_ok gives).1 sized
    obtain ⟨bound, steps⟩ := (checkBudget_eq_ok gives).1 bounded
    exact ⟨⟨nonneg, low, wide, high, checkTop_eq_ok.1 ended, steps⟩, bound⟩
  · rintro ⟨sound, rfl⟩
    have placed := (checkAddress_eq_ok gives).2 ⟨rfl, sound.address_nonneg, sound.address_le⟩
    have sized := (checkSize_eq_ok gives).2 ⟨rfl, sound.width_pos, sound.height_pos⟩
    have bounded := (checkBudget_eq_ok gives).2 ⟨rfl, sound.budget_nonneg⟩
    simp only [check, placed, sized, checkTop_eq_ok.2 sound.fits, bounded, ok_bind]

/-- What a display shows of settings is the window of their plan. -/
theorem isShown_of_region? (gives : s.Gives p) {region : Region}
    (shown : s.region? = some region) : p.IsShown region := by
  rw [region?_eq_some gives.address gives.width gives.height, Region.of_whole_eq_ok] at shown
  obtain ⟨window, made, rfl⟩ := shown
  exact ⟨window, rfl, window.eq_of_of made⟩

theorem exists_number {value : Value} {comparison : String} {flipped : Bool} {n : Number}
    (found : numberOf value comparison flipped = .ok n) (exact : value.IsExact) :
    ∃ m, value.asNumber? = some (.whole m) := by
  unfold numberOf at found
  cases value with
  | number m => exact ⟨m, rfl⟩
  | truth b => exact ⟨_, rfl⟩
  | real x => exact absurd rfl (exact x)
  | null | text | list | object => cases found

/-- Settings that pass come to a plan, if each of them `IsExact`, that is, no binary64 number. -/
theorem exists_plan {budget : Option Nat} (passed : s.check = .ok budget)
    (address : s.address.IsExact) (width : s.width.IsExact) (height : s.height.IsExact)
    (maxSteps : s.maxSteps.IsExact) : ∃ p, s.Gives p := by
  obtain ⟨_, placed, passed⟩ := bind_eq_ok.1 passed
  obtain ⟨_, sized, passed⟩ := bind_eq_ok.1 passed
  obtain ⟨_, _, bounded⟩ := bind_eq_ok.1 passed
  obtain ⟨a, placed, _⟩ := bind_eq_ok.1 placed
  obtain ⟨w, wide, sized⟩ := bind_eq_ok.1 sized
  obtain ⟨a, givenAddress⟩ := exists_number placed address
  obtain ⟨w, givenWidth⟩ := exists_number wide width
  obtain ⟨h, givenHeight⟩ : ∃ h, s.height.asNumber? = some (.whole h) := by
    split at sized
    · cases sized
    · obtain ⟨h, high, _⟩ := bind_eq_ok.1 sized
      exact exists_number high height
  obtain ⟨bound, given⟩ : ∃ bound, s.maxSteps.IsBudget bound := by
    unfold checkBudget at bounded
    split at bounded
    · next unbounded => exact ⟨none, unbounded ▸ .null⟩
    · obtain ⟨n, counted, _⟩ := bind_eq_ok.1 bounded
      obtain ⟨m, given⟩ := exists_number counted maxSteps
      exact ⟨m, .number given⟩
  exact ⟨⟨a, w, h, s.border, bound, s.trace⟩, givenAddress, givenWidth, givenHeight, rfl, given,
    rfl⟩

end Settings

/-- A configuration comes to a plan: its settings do, it shows the window of the plan and has its
budget. -/
structure Config.Gives (c : Config) (p : Plan) : Prop where
  settings : c.settings.Gives p
  region : p.IsShown c.region
  budget : c.budget = p.budget

variable {c : Config} {p : Plan}

theorem Config.Gives.of_settings (gives : c.settings.Gives p) : c.Gives p :=
  have passed := (Settings.check_eq_ok gives).1 c.checked
  ⟨gives, Settings.isShown_of_region? gives c.shown, passed.2⟩

theorem Config.Gives.sound (gives : c.Gives p) : p.Sound :=
  ((Settings.check_eq_ok gives.settings).1 c.checked).1

end Chifir
