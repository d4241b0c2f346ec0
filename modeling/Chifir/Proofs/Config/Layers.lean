import Chifir.Proofs.Config.Overrides

/-!
# Layers of settings

Settings are given in layers, each the members of an object, over a configuration.

1. `Over`: field by field the topmost layer that has the key decides, in any of the forms that are
   accepted, and what no layer has comes from below.
2. `override_gives_iff`: one object is laid over a configuration successfully if and only if its
   profile and its keys exist, its values have accepted forms, and the plan that they come to is
   sound as a whole.
3. `over_cons_iff`: a layer over what some layers come to is one layer more.
-/

namespace Chifir.Config

open Json (Members Str Value)

/-! ## One field -/

section
variable {α β : Type}

/-- What is read is what a setting comes to, so a field of a `Plan` resolves as that of the settings
does. -/
theorem exists_resolves {reads : Value → α → Prop} {reads' : Value → β → Prop}
    (comes : α → β → Prop) (forms : ∀ value b, reads' value b ↔ ∃ a, reads value a ∧ comes a b)
    {given : Option Value} {below : α} {below' : β} (lies : ∀ b, comes below b ↔ b = below')
    {above : β} :
    Resolves reads' given below' above ↔ ∃ a, Resolves reads given below a ∧ comes a above := by
  cases given with
  | none => simp [lies]
  | some value => exact forms value above

/-- Over what a setting comes to already, only the layer above counts. -/
theorem resolves_or {reads : Value → α → Prop}
    (unique : ∀ value a b, reads value a → reads value b → a = b) {top given : Option Value}
    {below between above : α} (lower : Resolves reads given below between) :
    Resolves reads (top.or given) below above ↔ Resolves reads top between above := by
  cases top with
  | some value => rfl
  | none =>
    cases given with
    | none => rw [resolves_none] at lower; rw [lower]; rfl
    | some value =>
        exact ⟨fun upper => unique _ _ _ upper lower,
          fun same => (same ▸ lower : reads value above)⟩

end

/-! ## Plans over plans -/

/-- The value that the topmost of some layers has for a key, if any of them has one. -/
def topmost (layers : List Members) (key : String) : Option Value :=
  layers.findSome? (·.lookup (.whole key))

theorem topmost_cons {top : Members} {layers : List Members} {key : String} :
    topmost (top :: layers) key = (topmost [top] key).or (topmost layers key) := by
  cases found : top.lookup (.whole key) <;> simp [topmost, found]

theorem topmost_singleton {members : Members} {key : String} :
    topmost [members] key = members.lookup (.whole key) := by
  cases found : members.lookup (.whole key) <;> simp [topmost, found]

/-- A plan is what layers, the topmost first, make of the plan below. -/
structure Over (layers : List Members) (below above : Plan) : Prop where
  address : Resolves Value.Counts (topmost layers "display_address") below.address above.address
  width : Resolves Value.Counts (topmost layers "display_width") below.width above.width
  height : Resolves Value.Counts (topmost layers "display_height") below.height above.height
  border : Resolves Value.Holds (topmost layers "display_border") below.border above.border
  maxSteps : Resolves Value.Bounds (topmost layers "max_steps") below.maxSteps above.maxSteps
  trace : Resolves Value.Holds (topmost layers "trace") below.trace above.trace

theorem over_cons_iff {top : Members} {layers : List Members} {below between above : Plan}
    (lower : Over layers below between) :
    Over (top :: layers) below above ↔ Over [top] between above := by
  have counts : ∀ value m n, Value.Counts value m → Value.Counts value n → m = n :=
    fun _ _ _ => Value.Counts.unique
  have bounds : ∀ value m n, Value.Bounds value m → Value.Bounds value n → m = n :=
    fun _ _ _ => Value.Bounds.unique
  have holds : ∀ value m n, Value.Holds value m → Value.Holds value n → m = n :=
    fun _ _ _ => Value.Holds.unique
  constructor
  · rintro ⟨address, width, height, border, maxSteps, trace⟩
    rw [topmost_cons] at address width height border maxSteps trace
    exact ⟨(resolves_or counts lower.address).1 address, (resolves_or counts lower.width).1 width,
      (resolves_or counts lower.height).1 height, (resolves_or holds lower.border).1 border,
      (resolves_or bounds lower.maxSteps).1 maxSteps, (resolves_or holds lower.trace).1 trace⟩
  · rintro ⟨address, width, height, border, maxSteps, trace⟩
    constructor <;> rw [topmost_cons]
    · exact (resolves_or counts lower.address).2 address
    · exact (resolves_or counts lower.width).2 width
    · exact (resolves_or counts lower.height).2 height
    · exact (resolves_or holds lower.border).2 border
    · exact (resolves_or bounds lower.maxSteps).2 maxSteps
    · exact (resolves_or holds lower.trace).2 trace

/-! ## One object -/

section
variable {given : Option Value}

theorem resolves_counts {below : Value} {m n : Int} (lies : below.asNumber? = some (.whole m)) :
    Resolves Value.Counts given m n ↔
      ∃ setting, Resolves (integerOf · = .ok ·) given below setting ∧
        setting.asNumber? = some (.whole n) := by
  apply exists_resolves fun (setting : Value) (n : Int) => setting.asNumber? = some (.whole n)
  · exact fun _ _ => Value.counts_iff
  · intro n
    rw [lies, Option.some.injEq, Number.whole.injEq, eq_comm]

theorem resolves_bounds {below : Value} {m n : Option Int} (lies : below.IsBudget m) :
    Resolves Value.Bounds given m n ↔
      ∃ setting, Resolves (integerOf · = .ok ·) given below setting ∧ setting.IsBudget n := by
  apply exists_resolves Value.IsBudget
  · exact fun _ _ => Value.bounds_iff
  · exact fun n => ⟨fun other => other.unique lies, fun same => same ▸ lies⟩

theorem resolves_holds (key : String) {a b : Bool} :
    Resolves Value.Holds given a b ↔ Resolves (truthOf key · = .ok ·) given a b := by
  cases given with
  | none => rfl
  | some value => exact Value.holds_iff

end

section
variable {members : Members} {s : Settings} {below above : Plan}

/-- The plan that an object makes of a plan is that of the settings it makes of the settings: `Over`
and `Assigned` agree. -/
theorem over_iff (gives : s.Gives below) :
    Over [members] below above ↔ ∃ s', Assigned members s s' ∧ s'.Gives above := by
  constructor
  · rintro ⟨address, width, height, border, maxSteps, trace⟩
    rw [topmost_singleton] at address width height border maxSteps trace
    obtain ⟨a, address, givenAddress⟩ := (resolves_counts gives.address).1 address
    obtain ⟨w, width, givenWidth⟩ := (resolves_counts gives.width).1 width
    obtain ⟨h, height, givenHeight⟩ := (resolves_counts gives.height).1 height
    obtain ⟨n, maxSteps, givenSteps⟩ := (resolves_bounds gives.maxSteps).1 maxSteps
    rw [resolves_holds "display_border", ← gives.border] at border
    rw [resolves_holds "trace", ← gives.trace] at trace
    exact ⟨⟨a, w, h, above.border, n, above.trace⟩,
      ⟨address, width, height, border, maxSteps, trace⟩,
      ⟨givenAddress, givenWidth, givenHeight, rfl, givenSteps, rfl⟩⟩
  · rintro ⟨s', assigned, given⟩
    constructor <;> rw [topmost_singleton]
    · exact (resolves_counts gives.address).2 ⟨s'.address, assigned.address, given.address⟩
    · exact (resolves_counts gives.width).2 ⟨s'.width, assigned.width, given.width⟩
    · exact (resolves_counts gives.height).2 ⟨s'.height, assigned.height, given.height⟩
    · rw [resolves_holds "display_border", ← gives.border, ← given.border]
      exact assigned.border
    · exact (resolves_bounds gives.maxSteps).2 ⟨s'.maxSteps, assigned.maxSteps, given.maxSteps⟩
    · rw [resolves_holds "trace", ← gives.trace, ← given.trace]
      exact assigned.trace

end

/-! ## Configurations -/

theorem isExact_of_integerOf {value setting : Value} (exact : value.IsExact)
    (read : integerOf value = .ok setting) :
    setting.IsExact := by
  unfold integerOf at read
  split at read
  · split at read
    · cases read
      exact fun x same => nomatch same
    · cases read
  · cases read
  · cases read
    exact exact

section
variable {members : Members}

theorem isExact_of_resolves (exact : ∀ member ∈ members, member.2.IsExact) {key : Str}
    {below above : Value} (lies : below.IsExact)
    (resolves : Resolves (integerOf · = .ok ·) (members.lookup key) below above) :
    above.IsExact := by
  cases found : members.lookup key with
  | none =>
    rw [found, resolves_none] at resolves
    exact resolves ▸ lies
  | some value =>
    rw [found, resolves_some] at resolves
    exact isExact_of_integerOf (isExact_of_lookup exact found) resolves

/-- What passes over a plan comes to a plan again, since no binary64 number can come in. -/
theorem exists_plan_of_assigned (exact : ∀ member ∈ members, member.2.IsExact) {s s' : Settings}
    {below : Plan} (gives : s.Gives below) (assigned : Assigned members s s') {budget : Option Nat}
    (passed : s'.check = .ok budget) : ∃ p, s'.Gives p := by
  refine Settings.exists_plan passed ?_ ?_ ?_ ?_
  · exact isExact_of_resolves exact (Value.isExact_of_whole gives.address) assigned.address
  · exact isExact_of_resolves exact (Value.isExact_of_whole gives.width) assigned.width
  · exact isExact_of_resolves exact (Value.isExact_of_whole gives.height) assigned.height
  · exact isExact_of_resolves exact gives.maxSteps.isExact assigned.maxSteps

theorem exists_plan_of_profile {name : String} {c : Config} (known : (name, c) ∈ profiles) :
    ∃ p, c.Gives p := by
  have sized_gives (a w h : Int) : (sized a w h).Gives ⟨a, w, h, false, none, false⟩ :=
    ⟨rfl, rfl, rfl, rfl, .null, rfl⟩
  simp only [profiles, List.mem_cons, Prod.mk.injEq, List.not_mem_nil, or_false] at known
  rcases known with ⟨-, rfl⟩ | ⟨-, rfl⟩ | ⟨-, rfl⟩ <;> exact ⟨_, .of_settings (sized_gives _ _ _)⟩

theorem exists_plan_of_under {base under : Config} (lies : Under members base under) {below : Plan}
    (gives : base.Gives below) : ∃ u, under.Gives u := by
  cases lies with
  | base => exact ⟨below, gives⟩
  | profile names known => exact exists_plan_of_profile known

variable (nodup : (members.map (·.1)).Nodup) (exact : ∀ member ∈ members, member.2.IsExact)
    {base : Config}
  {below : Plan}
include nodup exact

theorem exists_plan_of_override (gives : base.Gives below) {c : Config}
    (done : base.override members = .ok c) :
    ∃ p, c.Gives p := by
  obtain ⟨under, lies, known, assigned⟩ := (override_eq_ok nodup exact).1 done
  obtain ⟨u, given⟩ := exists_plan_of_under lies gives
  obtain ⟨p, given⟩ := exists_plan_of_assigned exact given.settings assigned c.checked
  exact ⟨p, .of_settings given⟩

/-- One object is laid over a configuration successfully if and only if the profile and the keys
exist, the values have accepted forms, and what they come to goes together. -/
theorem override_gives_iff (gives : base.Gives below) {p : Plan} :
    (∃ c, base.override members = .ok c ∧ c.Gives p) ↔
      ∃ under u, Under members base under ∧ under.Gives u ∧ Known members ∧ Over [members] u p ∧
        p.Sound := by
  constructor
  · rintro ⟨c, done, comes⟩
    obtain ⟨under, lies, known, assigned⟩ := (override_eq_ok nodup exact).1 done
    obtain ⟨u, given⟩ := exists_plan_of_under lies gives
    exact ⟨under, u, lies, given, known, (over_iff given.settings).2 ⟨_, assigned, comes.settings⟩,
      comes.sound⟩
  · rintro ⟨under, u, lies, given, known, layered, sound⟩
    obtain ⟨s, assigned, comes⟩ := (over_iff given.settings).1 layered
    have passed := (Settings.check_eq_ok comes).2 ⟨sound, rfl⟩
    obtain ⟨c, rfl⟩ := exists_of_check passed
    exact ⟨c, (override_eq_ok nodup exact).2 ⟨under, lies, known, assigned⟩, .of_settings comes⟩

end

end Chifir.Config
