import Chifir.Proofs.Config.Plans
import Mathlib.Data.List.Perm.Basic

/-!
# Objects over configurations

`Config.override` goes through the members in order, over settings that may be wrong on the way.
What comes out is a matter of the keys alone, and of the whole:

1. `Assigned` says field by field what members make of settings, by their keys alone
   (`foldlM_assign`).
2. `Under` is the configuration that members are laid over: the profile that they name, else the one
   that is given.
3. `override_eq_ok`: laying members over a configuration succeeds with the configuration whose
   settings are so assigned, if every key is known. `override_perm`: so the order of the members
   does not matter.
4. `override_congr`: of two values that assign the same, either may stand for a key.
-/

namespace Chifir.Config

open Json (Members Str Value)

/-! ## Members by key -/

section
variable {α β : Type} [DecidableEq α] {members : List (α × β)} {key : α} {value : β}

theorem lookup_cons {member : α × β} :
    List.lookup key (member :: members) = if key = member.1 then some member.2
      else members.lookup key := by
  rw [List.lookup_cons]
  by_cases own : key = member.1
  · rw [if_pos own, beq_iff_eq.2 own]
  · rw [if_neg own, beq_eq_false_iff_ne.2 own]

theorem lookup_eq_some (nodup : (members.map (·.1)).Nodup) :
    members.lookup key = some value ↔ (key, value) ∈ members := by
  induction members with
  | nil => simp
  | cons member members ih =>
    obtain ⟨fresh, nodup⟩ := List.nodup_cons.1 nodup
    rw [lookup_cons, List.mem_cons]
    split
    · next own =>
      subst own
      have absent : (member.1, value) ∉ members := fun mem => fresh (List.mem_map.2 ⟨_, mem, rfl⟩)
      simp [Prod.ext_iff, absent, eq_comm]
    · next other =>
      rw [ih nodup]
      simp [Prod.ext_iff, other]

theorem lookup_perm {members' : List (α × β)} (nodup : (members.map (·.1)).Nodup)
    (perm : members.Perm members') :
    members.lookup key = members'.lookup key := by
  have nodup' : (members'.map (·.1)).Nodup := (perm.map _).nodup_iff.1 nodup
  refine Option.ext fun value => ?_
  rw [lookup_eq_some nodup, lookup_eq_some nodup', perm.mem_iff]

theorem lookup_filter {p : α → Bool} (kept : p key = true) :
    (members.filter (p ·.1)).lookup key = members.lookup key := by
  induction members with
  | nil => rfl
  | cons member members ih =>
    rw [lookup_cons, List.filter_cons]
    split
    · rw [lookup_cons, ih]
    · next dropped =>
      rw [if_neg (by rintro rfl; exact dropped kept), ih]

theorem lookup_eq_none (absent : key ∉ members.map (·.1)) : members.lookup key = none := by
  rw [List.lookup_eq_none_iff]
  intro member mem
  simp only [bne_iff_ne]
  rintro rfl
  exact absent (List.mem_map_of_mem mem)

end

/-! ## One setting -/

/-- What becomes of a setting: a given value is read, and what is not given stays. -/
def Resolves {α : Type} (reads : Value → α → Prop) (given : Option Value) (below above : α) :
    Prop :=
  match given with
  | some value => reads value above
  | none => above = below

section
variable {α : Type} {reads : Value → α → Prop} {below above : α}

@[simp] theorem resolves_some {value : Value} : Resolves reads (some value) below above ↔
    reads value above := Iff.rfl

@[simp] theorem resolves_none : Resolves reads none below above ↔ above = below := Iff.rfl

end

/-! ## The settings of an object -/

/-- What members make of settings: each setting `Resolves` to what the member with its key spells.
-/
@[mk_iff]
structure Assigned (members : Members) (s s' : Settings) : Prop where
  address : Resolves (integerOf · = .ok ·) (members.lookup (.whole "display_address")) s.address
    s'.address
  width : Resolves (integerOf · = .ok ·) (members.lookup (.whole "display_width")) s.width s'.width
  height : Resolves (integerOf · = .ok ·) (members.lookup (.whole "display_height")) s.height
    s'.height
  border : Resolves (truthOf "display_border" · = .ok ·) (members.lookup (.whole "display_border"))
    s.border s'.border
  maxSteps : Resolves (integerOf · = .ok ·) (members.lookup (.whole "max_steps")) s.maxSteps
    s'.maxSteps
  trace : Resolves (truthOf "trace" · = .ok ·) (members.lookup (.whole "trace")) s.trace s'.trace

theorem assigned_nil {s s' : Settings} : Assigned [] s s' ↔ s' = s := by
  cases s
  cases s'
  simp [assigned_iff]

theorem mem_settingKeys {key : Str} :
    key ∈ settingKeys.map .whole ↔
      key = .whole "display_address" ∨ key = .whole "display_width" ∨
        key = .whole "display_height" ∨ key = .whole "display_border" ∨ key = .whole "max_steps" ∨
          key = .whole "trace" := by
  simp [settingKeys]

theorem known_of_assign {s s' : Settings} {key : Str} {value : Value}
    (done : assign s key value = .ok s') :
    key ∈ settingKeys.map .whole := by
  rw [mem_settingKeys]
  unfold assign at done
  split at done
  all_goals first | cases done | simp

theorem assigned_cons {key : Str} {value : Value} {members : Members} {s s' : Settings}
    (absent : members.lookup key = none) (known : key ∈ settingKeys.map .whole) :
    (∃ between, assign s key value = .ok between ∧ Assigned members between s') ↔
      Assigned ((key, value) :: members) s s' := by
  -- Each key decides its own field, and the lookups of the five others pass it by.
  rcases mem_settingKeys.1 known with rfl | rfl | rfl | rfl | rfl | rfl <;>
    simp only [assign, exists_bind_pure]  <;>
    simp [assigned_iff, lookup_cons, absent, -Bool.exists_bool, and_assoc, and_left_comm, and_comm]

theorem foldlM_assign {members : Members} {s s' : Settings} (nodup : (members.map (·.1)).Nodup) :
    members.foldlM (fun s member => assign s member.1 member.2) s = .ok s' ↔
      (∀ member ∈ members, member.1 ∈ settingKeys.map .whole) ∧ Assigned members s s' := by
  induction members generalizing s with
  | nil =>
    rw [assigned_nil]
    exact ⟨fun done => ⟨by simp, (Except.ok.inj done).symm⟩, fun done => congrArg _ done.2.symm⟩
  | cons member members ih =>
    obtain ⟨fresh, nodup⟩ := List.nodup_cons.1 nodup
    -- No later member has this key, so what it assigns stays.
    have absent := lookup_eq_none fresh
    rw [List.foldlM_cons, bind_eq_ok, List.forall_mem_cons]
    constructor
    · rintro ⟨between, done, rest⟩
      obtain ⟨known, rest⟩ := (ih nodup).1 rest
      exact ⟨⟨known_of_assign done, known⟩, (assigned_cons absent (known_of_assign done)).1
        ⟨between, done, rest⟩⟩
    · rintro ⟨⟨own, known⟩, assigned⟩
      obtain ⟨between, done, rest⟩ := (assigned_cons absent own).2 assigned
      exact ⟨between, done, (ih nodup).2 ⟨known, rest⟩⟩

/-! ## The profile of an object -/

/-- What members are laid over: the profile that they name, else the configuration that is given. -/
inductive Under (members : Members) (base : Config) : Config → Prop
  | base (unnamed : ∀ value, members.lookup (.whole "profile") = some value → value = .null) :
      Under members base base
  | profile {name : String} {under : Config}
      (names : members.lookup (.whole "profile") = some (.text (.whole name)))
      (known : (name, under) ∈ profiles) : Under members base under

theorem profile_eq_ok {name : String} {under : Config} :
    profile name = .ok under ↔ (name, under) ∈ profiles := by
  have distinct : (profiles.map (·.1)).Nodup := by decide
  rw [← lookup_eq_some distinct, profile]
  split
  · next found => simp [found]
  · next none => simp [none]

theorem isDigit_of_mem_decimal {n : Int} {c : Char} (mem : c ∈ (Text.decimal n).toList) :
    c.isDigit = true ∨ c = '-' := by
  have digits (m : Nat) (mem : c ∈ m.repr.toList) : c.isDigit = true := by
    rw [Nat.repr_eq_ofList_toDigits, String.toList_ofList] at mem
    exact Nat.isDigit_of_mem_toDigits (by decide) (by decide) mem
  rw [Text.decimal, Int.toString_eq_repr, Int.repr_eq_if] at mem
  split at mem
  · exact .inl (digits _ mem)
  · rw [String.toList_append, List.mem_append] at mem
    rcases mem with sign | mem
    · exact .inr (by simpa using sign)
    · exact .inl (digits _ mem)

theorem name_of_profile {name : String} {under : Config} (known : (name, under) ∈ profiles) :
    (∀ n, name ≠ Text.decimal n) ∧ name ≠ "True" ∧ name ≠ "False" := by
  have letters : ∀ profile ∈ profileNames, (∃ c ∈ profile.toList, c.isDigit = false ∧ c ≠ '-') ∧
      profile ≠ "True" ∧ profile ≠ "False" := by simp [profileNames, profiles]
  obtain ⟨⟨c, mem, noDigit, noSign⟩, others⟩ := letters name (List.mem_map_of_mem known)
  refine ⟨?_, others⟩
  rintro n rfl
  rcases isDigit_of_mem_decimal mem with digit | sign
  · rw [noDigit] at digit
    cases digit
  · exact noSign sign

theorem profileOf_eq_ok {value : Value} (exact : value.IsExact) {named : Option Config} :
    profileOf value = .ok named ↔ (value = .null ∧ named = none) ∨
      ∃ name under, value = .text (.whole name) ∧
        (name, under) ∈ profiles ∧ named = some under := by
  have named_iff (name : String) : some <$> profile name = .ok named ↔
      ∃ under, (name, under) ∈ profiles ∧ named = some under := by
    show (profile name).map some = .ok named ↔ _
    rw [map_eq_ok]
    exact exists_congr fun under => and_congr profile_eq_ok eq_comm
  cases value with
  | null => simp [profileOf, eq_comm]
  | truth b =>
    refine iff_of_false (fun found => ?_) (by simp)
    obtain ⟨under, known, _⟩ := (named_iff _).1 found
    cases b
    · exact (name_of_profile known).2.2 rfl
    · exact (name_of_profile known).2.1 rfl
  | number n =>
    refine iff_of_false (fun found => ?_) (by simp)
    obtain ⟨under, known, _⟩ := (named_iff _).1 found
    exact (name_of_profile known).1 n rfl
  | real x => exact absurd rfl (exact x)
  | text s =>
    cases s with
    | whole name =>
      show some <$> profile name = .ok named ↔ _
      simp [named_iff]
    | torn symbols => exact iff_of_false (fun found => nomatch found) (by simp)
  | list => simp [profileOf]
  | object => simp [profileOf]

theorem isExact_of_lookup {members : Members} (exact : ∀ member ∈ members, member.2.IsExact)
    {key : Str} {value : Value} (found : members.lookup key = some value) : value.IsExact := by
  obtain ⟨before, after, rfl, _⟩ := List.lookup_eq_some_iff.1 found
  exact exact (key, value) (by simp)

theorem under_iff {members : Members} (exact : ∀ member ∈ members, member.2.IsExact)
    {base under : Config} :
    (∃ named, profileOf ((members.lookup (.whole "profile")).getD .null) = .ok named ∧
        named.getD base = under) ↔
      Under members base under := by
  cases found : members.lookup (.whole "profile") with
  | none =>
    constructor
    · rintro ⟨named, ⟨⟩, rfl⟩
      exact .base (by simp [found])
    · rintro (_ | names)
      · exact ⟨none, rfl, rfl⟩
      · rw [found] at names
        cases names
  | some value =>
    simp only [Option.getD_some, profileOf_eq_ok (isExact_of_lookup exact found)]
    constructor
    · rintro ⟨named, ⟨rfl, rfl⟩ | ⟨name, under, rfl, known, rfl⟩, rfl⟩
      · exact .base (by simp [found])
      · exact .profile found known
    · rintro (unnamed | ⟨names, known⟩)
      · exact ⟨none, .inl ⟨unnamed value found, rfl⟩, rfl⟩
      · rw [found] at names
        cases names
        exact ⟨some under, .inr ⟨_, under, rfl, known, rfl⟩, rfl⟩

theorem under_of_unnamed {members : Members} (unnamed : members.lookup (.whole "profile") = none)
    {base under : Config} : Under members base under ↔ under = base := by
  constructor
  · rintro (_ | names)
    · rfl
    · rw [unnamed] at names
      cases names
  · rintro rfl
    exact .base (by simp [unnamed])

/-! ## A whole object -/

/-- Every member is for a setting or names the profile. -/
def Known (members : Members) : Prop :=
  ∀ member ∈ members, member.1 = .whole "profile" ∨ member.1 ∈ settingKeys.map .whole

theorem unknownKeys_eq_nil {members : Members} :
    unknownKeys members = [] ↔ ∀ member ∈ members, member.1 ∈ settingKeys.map .whole := by
  rw [unknownKeys, ← List.length_eq_zero_iff, List.length_mergeSort, List.length_eq_zero_iff,
    List.filter_eq_nil_iff]
  simp

/-- Settings that pass are those of a configuration, for a display takes them too
(`isSome_region?`). -/
theorem exists_of_check {s : Settings} {budget : Option Nat} (passed : s.check = .ok budget) :
    ∃ c : Config, c.settings = s := by
  obtain ⟨region, shown⟩ := Option.isSome_iff_exists.1 (Settings.isSome_region? passed)
  exact ⟨⟨s, region, budget, passed, shown⟩, rfl⟩

theorem eq_of_settings {c c' : Config} (same : c.settings = c'.settings) : c = c' := by
  obtain ⟨s, region, budget, checked, shown⟩ := c
  obtain ⟨s', region', budget', checked', shown'⟩ := c'
  cases same
  cases checked.symm.trans checked'
  cases shown.symm.trans shown'
  rfl

/-- Settings that pass are those of one configuration, which `ofSettings` gives. -/
theorem ofSettings_eq_ok {s : Settings} {c : Config} : ofSettings s = .ok c ↔ c.settings = s := by
  unfold ofSettings
  split
  · next budget passed =>
    constructor
    · rintro ⟨⟩
      rfl
    · exact fun own => congrArg Except.ok (eq_of_settings own.symm)
  · next refused =>
    refine iff_of_false (fun made => nomatch made) ?_
    rintro rfl
    cases c.checked.symm.trans refused

def withoutProfile (members : Members) : Members := members.filter (·.1 != Str.whole "profile")

theorem known_iff {members : Members} :
    Known members ↔ ∀ member ∈ withoutProfile members, member.1 ∈ settingKeys.map .whole := by
  simp only [Known, withoutProfile, List.mem_filter, bne_iff_ne, and_imp, or_iff_not_imp_left]

theorem assigned_withoutProfile {members : Members} {s s' : Settings} :
    Assigned (withoutProfile members) s s' ↔ Assigned members s s' := by
  have kept {key : Str} (other : (key != Str.whole "profile") = true) :
      (withoutProfile members).lookup key = members.lookup key :=
    lookup_filter (p := (· != Str.whole "profile")) other
  simp only [assigned_iff]
  rw [kept (by decide), kept (by decide), kept (by decide), kept (by decide), kept (by decide),
    kept (by decide)]

/-- Members are laid over a configuration in four steps: the profile, the keys, the values, the
check of the whole. -/
theorem override_eq_ok {members : Members} (nodup : (members.map (·.1)).Nodup)
    (exact : ∀ member ∈ members, member.2.IsExact) {base c : Config} :
    base.override members = .ok c ↔
      ∃ under, Under members base under ∧ Known members ∧
        Assigned members under.settings c.settings := by
  have rest : ((withoutProfile members).map (·.1)).Nodup :=
    nodup.sublist (List.filter_sublist.map _)
  constructor
  · intro done
    obtain ⟨named, read, done⟩ := bind_eq_ok.1 done
    dsimp only at done
    split at done
    · cases done
    · obtain ⟨settings, folded, done⟩ := bind_eq_ok.1 done
      obtain ⟨known, assigned⟩ := (foldlM_assign rest).1 folded
      obtain rfl := ofSettings_eq_ok.1 (mapError_eq_ok.1 done)
      exact ⟨_, (under_iff exact).1 ⟨named, read, rfl⟩, known_iff.2 known,
        assigned_withoutProfile.1 assigned⟩
  · rintro ⟨under, lies, known, assigned⟩
    obtain ⟨named, read, rfl⟩ := (under_iff exact).2 lies
    have folded := (foldlM_assign rest).2 ⟨known_iff.1 known, assigned_withoutProfile.2 assigned⟩
    have allKnown : ¬ (! (unknownKeys (withoutProfile members)).isEmpty) = true := by
      rw [unknownKeys_eq_nil.2 (known_iff.1 known)]
      decide
    refine bind_eq_ok.2 ⟨named, read, (if_neg allKnown).trans ?_⟩
    exact bind_eq_ok.2 ⟨_, folded, mapError_eq_ok.2 (ofSettings_eq_ok.2 rfl)⟩

theorem override_nil {base c : Config} : base.override [] = .ok c ↔ c = base := by
  have nodup : (([] : Members).map (·.1)).Nodup := .nil
  rw [override_eq_ok nodup (by simp)]
  constructor
  · rintro ⟨under, lies, -, assigned⟩
    rw [under_of_unnamed rfl] at lies
    rw [lies, assigned_nil] at assigned
    exact Except.ok.inj ((ofSettings_eq_ok.2 rfl).symm.trans (ofSettings_eq_ok.2 assigned.symm))
  · rintro rfl
    exact ⟨c, (under_of_unnamed rfl).2 rfl, by simp [Known], assigned_nil.2 rfl⟩

/-- The order of the members does not matter, since each key occurs once. -/
theorem override_perm {members members' : Members} (nodup : (members.map (·.1)).Nodup)
    (exact : ∀ member ∈ members, member.2.IsExact) (perm : members.Perm members')
    {base c : Config} :
    base.override members = .ok c ↔ base.override members' = .ok c := by
  have nodup' : (members'.map (·.1)).Nodup := (perm.map _).nodup_iff.1 nodup
  have exact' : ∀ member ∈ members', member.2.IsExact :=
    fun member mem => exact member (perm.mem_iff.2 mem)
  have same (key : Str) : members.lookup key = members'.lookup key := lookup_perm nodup perm
  have known : Known members ↔ Known members' := by simp only [Known, perm.mem_iff]
  have assigned {s s' : Settings} : Assigned members s s' ↔ Assigned members' s s' := by
    simp only [assigned_iff, same]
  have under {c : Config} : Under members base c ↔ Under members' base c := by
    rw [← under_iff exact, ← under_iff exact', same]
  simp only [override_eq_ok nodup exact, override_eq_ok nodup' exact', known, assigned, under]

/-- Of a value only what is made of it matters. -/
theorem override_congr {key : Str} {value value' : Value} (other : key ≠ Str.whole "profile")
    (same : ∀ s, assign s key value = assign s key value') (base : Config)
    (before after : Members) :
    base.override (before ++ (key, value) :: after) = base.override
      (before ++ (key, value') :: after) := by
  have kept : (key != Str.whole "profile") = true := bne_iff_ne.2 other
  have profile : (before ++ (key, value) :: after).lookup (Str.whole "profile") =
      (before ++ (key, value') :: after).lookup (Str.whole "profile") := by
    simp only [List.lookup_append, lookup_cons, other.symm, if_false]
  simp only [override, profile, List.filter_append, List.filter_cons, kept, if_true, unknownKeys,
    List.map_append, List.map_cons, List.foldlM_append, List.foldlM_cons, same]

end Chifir.Config
