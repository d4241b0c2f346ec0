import Chifir.CommandLine.Command
import Chifir.Proofs.Config.Layers
import Chifir.Proofs.Json

/-!
# The configuration of a run

What the arguments say lies over the file, and the file over a profile: the one that the file names,
else that of the request.

1. `configuration_eq_ok`: a configuration comes about in two steps, each of which lays an object
   over a configuration and passes or fails by itself.
2. `configuration_gives_iff`: field by field, what a run is configured with and when it is
   configured at all.
3. `configuration_by_precedence` says so for single objects and for runs.
-/

namespace Chifir.CommandLine

open Json (Members Str Value)
open Config (Under Known Over)

/-- The configuration that a request starts from: that of its profile. A file may do without one,
and lies over the reference machine then. -/
inductive RunRequest.StartsFrom (r : RunRequest) : Config → Prop
  | named {name : String} {base : Config} (given : r.profile = .value name)
      (known : (name, base) ∈ Config.profiles) : r.StartsFrom base
  | unnamed (file : r.config ≠ "") (none : r.profile = .nothing ∨ r.profile = .value "") :
      r.StartsFrom Config.tablet

/-- The members of the object in the file of a request; there are none without a file. -/
inductive RunRequest.FileGives (r : RunRequest) (disk : Disk) : Members → Prop
  | nothing (none : r.config = "") : r.FileGives disk []
  | object {content : Content} {text : String} {members : Members} (file : r.config ≠ "")
      (found : disk.read (shortPath r.config) = .ok content) (decoded : content.asText = .ok text)
      (read : Json.read text = .ok (.object members)) : r.FileGives disk members

namespace RunRequest

variable {r : RunRequest} {disk : Disk} {members : Members}

theorem FileGives.nodup (gives : r.FileGives disk members) : (members.map (·.1)).Nodup := by
  cases gives with
  | nothing => exact .nil
  | object _ _ _ read =>
    cases Json.distinct_of_read read with
    | object names _ => exact names

theorem exists_plan_of_startsFrom {base : Config} (starts : r.StartsFrom base) :
    ∃ p, base.Gives p := by
  rcases starts with ⟨_, known⟩ | ⟨_, _⟩
  · exact Config.exists_plan_of_profile known
  · exact Config.exists_plan_of_profile
      (show ("tablet", Config.tablet) ∈ Config.profiles by simp [Config.profiles])

theorem chosenProfile_eq_ok (noFile : r.config = "") {base : Config} :
    chosenProfile r.profile = .ok base ↔ r.StartsFrom base := by
  unfold chosenProfile
  rw [mapError_eq_ok]
  constructor
  · intro found
    split at found
    · next given => exact .named given (Config.profile_eq_ok.1 found)
    · cases found
  · rintro (⟨given, known⟩ | ⟨file, _⟩)
    · rw [given]
      exact Config.profile_eq_ok.2 known
    · exact absurd noFile file

theorem startsFrom_tablet (file : r.config ≠ "")
    (none : r.profile = .nothing ∨ r.profile = .value "") {base : Config} :
    r.StartsFrom base ↔ base = .tablet := by
  constructor
  · rintro (⟨given, known⟩ | ⟨_, _⟩)
    · rcases none with none | none
      · cases given.symm.trans none
      · cases given.symm.trans none
        simp [Config.profiles] at known
    · rfl
  · rintro rfl
    exact .unnamed file none

theorem startsFrom_named {name : String} (given : r.profile = .value name) (named : name ≠ "")
    {base : Config} :
    r.StartsFrom base ↔ Config.profile name = .ok base := by
  rw [Config.profile_eq_ok]
  constructor
  · rintro (⟨given', known⟩ | ⟨_, none | none⟩)
    · cases given.symm.trans given'
      exact known
    · cases given.symm.trans none
    · cases given.symm.trans none
      exact absurd rfl named
  · exact .named given

theorem ofText_eq_ok (file : r.config ≠ "") {path text : String}
    (read : Json.read text = .ok (.object members)) {c : Config} :
    Config.ofText path text r.profileUnder = .ok c ↔
      ∃ base, r.StartsFrom base ∧ base.override members = .ok c := by
  unfold Config.ofText profileUnder
  rw [read]
  simp only [mapError_ok, ok_bind]
  split
  · next none =>
    have given : r.profile = .nothing := by
      cases h : r.profile <;> simp_all
    simp only [startsFrom_tablet file (.inl given), exists_eq_left]
    rfl
  · next none =>
    have given : r.profile = .value "" := by
      cases h : r.profile <;> simp_all
    simp only [startsFrom_tablet file (.inr given), exists_eq_left]
    rfl
  · next name other none =>
    have given : r.profile = .value name := by
      cases h : r.profile <;> simp_all
    simp only [startsFrom_named given other, bind_eq_ok]

/-- A configuration comes about in two steps: the file over a profile, and the arguments over the
file. -/
theorem configuration_eq_ok (gives : r.FileGives disk members) {c : Config} :
    r.configuration disk = .ok c ↔ ∃ base between, r.StartsFrom base ∧
      base.override members = .ok between ∧ between.override r.overrides = .ok c := by
  unfold configuration
  cases gives with
  | nothing none =>
    rw [if_pos (String.isEmpty_iff.2 none), bind_eq_ok]
    simp [Config.override_nil, chosenProfile_eq_ok none, mapError_eq_ok]
  | @object content text _ file found decoded read =>
    have opened : (disk.read (shortPath r.config)).mapError Failure.file = .ok content :=
      mapError_eq_ok.2 found
    have decoded : content.asText.mapError Failure.encoding = .ok text := mapError_eq_ok.2 decoded
    rw [if_neg (String.isEmpty_iff.not.2 file)]
    simp only [opened, decoded, ok_bind, bind_eq_ok, mapError_eq_ok, ofText_eq_ok file read]
    constructor
    · rintro ⟨between, ⟨base, starts, lower⟩, upper⟩
      exact ⟨base, between, starts, lower, upper⟩
    · rintro ⟨base, between, starts, lower, upper⟩
      exact ⟨between, ⟨base, starts, lower⟩, upper⟩

/-! ## The arguments -/

theorem cases_of_mem_overrides {member : Str × Value} (mem : member ∈ r.overrides) :
    (member.1 = .whole "max_steps" ∧ (member.2 = .list [] ∨ ∃ n, member.2 = .number n)) ∨
      member = (.whole "trace", .truth true) := by
  rcases List.mem_append.1 mem with steps | trace
  · obtain ⟨n, _, rfl⟩ := Option.map_eq_some_iff.1 (Option.mem_toList.1 steps)
    cases n with
    | nothing => exact .inl ⟨rfl, .inl rfl⟩
    | value n => exact .inl ⟨rfl, .inr ⟨n, rfl⟩⟩
  · split at trace
    · exact .inr (List.mem_singleton.1 trace)
    · cases trace

theorem nodup_overrides : (r.overrides.map (·.1)).Nodup := by
  unfold overrides
  cases r.maxSteps <;> cases r.trace <;> simp

theorem isExact_overrides : ∀ member ∈ r.overrides, member.2.IsExact := by
  intro member mem x real
  rcases cases_of_mem_overrides mem with ⟨-, none | ⟨n, whole⟩⟩ | rfl
  · cases none.symm.trans real
  · cases whole.symm.trans real
  · cases real

theorem known_overrides : Known r.overrides := by
  intro member mem
  rw [Config.mem_settingKeys]
  rcases cases_of_mem_overrides mem with ⟨key, -⟩ | rfl <;> simp [*]

theorem lookup_overrides : r.overrides.lookup (.whole "profile") = none := by
  unfold overrides
  cases r.maxSteps <;> cases r.trace <;> rfl

/-- The arguments over a configuration: `overrides` has a member for each of them that is given. -/
theorem override_overrides_gives_iff {base : Config} {below p : Plan} (gives : base.Gives below) :
    (∃ c, base.override r.overrides = .ok c ∧ c.Gives p) ↔
      Over [r.overrides] below p ∧ p.Sound := by
  rw [Config.override_gives_iff r.nodup_overrides r.isExact_overrides gives]
  simp only [Config.under_of_unnamed r.lookup_overrides]
  constructor
  · rintro ⟨_, u, rfl, comes, -, layered, sound⟩
    rw [gives.settings.unique comes.settings]
    exact ⟨layered, sound⟩
  · rintro ⟨layered, sound⟩
    exact ⟨base, below, rfl, gives, r.known_overrides, layered, sound⟩

theorem configuration_gives_iff (gives : r.FileGives disk members)
    (exact : ∀ member ∈ members, member.2.IsExact) {p : Plan} :
    (∃ c, r.configuration disk = .ok c ∧ c.Gives p) ↔
      ∃ base under u file, r.StartsFrom base ∧ Under members base under ∧ under.Gives u ∧
        Known members ∧ Over [members] u file ∧ file.Sound ∧ Over [r.overrides, members] u p ∧
          p.Sound := by
  have nodup := gives.nodup
  constructor
  · rintro ⟨c, done, comes⟩
    obtain ⟨base, between, starts, lower, upper⟩ := (r.configuration_eq_ok gives).1 done
    obtain ⟨below, lies⟩ := r.exists_plan_of_startsFrom starts
    -- The file has passed by itself, whatever the arguments say.
    obtain ⟨file, held⟩ := Config.exists_plan_of_override nodup exact lies lower
    obtain ⟨under, u, names, given, known, layered, sound⟩ :=
      (Config.override_gives_iff nodup exact lies).1 ⟨between, lower, held⟩
    obtain ⟨top, passes⟩ := (r.override_overrides_gives_iff held).1 ⟨c, upper, comes⟩
    exact ⟨base, under, u, file, starts, names, given, known, layered, sound,
      (Config.over_cons_iff layered).2 top, passes⟩
  · rintro ⟨base, under, u, file, starts, names, given, known, layered, sound, layers, passes⟩
    obtain ⟨below, lies⟩ := r.exists_plan_of_startsFrom starts
    obtain ⟨between, lower, held⟩ :=
      (Config.override_gives_iff nodup exact lies).2 ⟨under, u, names, given, known, layered, sound⟩
    obtain ⟨c, upper, comes⟩ :=
      (r.override_overrides_gives_iff held).2 ⟨(Config.over_cons_iff layered).1 layers, passes⟩
    exact ⟨c, (r.configuration_eq_ok gives).2 ⟨base, between, starts, lower, upper⟩, comes⟩

end RunRequest

/-- An object over a configuration, and the arguments of a run over its file: in each field the
topmost layer counts that has the key, whatever the order of the members, and there is a
configuration if and only if the profile and the keys exist, every value has an accepted form, and
what comes out goes together. What a file comes to is checked before the arguments are laid over it.
-/
theorem configuration_by_precedence :
    (∀ (base : Config) (below : Plan) (members : Members), base.Gives below →
      (members.map (·.1)).Nodup → (∀ member ∈ members, member.2.IsExact) →
        (∀ p, (∃ c, base.override members = .ok c ∧ c.Gives p) ↔
          ∃ under u, Under members base under ∧ under.Gives u ∧ Known members ∧ Over [members] u p ∧
            p.Sound) ∧
        (∀ c, base.override members = .ok c → ∃ p, c.Gives p) ∧
        ∀ members', members.Perm members' → ∀ c, base.override members = .ok c ↔
          base.override members' = .ok c) ∧
    ∀ (r : RunRequest) (disk : Disk) (members : Members), r.FileGives disk members →
      (∀ member ∈ members, member.2.IsExact) →
        (∀ p, (∃ c, r.configuration disk = .ok c ∧ c.Gives p) ↔
          ∃ base under u file, r.StartsFrom base ∧ Under members base under ∧ under.Gives u ∧
            Known members ∧ Over [members] u file ∧ file.Sound ∧ Over [r.overrides, members] u p ∧
              p.Sound) ∧
        (∀ c, r.configuration disk = .ok c → ∃ p, c.Gives p) ∧
        ∀ disk' members', r.FileGives disk' members' → members.Perm members' →
          ∀ c, r.configuration disk = .ok c ↔ r.configuration disk' = .ok c := by
  constructor
  · intro base below members gives nodup exact
    refine ⟨fun p => Config.override_gives_iff nodup exact gives,
      fun c done => ?_, fun members' perm c => ?_⟩
    · exact Config.exists_plan_of_override nodup exact gives done
    · exact Config.override_perm nodup exact perm
  · intro r disk members gives exact
    have nodup := gives.nodup
    refine ⟨fun p => ?_, fun c done => ?_, fun disk' members' gives' perm c => ?_⟩
    · exact r.configuration_gives_iff gives exact
    · obtain ⟨base, between, starts, lower, upper⟩ := (r.configuration_eq_ok gives).1 done
      obtain ⟨below, comes⟩ := r.exists_plan_of_startsFrom starts
      obtain ⟨file, comes⟩ := Config.exists_plan_of_override nodup exact comes lower
      exact Config.exists_plan_of_override r.nodup_overrides r.isExact_overrides comes upper
    · simp only [r.configuration_eq_ok gives, r.configuration_eq_ok gives',
        Config.override_perm nodup exact perm]

def spelledMembers : Members :=
  [(.whole "trace", .text (.whole " TRUE\n")), (.whole "display_width", .text (.whole "0x20")),
    (.whole "profile", .text (.whole "mini")), (.whole "max_steps", .null)]

def spelledText : String :=
  "\x7b\"trace\": \" TRUE\\n\", \"display_width\": \"0x20\", " ++
    "\"profile\": \"mini\", \"max_steps\": null\x7d"

def spelledDisk : Disk := Files.disk [("wide.json", .text spelledText)]

def spelledRequest : RunRequest :=
  { program := "a.asm", config := "wide.json", profile := .value "headless",
    maxSteps := some (.value 7) }

/-- The object passes over the reference machine, and in a run that names another profile and has a
budget. -/
theorem configuration_by_precedence_spelled :
    (∃ c, Config.tablet.override spelledMembers = .ok c ∧
        c.Gives ⟨0x10000, 32, 16, false, none, true⟩) ∧
      ∃ c, spelledRequest.configuration spelledDisk = .ok c ∧
        c.Gives ⟨0x10000, 32, 16, false, some 7, true⟩ := by
  have tablet : Config.tablet.Gives ⟨0x100000, 512, 684, false, none, false⟩ :=
    .of_settings ⟨rfl, rfl, rfl, rfl, .null, rfl⟩
  have mini : Config.mini.Gives ⟨0x10000, 16, 16, false, none, false⟩ :=
    .of_settings ⟨rfl, rfl, rfl, rfl, .null, rfl⟩
  have nodup : (spelledMembers.map (·.1)).Nodup := by decide
  have exact : ∀ member ∈ spelledMembers, member.2.IsExact := by
    simp [spelledMembers, Value.IsExact]
  have found : spelledDisk.read (shortPath spelledRequest.config) = .ok (.text spelledText) := by
    decide +kernel
  have decoded : (Content.text spelledText).asText = .ok spelledText := by decide +kernel
  have read : Json.read spelledText = .ok (.object spelledMembers) := by rfl
  have given : spelledRequest.FileGives spelledDisk spelledMembers :=
    .object (by decide) found decoded read
  have known : Known spelledMembers := by simp [Known, spelledMembers, Config.settingKeys]
  have under (base : Config) : Under spelledMembers base Config.mini :=
    .profile rfl (by simp [Config.profiles])
  have spelled : Text.Spells "true".toList " TRUE\n".toList :=
    ⟨[' '], "TRUE".toList,
      ['\n'], by decide, by simp [Text.isBlank], by simp [Text.isBlank], by decide⟩
  have lower : Over [spelledMembers] ⟨0x10000, 16, 16, false, none, false⟩
      ⟨0x10000, 32, 16, false, none, true⟩ :=
    ⟨rfl, .numeral (by decide +kernel), rfl, rfl, .null, .yes spelled⟩
  have layers : Over [spelledRequest.overrides, spelledMembers]
    ⟨0x10000, 16, 16, false, none, false⟩
      ⟨0x10000, 32, 16, false, some 7, true⟩ :=
    ⟨rfl, .numeral (by decide +kernel), rfl, rfl, .counts (.number 7), lower.trace⟩
  have sound : Plan.Sound ⟨0x10000, 32, 16, false, none, true⟩ := by
    constructor <;> simp [addressLimit]
  have bounded : Plan.Sound ⟨0x10000, 32, 16, false, some 7, true⟩ := by
    constructor <;> simp [addressLimit]
  exact ⟨((configuration_by_precedence.1 _ _ _ tablet nodup exact).1 _).2
      ⟨_, _, under _, mini, known, lower, sound⟩,
    ((configuration_by_precedence.2 _ _ _ given exact).1 _).2
      ⟨_, _, _, _, .named rfl (List.mem_cons_self), under _, mini, known, lower, sound, layers,
        bounded⟩⟩

end Chifir.CommandLine
