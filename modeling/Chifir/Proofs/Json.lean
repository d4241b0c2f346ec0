import Chifir.Json.Reader
import Chifir.Proofs.Except
import Mathlib.Data.List.Nodup

/-!
# Names in objects

`Json.distinct_of_read`: in what is read from a text no object has two members of one name, however
deep it lies. Each member is set over those before it (`keys_setMember`), so a name that comes again
takes the place of the first.
-/

namespace Chifir.Json

/-- In no object of a value a name occurs twice, so `lookup` finds all that an object says. -/
inductive Value.Distinct : Value → Prop
  | null : Distinct .null
  | truth (b : Bool) : Distinct (.truth b)
  | number (n : Int) : Distinct (.number n)
  | real (x : Binary64) : Distinct (.real x)
  | text (s : Str) : Distinct (.text s)
  | list {items : List Value} (items_distinct : ∀ item ∈ items, Distinct item) :
      Distinct (.list items)
  | object {members : Members} (names : (members.map (·.1)).Nodup)
      (values : ∀ member ∈ members, Distinct member.2) : Distinct (.object members)

/-! ## Setting a member -/

section
variable {members : Members} {name : Str} {value : Value}

theorem keys_setMember :
    (setMember members name value).map (·.1) =
      if name ∈ members.map (·.1) then members.map (·.1) else members.map (·.1) ++ [name] := by
  have same (member : Str × Value) :
      (if member.1 == name then (name, value) else member).1 = member.1 := by
    split
    · next eq => exact (eq_of_beq eq).symm
    · rfl
  have occurs : members.any (·.1 == name) = true ↔ name ∈ members.map (·.1) := by simp
  unfold setMember
  by_cases present : name ∈ members.map (·.1)
  · rw [if_pos (occurs.2 present), if_pos present, List.map_map]
    exact List.map_congr_left fun member _ => same member
  · rw [if_neg (occurs.not.2 present), if_neg present, List.map_append, List.map_singleton]

theorem nodup_setMember (nodup : (members.map (·.1)).Nodup) :
    ((setMember members name value).map (·.1)).Nodup := by
  rw [keys_setMember]
  split
  · exact nodup
  · next absent => simpa only [List.concat_eq_append] using List.Nodup.concat absent nodup

theorem mem_setMember {member : Str × Value} (mem : member ∈ setMember members name value) :
    member = (name, value) ∨ member ∈ members := by
  unfold setMember at mem
  split at mem
  · obtain ⟨old, inside, rfl⟩ := List.mem_map.1 mem
    split
    · exact .inl rfl
    · exact .inr inside
  · simpa [or_comm] using mem

end

/-! ## Reading -/

theorem distinct_of_readWord? {c c' : Cursor} {value : Value}
    (found : readWord? c = some (value, c')) :
    value.Distinct := by
  simp only [readWord?, Option.orElse_eq_orElse, Option.orElse_eq_or, Option.or_eq_some_iff,
    Option.map_eq_some_iff, Prod.mk.injEq] at found
  rcases found with ⟨_, _, rfl, _⟩ | ⟨_, ⟨_, _, rfl, _⟩ | ⟨_, ⟨_, _, rfl, _⟩ | ⟨_, ⟨_, _, rfl, _⟩ |
    ⟨_, ⟨_, _, rfl, _⟩ | ⟨_, ⟨_, _, rfl, _⟩⟩⟩⟩⟩⟩ <;> constructor

theorem distinct_of_readNumber {c c' : Cursor} {value : Value}
    (found : readNumber c = .ok (value, c')) :
    value.Distinct := by
  unfold readNumber at found
  dsimp only at found
  split at found
  · cases found
  · split at found
    · split at found
      · cases found
        exact .number _
      · cases found
    · cases found
      exact .real _

-- Along the recursion of the readers, which is on the fuel.
mutual

theorem distinct_of_readValue {fuel depth : Nat} {c c' : Cursor} {value : Value}
    (found : readValue fuel depth c = .ok (value, c')) : value.Distinct := by
  match fuel with
  | 0 => cases found
  | fuel + 1 =>
    unfold readValue at found
    split at found
    · obtain ⟨⟨s, _⟩, _, eq⟩ := map_eq_ok.1 found
      cases eq
      exact .text s
    · cases found
    · dsimp only at found
      split at found
      · cases found
        exact .object .nil (by simp)
      · have none : (([] : Members).map (·.1)).Nodup := .nil
        exact distinct_of_readMembers none (by simp) found
    · cases found
    · dsimp only at found
      split at found
      · cases found
        exact .list (by simp)
      · exact distinct_of_readItems (by simp) found
    · split at found
      · next word =>
        cases found
        exact distinct_of_readWord? word
      · exact distinct_of_readNumber found

theorem distinct_of_readItems {fuel depth : Nat} {items : List Value} {c c' : Cursor}
    {value : Value} (before : ∀ item ∈ items, item.Distinct)
    (found : readItems fuel depth items c = .ok (value, c')) :
    value.Distinct := by
  match fuel with
  | 0 => cases found
  | fuel + 1 =>
    unfold readItems at found
    obtain ⟨⟨item, next⟩, one, found⟩ := bind_eq_ok.1 found
    have all : ∀ x ∈ item :: items, x.Distinct :=
      List.forall_mem_cons.2 ⟨distinct_of_readValue one, before⟩
    dsimp only at found
    split at found
    · cases found
      exact .list fun x mem => all x (List.mem_reverse.1 mem)
    · exact distinct_of_readItems all found
    · cases found

theorem distinct_of_readMembers {fuel depth : Nat} {members : Members} {c c' : Cursor}
    {value : Value} (nodup : (members.map (·.1)).Nodup)
    (before : ∀ member ∈ members, member.2.Distinct)
    (found : readMembers fuel depth members c = .ok (value, c')) : value.Distinct := by
  match fuel with
  | 0 => cases found
  | fuel + 1 =>
    unfold readMembers at found
    split at found
    · cases found
    · obtain ⟨⟨name, next⟩, _, found⟩ := bind_eq_ok.1 found
      dsimp only at found
      split at found
      · cases found
      · obtain ⟨⟨item, next⟩, one, found⟩ := bind_eq_ok.1 found
        have all : ∀ member ∈ setMember members name item, member.2.Distinct := by
          intro member mem
          rcases mem_setMember mem with rfl | mem
          · exact distinct_of_readValue one
          · exact before member mem
        dsimp only at found
        split at found
        · cases found
          exact .object (nodup_setMember nodup) all
        · exact distinct_of_readMembers (nodup_setMember nodup) all found
        · cases found

end

/-- No object in what is read has two members of one name. -/
theorem distinct_of_read {text : String} {value : Value} (found : read text = .ok value) :
    value.Distinct := by
  unfold read at found
  dsimp only at found
  split at found
  · cases found
  · obtain ⟨⟨v, c⟩, done, found⟩ := bind_eq_ok.1 found
    dsimp only at found
    split at found
    · cases found
      exact distinct_of_readValue done
    · cases found

end Chifir.Json
