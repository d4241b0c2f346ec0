import Mathlib.Data.List.Forall2
import Chifir.Except

/-!
# Computations over lists and states

When a computation succeeds that is made of others: one for each member of a list (`forM_eq_ok`),
and a list of results (`exists_mapM`). Of two that change a state, the second one begins with what
the first one leaves (`bind_of_ok`, `bind_of_error`).
-/

namespace Chifir

variable {ε α β : Type}

theorem mapError_eq_error {ε' : Type} {x : Except ε α} {f : ε → ε'} {e : ε'} :
    x.mapError f = .error e ↔ ∃ e', x = .error e' ∧ f e' = e := by
  cases x <;> simp [Except.mapError]

theorem map_eq_ok {x : Except ε α} {f : α → β} {b : β} :
    x.map f = .ok b ↔ ∃ a, x = .ok a ∧ f a = b := by
  cases x <;> simp [Except.map]

theorem map_eq_error {x : Except ε α} {f : α → β} {e : ε} : x.map f = .error e ↔ x = .error e := by
  cases x <;> simp [Except.map]

theorem exists_bind_pure {x : Except ε α} {f : α → β} {P : β → Prop} :
    (∃ b, (x >>= fun a => pure (f a)) = .ok b ∧ P b) ↔ ∃ a, x = .ok a ∧ P (f a) := by
  cases x <;> simp [bind, Except.bind, pure, Except.pure]

theorem exists_of_any_toOption {x : Except ε α} {p : α → Bool} (holds : x.toOption.any p) :
    ∃ a, x = .ok a ∧ p a := by
  cases x with
  | error e => cases holds
  | ok a => exact ⟨a, rfl, holds⟩

theorem toOption_eq_some {x : Except ε α} {a : α} : x.toOption = some a ↔ x = .ok a := by
  cases x <;> simp [Except.toOption]

theorem forM_eq_ok {f : α → Except ε Unit} {l : List α} :
    l.forM f = .ok () ↔ ∀ a ∈ l, f a = .ok () := by
  induction l with
  | nil => simp [pure, Except.pure]
  | cons a l ih =>
    show (f a >>= fun _ => l.forM f) = .ok () ↔ _
    rw [bind_eq_ok, List.forall_mem_cons, ← ih]
    exact ⟨fun ⟨_, hf, hl⟩ => ⟨hf, hl⟩, fun ⟨hf, hl⟩ => ⟨(), hf, hl⟩⟩

theorem exists_of_forM_error {f : α → Except ε Unit} {l : List α} {e : ε}
    (h : l.forM f = .error e) :
    ∃ a ∈ l, f a ≠ .ok () := by
  have some : ¬ ∀ a ∈ l, f a = .ok () := fun all => by
    rw [forM_eq_ok.2 all] at h
    cases h
  obtain ⟨a, bad⟩ := Classical.not_forall.1 some
  obtain ⟨mem, fails⟩ := Classical.not_imp.1 bad
  exact ⟨a, mem, fails⟩

theorem forall₂_of_mapM {f : α → Except ε β} {l : List α} {r : List β} (h : l.mapM f = .ok r) :
    List.Forall₂ (fun a b => f a = .ok b) l r := by
  induction l generalizing r with
  | nil =>
    cases h
    exact .nil
  | cons a l ih =>
    rw [List.mapM_cons, bind_eq_ok] at h
    obtain ⟨b, hb, h⟩ := h
    obtain ⟨r', hr, h⟩ := bind_eq_ok.1 h
    cases h
    exact .cons hb (ih hr)

theorem mapM_eq_ok_map {f : α → Except ε β} {g : α → β} {l : List α}
    (h : ∀ a ∈ l, f a = .ok (g a)) :
    l.mapM f = .ok (l.map g) := by
  induction l with
  | nil => rfl
  | cons a l ih =>
    obtain ⟨first, rest⟩ := List.forall_mem_cons.1 h
    rw [List.mapM_cons, first, ok_bind, ih rest]
    rfl

theorem mapM_congr {f g : α → Except ε β} {l : List α} (same : ∀ a ∈ l, f a = g a) :
    l.mapM f = l.mapM g := by
  induction l with
  | nil => rfl
  | cons a l ih =>
    obtain ⟨first, rest⟩ := List.forall_mem_cons.1 same
    rw [List.mapM_cons, List.mapM_cons, first, ih rest]

theorem exists_mapM {f : α → Except ε β} {l : List α} :
    (∃ r, l.mapM f = .ok r) ↔ ∀ a ∈ l, ∃ b, f a = .ok b := by
  induction l with
  | nil => exact ⟨fun _ => by simp, fun _ => ⟨[], rfl⟩⟩
  | cons a l ih =>
    rw [List.forall_mem_cons, ← ih, List.mapM_cons]
    constructor
    · rintro ⟨r, h⟩
      obtain ⟨b, hb, h⟩ := bind_eq_ok.1 h
      obtain ⟨r', hr, _⟩ := bind_eq_ok.1 h
      exact ⟨⟨b, hb⟩, r', hr⟩
    · rintro ⟨⟨b, hb⟩, r, hr⟩
      exact ⟨b :: r, by rw [hb, hr]; rfl⟩

section
variable {σ : Type} {x : EStateM ε σ α} {f : α → EStateM ε σ β} {s t : σ}

theorem bind_of_ok {a : α} (done : x s = .ok a t) : (x >>= f) s = f a t := by
  show EStateM.bind x f s = _
  rw [EStateM.bind, done]

theorem bind_of_error {e : ε} (fails : x s = .error e t) : (x >>= f) s = .error e t := by
  show EStateM.bind x f s = _
  rw [EStateM.bind, fails]

end

end Chifir
