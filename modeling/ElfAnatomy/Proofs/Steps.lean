import Mathlib.Data.List.Forall2
import ElfAnatomy.DecodeError

/-!
# Steps that may fail

When a sequence of steps succeeds or fails, in terms of its single steps.

* `bind_eq_ok_iff`, `bind_eq_error_iff` : two steps, one after the other.
* `mapM_eq_ok_iff`, `exists_of_mapM_eq_error` : one step for each element of a list.
* `exists_forall₂_iff` : when the results of such steps exist.
* `forM_eq_ok_iff`, `exists_of_forM_eq_error` : one check for each element of a list.
-/

namespace ElfAnatomy

variable {α β : Type}

@[simp] theorem inside_eq_ok_iff {a? : Option α} {a : α} : inside a? = .ok a ↔ a? = some a := by
  cases a? <;> simp [inside]

@[simp] theorem inside_eq_error_iff {a? : Option α} {e : DecodeError} :
    inside a? = .error e ↔ a? = none ∧ e = .fieldOutside := by
  cases a? <;> simp [inside, eq_comm]

theorem bind_eq_ok_iff {x : Except DecodeError α} {f : α → Except DecodeError β} {b : β} :
    x >>= f = .ok b ↔ ∃ a, x = .ok a ∧ f a = .ok b := by
  cases x <;> simp [bind, Except.bind]

theorem bind_eq_error_iff {x : Except DecodeError α} {f : α → Except DecodeError β}
    {e : DecodeError} : x >>= f = .error e ↔ x = .error e ∨ ∃ a, x = .ok a ∧ f a = .error e := by
  cases x <;> simp [bind, Except.bind]

theorem pure_eq_ok_iff {a b : α} : (pure a : Except DecodeError α) = .ok b ↔ a = b := by
  simp [pure, Except.pure]

theorem map_eq_ok_iff {x : Except DecodeError α} {f : α → β} {b : β} :
    x.map f = .ok b ↔ ∃ a, x = .ok a ∧ f a = b := by
  cases x <;> simp [Except.map]

theorem map_eq_error_iff {x : Except DecodeError α} {f : α → β} {e : DecodeError} :
    x.map f = .error e ↔ x = .error e := by
  cases x <;> simp [Except.map]

/-- A step for each element succeeds if each of them does. -/
theorem mapM_eq_ok_iff {f : α → Except DecodeError β} {as : List α} {bs : List β} :
    as.mapM f = .ok bs ↔ List.Forall₂ (fun a b => f a = .ok b) as bs := by
  induction as generalizing bs with
  | nil => cases bs <;> simp [pure, Except.pure]
  | cons a as ih =>
    rw [List.mapM_cons, bind_eq_ok_iff]
    simp only [bind_eq_ok_iff, pure_eq_ok_iff, ih]
    constructor
    · rintro ⟨b, hb, bs, hbs, rfl⟩
      exact .cons hb hbs
    · rintro (_ | ⟨hb, hbs⟩)
      exact ⟨_, hb, _, hbs, rfl⟩

/-- Where each element has a partner, there is a list of partners. -/
theorem exists_forall₂_iff {R : α → β → Prop} {as : List α} :
    (∃ bs, List.Forall₂ R as bs) ↔ ∀ a ∈ as, ∃ b, R a b := by
  induction as with
  | nil => simp
  | cons a as ih =>
    rw [List.forall_mem_cons, ← ih]
    constructor
    · rintro ⟨_, (_ | ⟨hb, hbs⟩)⟩
      exact ⟨⟨_, hb⟩, _, hbs⟩
    · rintro ⟨⟨b, hb⟩, bs, hbs⟩
      exact ⟨_, .cons hb hbs⟩

/-- A step for each element fails as the first of them that does. -/
theorem exists_of_mapM_eq_error {f : α → Except DecodeError β} {as : List α} {e : DecodeError}
    (h : as.mapM f = .error e) : ∃ a ∈ as, f a = .error e := by
  induction as with
  | nil => simp [pure, Except.pure] at h
  | cons a as ih =>
    rw [List.mapM_cons, bind_eq_error_iff] at h
    rcases h with h | ⟨b, -, h⟩
    · exact ⟨a, List.mem_cons_self, h⟩
    · rcases bind_eq_error_iff.1 h with h | ⟨bs, -, h⟩
      · obtain ⟨a, ha, h⟩ := ih h
        exact ⟨a, List.mem_cons_of_mem _ ha, h⟩
      · simp [pure, Except.pure] at h

/-- A check of each element succeeds if each of them does. -/
theorem forM_eq_ok_iff {f : α → Except DecodeError Unit} {as : List α} {u : Unit} :
    as.forM f = .ok u ↔ ∀ a ∈ as, f a = .ok () := by
  induction as with
  | nil => simp [List.forM, pure, Except.pure]
  | cons a as ih =>
    rw [List.forM, bind_eq_ok_iff, List.forall_mem_cons]
    simp only [ih]
    constructor
    · rintro ⟨⟨⟩, ha, has⟩
      exact ⟨ha, has⟩
    · rintro ⟨ha, has⟩
      exact ⟨(), ha, has⟩

/-- A check of each element fails as one of them does. -/
theorem exists_of_forM_eq_error {f : α → Except DecodeError Unit} {as : List α}
    {e : DecodeError} (h : as.forM f = .error e) : ∃ a ∈ as, f a = .error e := by
  induction as with
  | nil => simp [List.forM, pure, Except.pure] at h
  | cons a as ih =>
    rw [List.forM, bind_eq_error_iff] at h
    rcases h with h | ⟨-, -, h⟩
    · exact ⟨a, List.mem_cons_self, h⟩
    · obtain ⟨a, ha, h⟩ := ih h
      exact ⟨a, List.mem_cons_of_mem _ ha, h⟩

end ElfAnatomy
