import Mathlib.Data.List.Basic

/-!
# Histories

A property that a request can only establish, never end, holds after a list of requests exactly if
it held before or one of the requests established it.
-/

namespace PaySystem

variable {S R : Type*} {next : S → R → S} {adds : S → R → Prop}

/-- One of the requests establishes the property, in the state that it finds. -/
def AddedIn (next : S → R → S) (adds : S → R → Prop) (s : S) (rs : List R) : Prop :=
  ∃ pre r post, rs = pre ++ r :: post ∧ adds (pre.foldl next s) r

theorem not_addedIn_nil (s : S) : ¬ AddedIn next adds s [] := by
  rintro ⟨pre, r, post, h, -⟩
  cases pre <;> cases h

theorem addedIn_cons {s : S} {r : R} {rs : List R} :
    AddedIn next adds s (r :: rs) ↔ adds s r ∨ AddedIn next adds (next s r) rs := by
  constructor
  · rintro ⟨pre, r', post, h, hadds⟩
    cases pre with
    | nil =>
      obtain ⟨rfl, -⟩ := List.cons.inj h
      exact Or.inl hadds
    | cons r'' pre =>
      obtain ⟨rfl, rfl⟩ := List.cons.inj h
      exact Or.inr ⟨pre, r', post, rfl, hadds⟩
  · rintro (hadds | ⟨pre, r', post, rfl, hadds⟩)
    · exact ⟨[], r, rs, rfl, hadds⟩
    · exact ⟨r :: pre, r', post, rfl, hadds⟩

/-- **What holds has been established.** -/
theorem holds_foldl_iff (holds : S → Prop) (h : ∀ s r, holds (next s r) ↔ holds s ∨ adds s r)
    (s : S) (rs : List R) : holds (rs.foldl next s) ↔ holds s ∨ AddedIn next adds s rs := by
  induction rs generalizing s with
  | nil => exact (or_iff_left (not_addedIn_nil s)).symm
  | cons r rs ih => rw [List.foldl_cons, ih, h, addedIn_cons, or_assoc]

end PaySystem
