import Mathlib.Algebra.BigOperators.Group.List.Basic
import Mathlib.Algebra.Group.Basic
import Mathlib.Data.List.Nodup
import Mathlib.Tactic.Abel

/-!
# Keyed tables

A table is a list of rows with distinct primary keys; the key constraint is part of the type, so
`insert` and `update` cannot break it. The lemmas say how the two change what a lookup finds, which
rows there are and what a sum over the rows is.
-/

namespace PaySystem

/-- Rows with a primary key. -/
class Keyed (ρ : Type*) where
  key : ρ → ℕ

open Keyed

/-- A list of rows with distinct primary keys. -/
structure Table (ρ : Type*) [Keyed ρ] where
  rows : List ρ
  nodup : (rows.map key).Nodup

namespace Table

variable {ρ : Type*} [Keyed ρ]

/-- The empty table. -/
def empty : Table ρ := ⟨[], List.nodup_nil⟩

/-- The row with the given key. -/
def find? (t : Table ρ) (k : ℕ) : Option ρ := t.rows.find? fun r => key r = k

/-- Add a row; the table is left as it is if the key is in use. -/
def insert (t : Table ρ) (r : ρ) : Table ρ :=
  if h : key r ∈ t.rows.map key then t
  else ⟨t.rows ++ [r], by
    rw [List.map_append, List.map_singleton]
    exact t.nodup.append (List.nodup_singleton _) (List.disjoint_singleton.2 h)⟩

/-- Put `r` in the place of `x` if it has the same key. -/
def replace (r x : ρ) : ρ := if key x = key r then r else x

@[simp] theorem key_replace (r x : ρ) : key (replace r x) = key x := by
  unfold replace
  split_ifs with h
  · exact h.symm
  · rfl

/-- Replace the row with the key of `r` by `r`, if there is one. -/
def update (t : Table ρ) (r : ρ) : Table ρ where
  rows := t.rows.map (replace r)
  nodup := by
    have h : t.rows.map (key ∘ replace r) = t.rows.map key :=
      List.map_congr_left fun x _ => key_replace r x
    rw [List.map_map, h]
    exact t.nodup

/-- The sum of a quantity over the rows. -/
def sum {M : Type*} [AddCommMonoid M] (t : Table ρ) (f : ρ → M) : M := (t.rows.map f).sum

variable {t : Table ρ} {r x : ρ} {k : ℕ}

/-! ## Lookups -/

theorem eq_of_key_eq (hr : r ∈ t.rows) (hx : x ∈ t.rows) (h : key r = key x) : r = x :=
  List.inj_on_of_nodup_map t.nodup hr hx h

theorem find?_eq_some : t.find? k = some r ↔ r ∈ t.rows ∧ key r = k := by
  constructor
  · intro h
    exact ⟨List.mem_of_find?_eq_some h, by simpa using List.find?_some h⟩
  · rintro ⟨hr, rfl⟩
    cases hx : t.find? (key r) with
    | none =>
      have := List.find?_eq_none.1 hx r hr
      simp at this
    | some x =>
      have hk : key x = key r := by simpa using List.find?_some hx
      rw [eq_of_key_eq (List.mem_of_find?_eq_some hx) hr hk]

theorem find?_eq_none : t.find? k = none ↔ ∀ r ∈ t.rows, key r ≠ k := by
  simp [find?, List.find?_eq_none]

theorem find?_key (hr : r ∈ t.rows) : t.find? (key r) = some r := find?_eq_some.2 ⟨hr, rfl⟩

theorem mem_of_find? (h : t.find? k = some r) : r ∈ t.rows := (find?_eq_some.1 h).1

theorem key_of_find? (h : t.find? k = some r) : key r = k := (find?_eq_some.1 h).2

/-! ## Insertion -/

theorem insert_rows (h : t.find? (key r) = none) : (t.insert r).rows = t.rows ++ [r] := by
  have hr : key r ∉ t.rows.map key := by
    intro hm
    obtain ⟨x, hx, hk⟩ := List.mem_map.1 hm
    exact find?_eq_none.1 h x hx hk
  rw [insert, dif_neg hr]

theorem insert_eq_self (h : t.find? (key r) ≠ none) : t.insert r = t := by
  have hr : key r ∈ t.rows.map key := by
    by_contra hm
    exact h (find?_eq_none.2 fun x hx hk => hm (hk ▸ List.mem_map_of_mem hx))
  rw [insert, dif_pos hr]

theorem mem_insert (h : t.find? (key r) = none) : x ∈ (t.insert r).rows ↔ x ∈ t.rows ∨ x = r := by
  rw [insert_rows h, List.mem_append, List.mem_singleton]

theorem mem_of_mem_insert (h : x ∈ (t.insert r).rows) : x ∈ t.rows ∨ x = r := by
  by_cases hr : t.find? (key r) = none
  · exact (mem_insert hr).1 h
  · exact Or.inl (by rwa [insert_eq_self hr] at h)

theorem find?_insert_of_ne (h : key r ≠ k) : (t.insert r).find? k = t.find? k := by
  by_cases hr : t.find? (key r) = none
  · rw [find?, insert_rows hr, List.find?_append, List.find?_singleton]
    simp [h, find?]
  · rw [insert_eq_self hr]

theorem sum_insert {M : Type*} [AddCommMonoid M] (f : ρ → M) (h : t.find? (key r) = none) :
    (t.insert r).sum f = t.sum f + f r := by
  rw [sum, insert_rows h, List.map_append, List.sum_append, List.map_singleton,
    List.sum_singleton, sum]

/-! ## Updates -/

theorem mem_update (h : t.find? (key r) = some x) {y : ρ} :
    y ∈ (t.update r).rows ↔ (y ∈ t.rows ∧ key y ≠ key r) ∨ y = r := by
  obtain ⟨hx, hk⟩ := find?_eq_some.1 h
  simp only [update, List.mem_map, replace]
  constructor
  · rintro ⟨z, hz, rfl⟩
    by_cases hzr : key z = key r
    · exact Or.inr (by rw [if_pos hzr])
    · exact Or.inl (by rw [if_neg hzr]; exact ⟨hz, hzr⟩)
  · rintro (⟨hy, hne⟩ | rfl)
    · exact ⟨y, hy, if_neg hne⟩
    · exact ⟨x, hx, if_pos hk⟩

theorem find?_update_of_ne (h : key r ≠ k) : (t.update r).find? k = t.find? k := by
  have hp : ∀ y, (decide (key (replace r y) = k)) = decide (key y = k) := fun y => by
    rw [key_replace]
  simp only [find?, update, List.find?_map, Function.comp_def, hp]
  cases hf : t.rows.find? (fun y => decide (key y = k)) with
  | none => rfl
  | some y =>
    have hy : key y = k := by simpa using List.find?_some hf
    rw [Option.map_some, replace, if_neg (by rw [hy]; exact h.symm)]

theorem find?_update_self (h : t.find? (key r) = some x) :
    (t.update r).find? (key r) = some r :=
  find?_eq_some.2 ⟨(mem_update h).2 (Or.inr rfl), rfl⟩

private theorem sum_map_replace {M : Type*} [AddCommGroup M] (f : ρ → M) :
    ∀ l : List ρ, (l.map key).Nodup → x ∈ l → key x = key r →
      ((l.map (replace r)).map f).sum = (l.map f).sum - f x + f r
  | [], _, hx, _ => by cases hx
  | y :: l, hl, hx, hk => by
    rw [List.map_cons, List.nodup_cons] at hl
    simp only [List.map_cons, List.sum_cons]
    rcases List.mem_cons.1 hx with rfl | hx
    · have hrest : l.map (replace r) = l := by
        conv_rhs => rw [← List.map_id l]
        refine List.map_congr_left fun z hz => if_neg fun hz' => hl.1 ?_
        rw [hk, ← hz']
        exact List.mem_map_of_mem hz
      rw [hrest, replace, if_pos hk]
      abel
    · have hy : key y ≠ key r := fun hy => hl.1 (by
        rw [hy, ← hk]
        exact List.mem_map_of_mem hx)
      rw [sum_map_replace f l hl.2 hx hk, replace, if_neg hy]
      abel

/-- An update changes a sum by the difference between the new row and the old one. -/
theorem sum_update {M : Type*} [AddCommGroup M] (f : ρ → M) (h : t.find? (key r) = some x) :
    (t.update r).sum f = t.sum f - f x + f r := by
  obtain ⟨hx, hk⟩ := find?_eq_some.1 h
  exact sum_map_replace f t.rows t.nodup hx hk

end Table

end PaySystem
