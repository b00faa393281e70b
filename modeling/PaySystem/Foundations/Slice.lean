import Mathlib.Algebra.Order.Ring.Int
import Mathlib.Data.List.Basic
import Mathlib.Tactic.Linarith

/-!
# Slices and floor division

`xs[start:stop]` and `a // b` for all integers. A negative bound of a slice counts from the end of
the list, and bounds outside the list are moved to its ends, so that a slice is the part of the list
between its bounds (`window`) only under conditions on their signs: `slice_eq_window_iff`.
-/

namespace PaySystem

variable {α : Type*}

/-- `a // b`; `none` is the `ZeroDivisionError`. -/
def floorDiv (a b : ℤ) : Option ℤ := if b = 0 then none else some (a.fdiv b)

/-- The position that a bound of a slice means in a list of length `n`. -/
def sliceBound (n : ℕ) (z : ℤ) : ℕ := if z < 0 then (z + n).toNat else min z.toNat n

/-- `xs[start:stop]`. -/
def slice (xs : List α) (start stop : ℤ) : List α :=
  (xs.take (sliceBound xs.length stop)).drop (sliceBound xs.length start)

/-- The elements whose index is between the bounds, in order. -/
def window (xs : List α) (start stop : ℤ) : List α :=
  (xs.zipIdx.filter fun x => decide (start ≤ (x.2 : ℤ) ∧ (x.2 : ℤ) < stop)).map Prod.fst

/-! ## Windows -/

private theorem window_from (start stop : ℤ) (xs : List α) (k : ℕ) :
    ((xs.zipIdx k).filter fun x => decide (start ≤ (x.2 : ℤ) ∧ (x.2 : ℤ) < stop)).map Prod.fst =
      (xs.take (stop - k).toNat).drop (start - k).toNat := by
  induction xs generalizing k with
  | nil => simp
  | cons x xs ih =>
    rw [List.zipIdx_cons, List.filter_cons]
    have ih := ih (k + 1)
    rw [Nat.cast_add, Nat.cast_one] at ih
    by_cases hstop : (k : ℤ) < stop
    · have htake : (stop - k).toNat = (stop - (k + 1)).toNat + 1 := by omega
      rw [htake, List.take_succ_cons]
      by_cases hstart : start ≤ (k : ℤ)
      · have hdrop : (start - k).toNat = 0 := by omega
        have hdrop' : (start - (k + 1)).toNat = 0 := by omega
        rw [hdrop'] at ih
        rw [if_pos (by simpa using ⟨hstart, hstop⟩), List.map_cons, ih, hdrop]
        simp
      · have hdrop : (start - k).toNat = (start - (k + 1)).toNat + 1 := by omega
        rw [if_neg (by simpa using fun h => absurd h hstart), ih, hdrop, List.drop_succ_cons]
    · have htake : (stop - k).toNat = 0 := by omega
      have htake' : (stop - (k + 1)).toNat = 0 := by omega
      rw [htake', List.take_zero, List.drop_nil] at ih
      rw [if_neg (by simpa using fun _ => not_lt.1 hstop), ih, htake, List.take_zero, List.drop_nil]

/-- A window is a part of the list. -/
theorem window_eq (xs : List α) (start stop : ℤ) :
    window xs start stop = (xs.take stop.toNat).drop start.toNat := by
  simpa [window] using window_from start stop xs 0

theorem window_of_stop_neg (xs : List α) (start : ℤ) {stop : ℤ} (h : stop < 0) :
    window xs start stop = [] := by
  rw [window_eq, Int.toNat_of_nonpos h.le, List.take_zero, List.drop_nil]

/-! ## Slices -/

theorem sliceBound_le (n : ℕ) (z : ℤ) : sliceBound n z ≤ n := by
  unfold sliceBound
  split_ifs <;> omega

theorem length_slice (xs : List α) (start stop : ℤ) : (slice xs start stop).length =
    sliceBound xs.length stop - sliceBound xs.length start := by
  rw [slice, List.length_drop, List.length_take, Nat.min_eq_left (sliceBound_le _ _)]

/-- With bounds that count from the start, a slice is the window between them. -/
theorem slice_eq_window {start stop : ℤ} (xs : List α) (hstart : 0 ≤ start) (hstop : 0 ≤ stop) :
    slice xs start stop = window xs start stop := by
  rw [window_eq, slice, sliceBound, sliceBound, if_neg (not_lt.2 hstart), if_neg (not_lt.2 hstop),
    ← List.take_eq_take_min]
  rcases le_total start.toNat xs.length with h | h
  · rw [Nat.min_eq_left h]
  · rw [Nat.min_eq_right h, List.drop_eq_nil_of_le (by simp), List.drop_eq_nil_of_le (by simp [h])]

/-- When a slice is the window between its bounds, by their signs. -/
def SliceExact (n : ℕ) (start stop : ℤ) : Prop :=
  if 0 ≤ start then 0 ≤ stop ∨ n + stop ≤ start
  else if 0 ≤ stop then stop = 0 ∨ n + start ≤ 0
  else n + stop ≤ 0 ∨ stop ≤ start

/-- **Exactness of slices**: a slice is the window between its bounds exactly under this
condition. -/
theorem slice_eq_window_iff (xs : List α) (start stop : ℤ) :
    slice xs start stop = window xs start stop ↔ SliceExact xs.length start stop := by
  have hlen := length_slice xs start stop
  unfold SliceExact
  split_ifs with hstart hstop
  · by_cases hstop : 0 ≤ stop
    · exact iff_of_true (slice_eq_window xs hstart hstop) (Or.inl hstop)
    · rw [window_of_stop_neg xs start (not_le.1 hstop), ← List.length_eq_zero_iff, hlen]
      simp only [sliceBound, if_neg (not_lt.2 hstart), if_pos (not_le.1 hstop)]
      omega
  · rw [window_eq, slice, sliceBound, sliceBound, if_pos (not_le.1 hstart),
      if_neg (not_lt.2 hstop), ← List.take_eq_take_min, List.drop_eq_drop_iff, List.length_take]
    omega
  · rw [window_of_stop_neg xs start (not_le.1 hstop), ← List.length_eq_zero_iff, hlen]
    simp only [sliceBound, if_pos (not_le.1 hstart), if_pos (not_le.1 hstop)]
    omega

/-! ## Chunks -/

/-- Consecutive chunks of a list make up the part from the first of them on. -/
theorem flatten_chunks (xs : List α) (size i n : ℕ) :
    ((List.range' i n).map fun j => (xs.drop (j * size)).take size).flatten =
      (xs.drop (i * size)).take (n * size) := by
  induction n generalizing i with
  | zero => simp
  | succ n ih =>
    rw [List.range'_succ, List.map_cons, List.flatten_cons, ih (i + 1), Nat.succ_mul i,
      Nat.succ_mul n, Nat.add_comm (n * size), List.take_add, List.drop_drop]

end PaySystem
