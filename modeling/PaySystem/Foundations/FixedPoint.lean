import Mathlib.Algebra.Order.Floor.Ring
import Mathlib.Data.Rat.Floor
import Mathlib.Tactic.FieldSimp
import Mathlib.Tactic.Linarith

/-!
# Fixed-point decimals

Decimal arithmetic works on rationals. A fixed-point column with `d` decimals stores an integral
number of units of `10 ^ (-d)`; writing a rational to it rounds half away from zero.
-/

namespace PaySystem

/-- The nearest integer, halves away from zero. -/
def roundHalfUp (x : ℚ) : ℤ := if 0 ≤ x then ⌊x + 1 / 2⌋ else -⌊-x + 1 / 2⌋

theorem floor_add_half (n : ℤ) : ⌊(n : ℚ) + 1 / 2⌋ = n := by
  rw [Int.floor_eq_iff]
  constructor <;> linarith

/-- Integers are not rounded. -/
theorem roundHalfUp_intCast (n : ℤ) : roundHalfUp n = n := by
  unfold roundHalfUp
  split_ifs
  · exact floor_add_half n
  · have h := floor_add_half (-n)
    push_cast at h
    rw [h, neg_neg]

/-- A number with `d` decimals. -/
structure Fixed (d : ℕ) where
  units : ℤ
  deriving DecidableEq

namespace Fixed

variable {d : ℕ}

/-- The number as a rational. -/
def toRat (a : Fixed d) : ℚ := a.units / 10 ^ d

/-- The number with `d` decimals nearest to a rational. -/
def round (d : ℕ) (x : ℚ) : Fixed d := ⟨roundHalfUp (x * 10 ^ d)⟩

theorem toRat_mul (a : Fixed d) : a.toRat * 10 ^ d = a.units := by
  unfold toRat
  field_simp

theorem round_toRat (a : Fixed d) : round d a.toRat = a := by
  rw [round, toRat_mul, roundHalfUp_intCast]

@[simp] theorem toRat_zero : (⟨0⟩ : Fixed d).toRat = 0 := by simp [toRat]

/-- Rounding to `d` decimals, as a rational. -/
def quantize (d : ℕ) (x : ℚ) : ℚ := (round d x).toRat

theorem quantize_toRat (a : Fixed d) : quantize d a.toRat = a.toRat := by
  rw [quantize, round_toRat]

/-- The rational has at most `d` decimals. -/
def HasDecimals (d : ℕ) (x : ℚ) : Prop := quantize d x = x

instance (d : ℕ) (x : ℚ) : Decidable (HasDecimals d x) := inferInstanceAs (Decidable (_ = _))

theorem hasDecimals_toRat (a : Fixed d) : HasDecimals d a.toRat := quantize_toRat a

/-- A rational with at most `d` decimals is stored as it is. -/
theorem toRat_round {x : ℚ} (h : HasDecimals d x) : (round d x).toRat = x := h

theorem quantize_zero : quantize d 0 = 0 := by
  rw [← toRat_zero (d := d), quantize_toRat]

theorem hasDecimals_iff {x : ℚ} : HasDecimals d x ↔ ∃ a : Fixed d, a.toRat = x := by
  constructor
  · exact fun h => ⟨round d x, h⟩
  · rintro ⟨a, rfl⟩
    exact hasDecimals_toRat a

theorem HasDecimals.add {x y : ℚ} (hx : HasDecimals d x) (hy : HasDecimals d y) :
    HasDecimals d (x + y) := by
  obtain ⟨a, rfl⟩ := hasDecimals_iff.1 hx
  obtain ⟨b, rfl⟩ := hasDecimals_iff.1 hy
  refine hasDecimals_iff.2 ⟨⟨a.units + b.units⟩, ?_⟩
  simp only [toRat, Int.cast_add, add_div]

theorem HasDecimals.neg {x : ℚ} (hx : HasDecimals d x) : HasDecimals d (-x) := by
  obtain ⟨a, rfl⟩ := hasDecimals_iff.1 hx
  refine hasDecimals_iff.2 ⟨⟨-a.units⟩, ?_⟩
  simp only [toRat, Int.cast_neg, neg_div]

/-- Sums have no more decimals than their terms. -/
theorem HasDecimals.sum {l : List ℚ} (h : ∀ x ∈ l, HasDecimals d x) : HasDecimals d l.sum := by
  induction l with
  | nil => exact quantize_zero
  | cons x l ih =>
    rw [List.sum_cons]
    exact (h x List.mem_cons_self).add (ih fun y hy => h y (List.mem_cons_of_mem _ hy))

end Fixed

end PaySystem
