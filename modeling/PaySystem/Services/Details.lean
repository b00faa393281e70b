import PaySystem.Foundations.Decimal
import PaySystem.Services.Endpoints

/-!
# What the details of a refusal say

A refused user reads in the detail of the answer what amount is left. The text can be read back: it
is the amount of the exception, to the last decimal.
-/

namespace PaySystem

open Text

theorem toList_str_natCast (n : ℕ) : (str (n : ℤ)).toList = Nat.toDigits 10 n := by
  rw [toList_str, if_pos (Int.natCast_nonneg n), Int.toNat_natCast]

/-- The digits of `str` of a `Decimal` with two decimals. -/
theorem toList_moneyText (a : Numeric) : (moneyText a).toList =
    (if a.units < 0 then ['-'] else []) ++ (Nat.toDigits 10 (a.units.natAbs / 100) ++
      '.' :: [(a.units.natAbs / 10 % 10).digitChar, (a.units.natAbs % 10).digitChar]) := by
  have hlast : Nat.toDigits 10 (a.units.natAbs % 10) = [(a.units.natAbs % 10).digitChar] :=
    Nat.toDigits_of_lt_base (Nat.mod_lt _ (by decide))
  have hfirst : Nat.toDigits 10 (a.units.natAbs / 10 % 10) =
      [(a.units.natAbs / 10 % 10).digitChar] := Nat.toDigits_of_lt_base (Nat.mod_lt _ (by decide))
  have hsign : (if a.units < 0 then "-" else "").toList = if a.units < 0 then ['-'] else [] := by
    split_ifs <;> rfl
  simp only [moneyText, String.toList_append, hsign]
  norm_cast
  rw [toList_str_natCast, toList_str_natCast, toList_str_natCast, hfirst, hlast]
  simp

/-- **Round trip**: the amount can be read off its text. -/
theorem decimal_moneyText (a : Numeric) : decimal (moneyText a) = some a.toRat := by
  have hlist := toList_moneyText a
  have hvalue : unsignedDecimal (Nat.toDigits 10 (a.units.natAbs / 100) ++
      '.' :: [(a.units.natAbs / 10 % 10).digitChar, (a.units.natAbs % 10).digitChar]) =
        some ((a.units.natAbs : ℚ) / 10 ^ 2) := by
    rw [unsignedDecimal_point _ (plainDigits_pair (Nat.mod_lt _ (by decide))
      (Nat.mod_lt _ (by decide)))]
    have hdigits : a.units.natAbs = 100 * (a.units.natAbs / 100) +
        (10 * (a.units.natAbs / 10 % 10) + a.units.natAbs % 10) := by omega
    congr 1
    rw [eq_div_iff (by norm_num), add_mul, List.length_cons, List.length_singleton,
      div_mul_cancel₀ _ (by norm_num)]
    conv_rhs => rw [hdigits]
    push_cast
    ring
  split_ifs at hlist with hneg
  · have habs := congrArg (Int.cast : ℤ → ℚ) (Int.ofNat_natAbs_of_nonpos hneg.le)
    rw [Int.cast_natCast, Int.cast_neg] at habs
    rw [decimal_of_neg (hlist.trans List.singleton_append), hvalue, Option.map_some, habs, neg_div,
      neg_neg]
    rfl
  · have habs := congrArg (Int.cast : ℤ → ℚ) (Int.natAbs_of_nonneg (not_lt.1 hneg))
    rw [Int.cast_natCast] at habs
    rw [decimal_of_toDigits (hlist.trans (List.nil_append _)), hvalue, habs]
    rfl

theorem decimal_balanceText {x : ℚ} (h : Fixed.HasDecimals 2 x) :
    decimal (balanceText x) = some x := by
  unfold balanceText
  split_ifs with hx
  · rw [hx]
    decide +kernel
  · rw [decimal_moneyText, Fixed.toRat_round h]

/-- The amount that a detail names, behind its colon. -/
def amountIn (detail : String) : Option ℚ := decimal (after ' ' (after ':' detail))

theorem amountIn_append (label text : String) (h : ':' ∉ label.toList) :
    amountIn (label ++ ": " ++ text) = decimal text := by
  have hdetail : (label ++ ": " ++ text).toList = label.toList ++ ':' :: (" " ++ text).toList := by
    simp
  have htext : (" " ++ text).toList = "".toList ++ ' ' :: text.toList := by simp
  rw [amountIn, after_eq hdetail h, after_eq htext (by simp)]

/-- The detail of a refused deposit names what remains. -/
theorem depositResponse_overpayment {x : ℚ} (hx : Fixed.HasDecimals 2 x) :
    ∃ detail, depositResponse (.error (.overpayment x)) = .httpException 400 detail ∧
      amountIn detail = some x := by
  refine ⟨_, rfl, ?_⟩
  have hlabel : "Payment amount exceeds remaining order amount. " ++ "Remaining amount: " =
    "Payment amount exceeds remaining order amount. Remaining amount" ++ ": " := by decide
  rw [hlabel, amountIn_append _ _ (by decide), decimal_moneyText, Fixed.toRat_round hx]

/-- The detail of a refused return names what is completed. -/
theorem returnResponse_exceeds {x : ℚ} (hx : Fixed.HasDecimals 2 x) :
    ∃ detail, returnResponse (.error (.returnAmountExceedsBalance x)) = .httpException 400 detail ∧
      amountIn detail = some x := by
  refine ⟨_, rfl, ?_⟩
  have hlabel : "Return amount exceeds available balance. " ++ "Available amount: " =
    "Return amount exceeds available balance. Available amount" ++ ": " := by decide
  rw [hlabel, amountIn_append _ _ (by decide), decimal_balanceText hx]

end PaySystem
