import PaySystem.Foundations.FixedPoint
import PaySystem.Foundations.Text

/-!
# Decimals in texts

Reading a decimal that was written without an exponent: a sign, digits, and perhaps a point with
more digits behind it.
-/

namespace PaySystem.Text

/-- The value of a number in ASCII digits. -/
def plainDigits (cs : List Char) : Option ℕ := if cs.all Char.isDigit then digits cs else none

/-- The value of a decimal without its sign. -/
def unsignedDecimal (cs : List Char) : Option ℚ :=
  (plainDigits (cs.takeWhile (· != '.'))).bind fun n =>
    match cs.dropWhile (· != '.') with
    | [] => some (n : ℚ)
    | _ :: ds => (plainDigits ds).map fun k : ℕ => (n : ℚ) + k / 10 ^ ds.length

/-- `Decimal(s)`, of the texts that `str` writes for a `Decimal` without an exponent. -/
def decimal (s : String) : Option ℚ :=
  match s.toList with
  | '-' :: cs => (unsignedDecimal cs).map fun x => -x
  | cs => unsignedDecimal cs

theorem isDigit_of_mem_toDigits {n : ℕ} {c : Char} (h : c ∈ Nat.toDigits 10 n) :
    c.isDigit = true := Nat.isDigit_of_mem_toDigits (by decide) (by decide) h

theorem plainDigits_toDigits (n : ℕ) : plainDigits (Nat.toDigits 10 n) = some n := by
  have hall : (Nat.toDigits 10 n).all Char.isDigit = true :=
    List.all_eq_true.2 fun c hc => isDigit_of_mem_toDigits hc
  rw [plainDigits, if_pos hall, digits_toDigits]

/-- Two digits. -/
theorem plainDigits_pair {a b : ℕ} (ha : a < 10) (hb : b < 10) :
    plainDigits [a.digitChar, b.digitChar] = some (10 * a + b) := by
  have hdigit : ∀ n < 10, n.digitChar.isDigit = true := fun n hn => by
    rw [Nat.isDigit_digitChar, decide_eq_true hn]
  have hall : [a.digitChar, b.digitChar].all Char.isDigit = true := by simp [hdigit, ha, hb]
  rw [plainDigits, if_pos hall, digits, digit_of_isDigit (hdigit a ha), Option.bind_some,
    digitsFrom_of_isDigit (by simpa using hdigit b hb), Nat.ofDigitChars_cons, Nat.ofDigitChars_nil,
    Nat.toNat_digitChar_sub_48_of_lt_ten ha]
  congr 1
  have hval := Nat.toNat_digitChar_of_lt_ten hb
  simp [hval]

/-- There is no point among the digits. -/
theorem ne_point_of_mem_toDigits {n : ℕ} : ∀ c ∈ Nat.toDigits 10 n, (c != '.') = true := by
  intro c hc
  have hdigit := isDigit_of_mem_toDigits hc
  rw [bne_iff_ne]
  rintro rfl
  cases hdigit

theorem unsignedDecimal_point (n : ℕ) {ds : List Char} {k : ℕ} (h : plainDigits ds = some k) :
    unsignedDecimal (Nat.toDigits 10 n ++ '.' :: ds) = some ((n : ℚ) + k / 10 ^ ds.length) := by
  have htake : (Nat.toDigits 10 n ++ '.' :: ds).takeWhile (· != '.') = Nat.toDigits 10 n := by
    rw [List.takeWhile_append_of_pos ne_point_of_mem_toDigits,
      List.takeWhile_cons_of_neg (by decide), List.append_nil]
  have hdrop : (Nat.toDigits 10 n ++ '.' :: ds).dropWhile (· != '.') = '.' :: ds := by
    rw [List.dropWhile_append_of_pos ne_point_of_mem_toDigits,
      List.dropWhile_cons_of_neg (by decide)]
  rw [unsignedDecimal, htake, hdrop, plainDigits_toDigits, Option.bind_some]
  exact congrArg (Option.map _) h

/-- A text that begins with a digit has no sign. -/
theorem decimal_of_toDigits {n : ℕ} {s : String} {cs : List Char}
    (h : s.toList = Nat.toDigits 10 n ++ cs) :
    decimal s = unsignedDecimal (Nat.toDigits 10 n ++ cs) := by
  rw [decimal, h]
  cases hn : Nat.toDigits 10 n with
  | nil => exact absurd hn Nat.toDigits_ne_nil
  | cons c ds =>
    have hdigit : c.isDigit = true := isDigit_of_mem_toDigits (hn ▸ List.mem_cons_self)
    rw [List.cons_append]
    split
    · next hc =>
      obtain ⟨rfl, -⟩ := List.cons.inj hc
      cases hdigit
    · rfl

theorem decimal_of_neg {s : String} {cs : List Char} (h : s.toList = '-' :: cs) :
    decimal s = (unsignedDecimal cs).map fun x => -x := by
  simp only [decimal, h]

end PaySystem.Text
