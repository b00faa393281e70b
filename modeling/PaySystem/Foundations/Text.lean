import Mathlib.Data.List.DropRight
import Mathlib.Tactic.Common

/-!
# Text

The functions on strings of the standard library that the services use: `str.isspace`, `str.strip`,
the parts of a text around a separator, and the conversions between integers and text. `int` takes
more texts than `str` writes (signs, spaces, underscores, the decimal digits of all scripts), and
reads back what `str` writes. A limit on the number of digits is left out.
-/

namespace PaySystem.Text

/-! ## White space -/

/-- `c.isspace()`. -/
def isSpace (c : Char) : Bool :=
  (0x09 ≤ c.toNat && c.toNat ≤ 0x0d) || (0x1c ≤ c.toNat && c.toNat ≤ 0x20) || c.toNat == 0x85 ||
    c.toNat == 0xa0 || c.toNat == 0x1680 || (0x2000 ≤ c.toNat && c.toNat ≤ 0x200a) ||
    c.toNat == 0x2028 || c.toNat == 0x2029 || c.toNat == 0x202f || c.toNat == 0x205f ||
    c.toNat == 0x3000

/-- The text without the characters of `p` at its ends. -/
def trim (p : Char → Bool) (s : String) : String :=
  String.ofList ((s.toList.dropWhile p).rdropWhile p)

/-- `s.strip()`. -/
def strip (s : String) : String := trim isSpace s

/-- `any(ch.isspace() for ch in s)`. -/
def hasSpace (s : String) : Bool := s.toList.any isSpace

theorem hasSpace_eq_false {s : String} :
    hasSpace s = false ↔ ∀ c ∈ s.toList, isSpace c = false := by
  simp [hasSpace]

theorem trim_eq_self {p : Char → Bool} {s : String} (h : ∀ c ∈ s.toList, p c = false) :
    trim p s = s := by
  have hleft : s.toList.dropWhile p = s.toList := by
    cases hs : s.toList with
    | nil => rfl
    | cons c cs =>
      refine List.dropWhile_cons_of_neg ?_
      simp [h c (by simp [hs])]
  have hright : s.toList.rdropWhile p = s.toList := by
    refine List.rdropWhile_eq_self_iff.2 fun hne => ?_
    simp [h _ (List.getLast_mem hne)]
  rw [trim, hleft, hright, String.ofList_toList]

/-! ## Separators -/

/-- `s.split(c)[0]`. -/
def before (c : Char) (s : String) : String := String.ofList (s.toList.takeWhile (· != c))

/-- What follows the first `c` in `s`; nothing if there is none. -/
def after (c : Char) (s : String) : String :=
  String.ofList ((s.toList.dropWhile (· != c)).drop 1)

theorem not_mem_before (c : Char) (s : String) : c ∉ (before c s).toList := by
  rw [before, String.toList_ofList]
  intro h
  simpa using List.mem_takeWhile_imp h

section Split

variable {c : Char} {s t u : String} (hs : s.toList = t.toList ++ c :: u.toList)
  (ht : c ∉ t.toList)

include ht

theorem all_ne : ∀ d ∈ t.toList, (d != c) = true := by
  intro d hd
  simpa using fun hdc : d = c => ht (hdc ▸ hd)

include hs

theorem before_eq : before c s = t := by
  rw [before, hs, List.takeWhile_append_of_pos (all_ne ht), List.takeWhile_cons_of_neg (by simp),
    List.append_nil, String.ofList_toList]

theorem after_eq : after c s = u := by
  rw [after, hs, List.dropWhile_append_of_pos (all_ne ht), List.dropWhile_cons_of_neg (by simp),
    List.drop_one, List.tail_cons, String.ofList_toList]

end Split

/-! ## Integers -/

/-- The zeros of the scripts with decimal digits; the other nine digits follow each of them. -/
def zeros : List ℕ :=
  [0x30, 0x660, 0x6f0, 0x7c0, 0x966, 0x9e6, 0xa66, 0xae6, 0xb66, 0xbe6, 0xc66, 0xce6, 0xd66,
    0xde6, 0xe50, 0xed0, 0xf20, 0x1040, 0x1090, 0x17e0, 0x1810, 0x1946, 0x19d0, 0x1a80, 0x1a90,
    0x1b50, 0x1bb0, 0x1c40, 0x1c50, 0xa620, 0xa8d0, 0xa900, 0xa9d0, 0xa9f0, 0xaa50, 0xabf0,
    0xff10, 0x104a0, 0x10d30, 0x10d40, 0x11066, 0x110f0, 0x11136, 0x111d0, 0x112f0, 0x11450,
    0x114d0, 0x11650, 0x116c0, 0x116d0, 0x116da, 0x11730, 0x118e0, 0x11950, 0x11bf0, 0x11c50,
    0x11d50, 0x11da0, 0x11f50, 0x16130, 0x16a60, 0x16ac0, 0x16b50, 0x16d70, 0x1ccf0, 0x1d7ce,
    0x1d7d8, 0x1d7e2, 0x1d7ec, 0x1d7f6, 0x1e140, 0x1e2f0, 0x1e4f0, 0x1e5f1, 0x1e950, 0x1fbf0]

/-- The value of a decimal digit. -/
def digit (c : Char) : Option ℕ :=
  (zeros.find? fun z => z ≤ c.toNat && c.toNat < z + 10).map fun z => c.toNat - z

/-- The digits of a number after its first ones, which have the value `n`. A digit may have an
underscore before it. -/
def digitsFrom (n : ℕ) : List Char → Option ℕ
  | [] => some n
  | '_' :: c :: cs => (digit c).bind fun d => digitsFrom (10 * n + d) cs
  | c :: cs => (digit c).bind fun d => digitsFrom (10 * n + d) cs

/-- The digits of a number. -/
def digits : List Char → Option ℕ
  | [] => none
  | c :: cs => (digit c).bind fun d => digitsFrom d cs

/-- The white space that `int` takes around a number: the separators U+001C to U+001F do not
belong to it. -/
def isIntSpace (c : Char) : Bool := isSpace c && !(0x1c ≤ c.toNat && c.toNat ≤ 0x1f)

/-- `int(s)`; `none` is the `ValueError`. -/
def int (s : String) : Option ℤ :=
  match (trim isIntSpace s).toList with
  | '-' :: cs => (digits cs).map fun n : ℕ => -(n : ℤ)
  | '+' :: cs => (digits cs).map fun n : ℕ => (n : ℤ)
  | cs => (digits cs).map fun n : ℕ => (n : ℤ)

/-- `str(z)`. -/
def str (z : ℤ) : String := toString z

/-! ## Reading what was written -/

theorem toList_str (z : ℤ) : (str z).toList =
    if 0 ≤ z then Nat.toDigits 10 z.toNat else '-' :: Nat.toDigits 10 (-z).toNat := by
  rw [str, Int.toString_eq_repr, Int.repr_eq_if]
  split_ifs
  · exact Nat.toList_repr
  · rw [String.toList_append, Nat.toList_repr]
    rfl

/-- `str` writes digits, and a sign before them. -/
theorem of_mem_str {z : ℤ} {c : Char} (h : c ∈ (str z).toList) : c.isDigit = true ∨ c = '-' := by
  rw [toList_str] at h
  split_ifs at h
  · exact Or.inl (Nat.isDigit_of_mem_toDigits (by decide) (by decide) h)
  · rcases List.mem_cons.1 h with rfl | h
    · exact Or.inr rfl
    · exact Or.inl (Nat.isDigit_of_mem_toDigits (by decide) (by decide) h)

theorem toNat_of_isDigit {c : Char} (h : c.isDigit = true) : 48 ≤ c.toNat ∧ c.toNat ≤ 57 := by
  rw [Char.isDigit, Bool.and_eq_true, decide_eq_true_iff, decide_eq_true_iff] at h
  exact ⟨UInt32.le_iff_toNat_le.1 h.1, UInt32.le_iff_toNat_le.1 h.2⟩

theorem isSpace_of_isDigit {c : Char} (h : c.isDigit = true) : isSpace c = false := by
  have hc := toNat_of_isDigit h
  simp only [isSpace, Bool.or_eq_false_iff, Bool.and_eq_false_iff, decide_eq_false_iff_not,
    beq_eq_false_iff_ne]
  omega

theorem digit_of_isDigit {c : Char} (h : c.isDigit = true) : digit c = some (c.toNat - 48) := by
  have hc := toNat_of_isDigit h
  have hzero : zeros.find? (fun z => z ≤ c.toNat && c.toNat < z + 10) = some 48 := by
    refine List.find?_cons_of_pos ?_
    simp only [Bool.and_eq_true, decide_eq_true_iff]
    omega
  rw [digit, hzero, Option.map_some]

theorem digitsFrom_of_isDigit {cs : List Char} (h : ∀ c ∈ cs, c.isDigit = true) (n : ℕ) :
    digitsFrom n cs = some (Nat.ofDigitChars 10 cs n) := by
  induction cs generalizing n with
  | nil => simp [digitsFrom]
  | cons c cs ih =>
    have hc := h c List.mem_cons_self
    have hne : c ≠ '_' := by
      rintro rfl
      simp at hc
    rw [digitsFrom, digit_of_isDigit hc, Option.bind_some, Nat.ofDigitChars_cons]
    · exact ih (fun d hd => h d (List.mem_cons_of_mem _ hd)) _
    · exact fun _ _ hc' _ => hne hc'

theorem digits_toDigits (n : ℕ) : digits (Nat.toDigits 10 n) = some n := by
  have hall : ∀ c ∈ Nat.toDigits 10 n, c.isDigit = true := fun c hc =>
    Nat.isDigit_of_mem_toDigits (by decide) (by decide) hc
  have hval := Nat.ofDigitChars_ten_toDigits (n := n)
  cases hcs : Nat.toDigits 10 n with
  | nil => exact absurd hcs Nat.toDigits_ne_nil
  | cons c cs =>
    rw [hcs] at hall hval
    rw [digits, digit_of_isDigit (hall c List.mem_cons_self), Option.bind_some,
      digitsFrom_of_isDigit fun d hd => hall d (List.mem_cons_of_mem _ hd), ← hval,
      Nat.ofDigitChars_cons]
    simp

/-- **Round trip**: `int` reads what `str` writes. -/
theorem int_str (z : ℤ) : int (str z) = some z := by
  have hspace : ∀ c ∈ (str z).toList, isIntSpace c = false := by
    intro c hc
    rcases of_mem_str hc with hc | rfl
    · rw [isIntSpace, isSpace_of_isDigit hc, Bool.false_and]
    · rfl
  rw [int, trim_eq_self hspace, toList_str]
  split_ifs with hz
  · have hdigit : ∀ c cs, Nat.toDigits 10 z.toNat = c :: cs → c.isDigit = true := by
      intro c cs hcs
      refine Nat.isDigit_of_mem_toDigits (b := 10) (n := z.toNat) (by decide) (by decide) ?_
      rw [hcs]
      exact List.mem_cons_self
    split
    · next cs hcs => exact absurd (hdigit _ _ hcs) (by decide)
    · next cs hcs => exact absurd (hdigit _ _ hcs) (by decide)
    · rw [digits_toDigits, Option.map_some, Int.toNat_of_nonneg hz]
  · simp only [digits_toDigits, Option.map_some]
    rw [Int.toNat_of_nonneg (by omega), Int.neg_neg]

end PaySystem.Text
