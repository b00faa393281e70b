import Mathlib.Algebra.Order.Ring.Defs
import Mathlib.Logic.Relation
import Mathlib.Tactic.Linarith

/-!
# Ledgers

A ledger is what is to be paid, what is paid, and what is on its way. Money is put on its way as
long as something remains, arrives or is sent back, and may be paid back once it has arrived. A
ledger that starts empty stays valid, and the state of its payment can be told by two equality
tests.
-/

namespace PaySystem

/-- The amounts of a ledger. -/
@[ext] structure Ledger (α : Type*) where
  total : α
  completed : α
  pending : α

namespace Ledger

variable {α : Type*} [CommRing α] [LinearOrder α] [IsStrictOrderedRing α] {l l' : Ledger α} {a : α}

/-- What may still be put on its way. -/
def remaining (l : Ledger α) : α := l.total - l.completed - l.pending

/-- Put `a` on its way. -/
def deposit (l : Ledger α) (a : α) : Ledger α := { l with pending := l.pending + a }

/-- Pay `a` back. -/
def payBack (l : Ledger α) (a : α) : Ledger α := { l with completed := l.completed - a }

/-- `a` arrives. -/
def complete (l : Ledger α) (a : α) : Ledger α :=
  { l with completed := l.completed + a, pending := l.pending - a }

/-- `a` is sent back. -/
def reject (l : Ledger α) (a : α) : Ledger α := { l with pending := l.pending - a }

/-- The moves of a ledger. -/
inductive Step (l : Ledger α) : Ledger α → Prop
  | deposit (a : α) (pos : 0 < a) (le : a ≤ l.remaining) : Step l (l.deposit a)
  | payBack (a : α) (pos : 0 < a) (le : a ≤ l.completed) : Step l (l.payBack a)
  | complete (a : α) (pos : 0 < a) (le : a ≤ l.pending) : Step l (l.complete a)
  | reject (a : α) (pos : 0 < a) (le : a ≤ l.pending) : Step l (l.reject a)

/-- The runs of a ledger. -/
abbrev Runs : Ledger α → Ledger α → Prop := Relation.ReflTransGen Step

/-- Nothing is negative, and the total is covered by nothing more than itself. -/
structure Valid (l : Ledger α) : Prop where
  total : 0 < l.total
  completed : 0 ≤ l.completed
  pending : 0 ≤ l.pending
  remaining : 0 ≤ l.remaining

/-- A ledger with a positive total on which nothing has happened. -/
theorem valid_of_empty (htotal : 0 < l.total) (hcompleted : l.completed = 0)
    (hpending : l.pending = 0) : l.Valid where
  total := htotal
  completed := hcompleted.ge
  pending := hpending.ge
  remaining := by
    rw [Ledger.remaining, hcompleted, hpending]
    linarith

/-- **Every move keeps a ledger valid.** -/
theorem Step.valid (h : Step l l') (hl : l.Valid) : l'.Valid := by
  obtain ⟨htotal, hcompleted, hpending, hremaining⟩ := hl
  unfold Ledger.remaining at hremaining
  cases h with
  | deposit a pos le =>
    unfold Ledger.remaining at le
    refine ⟨htotal, hcompleted, ?_, ?_⟩ <;> simp only [Ledger.deposit, Ledger.remaining] <;>
      linarith
  | payBack a pos le =>
    refine ⟨htotal, ?_, hpending, ?_⟩ <;> simp only [Ledger.payBack, Ledger.remaining] <;> linarith
  | complete a pos le =>
    refine ⟨htotal, ?_, ?_, ?_⟩ <;> simp only [Ledger.complete, Ledger.remaining] <;> linarith
  | reject a pos le =>
    refine ⟨htotal, hcompleted, ?_, ?_⟩ <;> simp only [Ledger.reject, Ledger.remaining] <;> linarith

/-- A ledger stays valid along its runs. -/
theorem Runs.valid (h : Runs l l') (hl : l.Valid) : l'.Valid := by
  induction h with
  | refl => exact hl
  | tail _ hs ih => exact hs.valid ih

/-! ## The state of the payment -/

/-- How far a ledger is paid. -/
inductive Phase
  | unpaid
  | partlyPaid
  | paid
  deriving DecidableEq

/-- The state of the payment, by comparison with nothing and with the total. -/
def phase (l : Ledger α) : Phase :=
  if l.completed ≤ 0 then .unpaid
  else if l.completed < l.total then .partlyPaid
  else .paid

/-- **The comparisons can be made by equality tests.** -/
theorem Valid.phase_eq (h : l.Valid) : l.phase =
    if l.completed = l.total then .paid else if l.completed = 0 then .unpaid else .partlyPaid := by
  have hle : l.completed ≤ l.total := by
    have hremaining := h.remaining
    have hpending := h.pending
    unfold Ledger.remaining at hremaining
    linarith
  unfold phase
  by_cases hzero : l.completed = 0
  · have hne : l.completed ≠ l.total := hzero ▸ h.total.ne
    rw [if_pos hzero.le, if_neg hne, if_pos hzero]
  · have hpos : ¬ l.completed ≤ 0 := fun hle => hzero (le_antisymm hle h.completed)
    rw [if_neg hpos, if_neg hzero]
    by_cases htotal : l.completed = l.total
    · rw [if_neg htotal.not_lt, if_pos htotal]
    · rw [if_pos (lt_of_le_of_ne hle htotal), if_neg htotal]

end Ledger

end PaySystem
