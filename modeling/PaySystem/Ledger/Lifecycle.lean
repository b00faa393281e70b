import PaySystem.Database.Balance
import Mathlib.Data.Set.Defs

/-!
# The life of a payment

A payment is born as a submitted deposit or as a completed return, and only a payment that is
neither completed nor rejected changes. `Payment.Lifecycle` collects what this means for the row of
a payment; the deposits are made with payment types from a set `types`.
-/

namespace PaySystem

namespace Payment

/-- The status is final. -/
def isTerminal (p : Payment) : Bool :=
  p.paymentStatus == PaymentStatus.Completed.value ||
    p.paymentStatus == PaymentStatus.Rejected.value

/-- A new deposit into `order`. -/
structure IsDeposit (types : Set String) (order : Order) (p : Payment) : Prop where
  userId : p.userId = order.userId
  amount : 0 < p.amount.toRat
  status : p.paymentStatus = PaymentStatus.Submitted.value
  operation : p.operationType = OperationType.Deposit.value
  paymentType : p.paymentType ∈ types
  bankPaymentId : p.bankPaymentId.isSome = true
  paidAt : p.paidAt = none

/-- A new return from `order`. -/
structure IsReturn (order : Order) (p : Payment) : Prop where
  userId : p.userId = order.userId
  amount : 0 < p.amount.toRat
  status : p.paymentStatus = PaymentStatus.Completed.value
  operation : p.operationType = OperationType.Return.value
  paymentType : p.paymentType = PaymentType.CASH.value
  bankPaymentId : p.bankPaymentId = none
  paidAt : p.paidAt.isSome = true

/-- What holds of every payment of `order`, at any time. -/
structure Lifecycle (types : Set String) (order : Order) (p : Payment) : Prop where
  status : p.paymentStatus ∈ PaymentStatus.members.map PaymentStatus.value
  paidAt : p.paidAt.isSome = true ↔ p.paymentStatus = PaymentStatus.Completed.value
  userId : p.userId = order.userId
  ofReturn : p.operationType = OperationType.Return.value →
    p.paymentType = PaymentType.CASH.value ∧ p.paymentStatus = PaymentStatus.Completed.value ∧
      p.bankPaymentId = none
  ofOpen : p.isTerminal = false → p.operationType = OperationType.Deposit.value ∧
    p.paymentType ∈ types ∧ p.bankPaymentId.isSome = true

/-- The parts of a payment that never change. -/
structure SameOrigin (p p' : Payment) : Prop where
  id : p'.id = p.id
  userId : p'.userId = p.userId
  orderId : p'.orderId = p.orderId
  paymentType : p'.paymentType = p.paymentType
  operationType : p'.operationType = p.operationType
  amount : p'.amount = p.amount
  bankPaymentId : p'.bankPaymentId = p.bankPaymentId

variable {types : Set String} {order : Order} {p : Payment}

theorem isTerminal_eq_false_iff : p.isTerminal = false ↔
    p.paymentStatus ≠ PaymentStatus.Completed.value ∧
      p.paymentStatus ≠ PaymentStatus.Rejected.value := by
  simp [isTerminal]

theorem isTerminal_of_completed (h : p.paymentStatus = PaymentStatus.Completed.value) :
    p.isTerminal = true := by
  simp [isTerminal, h]

/-- The open payments are those that are not final and have an id at the bank. -/
theorem isOpen_iff_isTerminal :
    p.isOpen = true ↔ p.isTerminal = false ∧ p.bankPaymentId.isSome = true := by
  rw [isOpen_iff, isTerminal_eq_false_iff, and_assoc]

theorem IsDeposit.signedAmount (h : p.IsDeposit types order) : p.signedAmount = p.amount.toRat :=
  if_pos h.operation

theorem IsReturn.signedAmount (h : p.IsReturn order) : p.signedAmount = -p.amount.toRat := by
  rw [Payment.signedAmount, h.operation, if_neg (by decide), if_pos rfl]

theorem IsDeposit.lifecycle (h : p.IsDeposit types order) : p.Lifecycle types order where
  status := by
    rw [h.status]
    decide
  paidAt := by
    rw [h.paidAt, h.status]
    decide
  userId := h.userId
  ofReturn hr := by
    rw [h.operation] at hr
    exact absurd hr (by decide)
  ofOpen _ := ⟨h.operation, h.paymentType, h.bankPaymentId⟩

theorem IsReturn.lifecycle (h : p.IsReturn order) : p.Lifecycle types order where
  status := by
    rw [h.status]
    decide
  paidAt := by simp [h.paidAt, h.status]
  userId := h.userId
  ofReturn _ := ⟨h.paymentType, h.status, h.bankPaymentId⟩
  ofOpen ht := by
    rw [isTerminal_of_completed h.status] at ht
    exact absurd ht (by decide)

/-- A lifecycle only depends on the owner of the order. -/
theorem Lifecycle.congr {order' : Order} (h : p.Lifecycle types order)
    (ho : order'.userId = order.userId) : p.Lifecycle types order' :=
  ⟨h.status, h.paidAt, h.userId.trans ho.symm, h.ofReturn, h.ofOpen⟩

/-- A new status for a payment that was not final, which stamps it as paid exactly if the status is
completed, keeps the lifecycle. -/
theorem Lifecycle.advance (h : p.Lifecycle types order) (hp : p.isTerminal = false)
    {status : String} {paidAt : Option DateTime}
    (hs : status ∈ PaymentStatus.members.map PaymentStatus.value)
    (hpaid : paidAt.isSome = true ↔ status = PaymentStatus.Completed.value) :
    Lifecycle types order { p with paymentStatus := status, paidAt := paidAt } where
  status := hs
  paidAt := hpaid
  userId := h.userId
  ofReturn hr := by
    change p.operationType = _ at hr
    rw [(h.ofOpen hp).1] at hr
    exact absurd hr (by decide)
  ofOpen _ := h.ofOpen hp

theorem SameOrigin.refl (p : Payment) : p.SameOrigin p := ⟨rfl, rfl, rfl, rfl, rfl, rfl, rfl⟩

theorem SameOrigin.trans {p' p'' : Payment} (h : p.SameOrigin p') (h' : p'.SameOrigin p'') :
    p.SameOrigin p'' where
  id := h'.id.trans h.id
  userId := h'.userId.trans h.userId
  orderId := h'.orderId.trans h.orderId
  paymentType := h'.paymentType.trans h.paymentType
  operationType := h'.operationType.trans h.operationType
  amount := h'.amount.trans h.amount
  bankPaymentId := h'.bankPaymentId.trans h.bankPaymentId

end Payment

/-- Every payment of the order `orderId` has a lifecycle, and a positive amount. -/
def Db.LawfulOrder (types : Set String) (db : Db) (orderId : ℕ) : Prop :=
  ∀ p ∈ db.payments.rows, p.orderId = orderId → 0 < p.amount.toRat ∧
    ∃ order, db.orders.find? orderId = some order ∧ p.Lifecycle types order

/-- Every payment has a lifecycle. -/
def Db.Lawful (types : Set String) (db : Db) : Prop :=
  ∀ p ∈ db.payments.rows, ∃ order, db.orders.find? p.orderId = some order ∧ p.Lifecycle types order

/-- What no run ever takes back: payments stay, with their origin, and a final payment stays as it
is. -/
def Db.Preserves (db db' : Db) : Prop :=
  ∀ p ∈ db.payments.rows, ∃ p' ∈ db'.payments.rows,
    p.SameOrigin p' ∧ (p.isTerminal = true → p' = p)

theorem Db.Preserves.refl (db : Db) : db.Preserves db :=
  fun p hp => ⟨p, hp, .refl p, fun _ => rfl⟩

theorem Db.Preserves.trans {db db' db'' : Db} (h : db.Preserves db') (h' : db'.Preserves db'') :
    db.Preserves db'' := by
  intro p hp
  obtain ⟨p', hp', hs', ht'⟩ := h p hp
  obtain ⟨p'', hp'', hs'', ht''⟩ := h' p' hp'
  refine ⟨p'', hp'', hs'.trans hs'', fun ht => ?_⟩
  obtain rfl := ht' ht
  exact ht'' ht

end PaySystem
