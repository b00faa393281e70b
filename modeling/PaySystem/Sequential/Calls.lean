import PaySystem.Foundations.Serial
import PaySystem.Ledger.Invariants
import PaySystem.Sequential.Services

/-!
# Serial runs of the services

A call that runs alone leaves the world at rest and the database as it was, or with one change that
is allowed, admitted by the checks of the services, and that stores a current order status.
-/

namespace PaySystem

open Prog Machine

variable {types : Set String} {kind : Change → Prop} {i : ℕ} {env : ℕ → Env} {w w' : World}
  {σ : Session} {payload : PaymentCreate} {userId paymentId : ℕ} {paymentType : String}
  {db db' : Db} {order : Order} {p : Payment} {py : Pydantic}

/-- What a call that runs alone does to the database: nothing, or one change of the kind `kind`. -/
inductive Db.Committed (types : Set String) (kind : Change → Prop) (db : Db) : Db → Prop
  | nothing : Committed types kind db db
  | change (c : Change) (allowed : c.Allowed types db) (admitted : c.Admitted db)
      (current : c.Current db) (isKind : kind c) : Committed types kind db (c.run db)

/-- A call has left the world at rest, and committed at most one change. -/
structure World.Left (types : Set String) (kind : Change → Prop) (w w' : World) : Prop where
  rest : w'.AtRest
  committed : w.db.Committed types kind w'.db

/-- The orders of the session are as they are in the database. -/
def Session.Faithful (σ : Session) (w : World) : Prop :=
  ∀ order ∈ σ.identityMap, w.db.orders.find? order.id = some order

/-- A change of a payment of the order. -/
def Change.OfOrder (orderId : ℕ) (c : Change) : Prop := c.row.orderId = orderId

/-- A change of the open payment. -/
def Change.OfPayment (db : Db) (paymentId : ℕ) (c : Change) : Prop :=
  ∃ p, OpenPayment db paymentId p ∧ c.old = some p

theorem Db.Committed.weaken (h : db.Committed types kind db') :
    db.Committed types (fun _ => True) db' := by
  cases h with
  | nothing => exact .nothing
  | change c allowed admitted current _ => exact .change c allowed admitted current trivial

theorem World.Left.weaken (h : w.Left types kind w') : w.Left types (fun _ => True) w' :=
  ⟨h.rest, h.committed.weaken⟩

theorem Session.fresh_faithful (w : World) : Session.fresh.Faithful w := by
  intro order ho
  cases ho

theorem Alone.left {ws : List Write} {bank : List BankPayment} {queue : List ℕ}
    (h : Alone i db ws bank queue w') (hdb : w.db.Committed types kind db) :
    w.Left types kind (w'.close i) :=
  ⟨h.atRest_close, h.db.symm ▸ hdb⟩

/-! ## Deposits and returns -/

theorem newDeposit_isDeposit (hpt : paymentType ∈ types) (own : order.userId = userId)
    (b : String) (id : ℕ) : (newDeposit payload userId paymentType b id).IsDeposit types order where
  userId := own.symm
  amount := by
    change 0 < (Fixed.round 2 payload.amount).toRat
    rw [payload.toRat_round]
    exact payload.gt
  status := rfl
  operation := rfl
  paymentType := hpt
  bankPaymentId := rfl
  paidAt := rfl

theorem allowed_deposit (hpt : paymentType ∈ types)
    (own : OwnOrder db payload.orderId userId order) (b : String) {id : ℕ}
    (hid : db.payments.find? id = none) :
    (Change.deposit order (newDeposit payload userId paymentType b id)).Allowed types db :=
  ⟨own.id.symm, ⟨_, own.row⟩, hid, newDeposit_isDeposit hpt own.owner b id⟩

/-- The change of a deposit is admitted and current. -/
theorem committed_deposit (hpt : paymentType ∈ types)
    (own : OwnOrder db payload.orderId userId order) (hfits : DepositFits db payload order)
    {b : String} {id : ℕ} (hid : db.payments.find? id = none) :
    db.Committed types (Change.OfOrder payload.orderId)
      ((Change.deposit order (newDeposit payload userId paymentType b id)).run db) := by
  refine .change _ (allowed_deposit hpt own b hid) ?_ ?_ rfl
  · change db.balance .nonRejected payload.orderId + (Fixed.round 2 payload.amount).toRat ≤ _
    rw [payload.toRat_round]
    exact hfits
  · intro order' st ha
    cases ha

theorem newReturn_isReturn (own : order.userId = userId) (paidAt : DateTime) (id : ℕ) :
    (newReturn payload userId paidAt id).IsReturn order where
  userId := own.symm
  amount := by
    change 0 < (Fixed.round 2 payload.amount).toRat
    rw [payload.toRat_round]
    exact payload.gt
  status := rfl
  operation := rfl
  paymentType := rfl
  bankPaymentId := rfl
  paidAt := rfl

theorem allowed_return (own : OwnOrder db payload.orderId userId order) (paidAt : DateTime)
    {id : ℕ} (hid : db.payments.find? id = none) :
    (returnChange db order (newReturn payload userId paidAt id)).Allowed types db :=
  ⟨own.id.symm, ⟨_, own.row⟩, hid, newReturn_isReturn own.owner paidAt id⟩

/-- The change of a return is admitted and current. -/
theorem committed_return (own : OwnOrder db payload.orderId userId order)
    (hle : payload.amount ≤ db.balance .completed payload.orderId) {paidAt : DateTime} {id : ℕ}
    (hid : db.payments.find? id = none) :
    db.Committed types (Change.OfOrder payload.orderId)
      ((returnChange db order (newReturn payload userId paidAt id)).run db) := by
  have hallowed : (returnChange db order (newReturn payload userId paidAt id)).Allowed types db :=
    allowed_return own paidAt hid
  refine .change _ hallowed ?_ ?_ rfl
  · change (Fixed.round 2 payload.amount).toRat ≤ db.balance .completed payload.orderId
    rw [payload.toRat_round]
    exact hle
  · rintro order' st ⟨⟩
    refine ⟨own.row, ?_⟩
    rw [Db.orderStatus, Db.orderStatus, hallowed.balance_run, Db.balance,
      sum_insertPayment _ hid, Change.delta_of_new rfl]
    rfl

/-! ## Checks -/

theorem OpenPayment.row (hp : OpenPayment db paymentId p) : db.payments.find? p.id = some p :=
  Table.find?_key (Table.mem_of_find? hp.find)

theorem allowed_advance (hp : OpenPayment db paymentId p) {status : String}
    (hst : status ∈ PaymentStatus.members.map PaymentStatus.value)
    (hne : status ≠ PaymentStatus.Completed.value) :
    (Change.advance p status).Allowed types db :=
  ⟨hp.row, hp.isOpen, hst, hne⟩

theorem committed_advance (hp : OpenPayment db paymentId p) {status : String}
    (hst : status ∈ PaymentStatus.members.map PaymentStatus.value)
    (hne : status ≠ PaymentStatus.Completed.value) :
    db.Committed types (Change.OfPayment db paymentId) ((Change.advance p status).run db) := by
  refine .change _ (allowed_advance hp hst hne) trivial ?_ ⟨p, hp, rfl⟩
  intro order' st ha
  cases ha

theorem allowed_complete (hp : OpenPayment db paymentId p)
    (ho : db.orders.find? p.orderId = some order) (paidAt : DateTime) :
    (completeChange db order p paidAt).Allowed types db := by
  have hid : order.id = p.orderId := Table.key_of_find? ho
  have hrow : db.orders.find? order.id = some order := Table.find?_key (Table.mem_of_find? ho)
  exact ⟨hid.symm, ⟨_, hrow⟩, hp.row, hp.isOpen⟩

/-- The change of a completing check is current, if the order of the payment is the row in the
database. -/
theorem committed_complete (hp : OpenPayment db paymentId p)
    (ho : db.orders.find? p.orderId = some order) (paidAt : DateTime) :
    db.Committed types (Change.OfPayment db paymentId)
      ((completeChange db order p paidAt).run db) := by
  have hallowed : (completeChange db order p paidAt).Allowed types db :=
    allowed_complete hp ho paidAt
  refine .change _ hallowed trivial ?_ ⟨p, hp, rfl⟩
  rintro order' st ⟨⟩
  refine ⟨Table.find?_key (Table.mem_of_find? ho), ?_⟩
  rw [Db.orderStatus, Db.orderStatus, hallowed.balance_run, Db.balance,
    Change.sum_paymentWrites _ hp.row]
  rfl

theorem RelatedOrder.find? {orderId : ℕ} (h : RelatedOrder env w.db σ orderId order)
    (hσ : σ.Faithful w) : w.db.orders.find? orderId = some order := by
  cases h with
  | loaded h =>
    have hid : order.id = orderId := by simpa using List.find?_some h
    rw [← hid]
    exact hσ order (List.mem_of_find?_eq_some h)
  | lazy _ _ find => exact find

/-! ## All calls -/

theorem DepositOutcome.left {r : Except Err Payment} (hpt : paymentType ∈ types)
    (h : DepositOutcome env i w payload userId paymentType r w') :
    w.Left types (Change.OfOrder payload.orderId) (w'.close i) := by
  cases h with
  | failed _ _ left => exact left.left .nothing
  | notFound _ left => exact left.left .nothing
  | forbidden _ _ _ left => exact left.left .nothing
  | overpayment _ _ _ left => exact left.left .nothing
  | refused _ _ left => exact left.left .nothing
  | lost _ _ _ left => exact left.left .nothing
  | notStored _ _ _ _ _ left => exact left.left .nothing
  | notEnqueued order own h b _ id hid _ _ left =>
    exact left.left (committed_deposit hpt own h hid)
  | done order own h b _ id hid left => exact left.left (committed_deposit hpt own h hid)

theorem ReturnOutcome.left {r : Except Err Payment}
    (h : ReturnOutcome env i w payload userId r w') :
    w.Left types (Change.OfOrder payload.orderId) (w'.close i) := by
  cases h with
  | failed _ _ _ left => exact left.left .nothing
  | notFound _ left => exact left.left .nothing
  | forbidden _ _ _ left => exact left.left .nothing
  | exceeds _ _ _ left => exact left.left .nothing
  | done order own h id hid left => exact left.left (committed_return own h hid)

theorem CheckOutcome.left {r : Except Err Bool} (hσ : σ.Faithful w)
    (h : CheckOutcome env i w py paymentId σ r w') :
    w.Left types (Change.OfPayment w.db paymentId) (w'.close i) := by
  cases h with
  | failed _ _ _ left => exact left.left .nothing
  | notOpen _ left => exact left.left .nothing
  | retry _ _ _ left => exact left.left .nothing
  | clientFailed _ _ _ _ _ left => exact left.left .nothing
  | invalid _ _ _ _ _ left => exact left.left .nothing
  | unknownStatus _ _ _ _ _ left => exact left.left .nothing
  | missingGreenlet _ _ _ _ _ _ _ left => exact left.left .nothing
  | noOrder _ _ _ _ _ _ _ left => exact left.left .nothing
  | advanced p hp info _ hst hne left => exact left.left (committed_advance hp hst hne)
  | completed p hp info _ _ order ho left =>
    exact left.left (committed_complete hp (ho.find? hσ) info.paidAt)

theorem alone_applyAsyncAll {bank : List BankPayment} {queue : List ℕ} (ids : List ℕ)
    (h : Alone i db [] bank queue w) :
    machine.alone i (applyAsyncAll ids) env (fun _ _ w' _ => ∃ queue, Alone i db [] bank queue w')
      σ w := by
  induction ids generalizing queue w env with
  | nil => exact ⟨queue, h⟩
  | cons id ids ih =>
    exact alone_bind (alone_applyAsync h (fun _ _ => ⟨queue, h⟩) fun _ w₁ h₁ => ih h₁)

theorem alone_enqueue (hw : w.AtRest) :
    machine.alone i enqueuePaymentStatusChecks env
      (fun _ _ w' _ => ∃ queue, Alone i w.db [] w.bank queue w') σ w := by
  have h := hw.alone i
  refine alone_bind (alone_selectPaymentIds h (fun _ _ => ⟨_, h⟩) fun _ w₁ h₁ => ?_)
  exact alone_applyAsyncAll _ h₁

/-- **A call that runs alone** leaves the world at rest, and commits at most one change. -/
theorem alone_body (hw : w.AtRest) (hσ : σ.Faithful w) (c : Call types) :
    machine.alone i (c.body py) env (fun _ _ w' _ => w.Left types (fun _ => True) (w'.close i)) σ
      w := by
  cases c with
  | deposit userId payload paymentType =>
    refine alone_bind (alone_mono (alone_createAcquiringPayment hw) fun r _ w' _ h => ?_)
    have hleft := (h.left paymentType.2).weaken
    cases r <;> exact hleft
  | cashReturn userId payload =>
    refine alone_bind (alone_mono (alone_createReturn hw) fun r _ w' _ h => ?_)
    have hleft : w.Left types (fun _ => True) (w'.close i) := h.left.weaken
    cases r <;> exact hleft
  | check paymentId =>
    refine alone_bind (alone_mono (alone_checkAndUpdate hw) fun r _ w' _ h => ?_)
    have hleft : w.Left types (fun _ => True) (w'.close i) := (h.left hσ).weaken
    cases r <;> exact hleft
  | enqueue =>
    refine alone_bind (alone_mono (alone_enqueue hw) fun r _ w' _ h => ?_)
    obtain ⟨queue, h⟩ := h
    have hleft : w.Left types (fun _ => True) (w'.close i) := h.left .nothing
    cases r <;> exact hleft

end PaySystem
