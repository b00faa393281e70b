import PaySystem.Foundations.Protocol
import PaySystem.Interleaving.Effects
import PaySystem.Interleaving.Programs

/-!
# The trail of a call

A call knows what it has seen and done: the rows it has locked, the sum it has taken, what it has
written, committed and enqueued. This is its `Trail`, and the discipline of the services is a
protocol on trails: each statement is sent only by a call whose trail allows it, and a call that
returns has the trail that its result promises. Every service follows the protocol; the rows of the
database, the locks and the queue are not needed to see it.

The parameter `greenlet` says whether SQL may ever be sent by a plain attribute read. Where it may
not, no check gets as far as to complete a payment.
-/

namespace PaySystem

open Prog

variable {types : Set String} {py : Pydantic} {greenlet : Bool} {β : Type}

/-- The payment is what the call is meant to make. -/
def Call.Makes : Call types → Payment → Prop
  | deposit userId payload paymentType, p => p.userId = userId ∧ p.orderId = payload.orderId ∧
    p.amount.toRat = payload.amount ∧ p.operationType = OperationType.Deposit.value ∧
    p.paymentType = paymentType ∧ p.bankPaymentId.isSome = true
  | cashReturn userId payload, p => p.userId = userId ∧ p.orderId = payload.orderId ∧
    p.amount.toRat = payload.amount ∧ p.operationType = OperationType.Return.value ∧
    p.paymentType = PaymentType.CASH.value ∧ p.bankPaymentId = none
  | _, _ => False

/-- The call is a deposit of this amount into this order, by its owner. -/
def Call.Deposits : Call types → Order → ℚ → Prop
  | deposit userId payload _, order, amount =>
    order.userId = userId ∧ order.id = payload.orderId ∧ amount = payload.amount
  | _, _, _ => False

/-- What a call has seen and done. -/
structure Trail (types : Set String) where
  call : Call types
  /-- The order that it has locked. -/
  order : Option Order
  /-- The payment that it has locked. -/
  payment : Option Payment
  /-- The order whose payments it has summed, and the sum without the rejected ones. -/
  counted : Option (ℕ × ℚ)
  /-- It has asked the bank to start a payment. -/
  started : Bool
  /-- It has asked the bank about a payment. -/
  asked : Bool
  writes : List Write
  /-- The payments that it has inserted and committed. -/
  stored : List Payment
  /-- It has seen or made sure that its payment is not open any more. -/
  settled : Bool
  /-- The payments that it has selected for a check. -/
  listed : Option (List ℕ)
  queued : List ℕ
  /-- The broker has refused one of its tasks. -/
  refused : Bool

namespace Trail

/-- The trail of a call that has not done anything. -/
def init (c : Call types) : Trail types :=
  ⟨c, none, none, none, false, false, [], [], false, none, [], false⟩

/-- The write makes a payment final. -/
def settles : Write → Bool
  | .updatePayment _ status _ =>
    status == PaymentStatus.Completed.value || status == PaymentStatus.Rejected.value
  | _ => false

/-- What a call learns from an answer. -/
def learn (t : Trail types) : {β : Type} → Stmt β → Except Err β → Trail types
  | _, .selectOrderForUpdate _, .ok order => { t with order := order }
  | _, .selectPaymentForUpdate _, .ok payment =>
    { t with payment := payment, settled := payment.isNone }
  | _, .selectPaymentIds, .ok paymentIds => { t with listed := some paymentIds }
  | _, .selectBalance orderId .nonRejected, .ok x => { t with counted := some (orderId, x) }
  | _, .startPayment _ _, _ => { t with started := true }
  | _, .checkPayment _, _ => { t with asked := true }
  | _, .applyAsync _, .error _ => { t with refused := true }
  | _, .commit, .ok _ =>
    { t with
      order := none
      payment := none
      counted := none
      stored := t.stored ++ inserts t.writes
      settled := t.settled || t.writes.any settles }
  | _, _, _ => t

/-- The trail after an answer. -/
def next (t : Trail types) {β : Type} (s : Stmt β) (r : Except Err β) : Trail types :=
  { t.learn s r with writes := s.written t.writes r, queued := t.queued ++ s.enqueued r }

/-- The discipline of the services. -/
def Allows (greenlet : Bool) (t : Trail types) : {β : Type} → Stmt β → Prop
  | _, .selectOrderForUpdate _ => t.writes = [] ∧ t.counted = none
  | _, .selectPaymentForUpdate paymentId => t.call = .check paymentId ∧ t.writes = []
  | _, .selectPaymentIds => t.call = .enqueue ∧ t.writes = []
  | _, .selectBalance orderId f => f = .nonRejected →
    t.writes = [] ∧ ∃ order, t.order = some order ∧ order.id = orderId
  | _, .insertPayment p => (∀ id, t.call.Makes { p with id := id }) ∧ t.writes = [] ∧ t.stored = []
  | _, .updatePayment paymentId status _ =>
    (∃ p, t.payment = some p ∧ p.id = paymentId) ∧ t.writes = [] ∧
      (status = PaymentStatus.Completed.value → greenlet = true)
  | _, .startPayment orderId amount => t.started = false ∧ t.writes = [] ∧
    ∃ order x, t.order = some order ∧ order.id = orderId ∧ t.counted = some (orderId, x) ∧
      x + amount ≤ order.totalSum.toRat ∧ t.call.Deposits order amount
  | _, .checkPayment bankPaymentId => t.asked = false ∧ t.writes = [] ∧
    ∃ p, t.payment = some p ∧ p.bankPaymentId = some bankPaymentId
  | _, .updateOrder _ _ => ∀ paymentId, t.call = .check paymentId → t.writes ≠ []
  | _, .applyAsync paymentId =>
    (∃ ids, t.listed = some ids ∧ paymentId ∈ ids) ∨ ∃ p ∈ t.stored, p.id = paymentId
  | _, _ => True

/-- The answers that a call may get: a row that is asked for by its id has this id, no order is
loaded before in the session of a task, and an attribute read sends SQL only where it may. -/
def Answers (greenlet : Bool) : {β : Type} → Stmt β → Except Err β → Prop
  | _, .selectOrderForUpdate orderId, .ok (some order) => order.id = orderId
  | _, .selectPaymentForUpdate paymentId, .ok (some payment) =>
    payment.id = paymentId ∧ payment.isOpen = true
  | _, .identityMapGet _, .ok order => order = none
  | _, .awaitOnly, .ok _ => greenlet = true
  | _, _, _ => True

/-- A call may only raise while it has stored nothing, or if the broker has refused a task. -/
def MayRaise (t : Trail types) : Prop := t.stored = [] ∨ t.refused = true

/-- What a call has done when it ends. -/
def Ends (t : Trail types) : Except Err Outcome → Prop
  | .ok (.payment p) => p ∈ t.stored ∧ t.call.Makes p ∧
    (p.operationType = OperationType.Deposit.value → p.id ∈ t.queued)
  | .ok (.final isFinal) => (∃ id, t.call = .check id) ∧ (isFinal = true → t.settled = true)
  | .ok .done => t.call = .enqueue ∧ t.listed = some t.queued
  | .error _ => t.MayRaise

@[simp] theorem call_next (t : Trail types) (s : Stmt β) (r : Except Err β) :
    (t.next s r).call = t.call := by
  cases s with
  | selectBalance orderId f => cases f <;> cases r <;> rfl
  | _ => cases r <;> rfl

end Trail

/-- The protocol of the services. -/
def trails (types : Set String) (greenlet : Bool) :
    Usage Stmt Err Outcome (Trail types) (Call types) where
  allows t s := t.Allows greenlet s
  answers s r := Trail.Answers greenlet s r
  next t s r := t.next s r
  init := Trail.init
  ends := Trail.Ends

/-! ## The services follow it -/

/-- The program follows the protocol, and may raise when it does. -/
abbrev FollowsTrail (greenlet : Bool) {α : Type} (p : Tx α) (Q : Trail types → α → Prop)
    (t : Trail types) : Prop :=
  FollowsOr (trails types greenlet).toProtocol (fun t _ => t.MayRaise) p Q t

variable {t : Trail types} {α : Type}

/-- An exception before the commit. -/
theorem mayRaise_next {s : Stmt β} (h : t.stored = []) (e : Err) :
    (t.next s (.error e)).MayRaise := by
  refine Or.inl (Eq.trans ?_ h)
  cases s with
  | selectBalance orderId f => cases f <;> rfl
  | _ => rfl

theorem followsTrail_getOrderForUpdate {orderId : ℕ} {Q : Trail types → Order → Prop}
    (hws : t.writes = []) (hcounted : t.counted = none) (hstored : t.stored = [])
    (hQ : ∀ order, order.id = orderId →
      Q (t.next (.selectOrderForUpdate orderId) (.ok (some order))) order) :
    FollowsTrail greenlet (getOrderForUpdate orderId) Q t := by
  refine followsOr_bind
    (followsOr_send ⟨hws, hcounted⟩ (mayRaise_next hstored) fun order horder => ?_)
  cases order with
  | none => exact followsOr_throw (Or.inl hstored)
  | some order => exact followsOr_pure (hQ order horder)

theorem followsTrail_checkOrderBelongsToUser {order : Order} {userId : ℕ}
    {Q : Trail types → Unit → Prop} (hstored : t.stored = [])
    (hQ : order.userId = userId → Q t ()) :
    FollowsTrail greenlet (checkOrderBelongsToUser order userId) Q t := by
  unfold checkOrderBelongsToUser
  split_ifs with huser
  · exact followsOr_throw (Or.inl hstored)
  · exact followsOr_pure (hQ (not_not.1 huser))

/-- **A deposit follows the protocol.** -/
theorem followsTrail_createAcquiringPayment (userId : ℕ) (payload : PaymentCreate)
    (paymentType : types) :
    FollowsTrail greenlet
      (createAcquiringPayment payload.orderId userId payload.amount paymentType)
      (fun t p => t.Ends (.ok (.payment p))) (.init (.deposit userId payload paymentType)) := by
  unfold createAcquiringPayment
  refine followsOr_bind (followsTrail_getOrderForUpdate rfl rfl rfl fun order hid => ?_)
  refine followsOr_bind (followsTrail_checkOrderBelongsToUser rfl fun huser => ?_)
  refine followsOr_bind (followsOr_send (fun _ => ⟨rfl, order, rfl, hid⟩) (mayRaise_next rfl)
    fun balance _ => ?_)
  refine followsOr_bind ?_
  unfold checkAmount
  split_ifs with hamount
  · exact followsOr_throw (Or.inl rfl)
  refine followsOr_pure (followsOr_bind (followsOr_send ?_ (mayRaise_next rfl) fun bankId _ => ?_))
  · exact ⟨rfl, rfl, order, balance, rfl, rfl, by rw [hid]; rfl, not_lt.1 hamount, huser, hid, rfl⟩
  have hmakes : ∀ id, (Call.deposit userId payload paymentType).Makes
      { submittedPayment userId payload.orderId payload.amount paymentType bankId with id := id } :=
    fun id => ⟨rfl, rfl, payload.toRat_round, rfl, rfl, rfl⟩
  refine followsOr_bind (followsOr_send ⟨hmakes, rfl, rfl⟩ (mayRaise_next rfl) fun id _ => ?_)
  refine followsOr_bind (followsOr_send trivial (mayRaise_next rfl) fun _ _ => ?_)
  refine followsOr_bind (followsOr_send (Or.inr ⟨_, List.mem_singleton.2 rfl, rfl⟩)
    (fun _ => Or.inr rfl) fun _ _ => ?_)
  exact followsOr_pure ⟨List.mem_singleton.2 rfl, hmakes id, fun _ => List.mem_singleton.2 rfl⟩

/-- The commit of an inserted payment that is not a deposit, and its return. -/
theorem followsTrail_commit_payment {p : Payment} (hstored : t.stored = [])
    (hmem : p ∈ inserts t.writes) (hmakes : t.call.Makes p)
    (hop : p.operationType ≠ OperationType.Deposit.value) :
    FollowsTrail greenlet ((send .commit : Tx Unit).bind fun _ => .pure p)
      (fun t p => t.Ends (.ok (.payment p))) t :=
  followsOr_bind (followsOr_send trivial (mayRaise_next hstored) fun _ _ =>
    followsOr_pure ⟨List.mem_append_right _ hmem, hmakes, fun h => absurd h hop⟩)

/-- **A return follows the protocol.** -/
theorem followsTrail_createReturn (userId : ℕ) (payload : PaymentCreate) :
    FollowsTrail greenlet (createReturn payload.orderId userId payload.amount)
      (fun t p => t.Ends (.ok (.payment p)))
      (.init (.cashReturn userId payload : Call types)) := by
  unfold createReturn
  refine followsOr_bind (followsTrail_getOrderForUpdate rfl rfl rfl fun order _ => ?_)
  refine followsOr_bind (followsTrail_checkOrderBelongsToUser rfl fun _ => ?_)
  refine followsOr_bind (followsOr_send nofun (mayRaise_next rfl) fun balance _ => ?_)
  refine followsOr_bind ?_
  unfold checkReturnAmount
  split_ifs
  · exact followsOr_throw (Or.inl rfl)
  refine followsOr_pure (followsOr_bind (followsOr_send trivial (mayRaise_next rfl)
    fun paidAt _ => ?_))
  have hmakes : ∀ id, (Call.cashReturn userId payload : Call types).Makes
      { completedReturn userId payload.orderId payload.amount paidAt with id := id } :=
    fun id => ⟨rfl, rfl, payload.toRat_round, rfl, rfl, rfl⟩
  refine followsOr_bind (followsOr_send ⟨hmakes, rfl, rfl⟩ (mayRaise_next rfl) fun id _ => ?_)
  refine followsOr_bind (followsOr_bind (followsOr_send nofun (mayRaise_next rfl)
    fun total _ => followsOr_pure ?_))
  refine followsOr_bind ?_
  have hret : OperationType.Return.value ≠ OperationType.Deposit.value := by decide
  unfold flushOrder
  split_ifs
  · exact followsOr_pure
      (followsTrail_commit_payment rfl (List.mem_singleton.2 rfl) (hmakes id) hret)
  · exact followsOr_send nofun (mayRaise_next rfl) fun _ _ =>
      followsTrail_commit_payment rfl (List.mem_singleton.2 rfl) (hmakes id) hret

/-! ### Checks -/

variable {paymentId : ℕ}

/-- The commit of a final status. -/
theorem followsTrail_commit_settled (hcall : t.call = .check paymentId) (hstored : t.stored = [])
    (h : t.writes.any Trail.settles = true) : FollowsTrail greenlet (send .commit : Tx Unit)
      (fun t _ => t.call = .check paymentId ∧ t.settled = true) t :=
  followsOr_send trivial (mayRaise_next hstored) fun _ _ => by
    refine ⟨hcall, ?_⟩
    change (t.settled || t.writes.any Trail.settles) = true
    rw [h, Bool.or_true]

/-- The status of the order, after a final status of the payment, and the commit of both. -/
theorem followsTrail_orderStatus {order : Order} (hcall : t.call = .check paymentId)
    (hstored : t.stored = []) (h : t.writes.any Trail.settles = true) :
    FollowsTrail greenlet (do
        let status ← getOrderPaymentStatus order
        flushOrder order status
        send .commit) (fun t _ => t.call = .check paymentId ∧ t.settled = true) t := by
  refine followsOr_bind (followsOr_bind (followsOr_send nofun (mayRaise_next hstored)
    fun total _ => followsOr_pure ?_))
  unfold flushOrder
  refine followsOr_bind ?_
  split_ifs
  · exact followsOr_pure (followsTrail_commit_settled hcall hstored h)
  · refine followsOr_send (fun _ _ hnil => ?_) (mayRaise_next hstored) fun _ _ =>
      followsTrail_commit_settled hcall hstored ?_
    · rw [show t.writes = [] from hnil] at h
      cases h
    · exact List.any_append.trans (Bool.or_eq_true_iff.2 (Or.inl h))

theorem settles_concat (ws : List Write) {x : Write} (hx : Trail.settles x = true) :
    (ws ++ [x]).any Trail.settles = true := by
  simp [hx]

theorem followsTrail_completePayment {p : Payment} {paidAt : Option DateTime}
    (hcall : t.call = .check paymentId) (hp : t.payment = some p) (hws : t.writes = [])
    (hstored : t.stored = []) (hopen : p.isOpen = true) :
    FollowsTrail greenlet
      (completePayment p
        { p with paymentStatus := PaymentStatus.Completed.value, paidAt := paidAt })
      (fun t _ => t.call = .check paymentId ∧ t.settled = true) t := by
  unfold completePayment readOrder
  refine followsOr_bind (followsOr_bind (followsOr_send trivial (mayRaise_next hstored)
    fun order horder => ?_))
  obtain rfl : order = none := horder
  refine followsOr_bind (followsOr_send trivial (mayRaise_next hstored) fun _ hgreenlet => ?_)
  have hne : { p with paymentStatus := PaymentStatus.Completed.value, paidAt := paidAt } ≠ p :=
    fun h => (Payment.isOpen_iff.1 hopen).1 (congrArg Payment.paymentStatus h).symm
  unfold flushPayment
  rw [if_neg hne]
  refine followsOr_bind (followsOr_send ⟨⟨p, hp, rfl⟩, hws, fun _ => hgreenlet⟩
    (mayRaise_next hstored) fun _ _ => ?_)
  refine followsOr_send trivial (mayRaise_next hstored) fun order _ => ?_
  cases order with
  | none => exact followsOr_throw (Or.inl hstored)
  | some order =>
    exact followsTrail_orderStatus hcall hstored (settles_concat t.writes
      (x := .updatePayment p.id PaymentStatus.Completed.value paidAt) rfl)

theorem followsTrail_updateFromInfo {p : Payment} (info : AcquiringPaymentInfo)
    (hcall : t.call = .check paymentId) (hp : t.payment = some p) (hws : t.writes = [])
    (hstored : t.stored = []) (hopen : p.isOpen = true) :
    FollowsTrail greenlet (updateFromInfo p info)
      (fun t isFinal => t.Ends (.ok (.final isFinal))) t := by
  unfold updateFromInfo
  simp only
  split_ifs with hmem hst
  · rw [hst]
    exact followsOr_bind ((followsTrail_completePayment hcall hp hws hstored hopen).mono
      fun t _ h => followsOr_pure ⟨⟨paymentId, h.1⟩, fun _ => h.2⟩)
  · refine followsOr_bind ?_
    have hcommit : ∀ t : Trail types, t.call = .check paymentId → t.stored = [] →
        (info.status = PaymentStatus.Rejected.value → t.writes.any Trail.settles = true) →
        FollowsTrail greenlet
          ((send .commit : Tx Unit).bind fun _ =>
            .pure (decide (info.status = PaymentStatus.Rejected.value)))
          (fun t isFinal => t.Ends (.ok (.final isFinal))) t := by
      intro t hcall hstored ht
      refine followsOr_bind (followsOr_send trivial (mayRaise_next hstored) fun _ _ =>
        followsOr_pure ⟨⟨paymentId, hcall⟩, fun hfinal => ?_⟩)
      change (t.settled || t.writes.any Trail.settles) = true
      rw [ht (of_decide_eq_true hfinal), Bool.or_true]
    unfold flushPayment
    split_ifs with heq
    · refine followsOr_pure (hcommit t hcall hstored fun hrej => ?_)
      have hstatus : info.status = p.paymentStatus := congrArg Payment.paymentStatus heq
      exact absurd (hstatus.symm.trans hrej) (Payment.isOpen_iff.1 hopen).2.1
    · refine followsOr_send ⟨⟨p, hp, rfl⟩, hws, fun h => absurd h hst⟩ (mayRaise_next hstored)
        fun _ _ => hcommit _ hcall hstored fun hrej => ?_
      exact settles_concat t.writes (x := .updatePayment p.id info.status p.paidAt)
        (by rw [hrej]; rfl)
  · exact followsOr_pure ⟨⟨paymentId, hcall⟩, nofun⟩

/-- **A check follows the protocol.** -/
theorem followsTrail_checkAndUpdate (paymentId : ℕ) :
    FollowsTrail greenlet (checkAndUpdate py paymentId)
      (fun t isFinal => t.Ends (.ok (.final isFinal)))
      (.init (.check paymentId : Call types)) := by
  unfold checkAndUpdate
  refine followsOr_bind (followsOr_send ⟨rfl, rfl⟩ (mayRaise_next rfl) fun payment hpayment => ?_)
  cases payment with
  | none => exact followsOr_pure ⟨⟨paymentId, rfl⟩, fun _ => rfl⟩
  | some p =>
    obtain ⟨hid, hopen⟩ := hpayment
    obtain ⟨b, hb⟩ := Option.isSome_iff_exists.1 (Payment.isOpen_iff.1 hopen).2.2
    have hallowed : p.bankPaymentId = some (p.bankPaymentId.getD "") := by
      rw [hb]
      rfl
    refine followsOr_bind (followsOr_attempt ⟨rfl, rfl, p, rfl, hallowed⟩ fun r _ => ?_)
    have hraise : ∀ e : Err, FollowsTrail greenlet (.throw e : Tx Bool)
        (fun t isFinal => t.Ends (.ok (.final isFinal))) (Trail.next (Trail.next
          (.init (.check paymentId : Call types)) (.selectPaymentForUpdate paymentId)
            (.ok (some p))) (.checkPayment (p.bankPaymentId.getD "")) r) :=
      fun e => followsOr_throw (Or.inl rfl)
    rcases r with e | d
    · rcases e with _ | _ | _ | _ | e | _ | _ | _ | _ | _ <;> try exact hraise _
      rcases e with _ | _ | _ | _ <;> first
        | exact hraise _
        | exact followsOr_pure ⟨⟨paymentId, rfl⟩, nofun⟩
    · refine followsOr_bind ?_
      unfold checkPaymentInfo
      cases AcquiringPaymentInfo.validate py d with
      | none => exact followsOr_throw (Or.inl rfl)
      | some info => exact followsOr_pure (followsTrail_updateFromInfo info rfl rfl rfl rfl hopen)

/-! ### The periodic task -/

theorem followsTrail_applyAsyncAll (paymentIds : List ℕ) (done : List ℕ)
    (hcall : t.call = .enqueue) (hstored : t.stored = [])
    (hlisted : t.listed = some (done ++ paymentIds)) (hqueued : t.queued = done) :
    FollowsTrail greenlet (applyAsyncAll paymentIds) (fun t _ => t.Ends (.ok .done)) t := by
  induction paymentIds generalizing t done with
  | nil => exact followsOr_pure ⟨hcall, by rw [hqueued, hlisted, List.append_nil]⟩
  | cons id paymentIds ih =>
    refine followsOr_bind (followsOr_send (Or.inl ⟨_, hlisted, ?_⟩) (mayRaise_next hstored)
      fun _ _ => ih (done ++ [id]) hcall hstored ?_ ?_)
    · exact List.mem_append_right _ List.mem_cons_self
    · exact hlisted.trans (by simp)
    · exact congrArg (· ++ [id]) hqueued

/-- **Every call follows the protocol.** -/
theorem obeys (types : Set String) (py : Pydantic) (greenlet : Bool) :
    (paySystem types py).Obeys (trails types greenlet) := by
  intro c
  suffices h : FollowsTrail greenlet (Call.body py c) (fun t a => t.Ends (.ok a)) (.init c) by
    refine Follows.mono h fun t r hr => ?_
    cases r with
    | ok a => exact hr
    | error e => exact hr
  cases c with
  | deposit userId payload paymentType =>
    exact followsOr_bind ((followsTrail_createAcquiringPayment userId payload paymentType).mono
      fun _ _ h => followsOr_pure h)
  | cashReturn userId payload =>
    exact followsOr_bind ((followsTrail_createReturn userId payload).mono
      fun _ _ h => followsOr_pure h)
  | check paymentId =>
    exact followsOr_bind ((followsTrail_checkAndUpdate paymentId).mono
      fun _ _ h => followsOr_pure h)
  | enqueue =>
    refine followsOr_bind (followsOr_bind (followsOr_send ⟨rfl, rfl⟩ (mayRaise_next rfl)
      fun paymentIds _ => ?_))
    exact (followsTrail_applyAsyncAll paymentIds [] rfl rfl rfl rfl).mono
      fun _ _ h => followsOr_pure h

end PaySystem
