import PaySystem.Foundations.Atomic
import PaySystem.Interleaving.Conversations
import PaySystem.Ledger.Books
import PaySystem.Sequential.Calls

/-!
# The course of a call

Long before a call of the services ends, one of its statements has decided how it will: the order is
not there, the sum leaves no room, the commit has made the payment. The course of a call records its
trail and this decision, at the statement whose answer makes it. A call that is decided does not
write any more; it may still find the broker gone, and then it raises although it has committed.
-/

namespace PaySystem

open Prog

variable {types : Set String} {py : Pydantic} {β : Type}

/-! ## What a call asks for -/

namespace Call

/-- The user and the payload of a call of an endpoint. -/
def request : Call types → Option (ℕ × PaymentCreate)
  | deposit userId payload _ => some (userId, payload)
  | cashReturn userId payload => some (userId, payload)
  | _ => none

/-- The payments that the admission check of a call sums. -/
def filter : Call types → BalanceFilter
  | deposit _ _ _ => .nonRejected
  | _ => .completed

/-- The exception of the admission check, for the sum `x`. -/
def refusal : Call types → Order → ℚ → Option Err
  | deposit _ payload _, order, x =>
    if x + payload.amount > order.totalSum.toRat then
      some (.overpayment (order.totalSum.toRat - x))
    else none
  | cashReturn _ payload, _, x =>
    if payload.amount > x then some (.returnAmountExceedsBalance x) else none
  | _, _, _ => none

/-- The call asks for something on this order, and its user owns it. -/
def Targets (c : Call types) (order : Order) : Prop :=
  ∃ userId payload, c.request = some (userId, payload) ∧ order.userId = userId ∧
    order.id = payload.orderId

end Call

/-- The exceptions of the database, the bank and the broker, and of data that does not fit. -/
def Err.isFailure : Err → Bool
  | orderNotFound | forbiddenOrderAccess | overpayment _ | returnAmountExceedsBalance _ => false
  | _ => true

/-- The exceptions that a statement may raise. -/
def Stmt.Raises {β : Type} : Stmt β → Err → Prop
  | .applyAsync _, e => ∃ msg, e = .broker msg
  | _, e => e.isFailure = true

/-! ## Courses -/

namespace Trail

/-- What the call has changed, as one change of the database. -/
def Commits (t : Trail types) : Change → Prop
  | .deposit order p => t.order = some order ∧ p.orderId = order.id ∧ p.IsDeposit types order ∧
    t.call.Makes p
  | .cashReturn order p _ => t.order = some order ∧ p.orderId = order.id ∧ p.IsReturn order ∧
    t.call.Makes p
  | .advance p status => t.payment = some p ∧
    status ∈ PaymentStatus.members.map PaymentStatus.value ∧ status ≠ PaymentStatus.Completed.value
  | .complete _ p _ _ => t.payment = some p

/-- What a call returns that commits its writes now. -/
def returns (t : Trail types) : Option Outcome :=
  match t.call with
  | .check _ => some (.final (t.writes.any settles))
  | .enqueue => none
  | _ => (inserts t.writes).head?.map .payment

/-- How a check ends that cannot use the answer of the bank. -/
def refusedInfo : Option AcquiringPaymentInfo → Option (Except Err Outcome)
  | none => some (.error (.value "Invalid payment info"))
  | some info =>
    if (PaymentStatus.members.map PaymentStatus.value).contains info.status then none
    else some (.ok (.final false))

/-- How the answer of a statement decides the end of a call. -/
def decides (py : Pydantic) (t : Trail types) :
    {β : Type} → Stmt β → Except Err β → Option (Except Err Outcome)
  | _, .selectOrderForUpdate _, .ok none => some (.error .orderNotFound)
  | _, .selectOrderForUpdate _, .ok (some order) =>
    t.call.request.bind fun x =>
      if order.userId ≠ x.1 then some (.error .forbiddenOrderAccess) else none
  | _, .selectBalance _ _, .ok x =>
    if t.writes.isEmpty then
      t.order.bind fun order => (t.call.refusal order x).map .error
    else none
  | _, .selectPaymentForUpdate _, .ok none => some (.ok (.final true))
  | _, .checkPayment _, .error (.acquiring .notFound) => some (.ok (.final false))
  | _, .checkPayment _, .error (.acquiring .check) => some (.ok (.final false))
  | _, .checkPayment _, .ok paymentInfo =>
    refusedInfo (AcquiringPaymentInfo.validate py paymentInfo)
  | _, .selectOrder _, .ok none => some (.error .attribute)
  | _, .selectPaymentIds, .ok _ => some (.ok .done)
  | _, .commit, .ok _ => t.returns.map .ok
  | _, _, .error e => some (.error e)
  | _, _, .ok _ => none

end Trail

/-- The course of a call. -/
structure Course (types : Set String) where
  trail : Trail types
  /-- It has summed the payments of its order, for the admission check. -/
  summed : Bool
  /-- How it will end, if nothing is wrong with the broker. -/
  decided : Option (Except Err Outcome)

namespace Course

def init (c : Call types) : Course types := ⟨.init c, false, none⟩

/-- The statement sums payments. -/
def sums {β : Type} : Stmt β → Except Err β → Bool
  | .selectBalance _ _, .ok _ => true
  | _, _ => false

def next (py : Pydantic) (m : Course types) {β : Type} (s : Stmt β) (r : Except Err β) :
    Course types where
  trail := m.trail.next s r
  summed := m.summed || (m.trail.writes.isEmpty && sums s r)
  decided := m.decided.or (m.trail.decides py s r)

/-- What the services do beyond the discipline of trails: whatever they still do when they are
decided they do with the broker, they sum under the lock of their order, and what they commit is a
change. -/
def Allows (m : Course types) : {β : Type} → Stmt β → Prop
  | _, .applyAsync _ => m.decided.isSome = true
  | _, .selectOrderForUpdate orderId => m.decided = none ∧ m.summed = false ∧
    ∃ userId payload, m.trail.call.request = some (userId, payload) ∧ payload.orderId = orderId
  | _, .selectBalance orderId f => m.decided = none ∧ (m.trail.writes = [] →
    ∃ order, m.trail.order = some order ∧ m.trail.call.Targets order ∧ orderId = order.id ∧
      f = m.trail.call.filter)
  | _, .commit => m.decided = none ∧ ∃ c, m.trail.writes = c.writes ∧ m.trail.Commits c ∧
    (c.old = none → m.summed = true)
  | _, _ => m.decided = none

/-- A call that is decided to end with `x` may end with `r`. -/
def Shows (x r : Except Err Outcome) : Prop :=
  r = x ∨ (∃ msg, r = .error (.broker msg)) ∧ (x = .ok .done ∨
    ∃ p, x = .ok (.payment p) ∧ p.operationType = OperationType.Deposit.value)

/-- The call ends as it was decided. -/
def Ends (m : Course types) (r : Except Err Outcome) : Prop := ∃ x, m.decided = some x ∧ Shows x r

end Course

/-- The protocol of the decisions. -/
def courses (types : Set String) (py : Pydantic) :
    Usage Stmt Err Outcome (Course types) (Call types) where
  allows m s := m.Allows s
  answers s r := Trail.Answers true s r ∧ ∀ e, r = .error e → s.Raises e
  next m s r := m.next py s r
  init := Course.init
  ends := Course.Ends

/-! ## The services follow it -/

/-- The program follows the protocol, and raises what is decided. -/
abbrev FollowsCourse (py : Pydantic) {α : Type} (p : Tx α) (Q : Course types → α → Prop)
    (m : Course types) : Prop :=
  FollowsOr (courses types py).toProtocol (fun m e => m.Ends (.error e)) p Q m

variable {m : Course types} {α : Type}

theorem Course.decided_next (py : Pydantic) (hm : m.decided = none) (s : Stmt β)
    (r : Except Err β) : (m.next py s r).decided = m.trail.decides py s r := by
  rw [Course.next, hm, Option.none_or]

/-- The rule of a statement that decides nothing when it succeeds, and whose exception
propagates. -/
theorem followsCourse_send {s : Stmt β} {Q : Course types → β → Prop} (hm : m.decided = none)
    (hs : m.Allows s) (herror : ∀ e, m.trail.decides py s (.error e) = some (.error e))
    (hQ : ∀ b, (courses types py).answers s (.ok b) → Q (m.next py s (.ok b)) b) :
    FollowsCourse py (send s) Q m :=
  followsOr_send hs
    (fun e => ⟨.error e, (Course.decided_next py hm s _).trans (herror e), Or.inl rfl⟩) hQ

/-- An exception that is decided. -/
theorem followsCourse_throw {e : Err} {Q : Course types → α → Prop}
    (h : m.decided = some (.error e)) : FollowsCourse py (.throw e : Tx α) Q m :=
  followsOr_throw ⟨_, h, Or.inl rfl⟩

/-- The rule of a task for the queue, when the call is decided. -/
theorem followsCourse_applyAsync {paymentId : ℕ} {x : Outcome} {Q : Course types → Unit → Prop}
    (hm : m.decided = some (.ok x))
    (hx : x = .done ∨ ∃ p, x = .payment p ∧ p.operationType = OperationType.Deposit.value)
    (hQ : ∀ u, (m.next py (.applyAsync paymentId) (.ok u)).decided = some (.ok x) →
      Q (m.next py (.applyAsync paymentId) (.ok u)) u) :
    FollowsCourse py (send (.applyAsync paymentId)) Q m := by
  have hdecided : ∀ r, (m.next py (.applyAsync paymentId) r).decided = some (.ok x) := by
    intro r
    rw [Course.next, hm, Option.some_or]
  refine ⟨Option.isSome_of_mem hm, fun r hr => ?_⟩
  cases r with
  | ok u => exact hQ u (hdecided _)
  | error e =>
    refine ⟨.ok x, hdecided _, Or.inr ⟨?_, ?_⟩⟩
    · obtain ⟨msg, rfl⟩ := hr.2 e rfl
      exact ⟨msg, rfl⟩
    · exact hx.imp (congrArg _) fun ⟨p, hp, hop⟩ => ⟨p, congrArg _ hp, hop⟩

/-- The lock of the order, and the check of its owner. -/
theorem followsCourse_ownOrder {userId : ℕ} {payload : PaymentCreate} {f : Order → Tx α}
    {Q : Course types → α → Prop} (hm : m.decided = none) (hsummed : m.summed = false)
    (hreq : m.trail.call.request = some (userId, payload))
    (hQ : ∀ order, order.id = payload.orderId → order.userId = userId →
      (m.next py (.selectOrderForUpdate payload.orderId) (.ok (some order))).decided = none →
      FollowsCourse py (f order) Q
        (m.next py (.selectOrderForUpdate payload.orderId) (.ok (some order)))) :
    FollowsCourse py (do
        let order ← getOrderForUpdate payload.orderId
        checkOrderBelongsToUser order userId
        f order) Q m := by
  refine followsOr_bind (followsOr_bind (followsCourse_send hm
    ⟨hm, hsummed, userId, payload, hreq, rfl⟩ (fun _ => rfl) fun order horder => ?_))
  have hdecided := Course.decided_next py hm (.selectOrderForUpdate payload.orderId) (.ok order)
  cases order with
  | none => exact followsCourse_throw hdecided
  | some order =>
    have hid : order.id = payload.orderId := horder.1
    refine followsOr_pure (followsOr_bind ?_)
    unfold checkOrderBelongsToUser
    simp only [Trail.decides, hreq, Option.bind_some] at hdecided
    split_ifs at hdecided ⊢ with huser
    · exact followsCourse_throw hdecided
    · exact followsOr_pure (hQ order hid (not_not.1 huser) hdecided)

/-- The sum of the payments, and the admission check. -/
theorem followsCourse_admission {order : Order} {orderId : ℕ} {check : ℚ → Tx Unit}
    {f : ℚ → Tx α} {Q : Course types → α → Prop} (hm : m.decided = none)
    (hws : m.trail.writes = []) (horder : m.trail.order = some order) (hid : order.id = orderId)
    (htarget : m.trail.call.Targets order)
    (hcheck : ∀ x, check x = match m.trail.call.refusal order x with
      | some e => .throw e
      | none => .pure ())
    (hQ : ∀ x, (m.next py (.selectBalance orderId m.trail.call.filter) (.ok x)).decided = none →
      FollowsCourse py (f x) Q (m.next py (.selectBalance orderId m.trail.call.filter) (.ok x))) :
    FollowsCourse py (do
        let x ← send (.selectBalance orderId m.trail.call.filter)
        check x
        f x) Q m := by
  refine followsOr_bind (followsCourse_send hm
    ⟨hm, fun _ => ⟨order, horder, htarget, hid.symm, rfl⟩⟩ (fun _ => rfl) fun x _ => ?_)
  have hdecided := Course.decided_next py hm (.selectBalance orderId m.trail.call.filter) (.ok x)
  simp only [Trail.decides, hws, List.isEmpty_nil, if_true, horder, Option.bind_some] at hdecided
  rw [hcheck]
  refine followsOr_bind ?_
  cases hrefusal : m.trail.call.refusal order x with
  | some e => exact followsCourse_throw (hdecided.trans (congrArg (Option.map _) hrefusal))
  | none => exact followsOr_pure (hQ x (hdecided.trans (congrArg (Option.map _) hrefusal)))

/-- The rule of the commit of a change. -/
theorem followsCourse_commit {c : Change} {Q : Course types → Unit → Prop} (hm : m.decided = none)
    (hws : m.trail.writes = c.writes) (hc : m.trail.Commits c)
    (hsummed : c.old = none → m.summed = true)
    (hQ : ∀ u, (m.next py .commit (.ok u)).decided = m.trail.returns.map .ok →
      Q (m.next py .commit (.ok u)) u) : FollowsCourse py (send .commit) Q m :=
  followsCourse_send hm ⟨hm, c, hws, hc, hsummed⟩ (fun _ => rfl) fun u _ =>
    hQ u (Course.decided_next py hm .commit (.ok u))

/-- From `m` to `m'` the call has flushed the writes `ws`. -/
structure Course.Flushed (m m' : Course types) (ws : List Write) : Prop where
  decided : m'.decided = none
  summed : m'.summed = m.summed
  call : m'.trail.call = m.trail.call
  order : m'.trail.order = m.trail.order
  payment : m'.trail.payment = m.trail.payment
  writes : m'.trail.writes = m.trail.writes ++ ws

theorem followsCourse_flushOrder {order : Order} {status : String} {Q : Course types → Unit → Prop}
    (hm : m.decided = none)
    (hQ : ∀ m', m.Flushed m' (Change.orderWrites order status) → Q m' ()) :
    FollowsCourse py (flushOrder order status) Q m := by
  unfold flushOrder
  unfold Change.orderWrites at hQ
  split_ifs at hQ ⊢
  · exact followsOr_pure (hQ m ⟨hm, rfl, rfl, rfl, rfl, (List.append_nil _).symm⟩)
  · refine followsCourse_send hm hm (fun _ => rfl) fun u _ => hQ _ ⟨?_, ?_, rfl, rfl, rfl, rfl⟩
    · exact Course.decided_next py hm (.updateOrder order.id status) (.ok u)
    · exact (congrArg (m.summed || ·) (Bool.and_false _)).trans (Bool.or_false _)

theorem followsCourse_flushPayment {p : Payment} {status : String} {paidAt : Option DateTime}
    {Q : Course types → Unit → Prop} (hm : m.decided = none)
    (hQ : ∀ m', m.Flushed m' (Change.paymentWrites p status paidAt) → Q m' ()) :
    FollowsCourse py (flushPayment p { p with paymentStatus := status, paidAt := paidAt }) Q m := by
  unfold flushPayment
  unfold Change.paymentWrites at hQ
  split_ifs at hQ ⊢
  · exact followsOr_pure (hQ m ⟨hm, rfl, rfl, rfl, rfl, (List.append_nil _).symm⟩)
  · refine followsCourse_send hm hm (fun _ => rfl) fun u _ => hQ _ ⟨?_, ?_, rfl, rfl, rfl, rfl⟩
    · exact Course.decided_next py hm (.updatePayment p.id status paidAt) (.ok u)
    · exact (congrArg (m.summed || ·) (Bool.and_false _)).trans (Bool.or_false _)

/-- **A deposit follows the protocol.** -/
theorem followsCourse_createAcquiringPayment (userId : ℕ) (payload : PaymentCreate)
    (paymentType : types) :
    FollowsCourse py (createAcquiringPayment payload.orderId userId payload.amount paymentType)
      (fun m p => m.Ends (.ok (.payment p))) (.init (.deposit userId payload paymentType)) := by
  unfold createAcquiringPayment
  refine followsCourse_ownOrder rfl rfl rfl fun order hid huser hm => ?_
  refine followsCourse_admission hm rfl rfl hid ⟨userId, payload, rfl, huser, hid⟩ (fun x => ?_)
    fun x hm => ?_
  · unfold checkAmount
    simp only [Course.next, Trail.call_next, Course.init, Trail.init, Call.refusal]
    split_ifs <;> rfl
  refine followsOr_bind (followsCourse_send hm hm (fun _ => rfl) fun b _ => ?_)
  have hm := Course.decided_next py hm (.startPayment order.id payload.amount) (.ok b)
  let payment := submittedPayment userId payload.orderId payload.amount paymentType b
  refine followsOr_bind (followsCourse_send hm hm (fun _ => rfl) fun id _ => ?_)
  have hm := Course.decided_next py hm (.insertPayment payment) (.ok id)
  refine followsOr_bind (followsCourse_commit (c := .deposit order { payment with id := id }) hm rfl
    ⟨rfl, hid.symm, newDeposit_isDeposit paymentType.2 huser b id, ?_⟩ (fun _ => rfl)
    fun u hm => ?_)
  · exact ⟨rfl, rfl, payload.toRat_round, rfl, rfl, rfl⟩
  refine followsOr_bind (followsCourse_applyAsync hm (Or.inr ⟨_, rfl, rfl⟩) fun u hm => ?_)
  exact followsOr_pure ⟨_, hm, Or.inl rfl⟩

/-- **A return follows the protocol.** -/
theorem followsCourse_createReturn (userId : ℕ) (payload : PaymentCreate) :
    FollowsCourse py (createReturn payload.orderId userId payload.amount)
      (fun m p => m.Ends (.ok (.payment p))) (.init (.cashReturn userId payload : Call types)) := by
  unfold createReturn
  refine followsCourse_ownOrder rfl rfl rfl fun order hid huser hm => ?_
  refine followsCourse_admission hm rfl rfl hid ⟨userId, payload, rfl, huser, hid⟩ (fun x => ?_)
    fun x hm => ?_
  · unfold checkReturnAmount
    simp only [Course.next, Trail.call_next, Course.init, Trail.init, Call.refusal]
    split_ifs <;> rfl
  refine followsOr_bind (followsCourse_send hm hm (fun _ => rfl) fun paidAt _ => ?_)
  have hm := Course.decided_next py hm .now (.ok paidAt)
  let payment := completedReturn userId payload.orderId payload.amount paidAt
  refine followsOr_bind (followsCourse_send hm hm (fun _ => rfl) fun id _ => ?_)
  have hm := Course.decided_next py hm (.insertPayment payment) (.ok id)
  refine followsOr_bind (followsOr_bind (followsCourse_send hm
    ⟨hm, fun hws => absurd hws (List.cons_ne_nil _ _)⟩ (fun _ => rfl) fun total _ =>
      followsOr_pure ?_))
  have hm := Course.decided_next py hm (.selectBalance order.id .completed) (.ok total)
  refine followsOr_bind (followsCourse_flushOrder hm fun m hflushed => ?_)
  have hmakes : m.trail.call.Makes { payment with id := id } := by
    rw [hflushed.call]
    exact ⟨rfl, rfl, payload.toRat_round, rfl, rfl, rfl⟩
  have hreturn : (newReturn payload userId paidAt id).IsReturn order :=
    newReturn_isReturn huser paidAt id
  refine followsOr_bind (followsCourse_commit (c := .cashReturn order { payment with id := id }
    (orderPaymentStatus total order.totalSum)) hflushed.decided hflushed.writes
    ⟨hflushed.order, hid.symm, hreturn, hmakes⟩ (fun _ => hflushed.summed) fun u hm => ?_)
  refine followsOr_pure ⟨_, hm.trans ?_, Or.inl rfl⟩
  rw [Trail.returns, hflushed.call, hflushed.writes]
  rfl

/-! ### Checks -/

variable {paymentId : ℕ} {p : Payment}

theorem Trail.returns_check {t : Trail types} (h : t.call = .check paymentId) :
    t.returns = some (.final (t.writes.any Trail.settles)) := by
  rw [Trail.returns, h]

/-- The status of the order, after the payment is completed, and the commit of both. -/
theorem followsCourse_orderStatus {order : Order} {paidAt : DateTime} (hm : m.decided = none)
    (hcall : m.trail.call = .check paymentId) (hp : m.trail.payment = some p)
    (hws : m.trail.writes =
      [.updatePayment p.id PaymentStatus.Completed.value (some paidAt)])
    (hne : { p with paymentStatus := PaymentStatus.Completed.value, paidAt := some paidAt } ≠ p) :
    FollowsCourse py (do
        let status ← getOrderPaymentStatus order
        flushOrder order status
        send .commit) (fun m _ => m.decided = some (.ok (.final true))) m := by
  refine followsOr_bind (followsOr_bind (followsCourse_send hm
    ⟨hm, fun hnil => absurd (hws.symm.trans hnil) (List.cons_ne_nil _ _)⟩ (fun _ => rfl)
    fun total _ => followsOr_pure ?_))
  have hm := Course.decided_next py hm (.selectBalance order.id .completed) (.ok total)
  simp only [Trail.decides, hws, List.isEmpty_cons, Bool.false_eq_true, if_false] at hm
  refine followsOr_bind (followsCourse_flushOrder hm fun m' hflushed => ?_)
  have hws' := hflushed.writes.trans (congrArg (· ++ _) hws)
  refine followsCourse_commit (c := .complete order p paidAt
    (orderPaymentStatus total order.totalSum)) hflushed.decided (hws'.trans ?_)
    (hflushed.payment.trans hp) nofun fun u hm => hm.trans ?_
  · rw [Change.writes, Change.paymentWrites, if_neg hne]
  · rw [Trail.returns_check (hflushed.call.trans hcall), hws']
    simp [Trail.settles]

theorem followsCourse_completePayment {paidAt : DateTime} (hm : m.decided = none)
    (hcall : m.trail.call = .check paymentId) (hp : m.trail.payment = some p)
    (hws : m.trail.writes = []) (hopen : p.isOpen = true) :
    FollowsCourse py (completePayment p
        { p with paymentStatus := PaymentStatus.Completed.value, paidAt := some paidAt })
      (fun m _ => m.decided = some (.ok (.final true))) m := by
  have hne : { p with paymentStatus := PaymentStatus.Completed.value, paidAt := some paidAt } ≠ p :=
    fun h => (Payment.isOpen_iff.1 hopen).1 (congrArg Payment.paymentStatus h).symm
  unfold completePayment readOrder
  refine followsOr_bind (followsOr_bind (followsCourse_send hm hm (fun _ => rfl)
    fun order horder => ?_))
  have hm := Course.decided_next py hm (.identityMapGet p.orderId) (.ok order)
  obtain rfl : order = none := horder.1
  refine followsOr_bind (followsCourse_send hm hm (fun _ => rfl) fun u _ => ?_)
  have hm := Course.decided_next py hm .awaitOnly (.ok u)
  refine followsOr_bind (followsCourse_flushPayment hm fun m' hflushed => ?_)
  have hws' := hflushed.writes.trans (congrArg (· ++ _) hws)
  rw [Change.paymentWrites, if_neg hne, List.nil_append] at hws'
  refine followsCourse_send hflushed.decided hflushed.decided (fun _ => rfl) fun order _ => ?_
  have hm := Course.decided_next py hflushed.decided (.selectOrder p.orderId) (.ok order)
  cases order with
  | none => exact followsCourse_throw hm
  | some order =>
    exact followsCourse_orderStatus hm (hflushed.call.trans hcall) (hflushed.payment.trans hp)
      hws' hne

/-- An open payment becomes final by the status of a rejection. -/
theorem settles_paymentWrites {status : String} (hopen : p.isOpen = true)
    (hst : status ≠ PaymentStatus.Completed.value) :
    (Change.paymentWrites p status p.paidAt).any Trail.settles =
      decide (status = PaymentStatus.Rejected.value) := by
  unfold Change.paymentWrites
  split_ifs with heq
  · have hstatus : status = p.paymentStatus := (congrArg Payment.paymentStatus heq)
    rw [hstatus, List.any_nil, decide_eq_false (Payment.isOpen_iff.1 hopen).2.1]
  · simp [Trail.settles, hst, beq_eq_decide]

theorem followsCourse_updateFromInfo {info : AcquiringPaymentInfo}
    (hm : m.decided = if (PaymentStatus.members.map PaymentStatus.value).contains info.status then
      none else some (.ok (.final false)))
    (hcall : m.trail.call = .check paymentId) (hp : m.trail.payment = some p)
    (hws : m.trail.writes = []) (hopen : p.isOpen = true) :
    FollowsCourse py (updateFromInfo p info)
      (fun m isFinal => m.Ends (.ok (.final isFinal))) m := by
  unfold updateFromInfo
  simp only
  split_ifs at hm ⊢ with hmem hst
  · rw [hst]
    exact followsOr_bind ((followsCourse_completePayment hm hcall hp hws hopen).mono
      fun m _ h => followsOr_pure ⟨_, h, Or.inl rfl⟩)
  · refine followsOr_bind (followsCourse_flushPayment hm fun m' hflushed => ?_)
    have hws' := hflushed.writes.trans (congrArg (· ++ _) hws)
    refine followsOr_bind (followsCourse_commit (c := .advance p info.status) hflushed.decided hws'
      ⟨hflushed.payment.trans hp, List.contains_iff_mem.1 hmem, hst⟩ nofun fun u hm => ?_)
    refine followsOr_pure ⟨_, hm.trans ?_, Or.inl rfl⟩
    rw [Trail.returns_check (hflushed.call.trans hcall), hws', List.nil_append,
      settles_paymentWrites hopen hst]
    rfl
  · exact followsOr_pure ⟨_, hm, Or.inl rfl⟩

/-- **A check follows the protocol.** -/
theorem followsCourse_checkAndUpdate (paymentId : ℕ) :
    FollowsCourse py (checkAndUpdate py paymentId)
      (fun m isFinal => m.Ends (.ok (.final isFinal))) (.init (.check paymentId : Call types)) := by
  unfold checkAndUpdate
  refine followsOr_bind (followsCourse_send rfl rfl (fun _ => rfl) fun payment hpayment => ?_)
  cases payment with
  | none => exact followsOr_pure ⟨_, rfl, Or.inl rfl⟩
  | some p =>
    obtain ⟨hid, hopen⟩ := hpayment.1
    refine followsOr_bind (followsOr_attempt rfl fun r _ => ?_)
    rcases r with e | d
    · rcases e with _ | _ | _ | _ | e | _ | _ | _ | _ | _ <;>
        try exact followsCourse_throw rfl
      rcases e with _ | _ | _ | _ <;> first
        | exact followsCourse_throw rfl
        | exact followsOr_pure ⟨_, rfl, Or.inl rfl⟩
    · refine followsOr_bind ?_
      unfold checkPaymentInfo
      have hdecided : ∀ info, AcquiringPaymentInfo.validate py d = info →
          (Course.next py (Course.next py (.init (.check paymentId : Call types))
            (.selectPaymentForUpdate paymentId) (.ok (some p)))
            (.checkPayment (p.bankPaymentId.getD "")) (.ok d)).decided = Trail.refusedInfo info :=
        fun info hinfo => hinfo ▸ Course.decided_next py rfl _ _
      cases hinfo : AcquiringPaymentInfo.validate py d with
      | none => exact followsCourse_throw (hdecided none hinfo)
      | some info =>
        have hinfo := hdecided (some info) hinfo
        exact followsOr_pure (followsCourse_updateFromInfo hinfo rfl rfl rfl hopen)

/-! ### The periodic task -/

theorem followsCourse_applyAsyncAll (paymentIds : List ℕ) (hm : m.decided = some (.ok .done)) :
    FollowsCourse py (applyAsyncAll paymentIds) (fun m _ => m.Ends (.ok .done)) m := by
  induction paymentIds generalizing m with
  | nil => exact followsOr_pure ⟨_, hm, Or.inl rfl⟩
  | cons id paymentIds ih =>
    exact followsOr_bind (followsCourse_applyAsync hm (Or.inl rfl) fun u hm => ih hm)

/-- **Every call follows the protocol.** -/
theorem obeys_courses (types : Set String) (py : Pydantic) :
    (paySystem types py).Obeys (courses types py) := by
  intro c
  suffices h : FollowsCourse py (Call.body py c) (fun m a => m.Ends (.ok a)) (.init c) by
    refine Follows.mono h fun m r hr => ?_
    cases r with
    | ok a => exact hr
    | error e => exact hr
  cases c with
  | deposit userId payload paymentType =>
    exact followsOr_bind ((followsCourse_createAcquiringPayment userId payload paymentType).mono
      fun _ _ h => followsOr_pure h)
  | cashReturn userId payload =>
    exact followsOr_bind ((followsCourse_createReturn userId payload).mono
      fun _ _ h => followsOr_pure h)
  | check paymentId =>
    exact followsOr_bind ((followsCourse_checkAndUpdate paymentId).mono
      fun _ _ h => followsOr_pure h)
  | enqueue =>
    refine followsOr_bind (followsOr_bind (followsCourse_send rfl rfl (fun _ => rfl)
      fun paymentIds _ => ?_))
    exact (followsCourse_applyAsyncAll paymentIds rfl).mono fun _ _ h => followsOr_pure h

end PaySystem
