import PaySystem.Ledger.Abstraction
import PaySystem.Sequential.Calls

/-!
# The services refine the ledgers of the orders

In serial runs from orders on which nothing has happened, each call makes the move of the ledger
that its admission check allows, and refuses exactly what the ledger does not allow.
-/

namespace PaySystem

open Prog Machine

variable {types : Set String} {i : ℕ} {w w' w₀ : World} {σ : Session} {py : Pydantic}
  {db db' : Db} {order : Order} {payload : PaymentCreate} {userId : ℕ}

/-! ## The refinement is an invariant -/

theorem Db.Committed.refines {kind : Change → Prop} (h : db.Committed types kind db')
    (hr : db.Refines types order) :
    db'.Refines types order ∧ Ledger.Runs (db.ledger order) (db'.ledger order) := by
  cases h with
  | nothing => exact ⟨hr, .refl⟩
  | change c allowed admitted current _ =>
    exact ⟨allowed.refines hr admitted current, allowed.runs_ledger hr admitted⟩

/-- The refinement in a world between two calls of a serial run that started with `l₀`. -/
structure World.Refines (types : Set String) (order : Order) (l₀ : Ledger ℚ) (w : World) :
    Prop where
  rest : w.AtRest
  refines : w.db.Refines types order
  runs : l₀.Runs (w.db.ledger order)

/-- **The refinement holds after every call of a serial run.** -/
theorem refines_of_serial (hw : w₀.AtRest) (hstart : w₀.db.Starts order)
    (h : (paySystem types py).Serial Session.Faithful w₀ w) :
    w.Refines types order (w₀.db.ledger order) := by
  refine h.invariant ⟨hw, hstart.refines types, .refl⟩ fun i c env σ w hσ hI => ?_
  refine alone_mono (alone_body hI.rest hσ c) fun _ _ w' _ hleft => ?_
  obtain ⟨hrefines, hruns⟩ := hleft.committed.refines hI.refines
  exact ⟨hleft.rest, hrefines, hI.runs.trans hruns⟩

/-! ## What the calls do to the ledger of an order -/

/-- Nothing fails, and the bank starts a payment under an id that fits into its column. -/
structure Env.Starts (env : Env) : Prop where
  failure : env.failure = none
  start : ∃ b, env.start = .accepted b ∧ b.length ≤ 255

/-- `create_acquiring_payment` of the owner deposits what remains, and refuses more. -/
def RefinesDeposit (types : Set String) (order : Order) (w : World) : Prop :=
  ∀ (i : ℕ) (σ : Session) (env : ℕ → Env) (payload : PaymentCreate) (paymentType : types),
    payload.orderId = order.id → (paymentType : String).length ≤ 20 → (∀ n, (env n).Starts) →
    ∃ r w', runAlone (createAcquiringPayment payload.orderId order.userId payload.amount
        paymentType) i env w σ = some (r, w') ∧
      if payload.amount ≤ (w.db.ledger order).remaining then
        (∃ p, r = .ok p) ∧ w'.db.ledger order = (w.db.ledger order).deposit payload.amount
      else r = .error (.overpayment (w.db.ledger order).remaining) ∧ w'.db = w.db

/-- The owner's deposit of `a` succeeds. -/
def Deposits (paymentType : String) (order : Order) (w : World) (a : ℚ) : Prop :=
  ∃ payload : PaymentCreate, payload.orderId = order.id ∧ payload.amount = a ∧
    ∀ (i : ℕ) (σ : Session) (env : ℕ → Env), (∀ n, (env n).Starts) →
      ∃ p w', runAlone (createAcquiringPayment payload.orderId order.userId payload.amount
        paymentType) i env w σ = some (.ok p, w')

/-- What remains is the largest deposit that succeeds, if anything remains. -/
def LargestDeposit (types : Set String) (order : Order) (w : World) : Prop :=
  ∀ paymentType : types, (paymentType : String).length ≤ 20 → 0 < (w.db.ledger order).remaining →
    IsGreatest {a | Deposits paymentType order w a} (w.db.ledger order).remaining

/-- `create_return` of the owner pays back what is completed, and refuses more. -/
def RefinesReturn (order : Order) (w : World) : Prop :=
  ∀ (i : ℕ) (σ : Session) (env : ℕ → Env) (payload : PaymentCreate),
    payload.orderId = order.id → (∀ n, (env n).failure = none) →
    ∃ r w', runAlone (createReturn payload.orderId order.userId payload.amount) i env w σ =
        some (r, w') ∧
      if payload.amount ≤ (w.db.ledger order).completed then
        (∃ p, r = .ok p) ∧ w'.db.ledger order = (w.db.ledger order).payBack payload.amount
      else r = .error (.returnAmountExceedsBalance (w.db.ledger order).completed) ∧ w'.db = w.db

/-- What a check of `p` does to the ledger of an order that leaves the payment as `p'`. -/
def checkMove (order : Order) (p p' : Payment) (l : Ledger ℚ) : Ledger ℚ :=
  if p.orderId = order.id ∧ p.isOpen = true then
    if p'.paymentStatus = PaymentStatus.Completed.value then l.complete p.amount.toRat
    else if p'.paymentStatus = PaymentStatus.Rejected.value then l.reject p.amount.toRat
    else l
  else l

/-- `check_and_update` completes or rejects what is pending, by the status that it commits. -/
def RefinesCheck (py : Pydantic) (order : Order) (w : World) : Prop :=
  ∀ (i : ℕ) (σ : Session) (env : ℕ → Env) (paymentId : ℕ), σ.Faithful w →
    ∃ r w', runAlone (checkAndUpdate py paymentId) i env w σ = some (r, w') ∧
      (w.db.payments.find? paymentId = none → w'.db = w.db) ∧
      ∀ p, w.db.payments.find? paymentId = some p →
        ∃ p', w'.db.payments.find? paymentId = some p' ∧
          w'.db.ledger order = checkMove order p p' (w.db.ledger order)

/-- Deposits and returns of other orders leave the ledger alone. -/
def RefinesOthers (types : Set String) (order : Order) (w : World) : Prop :=
  ∀ (i : ℕ) (σ : Session) (env : ℕ → Env) (payload : PaymentCreate) (userId : ℕ)
    (paymentType : types), payload.orderId ≠ order.id →
    (∃ r w', runAlone (createAcquiringPayment payload.orderId userId payload.amount paymentType) i
      env w σ = some (r, w') ∧ w'.db.ledger order = w.db.ledger order) ∧
    ∃ r w', runAlone (createReturn payload.orderId userId payload.amount) i env w σ =
      some (r, w') ∧ w'.db.ledger order = w.db.ledger order

namespace World.Refines

variable {l₀ : Ledger ℚ} (h : w.Refines types order l₀)

include h

/-- The stored row of the order. -/
theorem find?_eq {orderId : ℕ} (hid : orderId = order.id) {o : Order}
    (ho : w.db.orders.find? orderId = some o) :
    o.id = order.id ∧ o.userId = order.userId ∧ o.totalSum = order.totalSum := by
  rw [hid, h.refines.find?, Option.some.injEq] at ho
  subst ho
  exact ⟨rfl, rfl, rfl⟩

theorem remaining (hid : payload.orderId = order.id) :
    (w.db.ledger order).remaining =
      order.totalSum.toRat - w.db.balance .nonRejected payload.orderId := by
  rw [hid]
  exact h.refines.remaining

theorem refinesDeposit : RefinesDeposit types order w := by
  intro i σ env payload paymentType hid hlen henv
  obtain ⟨r, w', hr, hout⟩ := runAlone_createAcquiringPayment h.rest i env σ payload
    order.userId paymentType
  refine ⟨r, _, hr, ?_⟩
  have hremaining := h.remaining hid
  cases hout with
  | failed msg hfail _ =>
    rw [(henv 0).failure, (henv 1).failure] at hfail
    simp at hfail
  | notFound hnone _ =>
    rw [hid, h.refines.find?] at hnone
    cases hnone
  | forbidden o find huser _ => exact absurd (h.find?_eq hid find).2.1 huser
  | overpayment o own hfits left =>
    have htotal : o.totalSum = order.totalSum := (h.find?_eq hid own.find).2.2
    rw [DepositFits, htotal] at hfits
    rw [htotal, ← hremaining, if_neg (by rw [hremaining]; linarith)]
    exact ⟨rfl, left.db⟩
  | refused e hstart _ =>
    obtain ⟨b, hb, -⟩ := (henv 2).start
    rw [hb] at hstart
    cases hstart
  | lost e b hstart _ =>
    obtain ⟨b', hb', -⟩ := (henv 2).start
    rw [hb'] at hstart
    cases hstart
  | notStored msg b _ hstart hfail _ =>
    obtain ⟨b', hb', hlen'⟩ := (henv 2).start
    rw [hstart] at hb'
    cases hb'
    rw [(henv 3).failure, (henv 4).failure,
      submittedPayment_fits payload order.userId hlen' hlen] at hfail
    simp at hfail
  | notEnqueued _ _ _ _ _ _ _ msg hfail _ =>
    rw [(henv 5).failure] at hfail
    cases hfail
  | done o own hfits b hb id hfree left =>
    have htotal : o.totalSum = order.totalSum := (h.find?_eq hid own.find).2.2
    have hallowed : (Change.deposit o (newDeposit payload order.userId paymentType b id)).Allowed
        types w.db := allowed_deposit paymentType.2 own b hfree
    rw [DepositFits, htotal] at hfits
    rw [if_pos (by rw [hremaining]; linarith)]
    refine ⟨⟨_, rfl⟩, ?_⟩
    change w'.db.ledger order = _
    rw [left.db, hallowed.ledger_run h.refines.lawful hid]
    change (w.db.ledger order).deposit (Fixed.round 2 payload.amount).toRat = _
    rw [payload.toRat_round]

theorem refinesReturn : RefinesReturn order w := by
  intro i σ env payload hid henv
  obtain ⟨r, w', hr, hout⟩ := runAlone_createReturn h.rest i env σ payload order.userId
  refine ⟨r, _, hr, ?_⟩
  have hcompleted : (w.db.ledger order).completed = w.db.balance .completed payload.orderId := by
    rw [hid]
    rfl
  cases hout with
  | failed n msg hfail _ =>
    rw [henv] at hfail
    cases hfail
  | notFound hnone _ =>
    rw [hid, h.refines.find?] at hnone
    cases hnone
  | forbidden o find huser _ => exact absurd (h.find?_eq hid find).2.1 huser
  | exceeds o own hle left =>
    rw [hcompleted, if_neg hle]
    exact ⟨rfl, left.db⟩
  | done o own hle id hfree left =>
    have hallowed : (returnChange w.db o (newReturn payload order.userId (env 2).now id)).Allowed
        types w.db := allowed_return own _ hfree
    rw [hcompleted, if_pos hle]
    refine ⟨⟨_, rfl⟩, ?_⟩
    change w'.db.ledger order = _
    rw [left.db, hallowed.ledger_run h.refines.lawful hid]
    change (w.db.ledger order).payBack (Fixed.round 2 payload.amount).toRat = _
    rw [payload.toRat_round]

omit h in
/-- The check of a payment that stays as it is. -/
theorem checkMove_self (order : Order) (p : Payment) (l : Ledger ℚ) :
    checkMove order p p l = l := by
  unfold checkMove
  split_ifs with hopen hst hst
  · exact absurd hst (Payment.isOpen_iff.1 hopen.2).1
  · exact absurd hst (Payment.isOpen_iff.1 hopen.2).2.1
  · rfl
  · rfl

/-- A change of an open payment, as the move of a check. -/
theorem ledger_of_change {c : Change} (hc : c.Allowed types w.db) {p : Payment}
    (hold : c.old = some p) (hopen : p.isOpen = true) :
    (c.run w.db).ledger order = checkMove order p c.row (w.db.ledger order) := by
  by_cases hid : p.orderId = order.id
  · rw [checkMove, if_pos ⟨hid, hopen⟩]
    rw [Change.old_orderId hold] at hid
    rw [hc.ledger_run h.refines.lawful hid]
    cases c with
    | deposit o q => cases hold
    | cashReturn o q st => cases hold
    | advance q st =>
      cases hold
      exact (if_neg hc.2.2.2).symm
    | complete o q paidAt st =>
      cases hold
      exact (if_pos rfl).symm
  · rw [checkMove, if_neg fun hp => hid hp.1]
    rw [Change.old_orderId hold] at hid
    exact hc.ledger_run_of_ne hid

theorem refinesCheck (py : Pydantic) : RefinesCheck py order w := by
  intro i σ env paymentId hσ
  obtain ⟨r, w', hr, hout⟩ := runAlone_checkAndUpdate h.rest i env σ py paymentId
  have hleft : w.Left types _ (w'.close i) := hout.left hσ
  refine ⟨r, _, hr, ?_⟩
  have hcommitted := hleft.committed
  generalize (w'.close i).db = db' at hcommitted
  cases hcommitted with
  | nothing => exact ⟨fun _ => rfl, fun p hp => ⟨p, hp, (checkMove_self order p _).symm⟩⟩
  | change c hc _ _ hkind =>
    obtain ⟨p, hp, hold⟩ := hkind
    have hid : c.row.id = paymentId := by
      rw [(hc.origin_row hold).1.id]
      exact Table.key_of_find? hp.find
    refine ⟨fun hnone => ?_, fun q hq => ⟨c.row, ?_, ?_⟩⟩
    · rw [hp.find] at hnone
      cases hnone
    · rw [hc.find?_payments_run, if_pos hid.symm]
    · rw [hp.find, Option.some.injEq] at hq
      subst hq
      exact h.ledger_of_change hc hold hp.isOpen

theorem refinesOthers : RefinesOthers types order w := by
  intro i σ env payload userId paymentType hid
  have hother : ∀ w', w.Left types (Change.OfOrder payload.orderId) w' →
      w'.db.ledger order = w.db.ledger order := by
    intro w' hleft
    have hcommitted := hleft.committed
    generalize w'.db = db' at hcommitted
    cases hcommitted with
    | nothing => rfl
    | change c hc _ _ hkind => exact hc.ledger_run_of_ne (ne_of_eq_of_ne hkind hid)
  refine ⟨?_, ?_⟩
  · obtain ⟨r, w', hr, hout⟩ := runAlone_createAcquiringPayment h.rest i env σ payload userId
      paymentType
    exact ⟨r, _, hr, hother _ (hout.left paymentType.2)⟩
  · obtain ⟨r, w', hr, hout⟩ := runAlone_createReturn h.rest i env σ payload userId
    exact ⟨r, _, hr, hother _ hout.left⟩

theorem largestDeposit (hfits : |order.totalSum.units| < 10 ^ 10) :
    LargestDeposit types order w := by
  intro paymentType hlen hpos
  have hdecimals : Fixed.HasDecimals 2 (w.db.ledger order).remaining := by
    rw [h.refines.remaining]
    exact hasDecimals_remaining _ _
  have hlt : (w.db.ledger order).remaining < 10 ^ 8 := by
    have hunits : (order.totalSum.units : ℚ) < 10 ^ 10 := by exact_mod_cast (abs_lt.1 hfits).2
    have htotal : (w.db.ledger order).total < 10 ^ 8 := by
      change (order.totalSum.units : ℚ) / 10 ^ 2 < 10 ^ 8
      rw [div_lt_iff₀ (by norm_num)]
      linarith
    have hcompleted := h.refines.valid.completed
    have hpending := h.refines.valid.pending
    unfold Ledger.remaining
    linarith
  constructor
  · refine ⟨⟨order.id, _, hpos, hdecimals, hlt⟩, rfl, rfl, fun i σ env henv => ?_⟩
    obtain ⟨r, w', hr, hout⟩ := h.refinesDeposit i σ env ⟨order.id, _, hpos, hdecimals, hlt⟩
      paymentType rfl hlen henv
    rw [if_pos le_rfl] at hout
    obtain ⟨⟨p, rfl⟩, -⟩ := hout
    exact ⟨p, w', hr⟩
  · rintro a ⟨payload, hid, rfl, hdeposit⟩
    have henv : ∀ _ : ℕ, (sampleEnv "" "").Starts := fun _ => ⟨rfl, "", rfl, by decide⟩
    obtain ⟨p, w', hr⟩ := hdeposit 0 .fresh _ henv
    obtain ⟨r, w'', hr', hout⟩ := h.refinesDeposit 0 .fresh _ payload paymentType hid hlen henv
    rw [hr, Option.some.injEq, Prod.mk.injEq] at hr'
    obtain ⟨rfl, rfl⟩ := hr'
    by_contra hle
    rw [if_neg hle] at hout
    cases hout.1

end World.Refines

/-- The services refine the ledger of an order in `w`, after a serial run from `w₀`. -/
structure RefinesLedger (types : Set String) (py : Pydantic) (order : Order) (w₀ w : World) :
    Prop where
  runs : (w₀.db.ledger order).Runs (w.db.ledger order)
  valid : (w.db.ledger order).Valid
  row : w.db.orders.find? order.id =
    some { order with paymentStatus := (w.db.ledger order).phase.status.value }
  deposit : RefinesDeposit types order w
  largest : LargestDeposit types order w
  cashReturn : RefinesReturn order w
  check : RefinesCheck py order w
  others : RefinesOthers types order w

/-- **The services refine the ledger of every order** on which nothing had happened, after every
call of every serial run. -/
theorem services_refine_ledger (types : Set String) (py : Pydantic) (hw : w₀.AtRest)
    (hstart : w₀.db.Starts order) (h : (paySystem types py).Serial Session.Faithful w₀ w) :
    RefinesLedger types py order w₀ w := by
  have hrefines : w.Refines types order (w₀.db.ledger order) := refines_of_serial hw hstart h
  exact ⟨hrefines.runs, hrefines.refines.valid, hrefines.refines.find?, hrefines.refinesDeposit,
    hrefines.largestDeposit hstart.fits, hrefines.refinesReturn, hrefines.refinesCheck py,
    hrefines.refinesOthers⟩

theorem sampleWorld_starts : sampleWorld.db.Starts sampleOrder where
  find := by decide +kernel
  total := by decide +kernel
  fits := by decide
  payments _ hp := nomatch hp
  status := rfl

theorem services_refine_ledger_sample : ∃ w,
    (paySystem endpointTypes .numbers).Serial Session.Faithful sampleWorld w ∧
    (w.db.ledger sampleOrder).completed = 30 ∧
    RefinesLedger endpointTypes .numbers sampleOrder sampleWorld w := by
  obtain ⟨w, hrun, hcompleted⟩ := System.exists_serial_of_runCalls
    [(0, .deposit 7 sampleHalf ⟨_, rfl⟩, fun _ => sampleEnv "a" "completed"),
      (1, .check 1, fun _ => sampleEnv "a" "completed")]
    Session.fresh_faithful (fun w : World => decide (w.db.balance .completed 1 = 30))
    (by decide +kernel : ((paySystem endpointTypes .numbers).runCalls sampleWorld _).any _ = true)
  exact ⟨w, hrun, of_decide_eq_true hcompleted, services_refine_ledger endpointTypes .numbers
    sampleWorld_atRest sampleWorld_starts hrun⟩

end PaySystem
