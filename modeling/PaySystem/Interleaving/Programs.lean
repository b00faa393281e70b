import PaySystem.Interleaving.Statements

/-!
# The services among other transactions

Each service is verified alone against the interference of the others: what it commits is a change
for which `Commits` holds. With the soundness of the rely-guarantee rules this covers every
interleaving of any number of calls.
-/

namespace PaySystem

open RelyGuarantee Prog

variable {types : Set String} {tracked : ℕ → Prop} {py : Pydantic} {i : ℕ} {w w' : World}
  {σ : Session} {order : Order} {p : Payment}

/-! ## The checks -/

theorem wpOk_checkOrderBelongsToUser {userId : ℕ} {Q : Unit → Session → World → Prop}
    (hQ : order.userId = userId → Q () σ w) :
    (interference types tracked py).wpOk i (checkOrderBelongsToUser order userId) Q σ w := by
  unfold checkOrderBelongsToUser
  split_ifs with h
  · exact wpOk_throw
  · exact wpOk_pure (hQ (not_not.1 h))

theorem wpOk_checkAmount {new current : ℚ} {Q : Unit → Session → World → Prop}
    (hQ : new ≤ order.totalSum.toRat → Q () σ w) :
    (interference types tracked py).wpOk i (checkAmount new order current) Q σ w := by
  unfold checkAmount
  split_ifs with h
  · exact wpOk_throw
  · exact wpOk_pure (hQ (not_lt.1 h))

theorem wpOk_checkReturnAmount {amount balance : ℚ} {Q : Unit → Session → World → Prop}
    (hQ : amount ≤ balance → Q () σ w) :
    (interference types tracked py).wpOk i (checkReturnAmount amount balance) Q σ w := by
  unfold checkReturnAmount
  split_ifs with h
  · exact wpOk_throw
  · exact wpOk_pure (hQ (not_lt.1 h))

/-! ## Deposits -/

/-- **A deposit is safe among other transactions.** -/
theorem wpOk_createAcquiringPayment (payload : PaymentCreate) (userId : ℕ) {paymentType : String}
    (htype : paymentType ∈ types) (hidle : w.Idle i) :
    (interference types tracked py).wpOk i
      (createAcquiringPayment payload.orderId userId payload.amount paymentType)
      (fun _ _ _ => True) σ w := by
  unfold createAcquiringPayment
  refine wpOk_bind (wpOk_getOrderForUpdate hidle fun order w₁ hid hord₁ h₁ => ?_)
  refine wpOk_bind (wpOk_checkOrderBelongsToUser fun huser => ?_)
  refine wpOk_bind (wpOk_selectBalance fun w₂ h₂ => ?_)
  refine wpOk_bind (wpOk_checkAmount fun hamount => ?_)
  have hord₂ := hord₁.progress h₂
  refine wpOk_bind (wpOk_startPayment fun b w₃ hstarted h₃ => ?_)
  have hord₃ := hord₂.progress h₃
  refine wpOk_bind (wpOk_insertPayment (hid ▸ hord₃.lock) fun id w₄ hrow hfree h₄ => ?_)
  refine wpOk_bind (wpOk_commit (fun w₅ h₅ hw₅ => Or.inr ?_) fun w₅ _ => ?_)
  · have hord₅ := (hord₃.progress h₄).progress h₅
    have h₂₅ := h₃.trans (h₄.trans h₅)
    have h₀₅ := h₁.trans (h₂.trans h₂₅)
    have hwrites := h₀₅.writes
    have hview : w₂.view i = w₂.db := by
      refine view_of_writes ?_
      rw [(h₁.trans h₂).writes, hidle.writes]
      rfl
    rw [hidle.writes] at hwrites
    refine ⟨.deposit order
      { submittedPayment userId payload.orderId payload.amount paymentType b with id := id }, ?_,
      hwrites⟩
    refine ⟨⟨hid.symm, ⟨order.paymentStatus, hord₅.row⟩, ?_, ?_⟩, ?_, h₅.kept _ _ hrow,
      fun _ => hid ▸ hord₅.lock, fun hne => absurd rfl hne, fun _ _ _ _ ha => (by cases ha), ?_⟩
    · exact (h₅.payment _ hrow).trans hfree
    · refine ⟨huser.symm, ?_, rfl, rfl, htype, rfl, rfl⟩
      change 0 < (Fixed.round 2 payload.amount).toRat
      rw [payload.toRat_round]
      exact payload.gt
    · intro ht
      change w₅.db.balance .nonRejected payload.orderId + (Fixed.round 2 payload.amount).toRat ≤ _
      rw [payload.toRat_round]
      rw [hview] at hamount
      have := h₂₅.nonRejected payload.orderId ht (hid ▸ hord₂.lock)
      linarith
    · refine ⟨b, rfl, ?_⟩
      change (i, ⟨b, payload.orderId, (Fixed.round 2 payload.amount).toRat⟩) ∈ w₅.started
      rw [← hid, payload.toRat_round]
      exact (h₄.trans h₅).started _ hstarted
  · exact wpOk_bind (wpOk_applyAsync fun _ _ => wpOk_pure trivial)

/-! ## The status of the order -/

theorem wpOk_getOrderPaymentStatus {Q : String → Session → World → Prop}
    (hQ : ∀ w', Progress tracked i [] [] [.balance .completed order.id] w w' →
      Q ((w'.view i).orderStatus order) σ w') :
    (interference types tracked py).wpOk i (getOrderPaymentStatus order) Q σ w :=
  wpOk_bind (wpOk_selectBalance fun w' h => wpOk_pure (hQ w' h))

theorem wpOk_flushOrder {status : String} {Q : Unit → Session → World → Prop}
    (hlock : w.Holds i (.order order.id) .update ∨
      ∀ row mode, w.Holds i row mode → ∃ id, row = .payment id)
    (hQ : ∀ rows w', Progress tracked i rows (Change.orderWrites order status) [] w w' →
      (status ≠ order.paymentStatus → w'.Holds i (.order order.id) .noKeyUpdate) → Q () σ w') :
    (interference types tracked py).wpOk i (flushOrder order status) Q σ w := by
  unfold flushOrder
  unfold Change.orderWrites at hQ
  split_ifs with h
  · rw [if_pos h] at hQ
    exact wpOk_pure (hQ [] w (.refl i w) fun hne => absurd h hne)
  · rw [if_neg h] at hQ
    exact wpOk_updateOrder hlock fun w' hp hheld => hQ _ w' hp fun _ => hheld

/-- The status that a transaction computes is that of the database it will leave, if the completed
balance is still the same when it commits. -/
theorem orderStatus_eq {c : Change} (hc : c.Allowed types w'.db)
    (hview : (w.view i).balance .completed order.id =
      w.db.balance .completed order.id + c.delta (Payment.contribution .completed order.id))
    (hread : (ReadOf.balance .completed order.id).unchanged w.db w'.db) :
    (w.view i).orderStatus order = (c.run w'.db).orderStatus order := by
  have hread : w.db.balance .completed order.id = w'.db.balance .completed order.id := hread
  rw [Db.orderStatus, Db.orderStatus, hview, hc.balance_run, hread]

/-! ## Returns -/

/-- **A return is safe among other transactions.** -/
theorem wpOk_createReturn (payload : PaymentCreate) (userId : ℕ) (hidle : w.Idle i) :
    (interference types tracked py).wpOk i (createReturn payload.orderId userId payload.amount)
      (fun _ _ _ => True) σ w := by
  unfold createReturn
  refine wpOk_bind (wpOk_getOrderForUpdate hidle fun order w₁ hid hord₁ h₁ => ?_)
  refine wpOk_bind (wpOk_checkOrderBelongsToUser fun huser => ?_)
  refine wpOk_bind (wpOk_selectBalance fun w₂ h₂ => ?_)
  have hord₂ := hord₁.progress h₂
  refine wpOk_bind (wpOk_checkReturnAmount fun hamount => ?_)
  refine wpOk_bind (wpOk_now fun paidAt w₃ h₃ => ?_)
  have hord₃ := hord₂.progress h₃
  refine wpOk_bind (wpOk_insertPayment (hid ▸ hord₃.lock) fun id w₄ hrow₄ hfree₄ h₄ => ?_)
  have hord₄ := hord₃.progress h₄
  refine wpOk_bind (wpOk_getOrderPaymentStatus fun w₅ h₅ => ?_)
  have hord₅ := hord₄.progress h₅
  refine wpOk_bind (wpOk_flushOrder (Or.inl hord₅.lock) fun rows w₆ h₆ _ => ?_)
  refine wpOk_bind (wpOk_commit (fun w₇ h₇ hw₇ => Or.inr ?_) fun _ _ => wpOk_pure trivial)
  have hord₇ := (hord₅.progress h₆).progress h₇
  have h₂₇ := h₃.trans (h₄.trans (h₅.trans (h₆.trans h₇)))
  have hview₂ : w₂.view i = w₂.db := by
    refine view_of_writes ?_
    rw [(h₁.trans h₂).writes, hidle.writes]
    rfl
  have hwrites₅ := (h₁.trans (h₂.trans (h₃.trans (h₄.trans h₅)))).writes
  have hwrites₇ := (h₁.trans (h₂.trans h₂₇)).writes
  rw [hidle.writes] at hwrites₅ hwrites₇
  have hfree₅ : w₅.db.payments.find? id = none := (h₅.payment _ hrow₄).trans hfree₄
  have hrow₇ := (h₅.trans (h₆.trans h₇)).kept _ _ hrow₄
  have hfree₇ : w₇.db.payments.find? id = none :=
    ((h₅.trans (h₆.trans h₇)).payment _ hrow₄).trans hfree₄
  set q : Payment := { completedReturn userId payload.orderId payload.amount paidAt with id := id }
    with hq
  have hallowed : (Change.cashReturn order q ((w₅.view i).orderStatus order)).Allowed types
      w₇.db := by
    refine ⟨hid.symm, ⟨order.paymentStatus, hord₇.row⟩, hfree₇, ?_⟩
    refine ⟨huser.symm, ?_, rfl, rfl, rfl, rfl, rfl⟩
    change 0 < (Fixed.round 2 payload.amount).toRat
    rw [payload.toRat_round]
    exact payload.gt
  refine ⟨.cashReturn order q ((w₅.view i).orderStatus order), ?_,
    by simpa [Change.writes] using hwrites₇⟩
  have hlock₇ : w₇.Holds i (.order payload.orderId) .update := hid ▸ hord₇.lock
  refine ⟨hallowed, fun ht => ?_, hrow₇, fun _ => hlock₇, fun _ => ⟨.update, by decide, hlock₇⟩,
    fun _ hread => ?_, trivial⟩
  · change (Fixed.round 2 payload.amount).toRat ≤ w₇.db.balance .completed payload.orderId
    rw [payload.toRat_round]
    rw [hview₂] at hamount
    exact hamount.trans (h₂₇.completed _ ht (hid ▸ hord₂.lock))
  · rintro order' st ⟨⟩
    refine ⟨hord₇.row, orderStatus_eq hallowed ?_ ((h₆.trans h₇).reads _ (by simp) ?_).2⟩
    · have hview : w₅.view i = w₅.db.apply (.insertPayment q) := by
        rw [World.view, hwrites₅]
        rfl
      rw [hview, Db.balance, sum_insertPayment _ hfree₅, Change.delta_of_new rfl]
      rfl
    · rw [hid]
      exact hread

/-! ## Checks -/

theorem wpOk_flushPayment {status : String} {paidAt : Option DateTime}
    {Q : Unit → Session → World → Prop} (hp : HoldsPayment i p w)
    (hQ : ∀ w', Progress tracked i [.payment p.id] (Change.paymentWrites p status paidAt) [] w w' →
      Q () σ w') :
    (interference types tracked py).wpOk i
      (flushPayment p { p with paymentStatus := status, paidAt := paidAt }) Q σ w := by
  unfold flushPayment
  unfold Change.paymentWrites at hQ
  split_ifs with h
  · rw [if_pos h] at hQ
    refine wpOk_pure (hQ w ?_)
    have hrefl : Progress tracked i [] [] [] w w := .refl i w
    exact { hrefl with taken := fun row mode hw => Or.inl hw }
  · rw [if_neg h] at hQ
    exact wpOk_updatePayment hp.lock hQ

/-- In the session of a task `payment.order` is loaded from the database, after the flush of the
payment. -/
theorem wpOk_readOrder {status : String} {paidAt : Option DateTime}
    {Q : Option Order → Session → World → Prop} (hp : HoldsPayment i p w)
    (hQ : ∀ w', Progress tracked i [.payment p.id] (Change.paymentWrites p status paidAt)
      [.order p.orderId] w w' → Q ((w'.view i).orders.find? p.orderId) .fresh w') :
    (interference types tracked py).wpOk i
      (readOrder p { p with paymentStatus := status, paidAt := paidAt }) Q .fresh w := by
  unfold readOrder
  refine wpOk_bind (wpOk_identityMapGet fun w₁ h₁ => ?_)
  refine wpOk_bind (wpOk_awaitOnly fun w₂ h₂ => ?_)
  have hp₂ := (hp.progress h₁).progress h₂
  refine wpOk_bind (wpOk_flushPayment hp₂ fun w₃ h₃ => ?_)
  refine wpOk_selectOrder fun w₄ h₄ => hQ w₄ ?_
  simpa using h₁.trans (h₂.trans (h₃.trans h₄))

/-- The status of an order is written only if it has changed. -/
theorem ne_of_orders_run_ne {db : Db} {paidAt : DateTime} {st : String}
    (h : ((Change.complete order p paidAt st).run db).orders ≠ db.orders) :
    st ≠ order.paymentStatus := by
  rintro rfl
  refine h ?_
  rw [Change.orders_run]
  simp [Change.assigned, Change.orderWrites]

theorem wpOk_completePayment {d : Dict} {info : AcquiringPaymentInfo} {b : String}
    (hp : HoldsPayment i p w) (hopen : p.isOpen = true) (hwrites : w.writes i = [])
    (hlocks : ∀ row mode, w.Holds i row mode → row = .payment p.id)
    (hb : p.bankPaymentId = some b) (hanswer : (b, .ok d) ∈ w.answers)
    (hinfo : AcquiringPaymentInfo.validate py d = some info)
    (hst : info.status = PaymentStatus.Completed.value) :
    (interference types tracked py).wpOk i
      (completePayment p { p with paymentStatus := info.status, paidAt := some info.paidAt })
      (fun _ _ _ => True) .fresh w := by
  unfold completePayment
  refine wpOk_bind (wpOk_readOrder hp fun w₁ h₁ => ?_)
  have hview₁ : (w₁.view i).orders = w₁.db.orders := by
    rw [World.view, h₁.writes, hwrites]
    exact Change.orders_paymentWrites _ _ _ _
  rw [hview₁]
  cases ho : w₁.db.orders.find? p.orderId with
  | none => exact wpOk_throw
  | some order =>
    have hid : order.id = p.orderId := Table.key_of_find? ho
    have hp₁ := hp.progress h₁
    refine wpOk_bind (wpOk_getOrderPaymentStatus fun w₂ h₂ => ?_)
    have hp₂ := hp₁.progress h₂
    have hlocks₂ : ∀ row mode, w₂.Holds i row mode → row = .payment p.id := by
      intro row mode hw
      rcases (h₁.trans h₂).taken row mode hw with hw | hr
      · exact hlocks row mode hw
      · simpa using hr
    refine wpOk_bind (wpOk_flushOrder (Or.inr fun row mode hw => ⟨p.id, hlocks₂ row mode hw⟩)
      fun rows w₃ h₃ hheld => ?_)
    refine wpOk_commit (fun w₄ h₄ hw₄ => Or.inr ?_) fun _ _ => trivial
    set st := (w₂.view i).orderStatus order
    have h₁₄ := h₂.trans (h₃.trans h₄)
    have hp₄ := hp₁.progress h₁₄
    have hwrites₂ := (h₁.trans h₂).writes
    have hwrites₄ := (h₁.trans h₁₄).writes
    rw [hwrites, hst] at hwrites₂ hwrites₄
    rw [List.append_nil, List.nil_append] at hwrites₂
    have hallowed : (Change.complete order p info.paidAt st).Allowed types w₄.db := by
      have ho' : w₁.db.orders.find? order.id = some order := by
        rw [hid]
        exact ho
      exact ⟨hid.symm, h₁₄.loaded order ⟨order.paymentStatus, ho'⟩, hp₄.row, hopen⟩
    refine ⟨.complete order p info.paidAt st, ?_, by simpa [Change.writes] using hwrites₄⟩
    refine ⟨hallowed, fun _ => trivial, hp₄.lock, fun hn => (by cases hn), fun hne => ?_,
      fun horder hbal => ?_, ?_⟩
    · refine ⟨.noKeyUpdate, by decide, ?_⟩
      change w₄.Holds i (.order p.orderId) _
      rw [← hid]
      exact h₄.kept _ _ (hheld (ne_of_orders_run_ne hne))
    · rintro order' st' ⟨⟩
      have hread := (h₁₄.reads _ (by simp) horder).2
      refine ⟨?_, orderStatus_eq hallowed ?_ ((h₃.trans h₄).reads _ (by simp) ?_).2⟩
      · have hread : w₁.db.orders.find? p.orderId = w₄.db.orders.find? p.orderId := hread
        rw [hid, ← hread]
        exact ho
      · rw [World.view, hwrites₂, hid]
        exact Change.sum_paymentWrites _ hp₂.row _ _
      · rw [hid]
        exact hbal
    · exact ⟨b, d, info, hb, (h₁.trans h₁₄).answers hanswer, hinfo, hst, rfl⟩

theorem wpOk_updateFromInfo {d : Dict} {info : AcquiringPaymentInfo} {b : String}
    (hp : HoldsPayment i p w) (hopen : p.isOpen = true) (hwrites : w.writes i = [])
    (hlocks : ∀ row mode, w.Holds i row mode → row = .payment p.id)
    (hb : p.bankPaymentId = some b) (hanswer : (b, .ok d) ∈ w.answers)
    (hinfo : AcquiringPaymentInfo.validate py d = some info) :
    (interference types tracked py).wpOk i (updateFromInfo p info) (fun _ _ _ => True) .fresh
      w := by
  unfold updateFromInfo
  simp only
  split_ifs with hmem hst
  · exact wpOk_bind (wpOk_mono
      (wpOk_completePayment hp hopen hwrites hlocks hb hanswer hinfo hst) fun _ _ _ _ =>
      wpOk_pure trivial)
  · refine wpOk_bind (wpOk_flushPayment hp fun w₁ h₁ => ?_)
    refine wpOk_bind (wpOk_commit (fun w₂ h₂ hw₂ => Or.inr ?_) fun _ _ => wpOk_pure trivial)
    have hp₂ := (hp.progress h₁).progress h₂
    have hwrites₂ := (h₁.trans h₂).writes
    rw [hwrites, List.append_nil, List.nil_append] at hwrites₂
    refine ⟨.advance p info.status, ?_, hwrites₂⟩
    refine ⟨⟨hp₂.row, hopen, by simpa using hmem, hst⟩, fun _ => trivial, hp₂.lock,
      fun hn => (by cases hn), fun hne => absurd ?_ hne, fun _ _ _ _ ha => (by cases ha), trivial⟩
    exact Change.orders_run_of_not_assigned rfl
  · exact wpOk_pure trivial

/-- **A check is safe among other transactions.** -/
theorem wpOk_checkAndUpdate (paymentId : ℕ) (hidle : w.Idle i) :
    (interference types tracked py).wpOk i (checkAndUpdate py paymentId) (fun _ _ _ => True)
      .fresh w := by
  unfold checkAndUpdate
  refine wpOk_bind (wpOk_getPaymentForUpdate hidle (fun _ _ => wpOk_pure trivial)
    fun p w₁ hid hopen hp₁ h₁ => ?_)
  refine wpOk_bind (wpOk_checkPayment fun r w₂ hanswer h₂ => ?_)
  obtain ⟨b, hb⟩ := Option.isSome_iff_exists.1 (Payment.isOpen_iff.1 hopen).2.2
  have hwrites := (h₁.trans h₂).writes
  have hlocks : ∀ row mode, w₂.Holds i row mode → row = .payment p.id := by
    intro row mode hw
    rcases (h₁.trans h₂).taken row mode hw with hw | hr
    · exact absurd hw (hidle.locks row mode)
    · simpa [hid] using hr
  rw [hidle.writes] at hwrites
  rcases r with e | d
  · rcases e with _ | _ | _ | _ | e | _ | _ | _ | _ | _ <;> try exact wpOk_throw
    rcases e with _ | _ | _ | _ <;> first | exact wpOk_throw | exact wpOk_pure trivial
  · change (interference types tracked py).wpOk i ((checkPaymentInfo py d).bind _) _ _ _
    unfold checkPaymentInfo
    cases hinfo : AcquiringPaymentInfo.validate py d with
    | none => exact wpOk_throw
    | some info =>
      refine wpOk_updateFromInfo (hp₁.progress h₂) hopen hwrites hlocks hb ?_ hinfo
      simpa [hb] using hanswer d rfl

/-! ## The system -/

theorem wpOk_applyAsyncAll (paymentIds : List ℕ) :
    (interference types tracked py).wpOk i (applyAsyncAll paymentIds) (fun _ _ _ => True) σ w := by
  induction paymentIds generalizing w with
  | nil => exact wpOk_pure trivial
  | cons paymentId paymentIds ih => exact wpOk_bind (wpOk_applyAsync fun _ _ => ih)

theorem wpOk_enqueuePaymentStatusChecks :
    (interference types tracked py).wpOk i enqueuePaymentStatusChecks (fun _ _ _ => True) σ w :=
  wpOk_bind (wpOk_selectPaymentIds fun ids _ _ => wpOk_applyAsyncAll ids)

/-- **Every call is safe among any other calls.** -/
theorem verified (types : Set String) (tracked : ℕ → Prop) (py : Pydantic) :
    (interference types tracked py).Verified := by
  intro c i w _ hidle
  suffices h : (interference types tracked py).wpOk i (Call.body py c) (fun _ _ _ => True) .fresh w
    from h.anyResult
  cases c with
  | deposit userId payload paymentType =>
    exact wpOk_bind (wpOk_mono
      (wpOk_createAcquiringPayment payload userId paymentType.2 hidle) fun _ _ _ _ =>
      wpOk_pure trivial)
  | cashReturn userId payload =>
    exact wpOk_bind (wpOk_mono (wpOk_createReturn payload userId hidle) fun _ _ _ _ =>
      wpOk_pure trivial)
  | check paymentId =>
    exact wpOk_bind (wpOk_mono (wpOk_checkAndUpdate paymentId hidle) fun _ _ _ _ =>
      wpOk_pure trivial)
  | enqueue =>
    exact wpOk_bind (wpOk_mono wpOk_enqueuePaymentStatusChecks fun _ _ _ _ => wpOk_pure trivial)

theorem World.AtRest.idle (h : w.AtRest) (i : ℕ) : w.Idle i where
  locks row mode hw := by
    rw [World.Holds, h.locks] at hw
    cases hw
  writes := h.writes i
  reads r hr := by
    rw [h.reads] at hr
    cases hr

theorem World.AtRest.sound (h : w.AtRest) (hl : ∀ o, tracked o → w.db.LawfulOrder types o) :
    w.Sound types tracked where
  exclusive i _ row mode _ _ hw := absurd hw ((h.idle i).locks row mode)
  paymentLock i _ mode hw := absurd hw ((h.idle i).locks _ mode)
  userLock i _ mode hw := absurd hw ((h.idle i).locks _ mode)
  paymentId := h.paymentId
  lawful := hl

/-- The configuration in which the world is at rest and no call runs. -/
def atRest (w : World) : Config Stmt Err Outcome World Session := ⟨w, fun _ => none⟩

/-- **The specification holds in every run** of the services that starts at rest. -/
theorem valid_atRest (h : w.AtRest) (hl : ∀ o, tracked o → w.db.LawfulOrder types o) :
    (interference types tracked py).Valid (atRest w) :=
  .of_idle (h.sound hl) h.idle

/-! ## Runs of the small instance -/

/-- A deposit by thread `i`, alone. -/
def sampleDeposit (i : ℕ) (payload : PaymentCreate) (bankId : String) :
    List (Event (Call endpointTypes) Env) :=
  .spawn i (.deposit 7 payload ⟨_, rfl⟩) ::
    List.replicate 7 (.run i (sampleEnv bankId PaymentStatus.Completed.value))

/-- A check of the payment `paymentId` by thread `i`, alone. -/
def sampleCheck (i paymentId : ℕ) (bankId : String) : List (Event (Call endpointTypes) Env) :=
  .spawn i (.check paymentId) ::
    List.replicate 10 (.run i (sampleEnv bankId PaymentStatus.Completed.value))

end PaySystem
