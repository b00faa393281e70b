import PaySystem.Sequential.Calls

/-!
# The exits of a check

A check ends in one of a few ways, and its flag, the rows that it changes and what it asks the bank
have to fit together for all of them: the task asks for another run exactly while the periodic task
would enqueue the payment, a failed check commits nothing, and a check writes nothing but the status
and the time of the payment and, on completion, the status of its order.
-/

namespace PaySystem

open Prog Machine

variable {i : ℕ} {env : ℕ → Env} {w w' : World} {σ σ' : Session} {py : Pydantic}
  {paymentId id : ℕ} {p : Payment} {db db' : Db} {order : Order} {β : Type}

/-! ## What a check may change -/

/-- `p` was open, and is completed now. -/
def Payment.CompletedIn (p : Payment) (db' : Db) : Prop :=
  p.isOpen = true ∧ ∃ p', db'.payments.find? p.id = some p' ∧
    p'.paymentStatus = PaymentStatus.Completed.value

/-- What a check of the payment `paymentId` may change: of this payment the status and, when it is
completed, the time, and then the status of its order. -/
structure Db.Checked (db db' : Db) (paymentId : ℕ) : Prop where
  otherPayments : ∀ id, id ≠ paymentId → db'.payments.find? id = db.payments.find? id
  payment : ∃ status paidAt, db'.payments.find? paymentId =
    (db.payments.find? paymentId).map fun p =>
      { p with paymentStatus := status, paidAt := paidAt }
  paidAt : ∀ p p', db.payments.find? paymentId = some p → db'.payments.find? paymentId = some p' →
    p'.paidAt ≠ p.paidAt → p.CompletedIn db'
  order : ∀ id, ∃ status, db'.orders.find? id =
    (db.orders.find? id).map fun o => { o with paymentStatus := status }
  orderStatus : ∀ id, db'.orders.find? id ≠ db.orders.find? id →
    ∃ p, db.payments.find? paymentId = some p ∧ p.orderId = id ∧ p.CompletedIn db'

theorem Db.Checked.refl (db : Db) (paymentId : ℕ) : db.Checked db paymentId where
  otherPayments _ _ := rfl
  payment := by
    cases h : db.payments.find? paymentId with
    | none => exact ⟨"", none, rfl⟩
    | some p => exact ⟨p.paymentStatus, p.paidAt, rfl⟩
  paidAt p p' hp hp' hne := by
    rw [hp, Option.some.injEq] at hp'
    exact absurd (by rw [hp']) hne
  order id := by
    cases h : db.orders.find? id with
    | none => exact ⟨"", rfl⟩
    | some o => exact ⟨o.paymentStatus, rfl⟩
  orderStatus id hne := absurd rfl hne

theorem find?_advance (hp : OpenPayment db paymentId p) {status : String}
    (hst : status ∈ PaymentStatus.members.map PaymentStatus.value)
    (hne : status ≠ PaymentStatus.Completed.value) (k : ℕ) :
    ((Change.advance p status).run db).payments.find? k =
      if k = paymentId then some { p with paymentStatus := status }
      else db.payments.find? k := by
  have hid : p.id = paymentId := Table.key_of_find? hp.find
  rw [← hid]
  have hallowed : (Change.advance p status).Allowed ∅ db := allowed_advance hp hst hne
  exact hallowed.find?_payments_run k

theorem find?_complete (hp : OpenPayment db paymentId p) (order : Order) (paidAt : DateTime)
    (st : String) (k : ℕ) : ((Change.complete order p paidAt st).run db).payments.find? k =
      if k = paymentId then
        some { p with paymentStatus := PaymentStatus.Completed.value, paidAt := some paidAt }
      else db.payments.find? k := by
  have hid : p.id = paymentId := Table.key_of_find? hp.find
  rw [← hid]
  exact Change.find?_payments_complete hp.row order paidAt st k

/-- A check that stores a status other than completed leaves the time and the order alone. -/
theorem checked_advance (hp : OpenPayment db paymentId p) {status : String}
    (hst : status ∈ PaymentStatus.members.map PaymentStatus.value)
    (hne : status ≠ PaymentStatus.Completed.value) :
    db.Checked ((Change.advance p status).run db) paymentId := by
  have hrun := find?_advance hp hst hne
  have horders : ((Change.advance p status).run db).orders = db.orders :=
    Change.orders_run_of_not_assigned rfl
  refine ⟨fun id hne => ?_, ⟨status, p.paidAt, ?_⟩, fun p₀ p' hp₀ hp' hat => ?_, fun id => ?_,
    fun id hid => absurd (by rw [horders]) hid⟩
  · rw [hrun, if_neg hne]
  · rw [hrun, if_pos rfl, hp.find]
    rfl
  · rw [hp.find, Option.some.injEq] at hp₀
    rw [hrun, if_pos rfl, Option.some.injEq] at hp'
    exact absurd (by rw [← hp', ← hp₀]) hat
  · rw [horders]
    exact (Db.Checked.refl db paymentId).order id

/-- A completing check writes no order but the one it has loaded, and of this only the status. -/
theorem find?_orders_complete (order : Order) (p : Payment) (paidAt : DateTime) (st : String)
    (id : ℕ) : ∃ status, ((Change.complete order p paidAt st).run db).orders.find? id =
      (db.orders.find? id).map fun o => { o with paymentStatus := status } := by
  cases ho : db.orders.find? id with
  | some o => exact Change.orders_run_of_find? _ ho
  | none =>
    refine ⟨"", ?_⟩
    rw [Change.orders_run]
    simp only [Change.assigned, Change.orderWrites, Option.map_none]
    split_ifs
    · exact ho
    · by_cases hid : order.id = id
      · change (db.apply (.updateOrder order.id st)).orders.find? id = none
        simp only [Db.apply, hid, ho]
      · exact (find?_updateOrder_of_ne hid st).trans ho

theorem find?_orders_complete_of_ne {order : Order} (hid : order.id ≠ id) (p : Payment)
    (paidAt : DateTime) (st : String) :
    ((Change.complete order p paidAt st).run db).orders.find? id = db.orders.find? id := by
  rw [Change.orders_run]
  simp only [Change.assigned, Change.orderWrites]
  split_ifs
  · rfl
  · exact find?_updateOrder_of_ne hid st

/-- A completing check, whatever it has loaded as the order of the payment. -/
theorem checked_complete (hp : OpenPayment db paymentId p) (hid : order.id = p.orderId)
    (paidAt : DateTime) (st : String) :
    db.Checked ((Change.complete order p paidAt st).run db) paymentId := by
  have hrun := find?_complete hp order paidAt st
  have hcompleted : p.CompletedIn ((Change.complete order p paidAt st).run db) := by
    refine ⟨hp.isOpen, { p with
      paymentStatus := PaymentStatus.Completed.value, paidAt := some paidAt }, ?_, rfl⟩
    have hpid : p.id = paymentId := Table.key_of_find? hp.find
    rw [hrun, if_pos hpid]
  refine ⟨fun id hne => ?_, ⟨PaymentStatus.Completed.value, some paidAt, ?_⟩,
    fun p₀ p' hp₀ _ _ => ?_, find?_orders_complete order p paidAt st, fun id hne => ?_⟩
  · rw [hrun, if_neg hne]
  · rw [hrun, if_pos rfl, hp.find]
    rfl
  · rw [hp.find, Option.some.injEq] at hp₀
    exact hp₀ ▸ hcompleted
  · refine ⟨p, hp.find, ?_, hcompleted⟩
    by_contra hother
    exact hne (find?_orders_complete_of_ne (fun h => hother (hid.symm.trans h)) p paidAt st)

/-! ## The flag and the periodic task -/

/-- The payments that `enqueue_payment_status_checks_task` selects. -/
theorem mem_selected_iff : paymentId ∈ (db.payments.rows.filter Payment.needsCheck).map Payment.id ↔
    ∃ p, OpenPayment db paymentId p := by
  simp only [List.mem_map, List.mem_filter]
  constructor
  · rintro ⟨p, ⟨hp, hopen⟩, rfl⟩
    exact ⟨p, Table.find?_key hp, hopen⟩
  · rintro ⟨p, hp⟩
    exact ⟨p, ⟨Table.mem_of_find? hp.find, hp.isOpen⟩, Table.key_of_find? hp.find⟩

/-- No payment with this id is open. -/
def Db.Final (db : Db) (paymentId : ℕ) : Prop := ∀ p, ¬ OpenPayment db paymentId p

theorem final_advance_iff (hp : OpenPayment db paymentId p) {status : String}
    (hst : status ∈ PaymentStatus.members.map PaymentStatus.value)
    (hne : status ≠ PaymentStatus.Completed.value) :
    ((Change.advance p status).run db).Final paymentId ↔
      status = PaymentStatus.Rejected.value := by
  have hself := find?_advance hp hst hne paymentId
  rw [if_pos rfl] at hself
  constructor
  · intro hfinal
    by_contra hrej
    refine hfinal _ ⟨hself, Payment.isOpen_iff.2 ⟨hne, hrej, ?_⟩⟩
    exact (Payment.isOpen_iff.1 hp.isOpen).2.2
  · intro hrej p' hp'
    have hfind := hp'.find
    rw [hself, Option.some.injEq] at hfind
    subst hfind
    exact (Payment.isOpen_iff.1 hp'.isOpen).2.1 hrej

theorem final_complete (hp : OpenPayment db paymentId p) (order : Order) (paidAt : DateTime)
    (st : String) : ((Change.complete order p paidAt st).run db).Final paymentId := by
  intro p' hp'
  have hfind := hp'.find
  rw [find?_complete hp, if_pos rfl, Option.some.injEq] at hfind
  subst hfind
  exact (Payment.isOpen_iff.1 hp'.isOpen).1 rfl

/-! ## What the bank is asked -/

/-- A statement that does not ask the bank about a payment. -/
def Stmt.NoCheck : ∀ β : Type, Stmt β → Prop
  | _, .checkPayment _ => False
  | _, _ => True

theorem sql_answers {rqs : List (Row × LockMode)} {act : World → Except Err β × World} {e : Env}
    {r : Except Err β} (hact : ∀ w, (act w).2.answers = w.answers)
    (h : sql i e w σ rqs act = some (r, w', σ')) : w'.answers = w.answers := by
  unfold sql at h
  split at h
  · cases h
    rfl
  · split_ifs at h
    cases h
    exact hact _

/-- Only `check_payment` adds to the answers of the bank. -/
theorem execStmt_answers {s : Stmt β} {e : Env} {r : Except Err β} (hs : Stmt.NoCheck β s)
    (h : execStmt i e w σ s = some (r, w', σ')) : w'.answers = w.answers := by
  cases s with
  | checkPayment b => exact absurd hs id
  | insertPayment p =>
    refine sql_answers (fun w => ?_) h
    unfold World.insertPayment
    split_ifs <;> rfl
  | identityMapGet id =>
    cases h
    rfl
  | awaitOnly =>
    cases h
    rfl
  | now =>
    cases h
    rfl
  | startPayment orderId amount =>
    simp only [execStmt] at h
    split at h <;> cases h <;> rfl
  | applyAsync id =>
    simp only [execStmt] at h
    split at h <;> cases h <;> rfl
  | _ =>
    simp only [execStmt] at h
    exact sql_answers (fun _ => rfl) h

theorem sends_flushPayment (loaded payment : Payment) :
    (flushPayment loaded payment).Sends Stmt.NoCheck := by
  unfold flushPayment
  split_ifs
  · trivial
  · exact sends_send trivial

theorem sends_completePayment (loaded payment : Payment) :
    (completePayment loaded payment).Sends Stmt.NoCheck := by
  refine Sends.bind (Sends.bind (sends_send trivial) ?_) ?_
  · rintro (_ | order)
    · exact Sends.bind (sends_send trivial) fun _ =>
        Sends.bind (sends_flushPayment _ _) fun _ => sends_send trivial
    · exact Sends.bind (sends_flushPayment _ _) fun _ => trivial
  · rintro (_ | order)
    · trivial
    · refine Sends.bind (Sends.bind (sends_send trivial) fun _ => trivial) fun status => ?_
      refine Sends.bind ?_ fun _ => sends_send trivial
      unfold flushOrder
      split_ifs
      · trivial
      · exact sends_send trivial

/-- Once the bank has answered, it is not asked again. -/
theorem sends_updateFromInfo (p : Payment) (info : AcquiringPaymentInfo) :
    (updateFromInfo p info).Sends Stmt.NoCheck := by
  unfold updateFromInfo
  simp only
  split_ifs
  · exact Sends.bind (sends_completePayment _ _) fun _ => trivial
  · exact Sends.bind (sends_flushPayment _ _) fun _ =>
      Sends.bind (sends_send trivial) fun _ => trivial
  · trivial

/-- The row that the locking `SELECT` of a check returns is an open payment. -/
theorem openPayment_of_select (hw : w.AtRest) {e : Env}
    (h : execStmt i e w σ (.selectPaymentForUpdate paymentId) = some (.ok (some p), w', σ')) :
    OpenPayment w.db paymentId p := by
  have hview : ∀ rqs, (w.acquire i rqs).view i = w.db := fun rqs =>
    ((hw.alone i).acquire rqs).view
  simp only [execStmt, sql] at h
  split at h
  · cases h
  · split_ifs at h
    simp only [hview, Option.some.injEq, Prod.mk.injEq, Except.ok.injEq] at h
    obtain ⟨hfind, hopen⟩ := Option.filter_eq_some_iff.1 h.1
    exact ⟨hfind, hopen⟩

/-- The bank has been asked nothing more, or once about the payment `paymentId`, which was open, and
by the id that it has there. -/
def World.AskedOnce (w w' : World) (paymentId : ℕ) : Prop :=
  w'.answers = w.answers ∨ ∃ p b reply, OpenPayment w.db paymentId p ∧ p.bankPaymentId = some b ∧
    w'.answers = w.answers ++ [(b, reply)]

theorem askedOnce_of_eval (hw : w.AtRest) {x : Ending Err Bool World Session Env}
    (h : (checkAndUpdate py paymentId).eval machine i env w σ = some x) :
    w.AskedOnce x.world paymentId := by
  obtain ⟨r, w₁, σ₁, hexec, hk⟩ := exec_of_eval_call machine h
  have hselect : w₁.answers = w.answers :=
    execStmt_answers (s := .selectPaymentForUpdate paymentId) trivial hexec
  rcases r with e | _ | p
  · obtain rfl := Option.some.inj hk
    exact Or.inl hselect
  · obtain rfl := Option.some.inj hk
    exact Or.inl hselect
  · have hp : OpenPayment w.db paymentId p := openPayment_of_select hw hexec
    obtain ⟨b, hb⟩ := Option.isSome_iff_exists.1 (Payment.isOpen_iff.1 hp.isOpen).2.2
    obtain ⟨r', w₂, σ₂, hcheck, hk⟩ := exec_of_eval_call machine hk
    cases hcheck
    refine Or.inr ⟨p, b, (env 1).check, hp, hb, ?_⟩
    rw [← hselect, show b = p.bankPaymentId.getD "" by rw [hb]; rfl]
    refine Sends.eval_eq machine (f := World.answers) execStmt_answers ?_ hk
    refine Sends.bind trivial fun answer => ?_
    split
    · trivial
    · trivial
    · trivial
    · refine Sends.bind ?_ fun info => sends_updateFromInfo p info
      unfold checkPaymentInfo
      split <;> trivial

/-! ## All exits -/

/-- What a check returns and what it leaves in the database, as it ends from `db` in `db'`. -/
structure CheckEnd (db db' : Db) (paymentId : ℕ) (r : Except Err Bool) : Prop where
  raised : ∀ e, r = .error e → db' = db
  final_iff : ∀ isFinal, r = .ok isFinal → (isFinal = true ↔ db'.Final paymentId)
  checked : db.Checked db' paymentId

theorem CheckEnd.of_raised (e : Err) (hdb : db' = db) : CheckEnd db db' paymentId (.error e) where
  raised _ _ := hdb
  final_iff _ h := nomatch h
  checked := hdb ▸ Db.Checked.refl db paymentId

/-- A check that has found the payment open and commits nothing has to return `False`. -/
theorem CheckEnd.of_open (hp : OpenPayment db paymentId p) (hdb : db' = db) :
    CheckEnd db db' paymentId (.ok false) where
  raised _ h := nomatch h
  final_iff isFinal h := by
    cases h
    subst hdb
    exact iff_of_false Bool.false_ne_true fun hfinal => hfinal p hp
  checked := hdb ▸ Db.Checked.refl db paymentId

theorem CheckOutcome.checkEnd {r : Except Err Bool}
    (h : CheckOutcome env i w py paymentId σ r w') : CheckEnd w.db w'.db paymentId r := by
  cases h with
  | failed _ _ _ left => exact .of_raised _ left.db
  | notOpen h left =>
    rw [left.db]
    refine ⟨nofun, fun isFinal hr => ?_, Db.Checked.refl _ _⟩
    cases hr
    exact iff_of_true rfl h
  | retry p hp _ left => exact .of_open hp left.db
  | clientFailed _ _ _ _ _ left => exact .of_raised _ left.db
  | invalid _ _ _ _ _ left => exact .of_raised _ left.db
  | unknownStatus p hp _ _ _ left => exact .of_open hp left.db
  | missingGreenlet _ _ _ _ _ _ _ left => exact .of_raised _ left.db
  | noOrder _ _ _ _ _ _ _ left => exact .of_raised _ left.db
  | advanced p hp info _ hst hne left =>
    rw [left.db]
    refine ⟨nofun, fun isFinal hr => ?_, checked_advance hp hst hne⟩
    rw [final_advance_iff hp hst hne, ← Except.ok.inj hr, decide_eq_true_iff]
  | completed p hp info _ _ order ho left =>
    have hid : order.id = p.orderId := by
      cases ho with
      | loaded h => simpa using List.find?_some h
      | lazy _ _ find => exact Table.key_of_find? find
    rw [left.db]
    refine ⟨nofun, fun isFinal hr => ?_, checked_complete hp hid _ _⟩
    cases hr
    exact iff_of_true rfl (final_complete hp order _ _)

/-- **The exits of a check fit together**, in every session and for every answer of the bank: a
check that raises has committed nothing; one that returns says whether the payment is still open, so
that its task asks for another run exactly while the periodic task would enqueue the payment; it
writes nothing but what a check may write; and it asks the bank at most once. -/
theorem check_exits (py : Pydantic) (hw : w.AtRest) (i : ℕ) (env : ℕ → Env) (σ : Session)
    (paymentId : ℕ) :
    ∃ r w', runAlone (checkAndUpdate py paymentId) i env w σ = some (r, w') ∧
      (∀ e, r = .error e → w'.db = w.db) ∧
      (∀ isFinal, r = .ok isFinal → (isFinal = true ↔ ∀ p, ¬ OpenPayment w'.db paymentId p) ∧
        ((∃ n, checkPaymentStatusTask r = .retry n) ↔
          paymentId ∈ (w'.db.payments.rows.filter Payment.needsCheck).map Payment.id)) ∧
      w.db.Checked w'.db paymentId ∧ w.AskedOnce w' paymentId := by
  obtain ⟨r, w', hrun, hout⟩ := runAlone_checkAndUpdate hw i env σ py paymentId
  have hend : CheckEnd w.db (w'.close i).db paymentId r := hout.checkEnd
  refine ⟨r, _, hrun, hend.raised, fun isFinal hr => ⟨hend.final_iff isFinal hr, ?_⟩,
    hend.checked, ?_⟩
  · rw [mem_selected_iff, hr]
    have hfinal := hend.final_iff isFinal hr
    cases isFinal with
    | true => simpa [checkPaymentStatusTask, Db.Final] using hfinal.1 rfl
    | false =>
      have hopen : ∃ p, OpenPayment (w'.close i).db paymentId p := by
        by_contra hnone
        exact absurd (hfinal.2 fun p hp => hnone ⟨p, hp⟩) Bool.false_ne_true
      exact iff_of_true ⟨30, rfl⟩ hopen
  · obtain ⟨x, hx, hrun⟩ := Option.map_eq_some_iff.1 hrun
    obtain ⟨-, hworld⟩ := Prod.mk.inj hrun
    rw [← hworld]
    exact askedOnce_of_eval hw hx

/-- The sample payment is rejected. -/
theorem check_exits_sample : ∃ r w', runAlone (checkAndUpdate .numbers 1) 0
      (fun _ => sampleEnv "a" "rejected") sampleDeposited .fresh = some (r, w') ∧
    (∀ e, r = .error e → w'.db = sampleDeposited.db) ∧
    (∀ isFinal, r = .ok isFinal → (isFinal = true ↔ ∀ p, ¬ OpenPayment w'.db 1 p) ∧
      ((∃ n, checkPaymentStatusTask r = .retry n) ↔
        1 ∈ (w'.db.payments.rows.filter Payment.needsCheck).map Payment.id)) ∧
    sampleDeposited.db.Checked w'.db 1 ∧ sampleDeposited.AskedOnce w' 1 :=
  check_exits .numbers sampleDeposited_atRest 0 _ .fresh 1

end PaySystem
