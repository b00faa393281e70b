import PaySystem.Linearization.Courses

/-!
# The books as a server

A server that keeps the books of all orders could handle each call of the services at one instant.
Every statement of a call either leaves the books alone, or is this instant: the commit of a deposit
or of a return, although it has summed the payments long before and checks have committed since; the
sum that refuses it; the commit of a check, or the answer that leaves nothing to be done.
-/

namespace PaySystem

variable {types : Set String} {py : Pydantic} {β : Type} {i : ℕ} {w w' : World} {σ σ' : Session}
  {env : Env} {s : Stmt β} {r : Except Err β} {t : Trail types} {m : Course types} {order : Order}
  {p : Payment} {c : Change} {g g' : Marks (Course types)}

/-! ## The server -/

/-- **What it means to serve a call at one instant**, on the books. -/
inductive Call.Served : Call types → Books → Except Err Outcome → Books → Prop
  /-- A deposit of the owner that fits into what remains is put on its way. -/
  | deposit {userId : ℕ} {payload : PaymentCreate} {paymentType : types} {b : Books} {a : Account}
    {p : Payment} (account : b.accounts payload.orderId = some a) (owner : a.owner = userId)
    (fits : payload.amount ≤ a.ledger.remaining)
    (makes : (Call.deposit userId payload paymentType).Makes p) (fresh : b.transfers p.id = none) :
    Served (.deposit userId payload paymentType) b (.ok (.payment p))
      (b.deposit p.id ⟨payload.orderId, payload.amount⟩)
  /-- A deposit that does not fit is told what remains. -/
  | overpayment {userId : ℕ} {payload : PaymentCreate} {paymentType : types} {b : Books}
    {a : Account} (account : b.accounts payload.orderId = some a) (owner : a.owner = userId)
    (exceeds : a.ledger.remaining < payload.amount) :
    Served (.deposit userId payload paymentType) b (.error (.overpayment a.ledger.remaining)) b
  /-- A return of the owner that is covered by what is completed is paid back. -/
  | cashReturn {userId : ℕ} {payload : PaymentCreate} {b : Books} {a : Account} {p : Payment}
    (account : b.accounts payload.orderId = some a) (owner : a.owner = userId)
    (covered : payload.amount ≤ a.ledger.completed)
    (makes : (Call.cashReturn userId payload : Call types).Makes p) :
    Served (.cashReturn userId payload) b (.ok (.payment p))
      (b.payBack payload.orderId payload.amount)
  /-- A return that is not covered is told what is completed. -/
  | exceeds {userId : ℕ} {payload : PaymentCreate} {b : Books} {a : Account}
    (account : b.accounts payload.orderId = some a) (owner : a.owner = userId)
    (exceeds : a.ledger.completed < payload.amount) :
    Served (.cashReturn userId payload) b
      (.error (.returnAmountExceedsBalance a.ledger.completed)) b
  | orderNotFound {c : Call types} {userId : ℕ} {payload : PaymentCreate} {b : Books}
    (request : c.request = some (userId, payload)) (missing : b.accounts payload.orderId = none) :
    Served c b (.error .orderNotFound) b
  | forbidden {c : Call types} {userId : ℕ} {payload : PaymentCreate} {b : Books} {a : Account}
    (request : c.request = some (userId, payload))
    (account : b.accounts payload.orderId = some a) (owner : a.owner ≠ userId) :
    Served c b (.error .forbiddenOrderAccess) b
  /-- There is nothing to check any more. -/
  | final {id : ℕ} {b : Books} (closed : b.transfers id = none) :
    Served (.check id) b (.ok (.final true)) b
  | complete {id : ℕ} {b : Books} {x : Transfer} (carried : b.transfers id = some x) :
    Served (.check id) b (.ok (.final true)) (b.complete id x)
  | reject {id : ℕ} {b : Books} {x : Transfer} (carried : b.transfers id = some x) :
    Served (.check id) b (.ok (.final true)) (b.reject id x)
  /-- The deposit stays on its way, and has to be checked again. -/
  | again {id : ℕ} {b : Books} {x : Transfer} (carried : b.transfers id = some x) :
    Served (.check id) b (.ok (.final false)) b
  | sweep {b : Books} : Served .enqueue b (.ok .done) b
  /-- Whatever fails leaves the books as they are. -/
  | failed {c : Call types} {b : Books} {e : Err} (failure : e.isFailure = true) :
    Served c b (.error e) b

/-- The server that handles each call at one instant. -/
def bookkeeper (types : Set String) :
    Server (Call types) Err Outcome (Except Err Outcome) Books where
  serves := Call.Served
  shows := Course.Shows

/-- The protocol of trails and decisions. -/
abbrev services (types : Set String) (py : Pydantic) :
    Usage Stmt Err Outcome (Course types) (Call types) :=
  (trails types true).refine Course.trail (courses types py)

theorem reads_courses : (trails types true).Reads Course.trail (courses types py) where
  init _ := rfl
  next _ _ _ := rfl

/-- What a server knows of a call. -/
def Course.ticket (m : Course types) : Ticket (Call types) (Except Err Outcome) :=
  ⟨m.trail.call, m.decided⟩

/-! ## What is admitted stays so -/

/-- The sums that move in favour of a call keep it admitted. -/
theorem refusal_mono {call : Call types} {x y : ℚ} (h : call.refusal order x = none)
    (hnonRejected : call.filter = .nonRejected → y ≤ x)
    (hcompleted : call.filter = .completed → x ≤ y) : call.refusal order y = none := by
  cases call with
  | deposit userId payload paymentType =>
    have hle := hnonRejected rfl
    simp only [Call.refusal, ite_eq_right_iff, reduceCtorEq, imp_false, not_lt, gt_iff_lt] at h ⊢
    linarith
  | cashReturn userId payload =>
    have hle := hcompleted rfl
    simp only [Call.refusal, ite_eq_right_iff, reduceCtorEq, imp_false, not_lt, gt_iff_lt] at h ⊢
    linarith
  | _ => rfl

/-- A call that has summed the payments of its order, and is not decided, would be admitted now. -/
def Course.Admitted (m : Course types) (w : World) : Prop :=
  m.decided = none → m.summed = true → ∃ order, m.trail.order = some order ∧
    m.trail.call.Targets order ∧
    m.trail.call.refusal order (w.db.balance m.trail.call.filter order.id) = none

theorem Course.Admitted.progress (h : m.Admitted w)
    (hlocked : m.trail.Locked (fun _ => True) i w)
    (hp : Progress (fun _ => True) i [] [] [] w w') : m.Admitted w' := by
  intro hm hsummed
  obtain ⟨order, ho, htarget, hrefusal⟩ := h hm hsummed
  have hlock := (hlocked.order order ho).lock
  refine ⟨order, ho, htarget, refusal_mono hrefusal (fun hf => ?_) fun hf => ?_⟩ <;> rw [hf]
  · exact hp.nonRejected order.id trivial hlock
  · exact hp.completed order.id trivial hlock

/-! ## Commits -/

/-- What a call returns that has made the change. -/
def Change.outcome : Change → Outcome
  | deposit _ p => .payment p
  | cashReturn _ p _ => .payment p
  | advance _ status => .final (decide (status = PaymentStatus.Rejected.value))
  | complete _ _ _ _ => .final true

theorem Change.row_mem_inserts (h : c.old = none) : c.row ∈ inserts c.writes := by
  cases c with
  | deposit order p => exact List.mem_singleton_self p
  | cashReturn order p st => exact List.mem_cons_self
  | advance p st => cases h
  | complete order p paidAt st => cases h

/-- A call returns the outcome of the change that it commits. -/
theorem Trail.Commits.returns (h : t.Commits c) (hws : t.writes = c.writes)
    (hlocked : t.Locked (fun _ => True) i w) : t.returns = some c.outcome := by
  -- Only the endpoints insert payments.
  have hnew : ∀ p ws, t.call.Makes p → t.writes = .insertPayment p :: ws →
      t.returns = some (.payment p) := by
    intro p ws hmakes hws
    rw [Trail.returns, hws]
    cases hcall : t.call with
    | deposit | cashReturn => rfl
    | check | enqueue =>
      rw [hcall] at hmakes
      exact hmakes.elim
  cases c with
  | deposit order p => exact hnew p [] h.2.2.2 hws
  | cashReturn order p st => exact hnew p _ h.2.2.2 hws
  | advance p st =>
    obtain ⟨hp, -, hst⟩ := h
    obtain ⟨-, hopen, hcall⟩ := hlocked.payment p hp
    rw [Trail.returns_check hcall, hws, Change.writes, settles_paymentWrites hopen hst]
    rfl
  | complete order p paidAt st =>
    obtain ⟨-, hopen, hcall⟩ := hlocked.payment p h
    have hne : { p with paymentStatus := PaymentStatus.Completed.value, paidAt := some paidAt } ≠
        p := fun heq => (Payment.isOpen_iff.1 hopen).1 (congrArg Payment.paymentStatus heq).symm
    rw [Trail.returns_check hcall, hws, Change.writes, Change.paymentWrites, if_neg hne]
    simp [Trail.settles, Change.outcome]

/-- What the books say of the order of a call. -/
theorem Call.Targets.account {call : Call types} {userId : ℕ} {payload : PaymentCreate}
    (h : call.Targets order) (hreq : call.request = some (userId, payload))
    (hrow : w.db.orders.find? order.id = some order) :
    w.db.books.accounts payload.orderId = some (w.db.account order) ∧ order.userId = userId := by
  obtain ⟨userId', payload', hreq', huser, hid⟩ := h
  rw [hreq, Option.some.injEq, Prod.mk.injEq] at hreq'
  obtain ⟨rfl, rfl⟩ := hreq'
  exact ⟨hid ▸ accounts_of_find? hrow, huser⟩

/-- What remains of an order, by the sum of the admission check. -/
theorem remaining_account {db : Db} (hl : ∀ o, db.LawfulOrder types o) (order : Order) :
    (db.account order).ledger.remaining =
      order.totalSum.toRat - db.balance .nonRejected order.id := by
  rw [(hl order.id).balance_nonRejected, sub_add_eq_sub_sub]
  rfl

theorem deposit_ne_return : OperationType.Deposit.value ≠ OperationType.Return.value := by decide

/-- **The commit of a change serves its call.** -/
theorem served_of_commit (hl : ∀ o, w.db.LawfulOrder types o)
    (hlocked : m.trail.Locked (fun _ => True) i w) (hadmitted : m.Admitted w)
    (hm : m.decided = none) (hc : m.trail.Commits c) (hsummed : c.old = none → m.summed = true)
    (hfree : c.old = none → w.db.payments.find? c.row.id = none) :
    m.trail.call.Served w.db.books (.ok c.outcome) (c.run w.db).books := by
  cases c with
  | deposit order p =>
    obtain ⟨ho, hid, hp, hmakes⟩ := hc
    have hrow := (hlocked.order order ho).row
    have hallowed : (Change.deposit order p).Allowed types w.db :=
      ⟨hid, ⟨order.paymentStatus, hrow⟩, hfree rfl, hp⟩
    obtain ⟨order', ho', htarget, hrefusal⟩ := hadmitted hm (hsummed rfl)
    obtain rfl := Option.some.inj (ho'.symm.trans ho)
    rw [hallowed.books_run hl]
    change Call.Served _ _ (.ok (.payment p)) (w.db.books.deposit p.id p.transfer)
    cases hcall : m.trail.call with
    | deposit userId payload paymentType =>
      rw [hcall] at hmakes htarget hrefusal
      obtain ⟨haccount, huser⟩ := htarget.account rfl hrow
      have htransfer : p.transfer = ⟨payload.orderId, payload.amount⟩ := by
        rw [Payment.transfer, hmakes.2.1, hmakes.2.2.1]
      rw [htransfer]
      refine .deposit haccount huser ?_ hmakes ?_
      · simp only [Call.refusal, Call.filter, ite_eq_right_iff, reduceCtorEq, imp_false, not_lt,
          gt_iff_lt] at hrefusal
        rw [remaining_account hl]
        linarith
      · exact transfers_eq_none_iff.2 (congrArg (Option.filter Payment.isOpen) (hfree rfl))
    | cashReturn userId payload =>
      rw [hcall] at hmakes
      exact absurd (hp.operation.symm.trans hmakes.2.2.2.1) deposit_ne_return
    | check | enqueue =>
      rw [hcall] at hmakes
      exact hmakes.elim
  | cashReturn order p st =>
    obtain ⟨ho, hid, hp, hmakes⟩ := hc
    have hrow := (hlocked.order order ho).row
    have hallowed : (Change.cashReturn order p st).Allowed types w.db :=
      ⟨hid, ⟨order.paymentStatus, hrow⟩, hfree rfl, hp⟩
    obtain ⟨order', ho', htarget, hrefusal⟩ := hadmitted hm (hsummed rfl)
    obtain rfl := Option.some.inj (ho'.symm.trans ho)
    rw [hallowed.books_run hl]
    change Call.Served _ _ (.ok (.payment p)) (w.db.books.payBack p.orderId p.amount.toRat)
    cases hcall : m.trail.call with
    | cashReturn userId payload =>
      rw [hcall] at hmakes htarget hrefusal
      obtain ⟨haccount, huser⟩ := htarget.account rfl hrow
      rw [hmakes.2.1, hmakes.2.2.1]
      refine .cashReturn haccount huser ?_ hmakes
      simp only [Call.refusal, Call.filter, ite_eq_right_iff, reduceCtorEq, imp_false, not_lt,
        gt_iff_lt] at hrefusal
      exact hrefusal
    | deposit userId payload paymentType =>
      rw [hcall] at hmakes
      exact absurd (hmakes.2.2.2.1.symm.trans hp.operation) deposit_ne_return
    | check | enqueue =>
      rw [hcall] at hmakes
      exact hmakes.elim
  | advance p st =>
    obtain ⟨hp, hmem, hst⟩ := hc
    obtain ⟨hholds, hopen, hcall⟩ := hlocked.payment p hp
    have hallowed : (Change.advance p st).Allowed types w.db := ⟨hholds.row, hopen, hmem, hst⟩
    have hcarried := transfers_of_open hholds.row hopen
    rw [hallowed.books_run hl, hcall]
    by_cases hrejected : st = PaymentStatus.Rejected.value
    · rw [Change.outcome, decide_eq_true hrejected, Change.entry, if_pos hrejected]
      exact .reject hcarried
    · rw [Change.outcome, decide_eq_false hrejected, Change.entry, if_neg hrejected]
      exact .again hcarried
  | complete order p paidAt st =>
    obtain ⟨hholds, hopen, hcall⟩ := hlocked.payment p hc
    rw [Change.books_complete hl hholds.row hopen, hcall]
    exact .complete (transfers_of_open hholds.row hopen)

/-! ## The other decisions -/

theorem raises_of_exec {e : Err} (h : execStmt i env w σ s = some (.error e, w', σ')) :
    s.Raises e := by
  cases s with
  | identityMapGet | now => cases h
  | awaitOnly =>
    simp only [execStmt] at h
    split_ifs at h <;> cases h
    rfl
  | checkPayment b =>
    simp only [execStmt] at h
    cases hcheck : env.check with
    | error e =>
      rw [hcheck] at h
      cases h
      rfl
    | ok d =>
      rw [hcheck] at h
      cases h
  | startPayment orderId amount =>
    simp only [execStmt] at h
    split at h <;> cases h <;> rfl
  | applyAsync id =>
    simp only [execStmt] at h
    split at h <;> cases h
    exact ⟨_, rfl⟩
  | insertPayment p =>
    simp only [execStmt] at h
    rcases (sql_cases h).2 with ⟨msg, -, he, -⟩ | ⟨-, ha⟩
    · cases he
      rfl
    · unfold World.insertPayment at ha
      split_ifs at ha <;> cases ha
      rfl
  | _ =>
    simp only [execStmt] at h
    rcases (sql_cases h).2 with ⟨msg, -, he, -⟩ | ⟨-, ha⟩
    · cases he
      rfl
    · cases ha

theorem db_of_error {e : Err} (h : execStmt i env w σ s = some (.error e, w', σ')) :
    w'.db = w.db := by
  rw [(effect_of_exec h).db]
  cases s <;> rfl

/-- An exception serves its call, without any effect. -/
theorem served_of_error {e : Err} {x : Except Err Outcome}
    (hlocked : m.trail.Locked (fun _ => True) i w) (hallow : m.trail.Allows true s)
    (h : execStmt i env w σ s = some (.error e, w', σ'))
    (hx : m.trail.decides py s (.error e) = some x) :
    m.trail.call.Served w.db.books x w.db.books := by
  have hraises := raises_of_exec h
  have hagain : ∀ b, m.trail.Allows true (.checkPayment b) →
      m.trail.call.Served w.db.books (.ok (.final false)) w.db.books := by
    rintro b ⟨-, -, p, hp, -⟩
    obtain ⟨hholds, hopen, hcall⟩ := hlocked.payment p hp
    rw [hcall]
    exact .again (transfers_of_open hholds.row hopen)
  cases s with
  | checkPayment b =>
    rcases e with _ | _ | _ | _ | e | _ | _ | _ | _ | _ <;>
      try exact Option.some.inj hx ▸ .failed hraises
    rcases e with _ | _ | _ | _ <;> cases hx <;> first
      | exact hagain b hallow
      | exact .failed rfl
  | applyAsync id =>
    obtain ⟨msg, rfl⟩ := hraises
    cases hx
    exact .failed rfl
  | _ =>
    cases hx
    exact .failed hraises

/-- A SQL statement that succeeds has acted. -/
theorem act_of_ok {b : β} {rqs : List (Row × LockMode)} {act : World → Except Err β × World}
    (h : sql i env w σ rqs act = some (.ok b, w', σ')) : act (w.acquire i rqs) = (.ok b, w') := by
  rcases (sql_cases h).2 with ⟨msg, -, hr, -⟩ | ⟨-, ha⟩
  · cases hr
  · exact ha

/-- A refusal of the admission check serves its call. -/
theorem served_of_refusal {call : Call types} {e : Err} (hl : ∀ o, w.db.LawfulOrder types o)
    (hrow : w.db.orders.find? order.id = some order) (htarget : call.Targets order)
    (he : call.refusal order (w.db.balance call.filter order.id) = some e) :
    call.Served w.db.books (.error e) w.db.books := by
  cases call with
  | deposit userId payload paymentType =>
    obtain ⟨haccount, huser⟩ := htarget.account rfl hrow
    simp only [Call.refusal] at he
    split_ifs at he with hlt
    cases he
    have hremaining := remaining_account hl order
    simp only [Call.filter] at hlt ⊢
    rw [← hremaining]
    exact .overpayment haccount huser (by rw [hremaining]; linarith)
  | cashReturn userId payload =>
    obtain ⟨haccount, huser⟩ := htarget.account rfl hrow
    simp only [Call.refusal] at he
    split_ifs at he with hlt
    cases he
    exact .exceeds haccount huser hlt
  | _ => cases he

/-- **An answer that decides a call serves it.** -/
theorem served_of_answer {b : β} {x : Except Err Outcome} (hl : ∀ o, w.db.LawfulOrder types o)
    (hpending : w.Pending) (hws : w.writes i = m.trail.writes)
    (hlocked : m.trail.Locked (fun _ => True) i w) (hadmitted : m.Admitted w)
    (hallow : (services types py).allows m s) (h : execStmt i env w σ s = some (.ok b, w', σ'))
    (hx : m.trail.decides py s (.ok b) = some x) :
    m.trail.call.Served w.db.books x w'.db.books := by
  obtain ⟨htrail, hcourse⟩ := hallow
  have hdb := (effect_of_exec h).db
  cases s with
  | selectOrderForUpdate orderId =>
    rw [show w'.db = w.db from hdb]
    simp only [execStmt] at h
    have ha := act_of_ok h
    rw [view_acquire_of_writes _ (hws.trans htrail.1)] at ha
    obtain ⟨-, -, userId, payload, hreq, rfl⟩ := hcourse
    obtain rfl : w.db.orders.find? payload.orderId = b := Except.ok.inj (congrArg Prod.fst ha)
    cases hfind : w.db.orders.find? payload.orderId with
    | none =>
      rw [hfind] at hx
      cases hx
      exact .orderNotFound hreq (accounts_eq_none_iff.2 hfind)
    | some order =>
      rw [hfind] at hx
      simp only [Trail.decides, hreq, Option.bind_some] at hx
      split_ifs at hx with huser
      cases hx
      exact .forbidden hreq (accounts_of_find? hfind) huser
  | selectBalance orderId f =>
    rw [show w'.db = w.db from hdb]
    simp only [execStmt] at h
    have ha := act_of_ok h
    simp only [Trail.decides, List.isEmpty_iff] at hx
    split_ifs at hx with hnil
    obtain ⟨order, ho, htarget, rfl, rfl⟩ := hcourse.2 hnil
    rw [view_acquire_of_writes _ (hws.trans hnil)] at ha
    obtain rfl : w.db.balance m.trail.call.filter order.id = b :=
      Except.ok.inj (congrArg Prod.fst ha)
    rw [ho, Option.bind_some, Option.map_eq_some_iff] at hx
    obtain ⟨e, he, rfl⟩ := hx
    exact served_of_refusal hl (hlocked.order order ho).row htarget he
  | selectPaymentForUpdate paymentId =>
    rw [show w'.db = w.db from hdb]
    simp only [execStmt] at h
    have ha := act_of_ok h
    rw [view_acquire_of_writes _ (hws.trans htrail.2)] at ha
    cases b with
    | some p => cases hx
    | none =>
      cases hx
      rw [htrail.1]
      exact .final (transfers_eq_none_iff.2 (Except.ok.inj (congrArg Prod.fst ha)))
  | selectPaymentIds =>
    rw [show w'.db = w.db from hdb, htrail.1]
    cases hx
    exact .sweep
  | selectOrder orderId =>
    rw [show w'.db = w.db from hdb]
    cases b with
    | some order => cases hx
    | none =>
      cases hx
      exact .failed rfl
  | checkPayment bankPaymentId =>
    rw [show w'.db = w.db from hdb]
    simp only [Trail.decides] at hx
    cases hinfo : AcquiringPaymentInfo.validate py b with
    | none =>
      rw [hinfo] at hx
      cases hx
      exact .failed rfl
    | some info =>
      rw [hinfo] at hx
      simp only [Trail.refusedInfo] at hx
      split_ifs at hx
      cases hx
      obtain ⟨-, -, p, hp, -⟩ := htrail
      obtain ⟨hholds, hopen, hcall⟩ := hlocked.payment p hp
      rw [hcall]
      exact .again (transfers_of_open hholds.row hopen)
  | commit =>
    obtain ⟨hm, c, hwrites, hc, hsummed⟩ := hcourse
    change m.trail.returns.map .ok = some x at hx
    rw [hc.returns hwrites hlocked, Option.map_some] at hx
    cases hx
    rw [show w'.db = c.run w.db from hdb.trans (by rw [hws, hwrites]; rfl)]
    refine served_of_commit hl hlocked hadmitted hm hc hsummed fun hold => ?_
    exact hpending.unused i c.row (by rw [hws, hwrites]; exact Change.row_mem_inserts hold)
  | _ => cases hx

/-- A commit decides. -/
theorem decides_commit_ne_none {u : Unit} (hlocked : m.trail.Locked (fun _ => True) i w)
    (hallow : m.Allows .commit) : m.trail.decides py .commit (.ok u) ≠ none := by
  obtain ⟨-, c, hwrites, hc, -⟩ := hallow
  change (m.trail.returns.map .ok : Option (Except Err Outcome)) ≠ none
  rw [hc.returns hwrites hlocked]
  exact Option.some_ne_none _

/-- A statement that decides nothing commits nothing. -/
theorem db_of_undecided (hlocked : m.trail.Locked (fun _ => True) i w) (hallow : m.Allows s)
    (h : execStmt i env w σ s = some (r, w', σ')) (hx : m.trail.decides py s r = none) :
    w'.db = w.db := by
  have hdb := (effect_of_exec h).db
  cases s with
  | commit =>
    cases r with
    | error e => exact hdb
    | ok u => exact absurd hx (decides_commit_ne_none hlocked hallow)
  | _ => exact hdb

/-- A call that is decided changes nothing any more. -/
theorem db_of_decided {x : Except Err Outcome} (hallow : m.Allows s) (hm : m.decided = some x)
    (h : execStmt i env w σ s = some (r, w', σ')) : w'.db = w.db := by
  have hdb := (effect_of_exec h).db
  cases s with
  | commit => cases hm.symm.trans hallow.1
  | _ => exact hdb

/-- The order that has been summed stays the order of the call. -/
theorem order_next_of_undecided (hlocked : m.trail.Locked (fun _ => True) i w)
    (hallow : m.Allows s) (hsummed : m.summed = true) (hx : m.trail.decides py s r = none) :
    (m.trail.next s r).order = m.trail.order := by
  cases s with
  | selectOrderForUpdate orderId => cases hallow.2.1.symm.trans hsummed
  | commit =>
    cases r with
    | error e => cases hx
    | ok u => exact absurd hx (decides_commit_ne_none hlocked hallow)
  | selectBalance orderId f => cases f <;> cases r <;> rfl
  | _ => cases r <;> rfl

/-- **The sum admits the call.** -/
theorem Course.Admitted.call (h : m.Admitted w) (hws : w.writes i = m.trail.writes)
    (hlocked : m.trail.Locked (fun _ => True) i w) (hallow : m.Allows s)
    (hexec : execStmt i env w σ s = some (r, w', σ')) : (m.next py s r).Admitted w' := by
  intro hdecided hsummed
  obtain ⟨hm, hx⟩ := Option.or_eq_none_iff.1 hdecided
  rw [db_of_undecided hlocked hallow hexec hx]
  rcases Bool.or_eq_true_iff.1 hsummed with hsummed | hsums
  · obtain ⟨order, ho, htarget, hrefusal⟩ := h hm hsummed
    refine ⟨order, (order_next_of_undecided hlocked hallow hsummed hx).trans ho, ?_⟩
    rw [Course.next, Trail.call_next]
    exact ⟨htarget, hrefusal⟩
  obtain ⟨hnil, hsums⟩ := Bool.and_eq_true_iff.1 hsums
  have hwrites : m.trail.writes = [] := List.isEmpty_iff.1 hnil
  cases s with
  | selectBalance orderId f =>
    cases r with
    | error e => cases hsums
    | ok x =>
      obtain ⟨order, ho, htarget, rfl, rfl⟩ := hallow.2 hwrites
      simp only [execStmt] at hexec
      have ha := act_of_ok hexec
      rw [view_acquire_of_writes _ (hws.trans hwrites)] at ha
      obtain rfl : w.db.balance m.trail.call.filter order.id = x :=
        Except.ok.inj (congrArg Prod.fst ha)
      refine ⟨order, ?_, ?_⟩
      · refine Eq.trans ?_ ho
        change (m.trail.next _ _).order = _
        cases m.trail.call.filter <;> rfl
      · rw [Course.next, Trail.call_next]
        simp only [Trail.decides, hnil, if_true, ho, Option.bind_some, Option.map_eq_none_iff] at hx
        exact ⟨htarget, hx⟩
  | _ => cases hsums

end PaySystem
