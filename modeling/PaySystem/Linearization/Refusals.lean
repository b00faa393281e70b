import PaySystem.Linearization.Services
import PaySystem.Services.Details

/-!
# Refusals tell the truth

Between the lock of an order and its answer a refused request lets other transactions commit, and
its answer reaches the user later still. What the answer says was true all the same, at one instant
while the request was being handled: the order was not there, or not the user's, or the amount that
the detail names, to the last decimal, was what the order had left.
-/

namespace PaySystem

variable {types : Set String} {db : Db} {e : Err} {c : Call types} {status : ℕ} {detail : String}

/-- What the endpoint of a call answers. The tasks answer nobody. -/
def Call.respond (r : Except Err Payment) : Call types → Option EndpointResult
  | deposit _ _ _ => some (depositResponse r)
  | cashReturn _ _ => some (returnResponse r)
  | _ => none

/-- The database justifies the refusal of a call with this status and this detail. -/
inductive Db.Justifies (db : Db) : Call types → ℕ → String → Prop
  | notFound {c : Call types} {userId : ℕ} {payload : PaymentCreate} {detail : String}
    (request : c.request = some (userId, payload))
    (missing : db.orders.find? payload.orderId = none) : Justifies db c 404 detail
  | forbidden {c : Call types} {userId : ℕ} {payload : PaymentCreate} {order : Order}
    {detail : String} (request : c.request = some (userId, payload))
    (found : db.orders.find? payload.orderId = some order) (owner : order.userId ≠ userId) :
    Justifies db c 403 detail
  /-- The detail names what remained, and the deposit asked for more. -/
  | overpayment {userId : ℕ} {payload : PaymentCreate} {paymentType : types} {order : Order}
    {detail : String} (found : db.orders.find? payload.orderId = some order)
    (owner : order.userId = userId)
    (names : amountIn detail =
      some (order.totalSum.toRat - db.balance .nonRejected payload.orderId))
    (exceeds : order.totalSum.toRat - db.balance .nonRejected payload.orderId < payload.amount) :
    Justifies db (.deposit userId payload paymentType) 400 detail
  /-- The detail names what was completed, and the return asked for more. -/
  | exceeds {userId : ℕ} {payload : PaymentCreate} {order : Order} {detail : String}
    (found : db.orders.find? payload.orderId = some order) (owner : order.userId = userId)
    (names : amountIn detail = some (db.balance .completed payload.orderId))
    (exceeds : db.balance .completed payload.orderId < payload.amount) :
    Justifies db (.cashReturn userId payload) 400 detail

/-! ## One instant -/

theorem order_of_account {id : ℕ} {a : Account} (h : db.books.accounts id = some a) :
    ∃ order, db.orders.find? id = some order ∧ order.id = id ∧ db.account order = a := by
  obtain ⟨order, hfind, ha⟩ := Option.map_eq_some_iff.1 h
  exact ⟨order, hfind, Table.key_of_find? hfind, ha⟩

/-- Both endpoints answer a missing order, and the order of another user, by these statuses. -/
theorem respond_order (h : c.respond (.error e) = some (.httpException status detail)) :
    (e = .orderNotFound → status = 404) ∧ (e = .forbiddenOrderAccess → status = 403) := by
  cases c with
  | deposit | cashReturn =>
    constructor <;> rintro rfl <;>
      exact (EndpointResult.httpException.inj (Option.some.inj h)).1.symm
  | check | enqueue => cases h

/-- The only failure that an endpoint answers is one of the bank. -/
theorem respond_failure (he : e.isFailure = true)
    (h : c.respond (.error e) = some (.httpException status detail)) : status = 503 := by
  cases c with
  | deposit userId payload paymentType =>
    cases e with
    | acquiring x => cases x with
      | start => exact (EndpointResult.httpException.inj (Option.some.inj h)).1.symm
      | _ => cases h
    | orderNotFound | forbiddenOrderAccess | overpayment | returnAmountExceedsBalance => cases he
    | _ => cases h
  | cashReturn userId payload =>
    cases e with
    | orderNotFound | forbiddenOrderAccess | overpayment | returnAmountExceedsBalance => cases he
    | _ => cases h
  | check | enqueue => cases h

/-- **A refusal that is served is justified.** -/
theorem justifies_of_served {b : Books} (hl : ∀ o, db.LawfulOrder types o)
    (hserved : c.Served db.books (.error e) b)
    (h : c.respond (.error e) = some (.httpException status detail)) (hstatus : status ≠ 503) :
    db.Justifies c status detail := by
  cases hserved with
  | overpayment account owner exceeds =>
    obtain ⟨order, hfind, hid, rfl⟩ := order_of_account account
    rw [remaining_account hl] at h exceeds
    obtain ⟨detail', hanswer, hnames⟩ :=
      depositResponse_overpayment (hasDecimals_remaining db order)
    obtain ⟨rfl, rfl⟩ :=
      EndpointResult.httpException.inj (hanswer.symm.trans (Option.some.inj h))
    exact .overpayment hfind owner (hid ▸ hnames) (hid ▸ exceeds)
  | exceeds account owner exceeds =>
    obtain ⟨order, hfind, hid, rfl⟩ := order_of_account account
    obtain ⟨detail', hanswer, hnames⟩ :=
      returnResponse_exceeds (hasDecimals_balance db .completed order.id)
    obtain ⟨rfl, rfl⟩ :=
      EndpointResult.httpException.inj (hanswer.symm.trans (Option.some.inj h))
    exact .exceeds hfind owner (hid ▸ hnames) (hid ▸ exceeds)
  | orderNotFound request missing =>
    obtain rfl := (respond_order h).1 rfl
    exact .notFound request (accounts_eq_none_iff.1 missing)
  | forbidden request account owner =>
    obtain ⟨order, hfind, -, rfl⟩ := order_of_account account
    obtain rfl := (respond_order h).2 rfl
    exact .forbidden request hfind owner
  | failed failure => exact absurd (respond_failure failure h) hstatus

/-! ## Runs -/

/-- Only an exception of the broker may take the place of what was decided. -/
theorem shown_error {x : Except Err Outcome} (h : Course.Shows x (.error e)) :
    x = .error e ∨ ∃ msg, e = .broker msg := by
  rcases h with h | ⟨⟨msg, h⟩, -⟩
  · exact Or.inl h.symm
  · exact Or.inr ⟨msg, Except.error.inj h⟩

/-- **Refusals tell the truth**: if the call of an endpoint ends by an exception that the endpoint
answers, and the bank is not to blame, then what the answer says was right at an instant after the
start of the call, whatever runs beside it. -/
theorem refusals_exact (types : Set String) (py : Pydantic) {w : World} (hw : w.AtRest)
    (hl : ∀ o, w.db.LawfulOrder types o) {s : Config Stmt Err Outcome World Session}
    {es : List (Event (Call types) Env)}
    (hs : (paySystem types py).run System.anyStep (atRest w) es = some s) {i : ℕ} {env : Env}
    {e : Err} (he : System.ended s (.run i env : Event (Call types) Env) = some (.error e)) :
    ∃ c, lastCall i es = some c ∧ ∀ status detail,
      c.respond (.error e) = some (.httpException status detail) → status ≠ 503 →
        ∃ es₁ es₂ s₁, es = es₁ ++ es₂ ∧ lastCall i es₁ = some c ∧
          (∀ e' ∈ es₂, e'.isSpawn i = false) ∧
          (paySystem types py).run System.anyStep (atRest w) es₁ = some s₁ ∧
          s₁.world.db.Justifies c status detail := by
  obtain ⟨c, x, hserved, hshows⟩ := (linearizes_services types py).served_of_ended
    (System.Obeys.refine reads_courses (obeys types py true) (obeys_courses types py))
    (show Session.Bare _ from rfl) (answers_services types py) (System.marked_idle w)
    (onCourse_start hw hl) hs he
  refine ⟨c, hserved.lastCall_eq, fun status detail hanswer hstatus => ?_⟩
  obtain rfl : x = .error e := by
    refine (shown_error hshows).resolve_right ?_
    rintro ⟨msg, rfl⟩
    cases c <;> cases hanswer
  cases hserved with
  | @intro es₁ es₂ env s₁ s₂ begun before step served rest =>
    have hvalid := (valid_atRest hw fun o (_ : True) => hl o).reach (verified types _ py)
      (System.reach_of_run es₁ before)
    exact ⟨es₁, _, s₁, rfl, begun, List.forall_mem_cons.2 ⟨rfl, rest⟩, before,
      justifies_of_served (fun o => hvalid.inv.lawful o trivial) served hanswer hstatus⟩

/-- More than half of the order. -/
def sampleMore : PaymentCreate :=
  samplePayload 45 (by decide +kernel) (by decide +kernel) (by decide +kernel)

/-- A deposit of more than half of the order waits for one of half of it, and is refused. -/
def refusedDeposit : List (Event (Call endpointTypes) Env) :=
  (sampleDeposit 0 sampleHalf "a").take 2 ++ (sampleDeposit 1 sampleMore "b").take 1 ++
    (sampleDeposit 0 sampleHalf "a").drop 2 ++ List.replicate 2 (.run 1 (sampleEnv "b" ""))

/-- The refused user is told what the other deposit has left. -/
theorem refusals_exact_sample : ∃ s,
    (paySystem endpointTypes .numbers).run System.anyStep (atRest sampleWorld) refusedDeposit =
      some s ∧
    ∃ c, lastCall 1 refusedDeposit = some c ∧
      c.respond (.error (.overpayment 30)) = some (.httpException 400
        "Payment amount exceeds remaining order amount. Remaining amount: 30.00") ∧
      ∃ es₁ es₂ s₁, refusedDeposit = es₁ ++ es₂ ∧ lastCall 1 es₁ = some c ∧
        (∀ e' ∈ es₂, e'.isSpawn 1 = false) ∧
        (paySystem endpointTypes .numbers).run System.anyStep (atRest sampleWorld) es₁ = some s₁ ∧
        s₁.world.db.Justifies c 400
          "Payment amount exceeds remaining order amount. Remaining amount: 30.00" := by
  have hany : ((paySystem endpointTypes .numbers).run System.anyStep (atRest sampleWorld)
      refusedDeposit).any (fun s => decide (System.ended s (.run 1 (sampleEnv "b" "") :
        Event (Call endpointTypes) Env) = some (.error (.overpayment 30)))) = true := by
    decide +kernel
  obtain ⟨s, hs, hended⟩ := (Option.any_eq_true _ _).1 hany
  obtain ⟨c, hc, hright⟩ := refusals_exact endpointTypes .numbers sampleWorld_atRest
    (fun _ _ hp => absurd hp List.not_mem_nil) hs (of_decide_eq_true hended)
  have hanswer : (lastCall 1 refusedDeposit).bind (Call.respond (.error (.overpayment 30))) =
      some (.httpException 400
        "Payment amount exceeds remaining order amount. Remaining amount: 30.00") := by
    decide +kernel
  rw [hc, Option.bind_some] at hanswer
  exact ⟨s, hs, c, hc, hanswer, hright _ _ hanswer (by decide)⟩

end PaySystem
