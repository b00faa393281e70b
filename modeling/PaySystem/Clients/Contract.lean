import PaySystem.Clients.Acquiring
import PaySystem.Sequential.Services
import PaySystem.Services.Endpoints

/-!
# The exceptions of the client

The callers of the client catch `AcquiringStartError`, `AcquiringCheckError` and
`AcquiringPaymentNotFoundError`. One outcome of a request leads to another exception: a response
that says it is JSON, and whose `json()` raises.
-/

namespace PaySystem

variable {httpx : Httpx} {o : HttpOutcome} {i : ℕ} {env : ℕ → Env} {w : World} {σ : Session}
  {payload : PaymentCreate} {userId paymentId : ℕ} {order : Order} {p : Payment} {py : Pydantic}

/-- A deposit that gets as far as the bank; the request there has the outcome `o`, which gives no
id. -/
structure StartsBadly (httpx : Httpx) (o : HttpOutcome) (env : ℕ → Env) (w : World)
    (payload : PaymentCreate) (userId : ℕ) : Prop where
  rest : w.AtRest
  order : ∃ order, OwnOrder w.db payload.orderId userId order ∧ DepositFits w.db payload order
  sql : (env 0).failure = none ∧ (env 1).failure = none
  reply : (env 2).start.client = startPayment httpx o
  noId : ∀ id, startPayment httpx o ≠ .ok id

/-- A check of an open payment, without failures of the database; the request to the bank has the
outcome `o`, which gives no information. -/
structure ChecksBadly (httpx : Httpx) (o : HttpOutcome) (env : ℕ → Env) (w : World)
    (paymentId : ℕ) : Prop where
  rest : w.AtRest
  openPayment : ∃ p, OpenPayment w.db paymentId p
  sql : ∀ n, (env n).failure = none
  reply : (env 1).check = checkPayment httpx o
  noInfo : ∀ d, checkPayment httpx o ≠ .ok d

/-- The exception of the client leaves the service. -/
theorem StartsBadly.result (h : StartsBadly httpx o env w payload userId) {r : Except Err Payment}
    {w' : World} (hout : DepositOutcome env i w payload userId PaymentType.ACQUIRING.value r w') :
    ∃ e, startPayment httpx o = .error e ∧ r = .error (.acquiring e) := by
  obtain ⟨order, own, hfits⟩ := h.order
  have hfind : ∀ {order'}, OwnOrder w.db payload.orderId userId order' → order' = order := by
    intro order' own'
    have h' := own'.find
    rw [own.find, Option.some.injEq] at h'
    exact h'.symm
  have hno : ∀ {b}, (env 2).start ≠ .accepted b := by
    intro b hstart
    exact h.noId b (h.reply.symm.trans (by rw [hstart]; rfl))
  cases hout with
  | failed msg hfail _ =>
    rw [h.sql.1, h.sql.2] at hfail
    simp at hfail
  | notFound hnone _ =>
    rw [own.find] at hnone
    cases hnone
  | forbidden order' find hne _ =>
    rw [own.find, Option.some.injEq] at find
    exact absurd own.owner (find ▸ hne)
  | overpayment order' own' hnot _ => exact absurd hfits (hfind own' ▸ hnot)
  | refused e hstart _ => exact ⟨e, h.reply.symm.trans (by rw [hstart]; rfl), rfl⟩
  | lost e b hstart _ => exact ⟨e, h.reply.symm.trans (by rw [hstart]; rfl), rfl⟩
  | notStored _ _ _ hstart _ _ => exact absurd hstart hno
  | notEnqueued _ _ _ _ hstart _ _ _ _ _ => exact absurd hstart hno
  | done _ _ _ _ hstart _ _ _ => exact absurd hstart hno

/-- The check returns `False`, or the exception of the client leaves it. -/
theorem ChecksBadly.result (h : ChecksBadly httpx o env w paymentId) {r : Except Err Bool}
    {w' : World} (hout : CheckOutcome env i w py paymentId σ r w') :
    ∃ e, checkPayment httpx o = .error e ∧
      ((e = .notFound ∨ e = .check) ∧ r = .ok false ∨
        (e ≠ .notFound ∧ e ≠ .check) ∧ r = .error (.acquiring e)) := by
  obtain ⟨p, hp⟩ := h.openPayment
  have hno : ∀ {d}, (env 1).check ≠ .ok d := fun hd => h.noInfo _ (h.reply.symm.trans hd)
  have hinfo : ∀ {info}, ¬ ValidAnswer env py info := fun ⟨_, hd, _⟩ => hno hd
  cases hout with
  | failed n msg hfail _ =>
    rw [h.sql n] at hfail
    cases hfail
  | notOpen hnone _ => exact absurd hp (hnone p)
  | retry p' _ hc _ =>
    rcases hc with hc | hc
    · exact ⟨_, h.reply.symm.trans hc, Or.inl ⟨Or.inl rfl, rfl⟩⟩
    · exact ⟨_, h.reply.symm.trans hc, Or.inl ⟨Or.inr rfl, rfl⟩⟩
  | clientFailed p' _ e hc he _ => exact ⟨e, h.reply.symm.trans hc, Or.inr ⟨he, rfl⟩⟩
  | invalid p' _ d hc _ _ => exact absurd hc hno
  | unknownStatus p' _ info hi _ _ => exact absurd hi hinfo
  | advanced p' _ info hi _ _ _ => exact absurd hi hinfo
  | missingGreenlet p' _ info hi _ _ _ _ => exact absurd hi hinfo
  | noOrder p' _ info hi _ _ _ _ => exact absurd hi hinfo
  | completed p' _ info hi _ _ _ _ => exact absurd hi hinfo

end PaySystem
