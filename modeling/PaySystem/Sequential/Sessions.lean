import PaySystem.Sequential.Calls

/-!
# The session of a check

The worker runs `check_and_update` in a fresh session, in which `payment.order` is not loaded, and
an `AsyncSession` does not load it on a plain attribute read. The runs in a fresh session and in
one that holds the order therefore agree exactly when the check does not complete the payment.
-/

namespace PaySystem

open Prog Machine

variable {i j : ℕ} {env env' : ℕ → Env} {w w' : World} {σ : Session} {py : Pydantic}
  {paymentId : ℕ} {p : Payment} {info : AcquiringPaymentInfo} {reply : Except ClientErr Dict}
  {r : Except Err Bool}

/-- The environment of the worker: nothing fails, a plain attribute read cannot send SQL, and the
bank answers a check with `reply`. -/
structure Env.Worker (reply : Except ClientErr Dict) (env : Env) : Prop where
  failure : env.failure = none
  greenlet : env.greenlet = false
  check : env.check = reply

/-- The session holds the order of the payment, and all its orders are as in the database. -/
structure Session.HoldsOrder (σ : Session) (w : World) (paymentId : ℕ) : Prop where
  faithful : σ.Faithful w
  order : ∀ p, w.db.payments.find? paymentId = some p → ∃ order ∈ σ.identityMap,
    order.id = p.orderId

/-- The reply reports an open payment as completed. -/
structure Completes (py : Pydantic) (w : World) (paymentId : ℕ) (reply : Except ClientErr Dict)
    (p : Payment) (info : AcquiringPaymentInfo) : Prop where
  openPayment : OpenPayment w.db paymentId p
  reply : ∃ d, reply = .ok d ∧ AcquiringPaymentInfo.validate py d = some info
  status : info.status = PaymentStatus.Completed.value

/-- `p` is completed with the time of `info`, and its order has the status of the payments. -/
structure World.Completed (w w' : World) (p : Payment) (info : AcquiringPaymentInfo) : Prop where
  payment : w'.db.payments.find? p.id = some { p with
    paymentStatus := PaymentStatus.Completed.value, paidAt := some info.paidAt }
  order : ∃ order, w.db.orders.find? p.orderId = some order ∧ w'.db.orders.find? p.orderId =
    some { order with paymentStatus := w'.db.orderStatus order }

theorem ValidAnswer.unique {info' : AcquiringPaymentInfo} (h : ValidAnswer env py info) {d : Dict}
    (hreply : (env 1).check = .ok d) (hd : AcquiringPaymentInfo.validate py d = some info') :
    info = info' := by
  obtain ⟨d', hcheck, hd'⟩ := h
  rw [hreply, Except.ok.injEq] at hcheck
  subst hcheck
  rw [hd, Option.some.injEq] at hd'
  exact hd'.symm

/-- The payment that a check completes. -/
theorem Completes.eq (h : Completes py w paymentId reply p info) {p' : Payment}
    (hp : OpenPayment w.db paymentId p') : p = p' := by
  have hfind := hp.find
  rw [h.openPayment.find, Option.some.injEq] at hfind
  exact hfind

section Worker

variable (henv : ∀ n, (env n).Worker reply)

include henv

/-! ## Checks that complete the payment -/

/-- A check that would complete the payment does so, or it misses the order. -/
theorem CheckOutcome.of_completes (hc : Completes py w paymentId reply p info)
    (h : CheckOutcome env i w py paymentId σ r w') :
    (r = .error .missingGreenlet ∧ (σ.identityMap.find? fun o => o.id = p.orderId) = none) ∨
      (r = .ok true ∧ (σ.identityMap.find? fun o => o.id = p.orderId) ≠ none) := by
  obtain ⟨d, hreply, hd⟩ := hc.reply
  have hcheck : (env 1).check = .ok d := (henv 1).check.trans hreply
  cases h with
  | failed n msg hfail _ =>
    rw [(henv n).failure] at hfail
    cases hfail
  | notOpen h _ => exact absurd hc.openPayment (h p)
  | retry p' _ h _ =>
    rw [hcheck] at h
    simp at h
  | clientFailed p' _ e h _ _ =>
    rw [hcheck] at h
    cases h
  | invalid p' _ d' h hd' _ =>
    rw [hcheck, Except.ok.injEq] at h
    subst h
    rw [hd] at hd'
    cases hd'
  | unknownStatus p' _ info' h hst _ =>
    rw [h.unique hcheck hd, hc.status] at hst
    exact absurd (by decide) hst
  | advanced p' _ info' h _ hne _ =>
    rw [h.unique hcheck hd] at hne
    exact absurd hc.status hne
  | missingGreenlet p' hp _ _ _ hmap _ _ =>
    rw [← hc.eq hp] at hmap
    exact Or.inl ⟨rfl, hmap⟩
  | noOrder p' _ _ _ _ hgreenlet _ _ =>
    rw [(henv 3).greenlet] at hgreenlet
    cases hgreenlet
  | completed p' hp _ _ _ order ho _ =>
    refine Or.inr ⟨rfl, ?_⟩
    rw [← hc.eq hp] at ho
    cases ho with
    | loaded h => simp [h]
    | lazy _ hgreenlet _ =>
      rw [(henv 3).greenlet] at hgreenlet
      cases hgreenlet

end Worker

/-! ## Checks that do not -/

/-- What a check returns and commits that does not complete the payment: it only depends on the
database and on the reply. -/
def checkPaymentOnly (py : Pydantic) (db : Db) (paymentId : ℕ) (reply : Except ClientErr Dict) :
    Except Err Bool × Db :=
  match (db.payments.find? paymentId).filter Payment.isOpen with
  | none => (.ok true, db)
  | some p => match reply with
    | .error .notFound => (.ok false, db)
    | .error .check => (.ok false, db)
    | .error e => (.error (.acquiring e), db)
    | .ok d => match AcquiringPaymentInfo.validate py d with
      | none => (.error (.value "Invalid payment info"), db)
      | some info =>
        if info.status ∈ PaymentStatus.members.map PaymentStatus.value then
          (.ok (info.status = PaymentStatus.Rejected.value), (Change.advance p info.status).run db)
        else (.ok false, db)

theorem OpenPayment.filter {db : Db} (h : OpenPayment db paymentId p) :
    (db.payments.find? paymentId).filter Payment.isOpen = some p := by
  rw [h.find, Option.filter_some, if_pos h.isOpen]

theorem CheckOutcome.of_not_completes (hsql : ∀ n, (env n).failure = none)
    (hcheck : (env 1).check = reply) (hc : ∀ p info, ¬ Completes py w paymentId reply p info)
    (h : CheckOutcome env i w py paymentId σ r w') :
    (r, w'.db) = checkPaymentOnly py w.db paymentId reply := by
  have hreply : reply = (env 1).check := hcheck.symm
  have hcompletes : ∀ {p info}, OpenPayment w.db paymentId p → ValidAnswer env py info →
      info.status ≠ PaymentStatus.Completed.value := by
    intro p info hp hinfo hst
    obtain ⟨d, hcheck, hd⟩ := hinfo
    exact hc p info ⟨hp, ⟨d, hreply.trans hcheck, hd⟩, hst⟩
  cases h with
  | failed n msg hfail _ =>
    rw [hsql n] at hfail
    cases hfail
  | notOpen h left =>
    have hnone : (w.db.payments.find? paymentId).filter Payment.isOpen = none := by
      rw [Option.filter_eq_none_iff]
      exact fun p hfind hopen => h p ⟨hfind, hopen⟩
    rw [checkPaymentOnly, hnone, left.db]
  | retry p hp h left =>
    rw [checkPaymentOnly, hp.filter, left.db, hreply]
    rcases h with h | h <;> rw [h]
  | clientFailed p hp e h he left =>
    rw [checkPaymentOnly, hp.filter, left.db, hreply, h]
    cases e with
    | notFound => exact absurd rfl he.1
    | check => exact absurd rfl he.2
    | start => rfl
    | other msg => rfl
  | invalid p hp d h hd left =>
    rw [checkPaymentOnly, hp.filter, left.db, hreply, h]
    simp only [hd]
  | unknownStatus p hp info hinfo hst left =>
    obtain ⟨d, hcheck, hd⟩ := hinfo
    rw [checkPaymentOnly, hp.filter, left.db, hreply, hcheck]
    simp only [hd, if_neg hst]
  | advanced p hp info hinfo hst hne left =>
    obtain ⟨d, hcheck, hd⟩ := hinfo
    rw [checkPaymentOnly, hp.filter, left.db, hreply, hcheck]
    simp only [hd, if_pos hst]
  | missingGreenlet p hp info hinfo hst _ _ _ => exact absurd hst (hcompletes hp hinfo)
  | noOrder p hp info hinfo hst _ _ _ => exact absurd hst (hcompletes hp hinfo)
  | completed p hp info hinfo hst order _ _ => exact absurd hst (hcompletes hp hinfo)

/-! ## The two sessions -/

/-- **A check depends on its session exactly when it completes the payment**: then, and only then,
the worker's session does not give the result of a session that holds the order, and does not
complete the payment. -/
theorem check_session_iff (py : Pydantic) (hw : w.AtRest) (hσ : σ.HoldsOrder w paymentId)
    (henv : ∀ n, (env n).Worker reply) (henv' : ∀ n, (env' n).Worker reply) :
    ∃ r w₁ r' w₂, runAlone (checkAndUpdate py paymentId) i env w .fresh = some (r, w₁) ∧
      runAlone (checkAndUpdate py paymentId) j env' w σ = some (r', w₂) ∧
      ((r = r' ∧ w₁.db = w₂.db) ↔ ¬ ∃ p info, Completes py w paymentId reply p info) ∧
      ((∀ p info, Completes py w paymentId reply p info → r = .ok true ∧ w.Completed w₁ p info) ↔
        ¬ ∃ p info, Completes py w paymentId reply p info) := by
  obtain ⟨r, w₁, hr, hout⟩ := runAlone_checkAndUpdate hw i env .fresh py paymentId
  obtain ⟨r', w₂, hr', hout'⟩ := runAlone_checkAndUpdate hw j env' σ py paymentId
  have hfresh : ∀ p info, Completes py w paymentId reply p info → r = .error .missingGreenlet := by
    intro p info hc
    rcases hout.of_completes henv hc with ⟨hr, -⟩ | ⟨-, hmap⟩
    · exact hr
    · exact absurd rfl hmap
  have hholds : ∀ p info, Completes py w paymentId reply p info → r' = .ok true := by
    intro p info hc
    rcases hout'.of_completes henv' hc with ⟨-, hmap⟩ | ⟨hr, -⟩
    · obtain ⟨order, ho, hid⟩ := hσ.order p hc.openPayment.find
      exact absurd hid (by simpa using List.find?_eq_none.1 hmap order ho)
    · exact hr
  refine ⟨r, _, r', _, hr, hr', ⟨?_, fun hc => ?_⟩, ⟨?_, fun hc p info h => absurd ⟨p, info, h⟩ hc⟩⟩
  · rintro ⟨heq, -⟩ ⟨p, info, hc⟩
    rw [hfresh p info hc, hholds p info hc] at heq
    cases heq
  · have hc : ∀ p info, ¬ Completes py w paymentId reply p info := fun p info h => hc ⟨p, info, h⟩
    have heq : (r, w₁.db) = (r', w₂.db) :=
      (hout.of_not_completes (fun n => (henv n).failure) (henv 1).check hc).trans
        (hout'.of_not_completes (fun n => (henv' n).failure) (henv' 1).check hc).symm
    exact Prod.mk.inj heq
  · rintro hall ⟨p, info, hc⟩
    have hok := (hall p info hc).1
    rw [hfresh p info hc] at hok
    cases hok

/-- The environment of the worker when the bank reports `status`. -/
def sampleWorkerEnv (status : String) : Env := { sampleEnv "a" status with greenlet := false }

/-- The session of the tests: it has created the order. -/
def sampleSession : Session := ⟨[sampleOrder]⟩

theorem sampleSession_holdsOrder : sampleSession.HoldsOrder sampleDeposited 1 where
  faithful order ho := by
    rw [List.mem_singleton.1 ho]
    decide +kernel
  order := by
    have h : (sampleDeposited.db.payments.find? 1).all (fun p => p.orderId == 1) = true := by
      decide +kernel
    intro p hp
    rw [hp] at h
    exact ⟨sampleOrder, List.mem_singleton.2 rfl, (by simpa using h : p.orderId = 1).symm⟩

theorem check_session_iff_sample : ∃ r w₁ r' w₂,
    runAlone (checkAndUpdate .numbers 1) 0 (fun _ => sampleWorkerEnv "rejected") sampleDeposited
      .fresh = some (r, w₁) ∧
    runAlone (checkAndUpdate .numbers 1) 0 (fun _ => sampleWorkerEnv "rejected") sampleDeposited
      sampleSession = some (r', w₂) ∧
    ((r = r' ∧ w₁.db = w₂.db) ↔ ¬ ∃ p info, Completes .numbers sampleDeposited 1
      (sampleWorkerEnv "rejected").check p info) ∧
    ((∀ p info, Completes .numbers sampleDeposited 1 (sampleWorkerEnv "rejected").check p info →
        r = .ok true ∧ sampleDeposited.Completed w₁ p info) ↔
      ¬ ∃ p info, Completes .numbers sampleDeposited 1 (sampleWorkerEnv "rejected").check p info) :=
  check_session_iff .numbers sampleDeposited_atRest sampleSession_holdsOrder
    (fun _ => ⟨rfl, rfl, rfl⟩) fun _ => ⟨rfl, rfl, rfl⟩

/-- **The worker does not complete payments.** The bank reports the sample payment as completed:
the check raises `MissingGreenlet` in the worker's session and commits nothing, and completes the
payment in a session that holds the order. -/
theorem check_fresh_session_raises :
    sampleDeposited.AtRest ∧ sampleSession.HoldsOrder sampleDeposited 1 ∧
    (sampleWorkerEnv "completed").Worker (sampleWorkerEnv "completed").check ∧
    ∃ w₁ w₂,
      runAlone (checkAndUpdate .numbers 1) 0 (fun _ => sampleWorkerEnv "completed")
        sampleDeposited .fresh = some (.error .missingGreenlet, w₁) ∧
      runAlone (checkAndUpdate .numbers 1) 0 (fun _ => sampleWorkerEnv "completed")
        sampleDeposited sampleSession = some (.ok true, w₂) ∧
      w₁.db.payments.rows = sampleDeposited.db.payments.rows ∧
      w₂.db.payments.rows.map Payment.paymentStatus = [PaymentStatus.Completed.value] := by
  have hfresh : ((runAlone (checkAndUpdate .numbers 1) 0 (fun _ => sampleWorkerEnv "completed")
      sampleDeposited .fresh).map fun x => (x.1, x.2.db.payments.rows)) =
        some (.error .missingGreenlet, sampleDeposited.db.payments.rows) := by
    decide +kernel
  have hholds : ((runAlone (checkAndUpdate .numbers 1) 0 (fun _ => sampleWorkerEnv "completed")
      sampleDeposited sampleSession).map fun x =>
        (x.1, x.2.db.payments.rows.map Payment.paymentStatus)) =
        some (.ok true, [PaymentStatus.Completed.value]) := by
    decide +kernel
  obtain ⟨⟨r, w₁⟩, hr, hrows⟩ := Option.map_eq_some_iff.1 hfresh
  obtain ⟨⟨r', w₂⟩, hr', hstatus⟩ := Option.map_eq_some_iff.1 hholds
  obtain ⟨rfl, hrows⟩ := Prod.mk.inj hrows
  obtain ⟨rfl, hstatus⟩ := Prod.mk.inj hstatus
  exact ⟨sampleDeposited_atRest, sampleSession_holdsOrder, ⟨rfl, rfl, rfl⟩, w₁, w₂, hr, hr', hrows,
    hstatus⟩

end PaySystem
