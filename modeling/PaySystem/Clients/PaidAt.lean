import PaySystem.Clients.Acquiring
import PaySystem.Sequential.Sessions

/-!
# The time in the bank's reply

Only a completed payment takes its time from the reply. The schema of the reply requires a time for
every status, so that a check records another status exactly if the reply has one as well.
-/

namespace PaySystem

variable {httpx : Httpx} {py : Pydantic} {i j : ℕ} {env env' : ℕ → Env} {w w' : World}
  {σ σ' : Session} {paymentId : ℕ} {p : Payment} {bankPaymentId status : String} {amount : ℚ}
  {r r' : Response} {d d' : Dict} {res : Except Err Bool}

/-- A response that reports a payment: the bank's id, an amount and a status; nothing is said about
the time. -/
structure Response.Reports (httpx : Httpx) (py : Pydantic) (bankPaymentId : String) (amount : ℚ)
    (status : String) (r : Response) (d : Dict) : Prop where
  statusCode : r.statusCode = 200
  isJson : r.isJson = true
  body : httpx.json r = some (.obj d)
  paymentId : d.lookup "payment_id" = some (.str bankPaymentId)
  amount : (d.lookup "amount").bind py.decimal = some amount
  status : d.lookup "status" = some (.str status)

/-- The reply has a time. -/
def HasPaidAt (py : Pydantic) (d : Dict) : Prop :=
  ((d.lookup "paid_at").bind py.datetime).isSome = true

instance (py : Pydantic) (d : Dict) : Decidable (HasPaidAt py d) :=
  inferInstanceAs (Decidable (_ = true))

/-- The statuses of a payment that is not completed. -/
def unpaidStatuses : List String :=
  [PaymentStatus.Submitted.value, PaymentStatus.Processing.value, PaymentStatus.Rejected.value]

/-- A check asks the bank and gets the response `r`; the database does not fail. -/
structure GetsResponse (httpx : Httpx) (r : Response) (env : ℕ → Env) : Prop where
  sql : ∀ n, (env n).failure = none
  check : (env 1).check = checkPayment httpx (.response r)

/-- The check has recorded the status of the reply, and no more. -/
structure Records (w : World) (p : Payment) (status : String) (res : Except Err Bool) (w' : World) :
    Prop where
  result : res = .ok (status = PaymentStatus.Rejected.value)
  db : w'.db = (Change.advance p status).run w.db

theorem checkPayment_reports (h : r.Reports httpx py bankPaymentId amount status d) :
    checkPayment httpx (.response r) = .ok d := by
  have hd : checkPaymentJson (.obj d) = .ok d := by
    unfold checkPaymentJson
    split
    · next heq =>
      rw [Json.obj.injEq] at heq
      have hid := h.paymentId
      rw [heq] at hid
      simp [List.lookup_cons] at hid
    · next heq => rw [Json.obj.inj heq]
    · next heq => exact absurd rfl (heq d)
  simp [checkPayment, h.statusCode, h.isJson, h.body, hd]

/-- The schema takes the reply exactly if it has a time. -/
theorem validate_reports (h : r.Reports httpx py bankPaymentId amount status d) :
    AcquiringPaymentInfo.validate py d = ((d.lookup "paid_at").bind py.datetime).map
      fun paidAt => ⟨bankPaymentId, amount, status, paidAt⟩ := by
  simp only [AcquiringPaymentInfo.validate, h.paymentId, h.amount, h.status, Option.bind_eq_bind,
    Option.bind_some, Json.asStr]
  cases (d.lookup "paid_at").bind py.datetime <;> rfl

theorem mem_members_of_unpaid (hst : status ∈ unpaidStatuses) :
    status ∈ PaymentStatus.members.map PaymentStatus.value ∧
      status ≠ PaymentStatus.Completed.value := by
  simp only [unpaidStatuses, List.mem_cons, List.not_mem_nil, or_false] at hst
  rcases hst with rfl | rfl | rfl <;> decide

/-- What a check does that gets a report of a payment that is not completed. -/
theorem runAlone_of_reports (hw : w.AtRest) (hp : OpenPayment w.db paymentId p)
    (hst : status ∈ unpaidStatuses) (h : r.Reports httpx py bankPaymentId amount status d)
    (henv : GetsResponse httpx r env) (i : ℕ) (σ : Session) :
    ∃ res w', runAlone (checkAndUpdate py paymentId) i env w σ = some (res, w') ∧
      if HasPaidAt py d then Records w p status res w'
      else res = .error (.value "Invalid payment info") ∧ w'.db = w.db := by
  obtain ⟨res, w', hrun, hout⟩ := runAlone_checkAndUpdate hw i env σ py paymentId
  obtain ⟨hmem, hne⟩ := mem_members_of_unpaid hst
  have hcheck : (env 1).check = .ok d := henv.check.trans (checkPayment_reports h)
  have hvalid := validate_reports h
  have hnot : ∀ p info, ¬ Completes py w paymentId (.ok d) p info := by
    rintro p info ⟨-, ⟨d', hd', hinfo⟩, hcompleted⟩
    obtain rfl := Except.ok.inj hd'
    rw [hvalid, Option.map_eq_some_iff] at hinfo
    obtain ⟨paidAt, -, rfl⟩ := hinfo
    exact hne hcompleted
  have hend := hout.of_not_completes henv.sql hcheck hnot
  simp only [checkPaymentOnly, hp.filter, hvalid] at hend
  refine ⟨res, _, hrun, ?_⟩
  split_ifs with hat
  · obtain ⟨paidAt, hpaid⟩ := Option.isSome_iff_exists.1 hat
    simp only [hpaid, Option.map_some, if_pos hmem, Prod.mk.injEq] at hend
    exact ⟨hend.1, hend.2⟩
  · simp only [Option.not_isSome_iff_eq_none.1 hat, Option.map_none, Prod.mk.injEq] at hend
    exact hend

/-- A rejection releases the amount of the payment. -/
theorem balance_reject (hp : OpenPayment w.db paymentId p) :
    ((Change.advance p PaymentStatus.Rejected.value).run w.db).balance .nonRejected p.orderId =
      w.db.balance .nonRejected p.orderId - p.signedAmount := by
  have hallowed : (Change.advance p PaymentStatus.Rejected.value).Allowed ∅ w.db :=
    allowed_advance hp (by decide) (by decide)
  have hopen : BalanceFilter.nonRejected.passes p = true := by
    simpa [BalanceFilter.passes] using (Payment.isOpen_iff.1 hp.isOpen).2.1
  rw [hallowed.balance_run, Change.delta_of_old rfl, contribution_of_passes hopen,
    contribution_of_not_passes rfl, zero_sub, sub_eq_add_neg]

/-- **When the time of the reply does not matter.** Two reports of a payment that is not completed,
with the same id, amount and status, lead to the same result and to the same database, in which the
payment has this status, exactly if both have a time; and a rejection releases the amount of the
payment exactly if the report has a time. -/
theorem check_paid_at_iff (hw : w.AtRest) (hp : OpenPayment w.db paymentId p)
    (hst : status ∈ unpaidStatuses) (h : r.Reports httpx py bankPaymentId amount status d)
    (h' : r'.Reports httpx py bankPaymentId amount status d') (henv : GetsResponse httpx r env)
    (henv' : GetsResponse httpx r' env') (i j : ℕ) (σ σ' : Session) :
    ∃ res w₁ res' w₂, runAlone (checkAndUpdate py paymentId) i env w σ = some (res, w₁) ∧
      runAlone (checkAndUpdate py paymentId) j env' w σ' = some (res', w₂) ∧
      ((res = res' ∧ w₁.db = w₂.db ∧ Records w p status res w₁) ↔
        HasPaidAt py d ∧ HasPaidAt py d') ∧
      (status = PaymentStatus.Rejected.value → p.signedAmount ≠ 0 →
        (w₁.db.balance .nonRejected p.orderId =
          w.db.balance .nonRejected p.orderId - p.signedAmount ↔ HasPaidAt py d)) := by
  obtain ⟨res, w₁, hrun, hend⟩ := runAlone_of_reports hw hp hst h henv i σ
  obtain ⟨res', w₂, hrun', hend'⟩ := runAlone_of_reports hw hp hst h' henv' j σ'
  refine ⟨res, w₁, res', w₂, hrun, hrun', ?_, ?_⟩
  · constructor
    · rintro ⟨hres, -, hrec⟩
      have hok := hrec.result
      constructor
      · by_contra hat
        rw [if_neg hat, hok] at hend
        exact nomatch hend.1
      · by_contra hat
        rw [if_neg hat, ← hres, hok] at hend'
        exact nomatch hend'.1
    · rintro ⟨hat, hat'⟩
      rw [if_pos hat] at hend
      rw [if_pos hat'] at hend'
      exact ⟨hend.result.trans hend'.result.symm, hend.db.trans hend'.db.symm, hend⟩
  · rintro rfl hne
    split_ifs at hend with hat
    · rw [hend.db]
      exact iff_of_true (balance_reject hp) hat
    · rw [hend.2]
      refine iff_of_false (fun hbalance => hne ?_) hat
      linarith

/-! ## A rejection without a time -/

/-- A report that the payment `a` is rejected. -/
def rejection (paidAt : Json) : Dict :=
  [("payment_id", .str "a"), ("amount", .num 30), ("status", .str "rejected"), ("paid_at", paidAt)]

/-- Its JSON text. -/
def rejectionBody (paidAt : String) : String :=
  "\x7b\"payment_id\": \"a\", \"amount\": 30, \"status\": \"rejected\", \"paid_at\": " ++
    paidAt ++ "\x7d"

/-- The two bodies, with a time and without. -/
def rejectionBodies : Httpx :=
  .ascii [(rejectionBody "0", .obj (rejection (.num 0))),
    (rejectionBody "null", .obj (rejection .null))]

def rejectionResponse (paidAt : String) : Response :=
  .ascii "application/json" (rejectionBody paidAt)

/-- The bank answers a check with a rejection. -/
def rejectionEnv (paidAt : String) : Env :=
  { sampleEnv "a" "rejected" with
    check := checkPayment rejectionBodies (.response (rejectionResponse paidAt)) }

theorem reports_time : (rejectionResponse "0").Reports rejectionBodies .numbers "a" 30 "rejected"
    (rejection (.num 0)) := by
  refine ⟨rfl, by decide +kernel, by rfl, rfl, rfl, rfl⟩

theorem reports_null : (rejectionResponse "null").Reports rejectionBodies .numbers "a" 30 "rejected"
    (rejection .null) := by
  refine ⟨rfl, by decide +kernel, by rfl, rfl, rfl, rfl⟩

/-- The payment of the sample world, which is open. -/
def sampleSubmitted : Payment :=
  { submittedPayment 7 1 30 PaymentType.ACQUIRING.value "a" with id := 1 }

theorem sampleSubmitted_open : OpenPayment sampleDeposited.db 1 sampleSubmitted :=
  ⟨by decide +kernel, by decide⟩

theorem check_paid_at_iff_sample :
    ∃ res w₁ res' w₂,
      runAlone (checkAndUpdate .numbers 1) 0 (fun _ => rejectionEnv "null") sampleDeposited .fresh =
        some (res, w₁) ∧
      runAlone (checkAndUpdate .numbers 1) 0 (fun _ => rejectionEnv "0") sampleDeposited .fresh =
        some (res', w₂) ∧
      ((res = res' ∧ w₁.db = w₂.db ∧ Records sampleDeposited sampleSubmitted "rejected" res w₁) ↔
        HasPaidAt .numbers (rejection .null) ∧ HasPaidAt .numbers (rejection (.num 0))) ∧
      ("rejected" = PaymentStatus.Rejected.value → sampleSubmitted.signedAmount ≠ 0 →
        (w₁.db.balance .nonRejected sampleSubmitted.orderId =
          sampleDeposited.db.balance .nonRejected sampleSubmitted.orderId -
            sampleSubmitted.signedAmount ↔ HasPaidAt .numbers (rejection .null))) :=
  check_paid_at_iff sampleDeposited_atRest sampleSubmitted_open (by decide) reports_null
    reports_time ⟨fun _ => rfl, rfl⟩ ⟨fun _ => rfl, rfl⟩ 0 0 .fresh .fresh

/-- **A rejection without a time is not recorded**: the check raises, and the payment goes on being
charged to its order. The same rejection with a time releases it. -/
theorem rejection_not_recorded :
    (rejectionResponse "null").Reports rejectionBodies .numbers "a" 30 "rejected"
      (rejection .null) ∧
    (rejectionResponse "0").Reports rejectionBodies .numbers "a" 30 "rejected"
      (rejection (.num 0)) ∧
    ∃ w₁ w₂,
      runAlone (checkAndUpdate .numbers 1) 0 (fun _ => rejectionEnv "null") sampleDeposited .fresh =
        some (.error (.value "Invalid payment info"), w₁) ∧
      runAlone (checkAndUpdate .numbers 1) 0 (fun _ => rejectionEnv "0") sampleDeposited .fresh =
        some (.ok true, w₂) ∧
      w₁.db.balance .nonRejected 1 = 30 ∧ w₂.db.balance .nonRejected 1 = 0 := by
  have hnull : ((runAlone (checkAndUpdate .numbers 1) 0 (fun _ => rejectionEnv "null")
      sampleDeposited .fresh).map fun x => (x.1, x.2.db.balance .nonRejected 1)) =
        some (.error (.value "Invalid payment info"), 30) := by
    decide +kernel
  have htime : ((runAlone (checkAndUpdate .numbers 1) 0 (fun _ => rejectionEnv "0")
      sampleDeposited .fresh).map fun x => (x.1, x.2.db.balance .nonRejected 1)) =
        some (.ok true, 0) := by
    decide +kernel
  obtain ⟨⟨res, w₁⟩, hrun, hval⟩ := Option.map_eq_some_iff.1 hnull
  obtain ⟨⟨res', w₂⟩, hrun', hval'⟩ := Option.map_eq_some_iff.1 htime
  obtain ⟨rfl, hbalance⟩ := Prod.mk.inj hval
  obtain ⟨rfl, hbalance'⟩ := Prod.mk.inj hval'
  exact ⟨reports_null, reports_time, w₁, w₂, hrun, hrun', hbalance, hbalance'⟩

end PaySystem
