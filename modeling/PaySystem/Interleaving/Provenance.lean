import PaySystem.Interleaving.Programs

/-!
# Where credited money comes from

Every deposit that is credited to an order was started at the bank by the service, under the id and
with the amount of its row, and the bank has answered a question about this id with the status
completed. If the bank never gives out an id twice, no bank payment is credited twice. That the
answer also names this id and this amount is not checked.
-/

namespace PaySystem

variable {types : Set String} {tracked : ℕ → Prop} {py : Pydantic} {i orderId : ℕ}
  {w w' : World} {p p' : Payment} {c : Change} {b : String}

/-- A completed acquiring deposit into the order. -/
def Payment.isCredited (orderId : ℕ) (p : Payment) : Bool :=
  decide (p.orderId = orderId) && p.operationType == OperationType.Deposit.value &&
    p.paymentType == PaymentType.ACQUIRING.value &&
    p.paymentStatus == PaymentStatus.Completed.value

/-- The completed acquiring deposits into the order. -/
def Db.credited (db : Db) (orderId : ℕ) : List Payment :=
  db.payments.rows.filter (Payment.isCredited orderId)

/-- The bank has answered a question about the payment `p` that it is completed. -/
def World.Answered (py : Pydantic) (w : World) (p : Payment) : Prop :=
  ∃ b d info, p.bankPaymentId = some b ∧ (b, .ok d) ∈ w.answers ∧
    AcquiringPaymentInfo.validate py d = some info ∧
      info.status = PaymentStatus.Completed.value ∧ p.paidAt = some info.paidAt

/-- The bank gives out no id twice. -/
def World.FreshIds (w : World) : Prop := (w.bank.map BankPayment.id).Nodup

/-- The bank knows every payment of the order, and gave it an id of its own. -/
structure World.Accounted (py : Pydantic) (orderId : ℕ) (w : World) : Prop where
  sublist : (w.started.map Prod.snd).Sublist w.bank
  entry : ∀ p ∈ w.db.payments.rows, p.orderId = orderId → ∀ b, p.bankPaymentId = some b →
    ⟨b, orderId, p.amount.toRat⟩ ∈ w.bank
  unused : w.FreshIds → ∀ x ∈ w.started, ∀ p ∈ w.db.payments.rows, p.orderId = orderId →
    p.bankPaymentId ≠ some x.2.id
  distinct : w.FreshIds → ∀ p ∈ w.db.payments.rows, ∀ p' ∈ w.db.payments.rows,
    p.orderId = orderId → p'.orderId = orderId → ∀ b, p.bankPaymentId = some b →
      p'.bankPaymentId = some b → p = p'
  answered : ∀ p ∈ w.db.payments.rows, p.isCredited orderId = true → w.Answered py p

theorem isCredited_iff : p.isCredited orderId = true ↔ p.orderId = orderId ∧
    p.operationType = OperationType.Deposit.value ∧ p.paymentType = PaymentType.ACQUIRING.value ∧
      p.paymentStatus = PaymentStatus.Completed.value := by
  simp [Payment.isCredited, and_assoc]

/-- Two running transactions have not started the same bank payment. -/
theorem World.Accounted.tx_eq (h : w.Accounted py orderId) (hfresh : w.FreshIds) {j : ℕ}
    {e e' : BankPayment} (he : (i, e) ∈ w.started) (he' : (j, e') ∈ w.started)
    (hid : e.id = e'.id) : i = j := by
  have hnodup : (w.started.map fun x => x.2.id).Nodup := by
    have hsub := (h.sublist.map BankPayment.id).nodup hfresh
    rwa [List.map_map] at hsub
  exact congrArg Prod.fst (List.inj_on_of_nodup_map hnodup he he' hid)

/-- What a change writes with a bank id is a payment that had it, or the deposit that its
transaction has just started. -/
theorem Commits.bank_row (hc : Commits types tracked py i w c)
    (hb : c.row.bankPaymentId = some b) :
    (∃ p ∈ w.db.payments.rows, p.SameOrigin c.row) ∨
      (i, ⟨b, c.row.orderId, c.row.amount.toRat⟩) ∈ w.started := by
  cases hold : c.old with
  | some p => exact Or.inl ⟨p, hc.allowed.old_mem hold, (hc.allowed.origin_row hold).1⟩
  | none =>
    cases c with
    | deposit order p =>
      obtain ⟨b', hb', hs⟩ := hc.documented
      obtain rfl : b = b' := Option.some.inj (hb.symm.trans hb')
      exact Or.inr hs
    | cashReturn order p st =>
      have hnone : p.bankPaymentId = none := hc.allowed.2.2.2.bankPaymentId
      change p.bankPaymentId = some b at hb
      rw [hnone] at hb
      cases hb
    | advance p st => cases hold
    | complete order p paidAt st => cases hold

/-- A change that writes a completed deposit is the outcome of an answer of the bank. -/
theorem Commits.answered (hc : Commits types tracked py i w c)
    (hrow : c.row.isCredited orderId = true) : w.Answered py c.row := by
  obtain ⟨-, hop, -, hst⟩ := isCredited_iff.1 hrow
  cases c with
  | deposit order p =>
    have hsub : p.paymentStatus = _ := hc.allowed.2.2.2.status
    change p.paymentStatus = _ at hst
    rw [hsub] at hst
    exact absurd hst (by decide)
  | cashReturn order p st =>
    have hret : p.operationType = _ := hc.allowed.2.2.2.operation
    change p.operationType = _ at hop
    rw [hret] at hop
    exact absurd hop (by decide)
  | advance p st => exact absurd hst hc.allowed.2.2.2
  | complete order p paidAt st =>
    obtain ⟨b, d, info, hb, hd, hinfo, hstatus, hpaid⟩ := hc.documented
    exact ⟨b, d, info, hb, hd, hinfo, hstatus, by rw [hpaid]; rfl⟩

theorem World.Answered.mono (h : w.Answered py p) (ha : w.answers ⊆ w'.answers) :
    w'.Answered py p := by
  obtain ⟨b, d, info, hb, hd, hrest⟩ := h
  exact ⟨b, d, info, hb, ha hd, hrest⟩

/-- A step of the bank, or none: the database stays as it is. -/
theorem Guarantee.accounted_of_db_eq (h : Guarantee types tracked py i w w')
    (hdb : w'.db = w.db) (ha : w.Accounted py orderId) : w'.Accounted py orderId := by
  have hanswered : ∀ p ∈ w'.db.payments.rows, p.isCredited orderId = true → w'.Answered py p := by
    rw [hdb]
    exact fun p hp hcr => (ha.answered p hp hcr).mono h.answers
  rcases h.bank with ⟨hbank, hsub⟩ | ⟨e, hbank, hstarted⟩
  · have hfresh : w'.FreshIds → w.FreshIds := by
      rw [World.FreshIds, hbank]
      exact id
    refine ⟨?_, ?_, fun hf x hx => ?_, fun hf => ?_, hanswered⟩
    · rw [hbank]
      exact (hsub.map Prod.snd).trans ha.sublist
    · rw [hdb, hbank]
      exact ha.entry
    · rw [hdb]
      exact ha.unused (hfresh hf) x (hsub.subset hx)
    · rw [hdb]
      exact ha.distinct (hfresh hf)
  · have hnew : w'.FreshIds → w.FreshIds ∧ e.id ∉ w.bank.map BankPayment.id := by
      rw [World.FreshIds, hbank, List.map_append, List.map_singleton]
      intro hf
      rw [List.nodup_append] at hf
      exact ⟨hf.1, fun hm => hf.2.2 _ hm _ (List.mem_singleton.2 rfl) rfl⟩
    refine ⟨?_, ?_, fun hf x hx => ?_, fun hf => ?_, hanswered⟩
    · rw [hbank, hstarted, List.map_append]
      exact ha.sublist.append (List.Sublist.refl _)
    · rw [hdb, hbank]
      exact fun p hp ho b hb => List.mem_append_left _ (ha.entry p hp ho b hb)
    · rw [hdb]
      rw [hstarted, List.mem_append, List.mem_singleton] at hx
      rcases hx with hx | rfl
      · exact ha.unused (hnew hf).1 x hx
      · intro p hp ho hb
        exact (hnew hf).2 (List.mem_map.2 ⟨_, ha.entry p hp ho _ hb, rfl⟩)
    · rw [hdb]
      exact ha.distinct (hnew hf).1

/-- A commit: its deposit, if it makes one, is the only payment with its id. -/
theorem Guarantee.accounted_of_commit (h : Guarantee types tracked py i w w')
    (hc : Commits types tracked py i w c) (hdb : w'.db = c.run w.db)
    (hclear : ∀ b, (i, b) ∉ w'.started) (ha : w.Accounted py orderId) :
    w'.Accounted py orderId := by
  have hmem : ∀ p, p ∈ w'.db.payments.rows ↔
      p = c.row ∨ p ∈ w.db.payments.rows ∧ p.id ≠ c.row.id := by
    intro p
    rw [hdb]
    exact hc.allowed.mem_run
  obtain ⟨hbank, hsub⟩ : w'.bank = w.bank ∧ w'.started.Sublist w.started := by
    rcases h.bank with hb | ⟨b, -, hstarted⟩
    · exact hb
    · refine absurd ?_ (hclear b)
      rw [hstarted]
      exact List.mem_append_right _ (List.mem_singleton.2 rfl)
  have hfresh : w'.FreshIds → w.FreshIds := by
    rw [World.FreshIds, hbank]
    exact id
  -- The other payments do not have the bank id of the new row.
  have hother : w.FreshIds → ∀ p ∈ w.db.payments.rows, p.orderId = orderId → p.id ≠ c.row.id →
      c.row.orderId = orderId → ∀ b, c.row.bankPaymentId = some b → p.bankPaymentId ≠ some b := by
    intro hf p hp ho hne hrow b hb hpb
    rcases hc.bank_row hb with ⟨p₀, hp₀, horigin⟩ | hs
    · have hb₀ : p₀.bankPaymentId = some b := by rw [← horigin.bankPaymentId, hb]
      have ho₀ : p₀.orderId = orderId := by rw [← horigin.orderId, hrow]
      obtain rfl := ha.distinct hf p hp p₀ hp₀ ho ho₀ b hpb hb₀
      exact hne horigin.id.symm
    · exact ha.unused hf _ hs p hp ho hpb
  refine ⟨?_, fun p hp ho b hb => ?_, fun hf x hx p hp ho hpb => ?_,
    fun hf p hp p' hp' ho ho' b hb hb' => ?_, fun p hp hcr => ?_⟩
  · rw [hbank]
    exact (hsub.map Prod.snd).trans ha.sublist
  · rw [hbank]
    rcases (hmem p).1 hp with rfl | ⟨hp, -⟩
    · rcases hc.bank_row hb with ⟨p₀, hp₀, horigin⟩ | hs
      · rw [horigin.amount]
        exact ha.entry p₀ hp₀ (by rw [← horigin.orderId, ho]) b
          (by rw [← horigin.bankPaymentId, hb])
      · rw [ho] at hs
        exact ha.sublist.subset (List.mem_map_of_mem (f := Prod.snd) hs)
    · exact ha.entry p hp ho b hb
  · obtain ⟨j, e⟩ := x
    rcases (hmem p).1 hp with rfl | ⟨hp, -⟩
    · rcases hc.bank_row hpb with ⟨p₀, hp₀, horigin⟩ | hs
      · exact ha.unused (hfresh hf) _ (hsub.subset hx) p₀ hp₀ (by rw [← horigin.orderId, ho])
          (by rw [← horigin.bankPaymentId, hpb])
      · have hij : i = j := ha.tx_eq (hfresh hf) hs (hsub.subset hx) rfl
        subst hij
        exact hclear e hx
    · exact ha.unused (hfresh hf) _ (hsub.subset hx) p hp ho hpb
  · rcases (hmem p).1 hp with rfl | ⟨hp, hne⟩ <;> rcases (hmem p').1 hp' with rfl | ⟨hp', hne'⟩
    · rfl
    · exact absurd hb' (hother (hfresh hf) p' hp' ho' hne' ho b hb)
    · exact absurd hb (hother (hfresh hf) p hp ho hne ho' b hb')
    · exact ha.distinct (hfresh hf) p hp p' hp' ho ho' b hb hb'
  · rcases (hmem p).1 hp with rfl | ⟨hp, -⟩
    · exact (hc.answered hcr).mono h.answers
    · exact (ha.answered p hp hcr).mono h.answers

/-- One step keeps an order accounted for. -/
theorem Guarantee.accounted (h : Guarantee types tracked py i w w') (ha : w.Accounted py orderId) :
    w'.Accounted py orderId := by
  rcases h.db with hdb | ⟨c, hc, hdb, hclear⟩
  · exact h.accounted_of_db_eq hdb ha
  · exact h.accounted_of_commit hc hdb hclear ha

/-! ## Sums -/

/-- The payment as the bank knows it. -/
def Payment.atBank (p : Payment) : BankPayment :=
  ⟨p.bankPaymentId.getD "", p.orderId, p.amount.toRat⟩

/-- The bank payments whose ids are those of the credited deposits of the order. -/
def World.bankCredited (w : World) (orderId : ℕ) : List BankPayment :=
  w.bank.filter fun e => ((w.db.credited orderId).map Payment.bankPaymentId).contains (some e.id)

theorem mem_credited {db : Db} : p ∈ db.credited orderId ↔
    p ∈ db.payments.rows ∧ p.isCredited orderId = true :=
  List.mem_filter

theorem World.Accounted.mem_bankCredited (h : w.Accounted py orderId) (hf : w.FreshIds)
    (e : BankPayment) :
    e ∈ (w.db.credited orderId).map Payment.atBank ↔ e ∈ w.bankCredited orderId := by
  have hentry : ∀ p ∈ w.db.credited orderId, ∀ b, p.bankPaymentId = some b →
      p.atBank ∈ w.bank ∧ p.atBank.id = b := by
    intro p hp b hb
    obtain ⟨hp, hcr⟩ := mem_credited.1 hp
    have ho := (isCredited_iff.1 hcr).1
    have hmem := h.entry p hp ho b hb
    rw [Payment.atBank, hb, ho]
    exact ⟨hmem, rfl⟩
  simp only [World.bankCredited, List.mem_map, List.mem_filter, List.contains_iff_mem]
  constructor
  · rintro ⟨p, hp, rfl⟩
    obtain ⟨b, -, -, hb, -⟩ := h.answered p (mem_credited.1 hp).1 (mem_credited.1 hp).2
    obtain ⟨hbank, hid⟩ := hentry p hp b hb
    exact ⟨hbank, p, hp, by rw [hb, hid]⟩
  · rintro ⟨he, p, hp, hb⟩
    obtain ⟨hbank, hid⟩ := hentry p hp e.id hb
    exact ⟨p, hp, List.inj_on_of_nodup_map hf hbank he hid⟩

/-- **Credited money is bank money**: the credited deposits of an order and the bank payments with
their ids are the same payments. -/
theorem World.Accounted.perm (h : w.Accounted py orderId) (hf : w.FreshIds) :
    ((w.db.credited orderId).map Payment.atBank).Perm (w.bankCredited orderId) := by
  refine (List.perm_ext_iff_of_nodup ?_ ?_).2 (h.mem_bankCredited hf)
  · have hnodup : (w.db.credited orderId).Nodup := (w.db.payments.nodup.of_map _).filter _
    refine hnodup.map_on fun p hp p' hp' heq => ?_
    obtain ⟨hp, hcr⟩ := mem_credited.1 hp
    obtain ⟨hp', hcr'⟩ := mem_credited.1 hp'
    obtain ⟨b, -, -, hb, -⟩ := h.answered p hp hcr
    obtain ⟨b', -, -, hb', -⟩ := h.answered p' hp' hcr'
    have hid : b = b' := by simpa [Payment.atBank, hb, hb'] using congrArg BankPayment.id heq
    exact h.distinct hf p hp p' hp' (isCredited_iff.1 hcr).1 (isCredited_iff.1 hcr').1 b hb
      (by rw [hb', hid])
  · exact (List.Nodup.of_map _ hf).filter _

/-- **Money credited through acquiring was started at the bank and reported as completed.** -/
theorem credited_of_reach (types : Set String) (py : Pydantic) {w : World} (hw : w.AtRest)
    (orderId : ℕ) (hnew : ∀ p ∈ w.db.payments.rows, p.orderId ≠ orderId)
    {s : Config Stmt Err Outcome World Session}
    (hs : (paySystem types py).Reach System.anyStep (atRest w) s) :
    (∀ p ∈ s.world.db.credited orderId, s.world.Answered py p ∧
      ∀ b, p.bankPaymentId = some b → ⟨b, orderId, p.amount.toRat⟩ ∈ s.world.bank) ∧
    (s.world.FreshIds → ((s.world.db.credited orderId).map fun p => p.amount.toRat).sum =
      ((s.world.bankCredited orderId).map BankPayment.amount).sum) := by
  have hvalid : (interference types (fun _ => False) py).Valid (atRest w) :=
    valid_atRest hw fun _ h => h.elim
  have hacc : s.world.Accounted py orderId := by
    refine hvalid.induction (verified types _ py) hs ?_ fun i w w' _ _ hg ha => hg.accounted ha
    refine ⟨?_, fun p hp ho => absurd ho (hnew p hp), fun _ _ _ p hp ho => absurd ho (hnew p hp),
      fun _ p hp _ _ ho => absurd ho (hnew p hp), fun p hp hcr => ?_⟩
    · rw [atRest, hw.started]
      exact List.nil_sublist _
    · exact absurd (isCredited_iff.1 hcr).1 (hnew p hp)
  refine ⟨fun p hp => ?_, fun hf => ?_⟩
  · obtain ⟨hp, hcr⟩ := mem_credited.1 hp
    exact ⟨hacc.answered p hp hcr, hacc.entry p hp (isCredited_iff.1 hcr).1⟩
  · have hsum := ((hacc.perm hf).map BankPayment.amount).sum_eq
    rw [List.map_map] at hsum
    exact hsum

/-- Two checked deposits pay the order, and the bank has both. -/
theorem credited_of_reach_sample : ∃ s,
    (paySystem endpointTypes .numbers).Reach System.anyStep (atRest sampleWorld) s ∧
    ((s.world.db.credited 1).map fun p => p.amount.toRat).sum = 60 ∧ s.world.FreshIds ∧
    (∀ p ∈ s.world.db.credited 1, s.world.Answered .numbers p ∧
      ∀ b, p.bankPaymentId = some b → ⟨b, 1, p.amount.toRat⟩ ∈ s.world.bank) ∧
    (s.world.FreshIds → ((s.world.db.credited 1).map fun p => p.amount.toRat).sum =
      ((s.world.bankCredited 1).map BankPayment.amount).sum) := by
  have hrun : ∃ s, (paySystem endpointTypes .numbers).Reach System.anyStep (atRest sampleWorld) s ∧
      (∀ i, s.threads i = none) ∧
      decide (((s.world.db.credited 1).map fun p => p.amount.toRat).sum = 60 ∧
        (s.world.bank.map BankPayment.id).Nodup) = true :=
    System.exists_reach_of_run
      (sampleDeposit 0 sampleHalf "a" ++ sampleDeposit 1 sampleHalf "b" ++ sampleCheck 2 1 "a" ++
        sampleCheck 3 2 "b")
      (fun w : World => decide (((w.db.credited 1).map fun p => p.amount.toRat).sum = 60 ∧
        (w.bank.map BankPayment.id).Nodup)) (by decide +kernel)
  obtain ⟨s, hs, -, htest⟩ := hrun
  obtain ⟨hsum, hfresh⟩ := of_decide_eq_true htest
  exact ⟨s, hs, hsum, hfresh, credited_of_reach endpointTypes .numbers sampleWorld_atRest 1
    (fun _ hp => nomatch hp) hs⟩

/-- No answer about the payment `bankId` names it, or the amount `amount`. -/
def World.neverNamed (w : World) (py : Pydantic) (bankId : String) (amount : ℚ) : Bool :=
  w.answers.all fun x => x.2.toOption.all fun d =>
    (AcquiringPaymentInfo.validate py d).all fun info =>
      info.paymentId != bankId && info.amount != amount

/-- **The answer is not compared with the payment.** A deposit of 60.00 with the bank id `a` is
credited on an answer that names the payment `b` and the amount 30.00. -/
theorem credited_mismatch : ∃ s,
    (paySystem endpointTypes .numbers).Reach System.anyStep (atRest sampleWorld) s ∧
    s.world.FreshIds ∧
    ∃ p ∈ s.world.db.credited 1, p.bankPaymentId = some "a" ∧ p.amount.toRat = 60 ∧
      ∀ b d info, (b, .ok d) ∈ s.world.answers →
        AcquiringPaymentInfo.validate .numbers d = some info →
          info.paymentId ≠ "a" ∧ info.amount ≠ 60 := by
  have hrun : ∃ s, (paySystem endpointTypes .numbers).Reach System.anyStep (atRest sampleWorld) s ∧
      (∀ i, s.threads i = none) ∧ (decide (s.world.bank.map BankPayment.id).Nodup &&
        ((s.world.db.credited 1).any (fun p =>
          p.bankPaymentId == some "a" && p.amount.toRat == 60) &&
        s.world.neverNamed .numbers "a" 60)) = true :=
    System.exists_reach_of_run
      (sampleDeposit 0 (samplePayload 60 (by decide +kernel) (by decide +kernel)
        (by decide +kernel)) "a" ++ sampleCheck 1 1 "b")
      (fun w : World => decide (w.bank.map BankPayment.id).Nodup &&
        ((w.db.credited 1).any (fun p =>
          p.bankPaymentId == some "a" && p.amount.toRat == 60) && w.neverNamed .numbers "a" 60))
      (by decide +kernel)
  obtain ⟨s, hs, -, htest⟩ := hrun
  rw [Bool.and_eq_true, Bool.and_eq_true, List.any_eq_true] at htest
  obtain ⟨hfresh, ⟨p, hp, hpt⟩, hnever⟩ := htest
  rw [Bool.and_eq_true, beq_iff_eq, beq_iff_eq] at hpt
  have hfresh : (s.world.bank.map BankPayment.id).Nodup := of_decide_eq_true hfresh
  refine ⟨s, hs, hfresh, p, hp, hpt.1, hpt.2, fun b d info hd hinfo => ?_⟩
  have hans := List.all_eq_true.1 hnever _ hd
  simpa [Except.toOption, hinfo] using hans

end PaySystem
