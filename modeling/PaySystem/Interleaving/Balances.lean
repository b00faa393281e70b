import PaySystem.Interleaving.Programs

/-!
# The balances and the status of an order

For an order that starts without payments, whatever the other orders and their payments are: in
every interleaving the balances stay within the bounds of the order, although no single service
locks all that they depend on. The stored status is another matter. A check computes it from its own
snapshot without locking the order, and two of them can overwrite each other; it stays current in
the runs in which every transaction that moves the completed balance commits on current reads.
-/

namespace PaySystem

variable {types : Set String} {w : World} {order : Order}

/-- The payments of an order that has none are lawful. -/
theorem lawfulOrder_of_new {db : Db} {o : ℕ} (h : ∀ p ∈ db.payments.rows, p.orderId ≠ o) :
    db.LawfulOrder types o :=
  fun p hp ho => absurd ho (h p hp)

/-- The specification in which only the order `order` is tracked. -/
theorem valid_of_new (types : Set String) (py : Pydantic) (hw : w.AtRest)
    (hnew : ∀ p ∈ w.db.payments.rows, p.orderId ≠ order.id) :
    (interference types (· = order.id) py).Valid (atRest w) :=
  valid_atRest hw fun _ ho => lawfulOrder_of_new (by rwa [ho])

/-! ## Bounds -/

/-- One step keeps the balances of a tracked order bounded. -/
theorem Guarantee.bounded {tracked : ℕ → Prop} {py : Pydantic} {i : ℕ} {w w' : World}
    (h : Guarantee types tracked py i w w') (hw : w.Sound types tracked) (ht : tracked order.id)
    (hb : Change.Loaded w.db order ∧ w.db.Bounded order) :
    Change.Loaded w'.db order ∧ w'.db.Bounded order := by
  obtain ⟨hload, hb⟩ := hb
  rcases h.db with hdb | ⟨c, hc, hdb, -⟩ <;> rw [hdb]
  · exact ⟨hload, hb⟩
  · refine ⟨hload.run c, hc.allowed.bounded (hw.lawful _ ht) hload (fun hid => ?_) hb⟩
    exact hc.admitted (by rwa [hid])

/-- **The balances of an order stay within its total**, in every interleaving. -/
theorem balances_bounded (types : Set String) (py : Pydantic) {w : World} (hw : w.AtRest)
    {order : Order} (horder : w.db.orders.find? order.id = some order)
    (htotal : 0 ≤ order.totalSum.toRat)
    (hnew : ∀ p ∈ w.db.payments.rows, p.orderId ≠ order.id)
    {s : Config Stmt Err Outcome World Session}
    (hs : (paySystem types py).Reach System.anyStep (atRest w) s) :
    0 ≤ s.world.db.balance .completed order.id ∧
      s.world.db.balance .completed order.id ≤ s.world.db.balance .nonRejected order.id ∧
      s.world.db.balance .nonRejected order.id ≤ order.totalSum.toRat := by
  have hvalid := valid_of_new types py hw hnew
  have hverified := verified types (· = order.id) py
  have hb : Change.Loaded s.world.db order ∧ s.world.db.Bounded order := by
    refine hvalid.induction hverified hs ⟨⟨_, horder⟩, ?_, ?_⟩
      fun i w w' hi _ hg hb => hg.bounded hi rfl hb
    · rw [atRest, balance_eq_zero hnew]
    · rw [atRest, balance_eq_zero hnew]
      exact htotal
  have hlawful := (hvalid.reach hverified hs).inv.lawful order.id rfl
  exact ⟨hb.2.nonneg, hlawful.completed_le, hb.2.le_total⟩

/-- Two deposits, and checks of them that overlap: each sums the completed payments before the other
commits. -/
def overlappingChecks : List (Event (Call endpointTypes) Env) :=
  sampleDeposit 0 sampleHalf "a" ++ sampleDeposit 1 sampleHalf "b" ++
    [.spawn 2 (.check 1), .spawn 3 (.check 2)] ++
    List.replicate 7 (.run 2 (sampleEnv "a" PaymentStatus.Completed.value)) ++
    List.replicate 7 (.run 3 (sampleEnv "b" PaymentStatus.Completed.value)) ++
    List.replicate 3 (.run 2 (sampleEnv "a" PaymentStatus.Completed.value)) ++
    List.replicate 3 (.run 3 (sampleEnv "b" PaymentStatus.Completed.value))

/-- The first of the overlapping checks has committed, and the second is still to: the order is
covered, and half of it is completed. -/
theorem balances_bounded_sample : ∃ s,
    (paySystem endpointTypes .numbers).Reach System.anyStep (atRest sampleWorld) s ∧
    (s.threads 3).isSome = true ∧ s.world.db.balance .completed 1 = 30 ∧
    s.world.db.balance .nonRejected 1 = 60 ∧
    0 ≤ s.world.db.balance .completed 1 ∧
      s.world.db.balance .completed 1 ≤ s.world.db.balance .nonRejected 1 ∧
      s.world.db.balance .nonRejected 1 ≤ sampleOrder.totalSum.toRat := by
  have hany : ((paySystem endpointTypes .numbers).run System.anyStep (atRest sampleWorld)
      (overlappingChecks.take 35)).any (fun s => decide ((s.threads 3).isSome = true ∧
        s.world.db.balance .completed 1 = 30 ∧ s.world.db.balance .nonRejected 1 = 60)) = true := by
    decide +kernel
  obtain ⟨s, hs, hsums⟩ := (Option.any_eq_true _ _).1 hany
  obtain ⟨hflight, hcompleted, hnonRejected⟩ := of_decide_eq_true hsums
  have hreach := System.reach_of_run _ hs
  have horder : sampleWorld.db.orders.find? sampleOrder.id = some sampleOrder := rfl
  exact ⟨s, hreach, hflight, hcompleted, hnonRejected, balances_bounded endpointTypes .numbers
    sampleWorld_atRest horder (by decide +kernel) (fun _ hp => nomatch hp) hreach⟩

/-! ## The stored status -/

/-- The condition on a step under which the stored status of an order stays current: if it changes
the completed balance, then since the transaction read the order and summed its completed payments,
nobody else has committed a change of either. -/
def CommitsCurrent (orderId i : ℕ) (w w' : World) : Prop :=
  w'.db.balance .completed orderId ≠ w.db.balance .completed orderId →
    ⟨i, .order orderId⟩ ∈ w.reads ∧ ⟨i, .balance .completed orderId⟩ ∈ w.reads

instance (orderId i : ℕ) (w w' : World) : Decidable (CommitsCurrent orderId i w w') := by
  unfold CommitsCurrent
  infer_instance

/-- One step on current reads keeps the status of a tracked order current. -/
theorem Guarantee.statusCurrent {tracked : ℕ → Prop} {py : Pydantic} {o i : ℕ} {w w' : World}
    (h : Guarantee types tracked py i w w') (hw : w.Sound types tracked) (ht : tracked o)
    (hok : CommitsCurrent o i w w') (hs : w.db.StatusCurrent o) : w'.db.StatusCurrent o := by
  rcases h.db with hdb | ⟨c, hc, hdb, -⟩
  · rwa [hdb]
  · have hlawful := hw.lawful o ht
    rw [CommitsCurrent, hdb] at hok
    rw [hdb]
    refine hc.allowed.statusCurrent hlawful (fun hid hassigned => ?_) hs
    subst hid
    obtain ⟨horder, hbalance⟩ := hok ((hc.allowed.assigned_isSome_iff hlawful).1 hassigned)
    exact hc.current horder hbalance

/-- **The stored status is current in every run whose steps commit on current reads.** -/
theorem orderStatus_current (types : Set String) (py : Pydantic) {w : World} (hw : w.AtRest)
    {order : Order} (horder : w.db.orders.find? order.id = some order)
    (htotal : 0 < order.totalSum.toRat)
    (hstatus : order.paymentStatus = OrderPaymentStatus.UNPAID.value)
    (hnew : ∀ p ∈ w.db.payments.rows, p.orderId ≠ order.id)
    {s : Config Stmt Err Outcome World Session}
    (hs : (paySystem types py).Reach (CommitsCurrent order.id) (atRest w) s) :
    s.world.db.StatusCurrent order.id := by
  refine (valid_of_new types py hw hnew).induction (verified types (· = order.id) py) hs ?_
    fun i w w' hi hok hg hcur => hg.statusCurrent hi rfl hok hcur
  -- At the start nothing is completed, and the total is not zero.
  intro order' ho
  change w.db.orders.find? order.id = some order' at ho
  obtain rfl : order = order' := by simpa [horder] using ho
  rw [hstatus, Db.orderStatus, orderPaymentStatus_eq, atRest, balance_eq_zero hnew,
    if_neg htotal.ne, if_pos rfl]

/-- Two deposits and their checks, one after the other, pay the order. -/
theorem orderStatus_current_sample : ∃ s,
    (paySystem endpointTypes .numbers).Reach (CommitsCurrent 1) (atRest sampleWorld) s ∧
    (∀ i, s.threads i = none) ∧ s.world.db.balance .completed 1 = 60 ∧
    s.world.db.StatusCurrent 1 := by
  have hrun : ∃ s,
      (paySystem endpointTypes .numbers).Reach (CommitsCurrent 1) (atRest sampleWorld) s ∧
      (∀ i, s.threads i = none) ∧ decide (s.world.db.balance .completed 1 = 60) = true :=
    System.exists_reach_of_run
      (sampleDeposit 0 sampleHalf "a" ++ sampleDeposit 1 sampleHalf "b" ++ sampleCheck 2 1 "a" ++
        sampleCheck 3 2 "b")
      (fun w : World => decide (w.db.balance .completed 1 = 60)) (by decide +kernel)
  obtain ⟨s, hs, hidle, hsum⟩ := hrun
  have horder : sampleWorld.db.orders.find? sampleOrder.id = some sampleOrder := rfl
  exact ⟨s, hs, hidle, of_decide_eq_true hsum, orderStatus_current endpointTypes .numbers
    sampleWorld_atRest horder (by decide +kernel) rfl (fun _ hp => nomatch hp) hs⟩

/-- **A lost update.** Overlapping checks leave an order partially paid whose completed payments
cover its total. -/
theorem orderStatus_lost_update : sampleWorld.AtRest ∧
    sampleWorld.db.orders.find? 1 = some sampleOrder ∧ 0 < sampleOrder.totalSum.toRat ∧
    sampleOrder.paymentStatus = OrderPaymentStatus.UNPAID.value ∧
    sampleWorld.db.payments.rows = [] ∧
    ∃ s, (paySystem endpointTypes .numbers).Reach System.anyStep (atRest sampleWorld) s ∧
      (∀ i, s.threads i = none) ∧ ¬ s.world.db.StatusCurrent 1 := by
  refine ⟨sampleWorld_atRest, rfl, by decide +kernel, rfl, rfl, ?_⟩
  have hrun : ∃ s, (paySystem endpointTypes .numbers).Reach System.anyStep (atRest sampleWorld) s ∧
      (∀ i, s.threads i = none) ∧ ((s.world.db.orders.find? 1).any fun order =>
        order.paymentStatus != s.world.db.orderStatus order) = true :=
    System.exists_reach_of_run overlappingChecks (fun w : World =>
      (w.db.orders.find? 1).any fun order => order.paymentStatus != w.db.orderStatus order)
      (by decide +kernel)
  obtain ⟨s, hs, hidle, hbad⟩ := hrun
  refine ⟨s, hs, hidle, fun hcur => ?_⟩
  obtain ⟨order, ho, hne⟩ := (Option.any_eq_true _ _).1 hbad
  exact absurd (hcur order ho) (by simpa using hne)

end PaySystem
