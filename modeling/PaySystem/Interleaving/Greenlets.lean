import PaySystem.Interleaving.Balances
import PaySystem.Interleaving.Deliveries

/-!
# Without SQL from attribute reads

`check_and_update` reads `payment.order`, and only the branch that completes a payment does. Where
the session refuses to send SQL from a plain attribute read, this branch always raises, and nothing
of it is stored: in whole runs no payment of a new order is ever completed, the order stays as it
is, and no return is ever accepted.
-/

namespace PaySystem

variable {types : Set String} {tracked : ℕ → Prop} {py : Pydantic} {β : Type} {i : ℕ}
  {w w' : World} {s : Stmt β} {r : Except Err β} {t : Trail types} {p : Payment} {order : Order}
  {db : Db} {ws : List Write} {g g' : Marks (Trail types)}

/-- The write completes a payment. -/
def Write.Completes : Write → Prop
  | .updatePayment _ status _ => status = PaymentStatus.Completed.value
  | _ => False

/-! ## Completed rows -/

theorem completed_of_mem_apply {x : Write} (hx : ¬ x.Completes)
    (hp : p ∈ (db.apply x).payments.rows)
    (hst : p.paymentStatus = PaymentStatus.Completed.value) :
    p ∈ db.payments.rows ∨ x.inserted = some p := by
  cases x with
  | insertPayment q => exact (Table.mem_of_mem_insert hp).imp_right fun h => congrArg some h.symm
  | updatePayment id st at' =>
    cases hf : db.payments.find? id with
    | none => exact Or.inl (by simpa only [Db.apply, hf] using hp)
    | some q =>
      rw [payments_updatePayment hf] at hp
      have hkey : q.id = id := Table.key_of_find? hf
      rcases (Table.mem_update (r := { q with paymentStatus := st, paidAt := at' }) (x := q)
          (by rw [← hkey] at hf; exact hf)).1 hp with ⟨hp, -⟩ | rfl
      · exact Or.inl hp
      · exact absurd hst hx
  | updateOrder id st =>
    rw [payments_updateOrder] at hp
    exact Or.inl hp

/-- Where no write completes a payment, a completed row was there or is inserted. -/
theorem completed_of_mem_foldl (hws : ∀ x ∈ ws, ¬ x.Completes)
    (hp : p ∈ (ws.foldl Db.apply db).payments.rows)
    (hst : p.paymentStatus = PaymentStatus.Completed.value) :
    p ∈ db.payments.rows ∨ p ∈ inserts ws := by
  induction ws generalizing db with
  | nil => exact Or.inl hp
  | cons x ws ih =>
    rcases ih (fun y hy => hws y (List.mem_cons_of_mem _ hy)) hp with hp | hp
    · refine (completed_of_mem_apply (hws x List.mem_cons_self) hp hst).imp_right fun hx => ?_
      exact List.mem_filterMap.2 ⟨x, List.mem_cons_self, hx⟩
    · obtain ⟨y, hy, hyp⟩ := List.mem_filterMap.1 hp
      exact Or.inr (List.mem_filterMap.2 ⟨y, List.mem_cons_of_mem _ hy, hyp⟩)

/-- The writes of a call that may not read attributes from the database. -/
theorem not_completes_next (hallow : t.Allows false s) (hws : ∀ x ∈ t.writes, ¬ x.Completes) :
    ∀ x ∈ (t.next s r).writes, ¬ x.Completes := by
  intro x hx
  cases s with
  | insertPayment p => cases r with
    | error e => exact hws x hx
    | ok id =>
      rcases List.mem_append.1 hx with hx | hx
      · exact hws x hx
      · obtain rfl := List.mem_singleton.1 hx
        exact fun h => h
  | updatePayment paymentId st at' => cases r with
    | error e => exact hws x hx
    | ok u =>
      rcases List.mem_append.1 hx with hx | hx
      · exact hws x hx
      · obtain rfl := List.mem_singleton.1 hx
        exact fun hst => Bool.false_ne_true (hallow.2.2 hst)
  | updateOrder orderId st => cases r with
    | error e => exact hws x hx
    | ok u =>
      rcases List.mem_append.1 hx with hx | hx
      · exact hws x hx
      · obtain rfl := List.mem_singleton.1 hx
        exact fun h => h
  | commit => cases r with
    | error e => exact hws x hx
    | ok u => cases hx
  | _ => cases r <;> exact hws x hx

/-- No call in flight is about to complete a payment. -/
def NoneCompletes (g : Marks (Trail types)) : Prop :=
  ∀ i t, g i = some t → ∀ x ∈ t.writes, ¬ x.Completes

theorem NoneCompletes.move {c : Config Stmt Err Outcome World Session}
    {e : Event (Call types) Env} (h : NoneCompletes g)
    (hm : System.Move (paySystem types py) (trails types false) c e w' g g') :
    NoneCompletes g' :=
  hm.forall_mark (fun i t _ => h i t) (fun _ _ _ _ hx => nomatch hx)
    fun _ mark allowed _ _ => not_completes_next allowed (h _ _ mark)

/-- A row that is completed after a move was so before, or is a new one. -/
theorem Linked.completed_row {c : Config Stmt Err Outcome World Session}
    {e : Event (Call types) Env} (h : Linked c.world g) (hn : NoneCompletes g)
    (hm : System.Move (paySystem types py) (trails types false) c e w' g g')
    (hp : p ∈ w'.db.payments.rows) (hst : p.paymentStatus = PaymentStatus.Completed.value) :
    p ∈ c.world.db.payments.rows ∨ c.world.db.payments.find? p.id = none := by
  cases hm with
  | spawn i call idle => exact Or.inl hp
  | call i env mark st allowed exec answered sent =>
    have hws : c.world.writes i = _ := (h.writes i).trans (by rw [mark])
    rw [(effect_of_exec exec).db] at hp
    rcases committed_cases (c.world.writes i) c.world.db st _ with hdb | ⟨hdb, -⟩ <;>
    rw [hdb] at hp
    · exact Or.inl hp
    · refine (completed_of_mem_foldl ?_ hp hst).imp_right (h.pending.unused i p)
      rw [hws]
      exact hn i _ mark
  | finish e closing mark ends => exact Or.inl hp

/-! ## Runs -/

/-- The order is as it was, and none of its payments is completed. -/
structure World.Uncompleted (order : Order) (w : World) : Prop where
  row : w.db.orders.find? order.id = some order
  payments : ∀ p ∈ w.db.payments.rows, p.orderId = order.id →
    p.paymentStatus ≠ PaymentStatus.Completed.value

theorem World.Uncompleted.balance (h : w.Uncompleted order) :
    w.db.balance .completed order.id = 0 := by
  refine List.sum_eq_zero fun x hx => ?_
  obtain ⟨p, hp, rfl⟩ := List.mem_map.1 hx
  rw [Payment.contribution]
  split_ifs with hpass
  · exact absurd (by simpa [BalanceFilter.passes] using hpass.2) (h.payments p hp hpass.1)
  · rfl

/-- **A step completes nothing**: a completed payment would be a new return, which what is completed
does not cover. -/
theorem Guarantee.uncompleted (h : Guarantee types tracked py i w w') (ht : tracked order.id)
    (hu : w.Uncompleted order)
    (hnew : ∀ p ∈ w'.db.payments.rows, p.paymentStatus = PaymentStatus.Completed.value →
      p ∈ w.db.payments.rows ∨ w.db.payments.find? p.id = none) : w'.Uncompleted order := by
  rcases h.db with hdb | ⟨c, hc, hdb, -⟩
  · exact ⟨hdb ▸ hu.row, hdb ▸ hu.payments⟩
  have hpayments : ∀ p ∈ w'.db.payments.rows, p.orderId = order.id →
      p.paymentStatus ≠ PaymentStatus.Completed.value := by
    intro p hp hid hst
    rcases hnew p hp hst with hold | hfree
    · exact hu.payments p hold hid hst
    rw [hdb] at hp
    rcases hc.allowed.mem_run.1 hp with rfl | ⟨hp, -⟩
    · have hadm := hc.admitted (hid ▸ ht)
      rw [hc.allowed.find?_row] at hfree
      cases c with
      | deposit order' q =>
        have hsub : q.paymentStatus = _ := hc.allowed.2.2.2.status
        exact absurd (hsub.symm.trans hst) (by decide)
      | cashReturn order' q st =>
        have hpos : 0 < q.amount.toRat := hc.allowed.2.2.2.amount
        change q.amount.toRat ≤ w.db.balance .completed q.orderId at hadm
        change q.orderId = order.id at hid
        rw [hid, hu.balance] at hadm
        linarith
      | advance q st => cases hfree
      | complete order' q paidAt st => cases hfree
    · exact Table.find?_eq_none.1 hfree p hp rfl
  refine ⟨?_, hpayments⟩
  by_cases hid : c.row.orderId = order.id
  · have hrow := hpayments c.row (hdb ▸ hc.allowed.mem_run.2 (Or.inl rfl)) hid
    rw [hdb]
    cases c with
    | deposit order' q =>
      rw [Change.orders_run_of_not_assigned rfl]
      exact hu.row
    | cashReturn order' q st => exact absurd hc.allowed.2.2.2.status hrow
    | advance q st =>
      rw [Change.orders_run_of_not_assigned rfl]
      exact hu.row
    | complete order' q paidAt st => exact absurd rfl hrow
  · rw [hdb, hc.allowed.find?_orders_run_of_ne hid]
    exact hu.row

/-- **Without SQL from attribute reads nothing is ever paid**: in every run of this kind, for an
order that starts without payments, no payment is ever completed, the order keeps its row, and the
only payments that are ever returned to a user are deposits. -/
theorem never_paid (types : Set String) (py : Pydantic) {w : World} (hw : w.AtRest) {order : Order}
    (horder : w.db.orders.find? order.id = some order)
    (hnew : ∀ p ∈ w.db.payments.rows, p.orderId ≠ order.id)
    {s : Config Stmt Err Outcome World Session} {es : List (Event (Call types) Env)}
    (hs : (paySystem types py).run System.anyStep (atRest w) es = some s)
    (hes : ∀ i env, .run i env ∈ es → env.greenlet = false) :
    (∀ p ∈ s.world.db.payments.rows, p.orderId = order.id →
      p.paymentStatus ≠ PaymentStatus.Completed.value) ∧
    s.world.db.orders.find? order.id = some order ∧
    ∀ p, .ok (.payment p) ∈ (paySystem types py).results (atRest w) es → p.orderId = order.id →
      p.operationType ≠ OperationType.Return.value := by
  have hverified := verified types (· = order.id) py
  have hvalid := valid_of_new types py hw hnew
  have hgreenlets : Greenlets false es := fun i env he hgreen =>
    (Bool.false_ne_true ((hes i env he).symm.trans hgreen)).elim
  obtain ⟨g, -, -, -, hu, hdelivers⟩ := linked_induction py hw hs hgreenlets
    (fun es w' g => NoneCompletes g ∧ w'.Uncompleted order ∧
      w'.Delivers ((paySystem types py).results (atRest w) es))
    ⟨fun _ _ h => (nomatch h), ⟨horder, fun p hp hid => absurd hid (hnew p hp)⟩, nofun⟩
    fun es c e c' g g' hrun he hlinked hm ⟨hnone, hu, hdelivers⟩ => by
      refine ⟨hnone.move hm, ?_, ?_⟩
      · have hvalid' := hvalid.reach hverified (System.reach_of_run es hrun)
        rcases (hvalid'.step hverified e he).2 with heq | hguar
        · rwa [heq]
        · exact hguar.uncompleted rfl hu fun p => hlinked.completed_row hnone hm
      · have hresults : (paySystem types py).results (atRest w) (es ++ [e]) = _ :=
          System.results_concat hrun he
        rw [hresults]
        exact hlinked.delivers hm hdelivers
  refine ⟨hu.payments, hu.row, fun p hp hid hop => ?_⟩
  obtain ⟨p', hp', horigin⟩ := mem_origins_iff.1 (hdelivers p hp).1
  have hid' : p'.orderId = order.id := horigin.orderId.trans hid
  -- A return is stored as completed, at once and for ever.
  have hlawful := (hvalid.reach hverified (System.reach_of_run es hs)).inv.lawful order.id rfl
  obtain ⟨-, order', -, hlife⟩ := hlawful p' hp' hid'
  exact hu.payments p' hp' hid' (hlife.ofReturn (horigin.operationType.trans hop)).2.1

/-- A deposit, and a check of it that the bank answers with completed: the check raises, and the
payment stays submitted. -/
theorem never_paid_sample : ∃ (s : Config Stmt Err Outcome World Session)
    (es : List (Event (Call endpointTypes) Env)),
    (paySystem endpointTypes .numbers).run System.anyStep (atRest sampleWorld) es = some s ∧
    s.world.answers.length = 1 ∧
    (∀ p ∈ s.world.db.payments.rows, p.orderId = 1 →
      p.paymentStatus ≠ PaymentStatus.Completed.value) ∧
    s.world.db.orders.find? 1 = some sampleOrder ∧
    ∀ p, .ok (.payment p) ∈ (paySystem endpointTypes .numbers).results (atRest sampleWorld) es →
      p.orderId = 1 → p.operationType ≠ OperationType.Return.value := by
  let env := { sampleEnv "a" PaymentStatus.Completed.value with greenlet := false }
  let es : List (Event (Call endpointTypes) Env) :=
    .spawn 0 (.deposit 7 sampleHalf ⟨_, rfl⟩) :: List.replicate 7 (.run 0 env) ++
      .spawn 1 (.check 1) :: List.replicate 5 (.run 1 env)
  have hany : ((paySystem endpointTypes .numbers).run System.anyStep (atRest sampleWorld) es).any
      (fun s => decide (s.world.answers.length = 1)) = true := by decide +kernel
  obtain ⟨s, hs, hlen⟩ := (Option.any_eq_true _ _).1 hany
  have hes : ∀ i env, .run i env ∈ es → env.greenlet = false := by
    intro i env' h
    simp only [es, List.mem_append, List.mem_cons, List.mem_replicate, reduceCtorEq, false_or,
      Event.run.injEq] at h
    rcases h with ⟨-, -, rfl⟩ | ⟨-, -, rfl⟩ <;> rfl
  have horder : sampleWorld.db.orders.find? sampleOrder.id = some sampleOrder := rfl
  exact ⟨s, es, hs, of_decide_eq_true hlen, never_paid endpointTypes .numbers sampleWorld_atRest
    horder (fun _ hp => nomatch hp) hs hes⟩

end PaySystem
