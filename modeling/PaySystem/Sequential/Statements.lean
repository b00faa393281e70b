import PaySystem.Services.Tasks

/-!
# The statements of a transaction that runs alone

While a call runs alone, no statement has to wait, and the transaction sees the database with its
own writes. `Alone` describes such a moment of a call, by the committed rows, the writes of the
call, and what the bank and the queue hold; there is one rule for each statement.
-/

namespace PaySystem

open Prog Machine

/-- Only transaction `i` runs. `db` is committed and `ws` are its writes; the bank and the queue
hold `bank` and `queue`. -/
structure Alone (i : ℕ) (db : Db) (ws : List Write) (bank : List BankPayment) (queue : List ℕ)
    (w : World) : Prop where
  locks : ∀ l ∈ w.locks, l.tx = i
  others : ∀ j, j ≠ i → w.writes j = []
  reads : ∀ r ∈ w.reads, r.tx = i
  started : ∀ x ∈ w.started, x.1 = i
  ids : ∀ p ∈ db.payments.rows, p.id < w.paymentSeq
  newIds : ∀ p, .insertPayment p ∈ ws → p.id < w.paymentSeq
  db : w.db = db
  writes : w.writes i = ws
  bank : w.bank = bank
  queue : w.queue = queue

/-- A call run alone to its end: its result, and the world that it leaves. -/
def runAlone {α : Type} (p : Tx α) (i : ℕ) (env : ℕ → Env) (w : World) (σ : Session) :
    Option (Except Err α × World) :=
  (p.eval machine i env w σ).map fun x => (x.result, x.world.close i)

variable {i : ℕ} {env : ℕ → Env} {w w' : World} {σ : Session} {db : Db} {ws : List Write}
  {bank : List BankPayment} {queue : List ℕ} {β : Type} {orderId paymentId : ℕ}

theorem exists_runAlone {α : Type} {p : Tx α}
    {Q : Except Err α → Session → World → (ℕ → Env) → Prop} (h : machine.alone i p env Q σ w) :
    ∃ r w' σ' env', runAlone p i env w σ = some (r, w'.close i) ∧ Q r σ' w' env' := by
  obtain ⟨x, hx, hQ⟩ := eval_of_alone h
  exact ⟨x.result, x.world, x.session, x.rest, by rw [runAlone, hx]; rfl, hQ⟩

/-- A call starts alone in a world at rest. -/
theorem World.AtRest.alone (h : w.AtRest) (i : ℕ) : Alone i w.db [] w.bank w.queue w where
  locks l hl := by
    rw [h.locks] at hl
    cases hl
  others j _ := h.writes j
  reads r hr := by
    rw [h.reads] at hr
    cases hr
  started x hx := by
    rw [h.started] at hx
    cases hx
  ids := h.paymentId
  newIds p hp := nomatch hp
  db := rfl
  writes := h.writes i
  bank := rfl
  queue := rfl

namespace Alone

/-- The world is at rest when the call has ended. -/
theorem atRest_close (h : Alone i db ws bank queue w) : (w.close i).AtRest where
  locks := by
    refine List.filter_eq_nil_iff.2 fun l hl => ?_
    simp [h.locks l hl]
  writes j := by
    by_cases hj : j = i
    · subst hj
      exact Function.update_self _ _ _
    · exact (Function.update_of_ne hj _ _).trans (h.others j hj)
  reads := by
    refine List.filter_eq_nil_iff.2 fun r hr => ?_
    simp [h.reads r hr]
  started := by
    refine List.filter_eq_nil_iff.2 fun x hx => ?_
    simp [h.started x hx]
  paymentId p hp := by
    change p ∈ w.db.payments.rows at hp
    rw [h.db] at hp
    exact h.ids p hp

theorem view (h : Alone i db ws bank queue w) : w.view i = ws.foldl Db.apply db := by
  rw [World.view, h.writes, h.db]

theorem not_blocked (h : Alone i db ws bank queue w) (rq : Row × LockMode) :
    w.blocked i rq = false := by
  rw [World.blocked, List.any_eq_false]
  intro l hl
  simp [h.locks l hl]

theorem acquire (h : Alone i db ws bank queue w) (rqs : List (Row × LockMode)) :
    Alone i db ws bank queue (w.acquire i rqs) where
  locks l hl := by
    rcases List.mem_append.1 hl with hl | hl
    · exact h.locks l hl
    · obtain ⟨rq, -, rfl⟩ := List.mem_map.1 hl
      rfl
  others := h.others
  reads := h.reads
  started := h.started
  ids := h.ids
  newIds := h.newIds
  db := h.db
  writes := h.writes
  bank := h.bank
  queue := h.queue

theorem read (h : Alone i db ws bank queue w) (r : ReadOf) :
    Alone i db ws bank queue (w.read i r) where
  locks := h.locks
  others := h.others
  reads r' hr := by
    rcases List.mem_append.1 hr with hr | hr
    · exact h.reads r' hr
    · rw [List.mem_singleton.1 hr]
  started := h.started
  ids := h.ids
  newIds := h.newIds
  db := h.db
  writes := h.writes
  bank := h.bank
  queue := h.queue

theorem write (h : Alone i db ws bank queue w) (x : Write)
    (hx : ∀ p, x = .insertPayment p → p.id < w.paymentSeq) :
    Alone i db (ws ++ [x]) bank queue (w.write i x) where
  locks := h.locks
  others j hj := (Function.update_of_ne hj _ _).trans (h.others j hj)
  reads := h.reads
  started := h.started
  ids := h.ids
  newIds p hp := by
    rcases List.mem_append.1 hp with hp | hp
    · exact h.newIds p hp
    · exact hx p (List.mem_singleton.1 hp).symm
  db := h.db
  writes := by
    change Function.update w.writes i (w.writes i ++ [x]) i = _
    rw [Function.update_self, h.writes]
  bank := h.bank
  queue := h.queue

/-- The ids of the committed rows stay behind the sequence. -/
theorem ids_foldl {n : ℕ} (ws : List Write) (db : Db) (hdb : ∀ p ∈ db.payments.rows, p.id < n)
    (hws : ∀ p, .insertPayment p ∈ ws → p.id < n) :
    ∀ p ∈ (ws.foldl Db.apply db).payments.rows, p.id < n := by
  induction ws generalizing db with
  | nil => exact hdb
  | cons x ws ih =>
    refine ih (db.apply x) (fun p hp => ?_) fun p hp => hws p (List.mem_cons_of_mem _ hp)
    cases x with
    | insertPayment q =>
      rcases Table.mem_of_mem_insert hp with hp | rfl
      · exact hdb p hp
      · exact hws p List.mem_cons_self
    | updatePayment id st at' =>
      cases hq : db.payments.find? id with
      | none =>
        rw [Db.apply, hq] at hp
        exact hdb p hp
      | some q =>
        rw [payments_updatePayment hq] at hp
        obtain ⟨q', hq', rfl⟩ := List.mem_map.1 hp
        change Keyed.key (Table.replace _ q') < n
        rw [Table.key_replace]
        exact hdb q' hq'
    | updateOrder id st =>
      rw [payments_updateOrder] at hp
      exact hdb p hp

theorem commit (h : Alone i db ws bank queue w) :
    Alone i (ws.foldl Db.apply db) [] bank queue (w.commit i) where
  locks l hl := by
    have hl := List.mem_filter.1 hl
    exact h.locks l hl.1
  others j hj := (Function.update_of_ne hj _ _).trans (h.others j hj)
  reads r hr := by
    have hr := List.mem_filter.1 hr
    exact h.reads r hr.1
  started x hx := by
    have hx := List.mem_filter.1 hx
    exact h.started x hx.1
  ids := ids_foldl ws db h.ids h.newIds
  newIds p hp := nomatch hp
  db := h.view
  writes := Function.update_self _ _ _
  bank := h.bank
  queue := h.queue

end Alone

/-! ## Rules -/

section SQL

variable (h : Alone i db ws bank queue w)

include h

/-- A SQL statement: the driver raises, or the statement acts. -/
theorem alone_sql {s : Stmt β} (act : World → Except Err β × World)
    {Q : Except Err β → Session → World → (ℕ → Env) → Prop}
    (hexec : ∀ env w, execStmt i env w σ s = sql i env w σ (requests w s) act)
    (hfail : ∀ msg, (env 0).failure = some msg →
      Q (.error (.database msg)) σ w fun n => env (n + 1))
    (hact : (env 0).failure = none → ∀ rqs,
      Q (act (w.acquire i rqs)).1 σ (act (w.acquire i rqs)).2 fun n => env (n + 1)) :
    machine.alone i (send s) env Q σ w := by
  cases hf : (env 0).failure with
  | some msg =>
    refine alone_send ?_ (hfail msg hf)
    change execStmt i (env 0) w σ s = _
    rw [hexec, sql, hf]
  | none =>
    have hfree : (requests w s).any (w.blocked i) = false := by
      rw [List.any_eq_false]
      intro rq _
      simp [h.not_blocked rq]
    refine alone_send ?_ (hact hf (requests w s))
    change execStmt i (env 0) w σ s = _
    simp only [hexec, sql, hf, hfree, Bool.false_eq_true, if_false]

/-- A `SELECT`, with the locks that it takes: the transaction sees its own writes. -/
theorem alone_select {s : Stmt β} (value : Db → β) (note : World → World)
    {Q : Except Err β → Session → World → (ℕ → Env) → Prop}
    (hexec : ∀ env w, execStmt i env w σ s = sql i env w σ (requests w s) fun w =>
      (.ok (value (w.view i)), note w))
    (hnote : ∀ w, Alone i db ws bank queue w → Alone i db ws bank queue (note w))
    (hfail : ∀ msg, (env 0).failure = some msg →
      Q (.error (.database msg)) σ w fun n => env (n + 1))
    (hQ : (env 0).failure = none → ∀ w', Alone i db ws bank queue w' →
      Q (.ok (value (ws.foldl Db.apply db))) σ w' fun n => env (n + 1)) :
    machine.alone i (send s) env Q σ w := by
  refine alone_sql h (fun w => (.ok (value (w.view i)), note w)) hexec hfail fun hf rqs => ?_
  have ha := h.acquire rqs
  simp only [ha.view]
  exact hQ hf _ (hnote _ ha)

theorem alone_selectOrderForUpdate
    {Q : Except Err (Option Order) → Session → World → (ℕ → Env) → Prop}
    (hfail : ∀ msg, (env 0).failure = some msg →
      Q (.error (.database msg)) σ w fun n => env (n + 1))
    (hQ : (env 0).failure = none → ∀ w', Alone i db ws bank queue w' →
      Q (.ok ((ws.foldl Db.apply db).orders.find? orderId)) σ w' fun n => env (n + 1)) :
    machine.alone i (send (.selectOrderForUpdate orderId)) env Q σ w :=
  alone_select h (fun db => db.orders.find? orderId) (fun w => w.read i (.order orderId))
    (fun _ _ => rfl) (fun _ ha => ha.read _) hfail hQ

theorem alone_selectPaymentForUpdate
    {Q : Except Err (Option Payment) → Session → World → (ℕ → Env) → Prop}
    (hfail : ∀ msg, (env 0).failure = some msg →
      Q (.error (.database msg)) σ w fun n => env (n + 1))
    (hQ : (env 0).failure = none → ∀ w', Alone i db ws bank queue w' →
      Q (.ok (((ws.foldl Db.apply db).payments.find? paymentId).filter Payment.isOpen)) σ w'
        fun n => env (n + 1)) :
    machine.alone i (send (.selectPaymentForUpdate paymentId)) env Q σ w :=
  alone_select h (fun db => (db.payments.find? paymentId).filter Payment.isOpen) (fun w => w)
    (fun _ _ => rfl) (fun _ ha => ha) hfail hQ

theorem alone_selectPaymentIds {Q : Except Err (List ℕ) → Session → World → (ℕ → Env) → Prop}
    (hfail : ∀ msg, (env 0).failure = some msg →
      Q (.error (.database msg)) σ w fun n => env (n + 1))
    (hQ : (env 0).failure = none → ∀ w', Alone i db ws bank queue w' →
      Q (.ok (((ws.foldl Db.apply db).payments.rows.filter Payment.needsCheck).map Payment.id)) σ w'
        fun n => env (n + 1)) :
    machine.alone i (send .selectPaymentIds) env Q σ w :=
  alone_select h (fun db => (db.payments.rows.filter Payment.needsCheck).map Payment.id)
    (fun w => w) (fun _ _ => rfl) (fun _ ha => ha) hfail hQ

theorem alone_selectOrder {Q : Except Err (Option Order) → Session → World → (ℕ → Env) → Prop}
    (hfail : ∀ msg, (env 0).failure = some msg →
      Q (.error (.database msg)) σ w fun n => env (n + 1))
    (hQ : (env 0).failure = none → ∀ w', Alone i db ws bank queue w' →
      Q (.ok ((ws.foldl Db.apply db).orders.find? orderId)) σ w' fun n => env (n + 1)) :
    machine.alone i (send (.selectOrder orderId)) env Q σ w :=
  alone_select h (fun db => db.orders.find? orderId) (fun w => w.read i (.order orderId))
    (fun _ _ => rfl) (fun _ ha => ha.read _) hfail hQ

theorem alone_selectBalance {f : BalanceFilter}
    {Q : Except Err ℚ → Session → World → (ℕ → Env) → Prop}
    (hfail : ∀ msg, (env 0).failure = some msg →
      Q (.error (.database msg)) σ w fun n => env (n + 1))
    (hQ : (env 0).failure = none → ∀ w', Alone i db ws bank queue w' →
      Q (.ok ((ws.foldl Db.apply db).balance f orderId)) σ w' fun n => env (n + 1)) :
    machine.alone i (send (.selectBalance orderId f)) env Q σ w :=
  alone_select h (fun db => db.balance f orderId) (fun w => w.read i (.balance f orderId))
    (fun _ _ => rfl) (fun _ ha => ha.read _) hfail hQ

/-- An `UPDATE`. -/
theorem alone_update {s : Stmt Unit} (x : Write)
    {Q : Except Err Unit → Session → World → (ℕ → Env) → Prop}
    (hexec : ∀ env w, execStmt i env w σ s = sql i env w σ (requests w s) fun w =>
      (.ok (), w.write i x))
    (hx : ∀ p, x ≠ .insertPayment p)
    (hfail : ∀ msg, (env 0).failure = some msg →
      Q (.error (.database msg)) σ w fun n => env (n + 1))
    (hQ : (env 0).failure = none → ∀ w', Alone i db (ws ++ [x]) bank queue w' →
      Q (.ok ()) σ w' fun n => env (n + 1)) :
    machine.alone i (send s) env Q σ w :=
  alone_sql h (fun w => (.ok (), w.write i x)) hexec hfail fun hf rqs =>
    hQ hf _ ((h.acquire rqs).write x fun p hp => absurd hp (hx p))

theorem alone_updatePayment {st : String} {at' : Option DateTime}
    {Q : Except Err Unit → Session → World → (ℕ → Env) → Prop}
    (hfail : ∀ msg, (env 0).failure = some msg →
      Q (.error (.database msg)) σ w fun n => env (n + 1))
    (hQ : (env 0).failure = none → ∀ w',
      Alone i db (ws ++ [.updatePayment paymentId st at']) bank queue w' →
      Q (.ok ()) σ w' fun n => env (n + 1)) :
    machine.alone i (send (.updatePayment paymentId st at')) env Q σ w :=
  alone_update h _ (fun _ _ => rfl) (fun _ hp => nomatch hp) hfail hQ

theorem alone_updateOrder {st : String} {Q : Except Err Unit → Session → World → (ℕ → Env) → Prop}
    (hfail : ∀ msg, (env 0).failure = some msg →
      Q (.error (.database msg)) σ w fun n => env (n + 1))
    (hQ : (env 0).failure = none → ∀ w',
      Alone i db (ws ++ [.updateOrder orderId st]) bank queue w' →
      Q (.ok ()) σ w' fun n => env (n + 1)) :
    machine.alone i (send (.updateOrder orderId st)) env Q σ w :=
  alone_update h _ (fun _ _ => rfl) (fun _ hp => nomatch hp) hfail hQ

/-- The `INSERT` of a payment: the driver raises, the row is rejected, or it gets an id that is not
in use. -/
theorem alone_insertPayment {p : Payment}
    {Q : Except Err ℕ → Session → World → (ℕ → Env) → Prop}
    (hfail : ∀ msg, (env 0).failure = some msg →
      Q (.error (.database msg)) σ w fun n => env (n + 1))
    (hreject : (env 0).failure = none → (p.fits && (db.orders.find? p.orderId).isSome) = false →
      ∀ w', Alone i db ws bank queue w' →
      Q (.error (.database "payment row rejected")) σ w' fun n => env (n + 1))
    (hQ : (env 0).failure = none → (p.fits && (db.orders.find? p.orderId).isSome) = true →
      ∀ id w', db.payments.find? id = none →
      Alone i db (ws ++ [.insertPayment { p with id := id }]) bank queue w' →
      Q (.ok id) σ w' fun n => env (n + 1)) :
    machine.alone i (send (.insertPayment p)) env Q σ w := by
  refine alone_sql h (World.insertPayment i p) (fun _ _ => rfl) hfail fun hf rqs => ?_
  have ha := h.acquire rqs
  generalize w.acquire i rqs = w₁ at ha
  obtain rfl := ha.db
  have hseq : Alone i w₁.db ws bank queue { w₁ with paymentSeq := w₁.paymentSeq + 1 } :=
    ⟨ha.locks, ha.others, ha.reads, ha.started, fun p hp => (ha.ids p hp).trans_le (Nat.le_succ _),
      fun p hp => (ha.newIds p hp).trans_le (Nat.le_succ _), ha.db, ha.writes, ha.bank, ha.queue⟩
  simp only [World.insertPayment]
  cases hfits : p.fits && (w₁.db.orders.find? p.orderId).isSome with
  | false =>
    simp only [Bool.false_eq_true, if_false]
    exact hreject hf hfits _ hseq
  | true =>
    simp only [if_true]
    refine hQ hf hfits _ _ ?_ ((hseq.acquire _).write _ fun q hq => ?_)
    · rw [Table.find?_eq_none]
      intro q hq hid
      have hlt := ha.ids q hq
      change q.id = w₁.paymentSeq at hid
      omega
    · cases hq
      exact Nat.lt_succ_self _

theorem alone_commit {Q : Except Err Unit → Session → World → (ℕ → Env) → Prop}
    (hfail : ∀ msg, (env 0).failure = some msg →
      Q (.error (.database msg)) σ w fun n => env (n + 1))
    (hQ : (env 0).failure = none → ∀ w', Alone i (ws.foldl Db.apply db) [] bank queue w' →
      Q (.ok ()) σ w' fun n => env (n + 1)) :
    machine.alone i (send .commit) env Q σ w :=
  alone_sql h (fun w => (.ok (), w.commit i)) (fun _ _ => rfl) hfail fun hf rqs =>
    hQ hf _ (h.acquire rqs).commit

/-! ## The bank, the queue, the clock and the session -/

theorem alone_startPayment {amount : ℚ}
    {Q : Except Err String → Session → World → (ℕ → Env) → Prop}
    (haccepted : ∀ id w', (env 0).start = .accepted id →
      Alone i db ws (bank ++ [⟨id, orderId, amount⟩]) queue w' →
      Q (.ok id) σ w' fun n => env (n + 1))
    (hrefused : ∀ e, (env 0).start = .refused e →
      Q (.error (.acquiring e)) σ w fun n => env (n + 1))
    (hlost : ∀ e id w', (env 0).start = .lost e id →
      Alone i db ws (bank ++ [⟨id, orderId, amount⟩]) queue w' →
      Q (.error (.acquiring e)) σ w' fun n => env (n + 1)) :
    machine.alone i (send (.startPayment orderId amount)) env Q σ w := by
  have hstart : ∀ b, Alone i db ws (bank ++ [b]) queue (w.start i b) := by
    intro b
    refine ⟨h.locks, h.others, h.reads, fun x hx => ?_, h.ids, h.newIds, h.db, h.writes,
      congrArg (· ++ [b]) h.bank, h.queue⟩
    rcases List.mem_append.1 hx with hx | hx
    · exact h.started x hx
    · rw [List.mem_singleton.1 hx]
  cases hs : (env 0).start with
  | accepted id =>
    exact alone_send (by simp only [machine, execStmt, hs]) (haccepted id _ hs (hstart _))
  | refused e => exact alone_send (by simp only [machine, execStmt, hs]) (hrefused e hs)
  | lost e id =>
    exact alone_send (by simp only [machine, execStmt, hs]) (hlost e id _ hs (hstart _))

theorem alone_checkPayment {b : String}
    {Q : Except Err (Except Err Dict) → Session → World → (ℕ → Env) → Prop}
    (hQ : ∀ w', Alone i db ws bank queue w' →
      Q (.ok ((env 0).check.mapError .acquiring)) σ w' fun n => env (n + 1)) :
    machine.alone i (attempt (.checkPayment b)) env Q σ w :=
  alone_attempt rfl (hQ _
    ⟨h.locks, h.others, h.reads, h.started, h.ids, h.newIds, h.db, h.writes, h.bank, h.queue⟩)

theorem alone_applyAsync {Q : Except Err Unit → Session → World → (ℕ → Env) → Prop}
    (hfail : ∀ msg, (env 0).failure = some msg →
      Q (.error (.broker msg)) σ w fun n => env (n + 1))
    (hQ : (env 0).failure = none → ∀ w', Alone i db ws bank (queue ++ [paymentId]) w' →
      Q (.ok ()) σ w' fun n => env (n + 1)) :
    machine.alone i (send (.applyAsync paymentId)) env Q σ w := by
  cases hf : (env 0).failure with
  | some msg => exact alone_send (by simp only [machine, execStmt, hf]) (hfail msg hf)
  | none =>
    have hexec : machine.exec i (env 0) w σ (.applyAsync paymentId) =
        some (.ok (), { w with queue := w.queue ++ [paymentId] }, σ) := by
      simp only [machine, execStmt, hf]
    refine alone_send hexec (hQ hf _ ?_)
    exact ⟨h.locks, h.others, h.reads, h.started, h.ids, h.newIds, h.db, h.writes, h.bank,
      congrArg (· ++ [paymentId]) h.queue⟩

end SQL

theorem alone_now {Q : Except Err DateTime → Session → World → (ℕ → Env) → Prop}
    (hQ : Q (.ok (env 0).now) σ w fun n => env (n + 1)) :
    machine.alone i (send .now) env Q σ w :=
  alone_send rfl hQ

theorem alone_identityMapGet {Q : Except Err (Option Order) → Session → World → (ℕ → Env) → Prop}
    (hQ : Q (.ok (σ.identityMap.find? fun o => o.id = orderId)) σ w fun n => env (n + 1)) :
    machine.alone i (send (.identityMapGet orderId)) env Q σ w :=
  alone_send rfl hQ

theorem alone_awaitOnly {Q : Except Err Unit → Session → World → (ℕ → Env) → Prop}
    (hQ : Q (if (env 0).greenlet then .ok () else .error .missingGreenlet) σ w
      fun n => env (n + 1)) :
    machine.alone i (send .awaitOnly) env Q σ w :=
  alone_send rfl hQ

end PaySystem
