import PaySystem.Interleaving.Statements

/-!
# The effect of a statement

What one statement of a transaction does to the rows, to the flushed writes, to the payment sequence
and to the enqueued tasks, as a function of the statement and of its answer. The rows that running
transactions have inserted wait under ids of their own, so a commit stores all of them, and no later
commit takes a stored row or its origin away.
-/

namespace PaySystem

variable {i j : ℕ} {w w' : World} {σ σ' : Session} {β : Type} {s : Stmt β} {r : Except Err β}
  {env : Env} {db : Db} {ws : List Write} {p q : Payment}

/-! ## Effects -/

/-- The writes of a transaction that had the writes `ws`, once the statement is answered. -/
def Stmt.written (ws : List Write) {β : Type} : Stmt β → Except Err β → List Write
  | .insertPayment p, .ok id => ws ++ [.insertPayment { p with id := id }]
  | .updatePayment id st at', .ok _ => ws ++ [.updatePayment id st at']
  | .updateOrder id st, .ok _ => ws ++ [.updateOrder id st]
  | .commit, .ok _ => []
  | _, _ => ws

/-- The database, once the statement of a transaction with the writes `ws` is answered. -/
def Stmt.committed (ws : List Write) (db : Db) {β : Type} : Stmt β → Except Err β → Db
  | .commit, .ok _ => ws.foldl Db.apply db
  | _, _ => db

/-- The payments whose tasks the statement has enqueued. -/
def Stmt.enqueued {β : Type} : Stmt β → Except Err β → List ℕ
  | .applyAsync id, .ok _ => [id]
  | _, _ => []

/-- The row that a write inserts. -/
def Write.inserted : Write → Option Payment
  | .insertPayment p => some p
  | _ => none

/-- The rows that the writes insert. -/
def inserts (ws : List Write) : List Payment := ws.filterMap Write.inserted

/-- What a statement of transaction `i` does when it is answered by `r`. -/
structure Effect (i : ℕ) (s : Stmt β) (r : Except Err β) (w w' : World) : Prop where
  db : w'.db = s.committed (w.writes i) w.db r
  writes : w'.writes = Function.update w.writes i (s.written (w.writes i) r)
  queue : w'.queue = w.queue ++ s.enqueued r
  seq : w.paymentSeq ≤ w'.paymentSeq
  newId : ∀ p ∈ inserts (s.written [] r), p.id = w.paymentSeq ∧ p.id < w'.paymentSeq

/-- A statement that nobody else sees. -/
theorem effect_of_eq (hdb : w'.db = w.db) (hws : w'.writes = w.writes) (hq : w'.queue = w.queue)
    (hseq : w.paymentSeq ≤ w'.paymentSeq) (hcommitted : s.committed (w.writes i) w.db r = w.db)
    (hwritten : ∀ ws, s.written ws r = ws) (henqueued : s.enqueued r = []) :
    Effect i s r w w' where
  db := hdb.trans hcommitted.symm
  writes := by rw [hws, hwritten, Function.update_eq_self]
  queue := by rw [hq, henqueued, List.append_nil]
  seq := hseq
  newId p hp := by
    rw [hwritten] at hp
    cases hp

/-- An exception that the driver or the broker raises. -/
theorem effect_error (e : Err) : Effect i s (.error e) w w :=
  effect_of_eq rfl rfl rfl le_rfl (by cases s <;> rfl) (by cases s <;> intro <;> rfl)
    (by cases s <;> rfl)

/-- How a SQL statement is answered: by an exception of the driver, or, once it is blocked no more,
by its action. -/
theorem sql_cases {rqs : List (Row × LockMode)} {act : World → Except Err β × World}
    (h : sql i env w σ rqs act = some (r, w', σ')) : σ' = σ ∧
      ((∃ msg, env.failure = some msg ∧ r = .error (.database msg) ∧ w' = w) ∨
        (∀ rq ∈ rqs, w.blocked i rq = false) ∧ act (w.acquire i rqs) = (r, w')) := by
  unfold sql at h
  cases hf : env.failure with
  | some msg =>
    simp only [hf, Option.some.injEq, Prod.mk.injEq] at h
    exact ⟨h.2.2.symm, Or.inl ⟨msg, rfl, h.1.symm, h.2.1.symm⟩⟩
  | none =>
    simp only [hf] at h
    split_ifs at h with hb
    simp only [Option.some.injEq, Prod.mk.injEq] at h
    refine ⟨h.2.2.symm, Or.inr ⟨fun rq hrq => ?_, Prod.ext h.1 h.2.1⟩⟩
    rw [List.any_eq_true] at hb
    simpa using fun hrq' => hb ⟨rq, hrq, hrq'⟩

private theorem effect_sql {rqs : List (Row × LockMode)} {act : World → Except Err β × World}
    (h : sql i env w σ rqs act = some (r, w', σ'))
    (hact : ∀ w' r, act (w.acquire i rqs) = (r, w') → Effect i s r w w') : Effect i s r w w' := by
  rcases (sql_cases h).2 with ⟨msg, -, rfl, rfl⟩ | ⟨-, ha⟩
  · exact effect_error _
  · exact hact _ _ ha

/-- **The effect of every statement.** -/
theorem effect_of_exec (h : execStmt i env w σ s = some (r, w', σ')) : Effect i s r w w' := by
  cases s with
  | insertPayment p =>
    refine effect_sql h fun w' r ha => ?_
    unfold World.insertPayment at ha
    split_ifs at ha with hfits <;> cases ha
    · refine ⟨rfl, rfl, (List.append_nil _).symm, Nat.le_succ _, fun q hq => ?_⟩
      obtain rfl := List.mem_singleton.1 hq
      exact ⟨rfl, Nat.lt_succ_self _⟩
    · exact effect_of_eq rfl rfl rfl (Nat.le_succ _) rfl (fun _ => rfl) rfl
  | updatePayment id st at' =>
    simp only [execStmt] at h
    refine effect_sql h fun w' r ha => ?_
    cases ha
    exact ⟨rfl, rfl, (List.append_nil _).symm, le_rfl, fun _ hq => absurd hq List.not_mem_nil⟩
  | updateOrder id st =>
    simp only [execStmt] at h
    refine effect_sql h fun w' r ha => ?_
    cases ha
    exact ⟨rfl, rfl, (List.append_nil _).symm, le_rfl, fun _ hq => absurd hq List.not_mem_nil⟩
  | commit =>
    simp only [execStmt] at h
    refine effect_sql h fun w' r ha => ?_
    cases ha
    exact ⟨rfl, rfl, (List.append_nil _).symm, le_rfl, fun _ hq => absurd hq List.not_mem_nil⟩
  | startPayment orderId amount =>
    simp only [execStmt] at h
    split at h <;> cases h <;>
      exact effect_of_eq rfl rfl rfl le_rfl rfl (fun _ => rfl) rfl
  | applyAsync id =>
    simp only [execStmt] at h
    split at h <;> cases h
    · exact effect_error _
    · exact ⟨rfl, (Function.update_eq_self _ _).symm, rfl, le_rfl,
        fun _ hq => absurd hq List.not_mem_nil⟩
  | checkPayment b =>
    cases h
    exact effect_of_eq rfl rfl rfl le_rfl rfl (fun _ => rfl) rfl
  | identityMapGet id =>
    cases h
    exact effect_of_eq rfl rfl rfl le_rfl rfl (fun _ => rfl) rfl
  | awaitOnly =>
    cases h
    exact effect_of_eq rfl rfl rfl le_rfl rfl (fun _ => rfl) rfl
  | now =>
    cases h
    exact effect_of_eq rfl rfl rfl le_rfl rfl (fun _ => rfl) rfl
  | _ =>
    simp only [execStmt] at h
    refine effect_sql h fun w' r ha => ?_
    cases ha
    exact effect_of_eq rfl rfl rfl le_rfl rfl (fun _ => rfl) rfl

/-- Only an insert adds to the rows that wait. -/
theorem inserts_written (ws : List Write) (s : Stmt β) (r : Except Err β) :
    inserts (s.written ws r) = [] ∨
      inserts (s.written ws r) = inserts ws ++ inserts (s.written [] r) := by
  cases r with
  | error e => cases s <;> exact Or.inr (List.append_nil _).symm
  | ok b => cases s <;> first
    | exact Or.inl rfl
    | exact Or.inr (List.append_nil _).symm
    | exact Or.inr (List.filterMap_append)

/-- A statement leaves the database alone, or commits all that the transaction has written. -/
theorem committed_cases (ws : List Write) (db : Db) (s : Stmt β) (r : Except Err β) :
    s.committed ws db r = db ∨
      s.committed ws db r = ws.foldl Db.apply db ∧ s.written ws r = [] := by
  cases r with
  | error e => cases s <;> exact Or.inl rfl
  | ok b => cases s <;> first | exact Or.inl rfl | exact Or.inr ⟨rfl, rfl⟩

theorem inserts_written_length (s : Stmt β) (r : Except Err β) :
    (inserts (s.written [] r)).length ≤ 1 := by
  cases r with
  | error e => cases s <;> exact Nat.zero_le 1
  | ok b => cases s <;> first | exact Nat.zero_le 1 | exact le_rfl

/-! ## Rows that are stored -/

/-- What never changes of a payment. -/
def Payment.origin (p : Payment) : Payment := { p with paymentStatus := "", paidAt := none }

/-- The stored payments, without what may change of them. -/
def Db.origins (db : Db) : List Payment := db.payments.rows.map Payment.origin

theorem origin_eq_iff : q.origin = p.origin ↔ p.SameOrigin q := by
  constructor
  · intro h
    simp only [Payment.origin, Payment.mk.injEq, true_and, and_true] at h
    exact ⟨h.1, h.2.1, h.2.2.1, h.2.2.2.1, h.2.2.2.2.1, h.2.2.2.2.2.1, h.2.2.2.2.2.2⟩
  · intro h
    simp only [Payment.origin, h.id, h.userId, h.orderId, h.paymentType, h.operationType, h.amount,
      h.bankPaymentId]

theorem mem_origins_iff : p.origin ∈ db.origins ↔ ∃ p' ∈ db.payments.rows, p.SameOrigin p' := by
  rw [Db.origins, List.mem_map]
  exact exists_congr fun q => and_congr_right fun _ => origin_eq_iff

theorem find?_eq_none_iff_origins {k : ℕ} :
    db.payments.find? k = none ↔ ∀ q ∈ db.origins, q.id ≠ k := by
  rw [Table.find?_eq_none, Db.origins, List.forall_mem_map]
  exact Iff.rfl

/-- A write keeps the origins of all rows, and adds that of the row it inserts. -/
theorem origins_apply (x : Write)
    (hx : ∀ p, x.inserted = some p → db.payments.find? p.id = none) :
    (db.apply x).origins = db.origins ++ x.inserted.toList.map Payment.origin := by
  cases x with
  | insertPayment q =>
    change (db.payments.insert q).rows.map Payment.origin = _
    rw [Table.insert_rows (hx q rfl), List.map_append]
    rfl
  | updatePayment id st at' =>
    refine Eq.trans ?_ (List.append_nil _).symm
    cases hf : db.payments.find? id with
    | none => simp only [Db.apply, hf]
    | some q =>
      rw [Db.origins, payments_updatePayment hf]
      change (db.payments.rows.map _).map Payment.origin = _
      rw [List.map_map]
      refine List.map_congr_left fun y hy => ?_
      change (Table.replace { q with paymentStatus := st, paidAt := at' } y).origin = y.origin
      unfold Table.replace
      split_ifs with hid
      · obtain rfl : y = q := Table.eq_of_key_eq hy (Table.mem_of_find? hf) hid
        rfl
      · rfl
  | updateOrder id st =>
    refine Eq.trans ?_ (List.append_nil _).symm
    rw [Db.origins, payments_updateOrder]
    rfl

/-- Rows that are inserted under unused ids are stored, and nothing else is. -/
theorem origins_foldl (hunused : ∀ p ∈ inserts ws, db.payments.find? p.id = none)
    (hnodup : ((inserts ws).map Payment.id).Nodup) :
    (ws.foldl Db.apply db).origins = db.origins ++ (inserts ws).map Payment.origin := by
  induction ws generalizing db with
  | nil => exact (List.append_nil _).symm
  | cons x ws ih =>
    have hcons : inserts (x :: ws) = x.inserted.toList ++ inserts ws := by
      cases hx : x.inserted with
      | none => exact List.filterMap_cons_none hx
      | some q => exact List.filterMap_cons_some hx
    rw [hcons] at hunused hnodup ⊢
    rw [List.map_append] at hnodup
    have happly : (db.apply x).origins = db.origins ++ x.inserted.toList.map Payment.origin :=
      origins_apply x fun p hp => hunused p (List.mem_append_left _ (by simp [hp]))
    rw [List.foldl_cons, ih (fun p hp => ?_) (List.nodup_append.1 hnodup).2.1, happly,
      List.map_append, List.append_assoc]
    rw [find?_eq_none_iff_origins, happly]
    intro q hq hid
    rcases List.mem_append.1 hq with hq | hq
    · have hfree := hunused p (List.mem_append_right _ hp)
      exact find?_eq_none_iff_origins.1 hfree q hq hid
    · obtain ⟨q', hq', rfl⟩ := List.mem_map.1 hq
      exact (List.nodup_append.1 hnodup).2.2 _ (List.mem_map_of_mem hq') _
        (List.mem_map_of_mem hp) hid

/-! ## Rows that wait for their commit -/

/-- The rows that running transactions have inserted have ids of their own. -/
structure World.Pending (w : World) : Prop where
  lt : ∀ i, ∀ p ∈ inserts (w.writes i), p.id < w.paymentSeq
  storedLt : ∀ p ∈ w.db.payments.rows, p.id < w.paymentSeq
  unused : ∀ i, ∀ p ∈ inserts (w.writes i), w.db.payments.find? p.id = none
  nodup : ∀ i, ((inserts (w.writes i)).map Payment.id).Nodup
  apart : ∀ i j, i ≠ j → ∀ p ∈ inserts (w.writes i), ∀ q ∈ inserts (w.writes j), p.id ≠ q.id

theorem World.AtRest.pending (h : w.AtRest) : w.Pending := by
  have hnil : ∀ i, inserts (w.writes i) = [] := fun i => by
    rw [h.writes]
    rfl
  refine ⟨fun i p hp => ?_, h.paymentId, fun i p hp => ?_, fun i => ?_, fun i _ _ p hp => ?_⟩ <;>
    first | rw [hnil] at hp; cases hp | rw [hnil]; exact List.nodup_nil

/-- The end of a transaction. -/
theorem World.Pending.close (h : w.Pending) (i : ℕ) : (w.close i).Pending := by
  have hsub : ∀ j p, p ∈ inserts ((w.close i).writes j) →
      p ∈ inserts (w.writes j) ∧ j ≠ i := by
    intro j p hp
    by_cases hj : j = i
    · subst hj
      simp only [World.close, Function.update_self] at hp
      cases hp
    · simp only [World.close, Function.update_of_ne hj] at hp
      exact ⟨hp, hj⟩
  refine ⟨fun j p hp => h.lt j p (hsub j p hp).1, h.storedLt,
    fun j p hp => h.unused j p (hsub j p hp).1, fun j => ?_,
    fun j k hjk p hp q hq => h.apart j k hjk p (hsub j p hp).1 q (hsub k q hq).1⟩
  by_cases hj : j = i
  · subst hj
    simp only [World.close, Function.update_self]
    exact List.nodup_nil
  · simp only [World.close, Function.update_of_ne hj]
    exact h.nodup j

/-- A commit would store the rows that the transaction has inserted. -/
theorem World.Pending.origins_view (h : w.Pending) (i : ℕ) :
    (w.view i).origins = w.db.origins ++ (inserts (w.writes i)).map Payment.origin :=
  origins_foldl (h.unused i) (h.nodup i)

theorem World.Pending.origins_commit (h : w.Pending) (he : Effect i s r w w') :
    w'.db.origins = w.db.origins ∨ w'.writes i = [] ∧
      w'.db.origins = w.db.origins ++ (inserts (w.writes i)).map Payment.origin := by
  rw [he.db, he.writes, Function.update_self]
  rcases committed_cases (w.writes i) w.db s r with hdb | ⟨hdb, hnil⟩ <;> rw [hdb]
  · exact Or.inl rfl
  · exact Or.inr ⟨hnil, h.origins_view i⟩

/-- **A statement keeps the ids of the waiting rows apart.** -/
theorem World.Pending.step (h : w.Pending) (he : Effect i s r w w') : w'.Pending := by
  have hself : w'.writes i = s.written (w.writes i) r := by rw [he.writes, Function.update_self]
  have hother : ∀ j, j ≠ i → w'.writes j = w.writes j := fun j hj => by
    rw [he.writes, Function.update_of_ne hj]
  -- A row that waits has waited before, or is the new one.
  have hwait : ∀ j, ∀ p ∈ inserts (w'.writes j), p ∈ inserts (w.writes j) ∨
      j = i ∧ p.id = w.paymentSeq ∧ p.id < w'.paymentSeq := by
    intro j p hp
    by_cases hj : j = i
    · subst hj
      rw [hself] at hp
      rcases inserts_written (w.writes j) s r with hnil | happ
      · rw [hnil] at hp
        cases hp
      · rw [happ, List.mem_append] at hp
        exact hp.imp_right fun hp => ⟨rfl, he.newId p hp⟩
    · rw [hother j hj] at hp
      exact Or.inl hp
  have hdb := h.origins_commit he
  have hstored : ∀ q ∈ w'.db.origins, q.id < w.paymentSeq := by
    have hold : ∀ q ∈ w.db.origins, q.id < w.paymentSeq := List.forall_mem_map.2 h.storedLt
    rcases hdb with hdb | ⟨-, hdb⟩ <;> rw [hdb]
    · exact hold
    · exact List.forall_mem_append.2 ⟨hold, List.forall_mem_map.2 (h.lt i)⟩
  refine ⟨fun j p hp => ?_,
    fun p hp => (List.forall_mem_map.1 hstored p hp).trans_le he.seq, fun j p hp => ?_,
    fun j => ?_, fun j k hjk p hp q hq => ?_⟩
  · rcases hwait j p hp with hp | ⟨-, -, hlt⟩
    · exact (h.lt j p hp).trans_le he.seq
    · exact hlt
  · rw [find?_eq_none_iff_origins]
    intro q hq hid
    rcases hwait j p hp with hold | ⟨-, hnew, -⟩
    · have hfree := find?_eq_none_iff_origins.1 (h.unused j p hold)
      rcases hdb with hdb | ⟨hnil, hdb⟩ <;> rw [hdb] at hq
      · exact hfree q hq hid
      · rcases List.mem_append.1 hq with hq | hq
        · exact hfree q hq hid
        · obtain ⟨q', hq', rfl⟩ := List.mem_map.1 hq
          refine h.apart j i (fun hj => ?_) p hold q' hq' hid.symm
          rw [hj, hnil] at hp
          cases hp
    · have hlt := hstored q hq
      omega
  · by_cases hj : j = i
    · subst hj
      rw [hself]
      rcases inserts_written (w.writes j) s r with hnil | happ
      · rw [hnil]
        exact List.nodup_nil
      · rw [happ, List.map_append]
        refine (h.nodup j).append ?_ fun id hid hid' => ?_
        · have hlen := inserts_written_length s r
          match hins : inserts (s.written [] r), hlen with
          | [], _ => exact List.nodup_nil
          | [x], _ => exact List.nodup_singleton _
        · obtain ⟨p, hp, rfl⟩ := List.mem_map.1 hid
          obtain ⟨q, hq, hqp⟩ := List.mem_map.1 hid'
          have hlt := h.lt j p hp
          have hnew := (he.newId q hq).1
          omega
    · rw [hother j hj]
      exact h.nodup j
  · rcases hwait j p hp with hp | ⟨rfl, hp, -⟩ <;> rcases hwait k q hq with hq | ⟨rfl, hq, -⟩
    · exact h.apart j k hjk p hp q hq
    · exact fun h' => absurd (h.lt j p hp) (by omega)
    · exact fun h' => absurd (h.lt k q hq) (by omega)
    · exact absurd rfl hjk

end PaySystem
