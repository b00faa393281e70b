import PaySystem.Interleaving.Interference

/-!
# The statements among other transactions

One rule for each statement of the services: when a transaction that has come from `w` sends it, it
waits only within the order of the locks, does to the others only what is guaranteed, and goes on
with the progress that the rule states.
-/

namespace PaySystem

open RelyGuarantee Prog

variable {types : Set String} {tracked : ℕ → Prop} {py : Pydantic} {i j : ℕ} {w w' w₁ : World}
  {σ : Session} {rqs : List (Row × LockMode)} {ws : List Write} {seen : List ReadOf} {β : Type}

/-! ## Steps that leave the database alone -/

theorem blocked_eq_false_iff {rq : Row × LockMode} : w.blocked i rq = false ↔
    ∀ j mode, j ≠ i → w.Holds j rq.1 mode → mode.conflicts rq.2 = false := by
  simp only [World.blocked, List.any_eq_false, Bool.and_eq_true, decide_eq_true_eq, not_and,
    Bool.not_eq_true]
  constructor
  · intro h j mode hj hw
    exact h ⟨j, rq.1, mode⟩ hw ⟨hj, rfl⟩
  · rintro h ⟨j, row, mode⟩ hl ⟨hj, rfl⟩
    exact h j mode hj hl

/-- A step of transaction `i` that takes the locks `rqs`, makes the writes `ws` and the reads
`seen`, and leaves the database as it is. -/
structure OwnStep (i : ℕ) (rqs : List (Row × LockMode)) (ws : List Write) (seen : List ReadOf)
    (w w' : World) : Prop where
  db : w'.db = w.db
  locks : w'.locks = w.locks ++ rqs.map fun rq => ⟨i, rq.1, rq.2⟩
  writes : w'.writes i = w.writes i ++ ws
  others : ∀ j, j ≠ i → w'.writes j = w.writes j
  reads : ∀ j r, ⟨j, r⟩ ∈ w'.reads → ⟨j, r⟩ ∈ w.reads ∨ j = i ∧ r ∈ seen
  seq : w.paymentSeq ≤ w'.paymentSeq
  bank : w'.bank = w.bank ∧ w'.started = w.started ∨
    ∃ b, w'.bank = w.bank ++ [b] ∧ w'.started = w.started ++ [(i, b)]
  answers : w.answers ⊆ w'.answers

theorem OwnStep.holds_iff (h : OwnStep i rqs ws seen w w') (j : ℕ) (row : Row) (mode : LockMode) :
    w'.Holds j row mode ↔ w.Holds j row mode ∨ j = i ∧ (row, mode) ∈ rqs := by
  simp only [World.Holds, h.locks, List.mem_append, List.mem_map, Lock.mk.injEq, Prod.exists]
  constructor
  · rintro (hw | ⟨row', mode', hrq, rfl, rfl, rfl⟩)
    · exact Or.inl hw
    · exact Or.inr ⟨rfl, hrq⟩
  · rintro (hw | ⟨rfl, hrq⟩)
    · exact Or.inl hw
    · exact Or.inr ⟨row, mode, hrq, rfl, rfl, rfl⟩

theorem OwnStep.progress (h : OwnStep i rqs ws seen w w') :
    Progress tracked i (rqs.map Prod.fst) ws seen w w' where
  kept row mode hw := (h.holds_iff i row mode).2 (Or.inl hw)
  taken row mode hw := by
    rcases (h.holds_iff i row mode).1 hw with hw | ⟨-, hrq⟩
    · exact Or.inl hw
    · exact Or.inr (List.mem_map_of_mem (f := Prod.fst) hrq)
  writes := h.writes
  reads r hr hw := by
    rcases h.reads i r hw with hw | ⟨-, hs⟩
    · exact ⟨hw, by rw [h.db]; exact r.unchanged_refl _⟩
    · exact absurd hs hr
  seq := h.seq
  started b hb := by
    rcases h.bank with ⟨-, hs⟩ | ⟨b', -, hs⟩
    · rwa [hs]
    · rw [hs]
      exact List.mem_append_left _ hb
  answers := h.answers
  loaded order ho := by rwa [h.db]
  order _ _ := by rw [h.db]
  payment _ _ := by rw [h.db]
  nonRejected _ _ _ := by rw [h.db]
  completed _ _ _ := by rw [h.db]

theorem OwnStep.guarantee (h : OwnStep i rqs ws seen w w')
    (hrqs : ∀ rq ∈ rqs, Granted i w w' rq.1 rq.2) : Guarantee types tracked py i w w' where
  others j row mode hj := by simp [h.holds_iff, hj]
  granted row mode hw := by
    rcases (h.holds_iff i row mode).1 hw with hw | ⟨-, hrq⟩
    · exact Or.inl hw
    · exact Or.inr (hrqs (row, mode) hrq)
  writes := h.others
  reads j r hj hw := by
    rcases h.reads j r hw with hw | ⟨rfl, -⟩
    · exact ⟨hw, by rw [h.db]; exact r.unchanged_refl _⟩
    · exact absurd rfl hj
  seq := h.seq
  started j b hj := by
    rcases h.bank with ⟨-, hs⟩ | ⟨b', -, hs⟩ <;> simp [hs, hj]
  bank := h.bank.imp_left fun ⟨hb, hs⟩ => ⟨hb, hs ▸ List.Sublist.refl _⟩
  answers := h.answers
  db := Or.inl h.db

theorem OwnStep.trans {w'' : World} {rqs' : List (Row × LockMode)} {ws' : List Write}
    {seen' : List ReadOf} (h : OwnStep i rqs ws seen w w')
    (hbank : w'.bank = w.bank ∧ w'.started = w.started) (h' : OwnStep i rqs' ws' seen' w' w'') :
    OwnStep i (rqs ++ rqs') (ws ++ ws') (seen ++ seen') w w'' where
  db := h'.db.trans h.db
  locks := by rw [h'.locks, h.locks, List.map_append, List.append_assoc]
  writes := by rw [h'.writes, h.writes, List.append_assoc]
  others j hj := (h'.others j hj).trans (h.others j hj)
  reads j r hr := by
    rcases h'.reads j r hr with hr | ⟨hj, hs⟩
    · rcases h.reads j r hr with hr | ⟨hj, hs⟩
      · exact Or.inl hr
      · exact Or.inr ⟨hj, List.mem_append_left _ hs⟩
    · exact Or.inr ⟨hj, List.mem_append_right _ hs⟩
  seq := h.seq.trans h'.seq
  bank := by
    rw [← hbank.1, ← hbank.2]
    exact h'.bank
  answers _ ha := h'.answers (h.answers ha)

theorem ownStep_refl (i : ℕ) (w : World) : OwnStep i [] [] [] w w :=
  ⟨rfl, (List.append_nil _).symm, (List.append_nil _).symm, fun _ _ => rfl, fun _ _ h => Or.inl h,
    le_rfl, Or.inl ⟨rfl, rfl⟩, List.Subset.refl _⟩

theorem ownStep_acquire (i : ℕ) (rqs : List (Row × LockMode)) (w : World) :
    OwnStep i rqs [] [] w (w.acquire i rqs) :=
  ⟨rfl, rfl, (List.append_nil _).symm, fun _ _ => rfl, fun _ _ h => Or.inl h, le_rfl,
    Or.inl ⟨rfl, rfl⟩, List.Subset.refl _⟩

theorem ownStep_acquire_read (i : ℕ) (rqs : List (Row × LockMode)) (r : ReadOf) (w : World) :
    OwnStep i rqs [] [r] w ((w.acquire i rqs).read i r) where
  db := rfl
  locks := rfl
  writes := (List.append_nil _).symm
  others _ _ := rfl
  reads j r' h := by
    simpa [World.read, World.acquire] using h
  seq := le_rfl
  bank := Or.inl ⟨rfl, rfl⟩
  answers := List.Subset.refl _

theorem ownStep_acquire_write (i : ℕ) (rqs : List (Row × LockMode)) (x : Write) (w : World) :
    OwnStep i rqs [x] [] w ((w.acquire i rqs).write i x) where
  db := rfl
  locks := rfl
  writes := by simp [World.write, World.acquire]
  others j hj := by simp [World.write, World.acquire, Function.update_of_ne hj]
  reads _ _ h := Or.inl h
  seq := le_rfl
  bank := Or.inl ⟨rfl, rfl⟩
  answers := List.Subset.refl _

/-- An `INSERT` makes the row with the next id, locked, or fails. -/
theorem insertPayment_cases (i : ℕ) (p : Payment) (w : World) :
    ((World.insertPayment i p w).1 = .ok w.paymentSeq ∧
      w.paymentSeq < (World.insertPayment i p w).2.paymentSeq ∧
      OwnStep i [(.payment w.paymentSeq, .update)] [.insertPayment { p with id := w.paymentSeq }] []
        w (World.insertPayment i p w).2) ∨
    (∃ e, (World.insertPayment i p w).1 = .error e ∧
      OwnStep i [] [] [] w (World.insertPayment i p w).2) := by
  simp only [World.insertPayment]
  split_ifs with hfits
  · refine Or.inl ⟨rfl, Nat.lt_succ_self _, ?_⟩
    have hstep := ownStep_acquire_write i [(.payment w.paymentSeq, .update)]
      (.insertPayment { p with id := w.paymentSeq }) { w with paymentSeq := w.paymentSeq + 1 }
    exact ⟨hstep.db, hstep.locks, hstep.writes, hstep.others, hstep.reads,
      (Nat.le_succ _).trans hstep.seq, hstep.bank, hstep.answers⟩
  · exact Or.inr ⟨_, rfl, rfl, (List.append_nil _).symm, (List.append_nil _).symm, fun _ _ => rfl,
      fun _ _ h => Or.inl h, Nat.le_succ _, Or.inl ⟨rfl, rfl⟩, List.Subset.refl _⟩

/-! ## Rules -/

/-- A SQL statement: an exception of the driver changes nothing, and a step only happens when none
of the requested locks is blocked. -/
theorem wpOk_sql {s : Stmt β} (act : World → Except Err β × World)
    {Q : β → Session → World → Prop}
    (hexec : ∀ env w, execStmt i env w σ s = sql i env w σ (requests w s) act)
    (h : ∀ w₁, Progress tracked i [] [] [] w w₁ → w₁.Sound types tracked → LockOrder i w₁ s ∧
      ((∀ rq ∈ requests w₁ s, w₁.blocked i rq = false) →
        Guarantee types tracked py i w₁ (act (w₁.acquire i (requests w₁ s))).2 ∧
        ∀ b, (act (w₁.acquire i (requests w₁ s))).1 = .ok b →
          Q b σ (act (w₁.acquire i (requests w₁ s))).2)) :
    (interference types tracked py).wpOk i (send s) Q σ w := by
  refine wpOk_send fun w₁ hr hi => ?_
  obtain ⟨hp, hs⟩ := h w₁ hr hi
  refine ⟨hp, fun env r w₂ σ' he => ?_⟩
  change execStmt i env w₁ σ s = _ at he
  rw [hexec, sql] at he
  cases hf : env.failure with
  | some msg =>
    rw [hf] at he
    cases he
    exact ⟨(ownStep_refl i w₁).guarantee (by simp), fun b hb => nomatch hb⟩
  | none =>
    rw [hf] at he
    simp only at he
    split_ifs at he with hb
    cases he
    refine hs fun rq hrq => ?_
    rw [List.any_eq_true] at hb
    simpa using fun hrq' => hb ⟨rq, hrq, hrq'⟩

/-! ## Locked rows -/

/-- Transaction `i` has locked the order, whose row is `order`. -/
structure HoldsOrder (i : ℕ) (order : Order) (w : World) : Prop where
  lock : w.Holds i (.order order.id) .update
  row : w.db.orders.find? order.id = some order

/-- Transaction `i` has locked the payment, whose row is `p`. -/
structure HoldsPayment (i : ℕ) (p : Payment) (w : World) : Prop where
  lock : w.Holds i (.payment p.id) .update
  row : w.db.payments.find? p.id = some p

variable {rows : List Row} {order : Order} {p : Payment} {orderId paymentId : ℕ}

theorem HoldsOrder.progress (h : HoldsOrder i order w)
    (hp : Progress tracked i rows ws seen w w') : HoldsOrder i order w' :=
  ⟨hp.kept _ _ h.lock, (hp.order _ h.lock).trans h.row⟩

theorem HoldsPayment.progress (h : HoldsPayment i p w)
    (hp : Progress tracked i rows ws seen w w') : HoldsPayment i p w' :=
  ⟨hp.kept _ _ h.lock, (hp.payment _ h.lock).trans h.row⟩

theorem view_of_writes (h : w.writes i = []) : w.view i = w.db := by
  rw [World.view, h, List.foldl_nil]

/-- A transaction without locks may wait for any. -/
theorem lockOrder_of_idle (h : w.Idle i) (s : Stmt β) : LockOrder i w s :=
  fun _ _ _ row mode hw => absurd hw (h.locks row mode)

/-- A statement that takes no locks does not wait. -/
theorem lockOrder_of_requests {s : Stmt β} (h : requests w s = []) : LockOrder i w s := by
  intro rq hmem
  rw [h] at hmem
  cases hmem

/-- A transaction that has locked a row is not blocked on it. -/
theorem not_blocked_of_holds (hw : w.Sound types tracked) {row : Row}
    (h : w.Holds i row .update) (mode : LockMode) : w.blocked i (row, mode) = false := by
  rw [blocked_eq_false_iff]
  intro j mode' hj hj'
  exact absurd hj' (hw.not_holds hj.symm (conflicts_update_left mode') h)

/-- Nobody is blocked on the row of a user. -/
theorem not_blocked_user (hw : w.Sound types tracked) (id : ℕ) :
    w.blocked i (.user id, .keyShare) = false := by
  rw [blocked_eq_false_iff]
  intro j mode' _ hj'
  rw [hw.userLock j id mode' hj']
  rfl

theorem granted_of_not_blocked {row : Row} {mode : LockMode} (hb : w.blocked i (row, mode) = false)
    (hpay : ∀ id, row = .payment id → id < w'.paymentSeq)
    (huser : ∀ id, row = .user id → mode = .keyShare) : Granted i w w' row mode :=
  ⟨blocked_eq_false_iff.1 hb, hpay, huser⟩

/-! ## The locking reads -/

theorem wpOk_getOrderForUpdate {Q : Order → Session → World → Prop} (hidle : w.Idle i)
    (hQ : ∀ order w', order.id = orderId → HoldsOrder i order w' →
      Progress tracked i [.order orderId] [] [.order orderId] w w' → Q order σ w') :
    (interference types tracked py).wpOk i (getOrderForUpdate orderId) Q σ w := by
  refine wpOk_bind (wpOk_sql
    (fun w => (.ok ((w.view i).orders.find? orderId), w.read i (.order orderId)))
    (fun _ _ => rfl) fun w₁ hr hi => ?_)
  have hidle₁ := hr.idle hidle
  refine ⟨lockOrder_of_idle hidle₁ _, fun hfree => ?_⟩
  have hview : w₁.view i = w₁.db := view_of_writes hidle₁.writes
  have hstep := ownStep_acquire_read i (requests w₁ (.selectOrderForUpdate orderId))
    (.order orderId) w₁
  refine ⟨hstep.guarantee fun rq hrq => ?_, fun a ha => ?_⟩
  · have := hfree rq hrq
    simp only [requests] at hrq
    split_ifs at hrq with hsome
    · rw [List.mem_singleton] at hrq
      subst hrq
      exact granted_of_not_blocked this (fun _ h => nomatch h) fun _ h => nomatch h
    · cases hrq
  · have hfind : w₁.db.orders.find? orderId = a := by
      rw [← hview]
      exact Except.ok.inj ha
    cases a with
    | none => exact wpOk_throw
    | some order =>
      have hrqs : requests w₁ (.selectOrderForUpdate orderId) = [(.order orderId, .update)] := by
        simp [requests, hfind]
      have hid : order.id = orderId := Table.key_of_find? hfind
      rw [hrqs] at hstep ⊢
      refine wpOk_pure (hQ order _ hid ⟨?_, ?_⟩ (hr.trans hstep.progress))
      · rw [hid]
        exact (hstep.holds_iff _ _ _).2 (Or.inr ⟨rfl, List.mem_singleton.2 rfl⟩)
      · rw [hid]
        exact hfind

theorem wpOk_getPaymentForUpdate {Q : Option Payment → Session → World → Prop} (hidle : w.Idle i)
    (hnone : ∀ w', Progress tracked i [] [] [] w w' → Q none σ w')
    (hsome : ∀ p w', p.id = paymentId → p.isOpen = true → HoldsPayment i p w' →
      Progress tracked i [.payment paymentId] [] [] w w' → Q (some p) σ w') :
    (interference types tracked py).wpOk i (getPaymentForUpdate paymentId) Q σ w := by
  refine wpOk_sql
    (fun w => (.ok (((w.view i).payments.find? paymentId).filter Payment.isOpen), w))
    (fun _ _ => rfl) fun w₁ hr hi => ?_
  have hidle₁ := hr.idle hidle
  refine ⟨lockOrder_of_idle hidle₁ _, fun hfree => ?_⟩
  have hview : w₁.view i = w₁.db := view_of_writes hidle₁.writes
  have hstep := ownStep_acquire i (requests w₁ (.selectPaymentForUpdate paymentId)) w₁
  refine ⟨hstep.guarantee fun rq hrq => ?_, fun a ha => ?_⟩
  · have := hfree rq hrq
    simp only [requests] at hrq
    split_ifs at hrq with hopen
    · rw [List.mem_singleton] at hrq
      subst hrq
      refine granted_of_not_blocked this (fun id hid => ?_) fun _ h => nomatch h
      obtain ⟨p, hp, -⟩ := (Option.any_eq_true _ _).1 hopen
      have hp' := Table.find?_eq_some.1 hp
      cases hid
      rw [← hp'.2]
      exact hi.paymentId p hp'.1
    · cases hrq
  · have hfind : (w₁.db.payments.find? paymentId).filter Payment.isOpen = a := by
      rw [← hview]
      exact Except.ok.inj ha
    cases a with
    | none =>
      have hrqs : requests w₁ (.selectPaymentForUpdate paymentId) = [] := by
        rw [Option.filter_eq_none_iff] at hfind
        refine if_neg fun hopen => ?_
        obtain ⟨p, hp, hpo⟩ := (Option.any_eq_true _ _).1 hopen
        exact hfind p hp hpo
      rw [hrqs] at hstep ⊢
      exact hnone _ (hr.trans hstep.progress)
    | some p =>
      obtain ⟨hp, hopen⟩ := Option.filter_eq_some_iff.1 hfind
      have hrqs : requests w₁ (.selectPaymentForUpdate paymentId) =
          [(.payment paymentId, .update)] :=
        if_pos ((Option.any_eq_true _ _).2 ⟨p, hp, hopen⟩)
      have hid : p.id = paymentId := Table.key_of_find? hp
      rw [hrqs] at hstep ⊢
      refine hsome p _ hid hopen ⟨?_, ?_⟩ (hr.trans hstep.progress)
      · rw [hid]
        exact (hstep.holds_iff _ _ _).2 (Or.inr ⟨rfl, List.mem_singleton.2 rfl⟩)
      · rw [hid]
        exact hp

/-! ## The other reads -/

theorem acquire_nil (w : World) (i : ℕ) : w.acquire i [] = w := by
  rw [World.acquire, List.map_nil, List.append_nil]

/-- A `SELECT` without locks. -/
theorem wpOk_select {s : Stmt β} (value : Db → β) (r : ReadOf) {Q : β → Session → World → Prop}
    (hrq : ∀ w, requests w s = [])
    (hexec : ∀ env w, execStmt i env w σ s =
      sql i env w σ [] fun w => (.ok (value (w.view i)), w.read i r))
    (hQ : ∀ w', Progress tracked i [] [] [r] w w' → Q (value (w'.view i)) σ w') :
    (interference types tracked py).wpOk i (send s) Q σ w := by
  refine wpOk_sql (fun w => (.ok (value (w.view i)), w.read i r))
    (fun env w => by rw [hexec, hrq]) fun w₁ hr _ => ?_
  rw [hrq]
  refine ⟨lockOrder_of_requests (hrq w₁), fun _ => ?_⟩
  have hstep := ownStep_acquire_read i [] r w₁
  refine ⟨hstep.guarantee (by simp), fun b hb => ?_⟩
  obtain rfl := Except.ok.inj hb
  exact hQ _ (hr.trans hstep.progress)

theorem wpOk_selectBalance {f : BalanceFilter} {Q : ℚ → Session → World → Prop}
    (hQ : ∀ w', Progress tracked i [] [] [.balance f orderId] w w' →
      Q ((w'.view i).balance f orderId) σ w') :
    (interference types tracked py).wpOk i (send (.selectBalance orderId f)) Q σ w :=
  wpOk_select (fun db => db.balance f orderId) _ (fun _ => rfl) (fun _ _ => rfl) hQ

theorem wpOk_selectOrder {Q : Option Order → Session → World → Prop}
    (hQ : ∀ w', Progress tracked i [] [] [.order orderId] w w' →
      Q ((w'.view i).orders.find? orderId) σ w') :
    (interference types tracked py).wpOk i (send (.selectOrder orderId)) Q σ w :=
  wpOk_select (fun db => db.orders.find? orderId) _ (fun _ => rfl) (fun _ _ => rfl) hQ

/-! ## The writes -/

/-- An `UPDATE` of a row that the transaction has locked, or that comes after all that it has
locked. -/
theorem wpOk_update {s : Stmt Unit} (row : Row) (x : Write) {Q : Unit → Session → World → Prop}
    (hrow : ∀ id, row ≠ .user id)
    (hrq : ∀ w, requests w s = [(row, .noKeyUpdate)])
    (hexec : ∀ env w, execStmt i env w σ s =
      sql i env w σ [(row, .noKeyUpdate)] fun w => (.ok (), w.write i x))
    (hpay : ∀ id, row = .payment id → w.Holds i row .update)
    (hlock : w.Holds i row .update ∨ ∀ row' mode, w.Holds i row' mode → row'.rank < row.rank)
    (hQ : ∀ w', Progress tracked i [row] [x] [] w w' → w'.Holds i row .noKeyUpdate → Q () σ w') :
    (interference types tracked py).wpOk i (send s) Q σ w := by
  refine wpOk_sql (fun w => (.ok (), w.write i x)) (fun env w => by rw [hexec, hrq])
    fun w₁ hr hi => ?_
  rw [hrq]
  refine ⟨?_, fun hfree => ?_⟩
  · intro rq hmem hb row' mode hw
    rw [hrq, List.mem_singleton] at hmem
    subst hmem
    rcases hlock with hlock | hlock
    · rw [not_blocked_of_holds hi (hr.kept _ _ hlock)] at hb
      cases hb
    · rcases hr.taken row' mode hw with hw | hnil
      · exact hlock row' mode hw
      · cases hnil
  · have hstep := ownStep_acquire_write i [(row, .noKeyUpdate)] x w₁
    refine ⟨hstep.guarantee fun rq hmem => ?_, fun b _ => ?_⟩
    · rw [List.mem_singleton] at hmem
      subst hmem
      refine granted_of_not_blocked (hfree _ (List.mem_singleton.2 rfl)) (fun id hid => ?_)
        fun id hid => absurd hid (hrow id)
      change row = .payment id at hid
      have hheld := hr.kept _ _ (hpay id hid)
      rw [hid] at hheld
      exact hi.paymentLock i id _ hheld
    · exact hQ _ (hr.trans hstep.progress)
        ((hstep.holds_iff _ _ _).2 (Or.inr ⟨rfl, List.mem_singleton.2 rfl⟩))

theorem wpOk_updatePayment {st : String} {at' : Option DateTime}
    {Q : Unit → Session → World → Prop} (hlock : w.Holds i (.payment paymentId) .update)
    (hQ : ∀ w', Progress tracked i [.payment paymentId] [.updatePayment paymentId st at'] [] w w' →
      Q () σ w') :
    (interference types tracked py).wpOk i (send (.updatePayment paymentId st at')) Q σ w :=
  wpOk_update (.payment paymentId) _ (fun _ h => nomatch h) (fun _ => rfl) (fun _ _ => rfl)
    (fun _ _ => hlock) (Or.inl hlock) fun w' hp _ => hQ w' hp

theorem wpOk_updateOrder {st : String} {Q : Unit → Session → World → Prop}
    (hlock : w.Holds i (.order orderId) .update ∨
      ∀ row mode, w.Holds i row mode → ∃ id, row = .payment id)
    (hQ : ∀ w', Progress tracked i [.order orderId] [.updateOrder orderId st] [] w w' →
      w'.Holds i (.order orderId) .noKeyUpdate → Q () σ w') :
    (interference types tracked py).wpOk i (send (.updateOrder orderId st)) Q σ w := by
  refine wpOk_update (.order orderId) _ (fun _ h => nomatch h) (fun _ => rfl) (fun _ _ => rfl)
    (fun _ h => nomatch h) (hlock.imp_right fun h row mode hw => ?_) hQ
  obtain ⟨id, rfl⟩ := h row mode hw
  exact Nat.zero_lt_one

/-- The `INSERT` of a payment of an order that the transaction has locked. -/
theorem wpOk_insertPayment {Q : ℕ → Session → World → Prop}
    (hlock : w.Holds i (.order p.orderId) .update)
    (hQ : ∀ id w', w'.Holds i (.payment id) .update → w'.db.payments.find? id = none →
      Progress tracked i [.order p.orderId, .user p.userId, .payment id]
        [.insertPayment { p with id := id }] [] w w' → Q id σ w') :
    (interference types tracked py).wpOk i (send (.insertPayment p)) Q σ w := by
  refine wpOk_sql (World.insertPayment i p) (fun _ _ => rfl) fun w₁ hr hi => ?_
  have hlock₁ := hr.kept _ _ hlock
  refine ⟨?_, fun hfree => ?_⟩
  · -- Neither the order nor the user can be blocked.
    intro rq hmem hb
    simp only [requests, List.mem_cons, List.not_mem_nil, or_false] at hmem
    rcases hmem with rfl | rfl
    · rw [not_blocked_of_holds hi hlock₁] at hb
      cases hb
    · rw [not_blocked_user hi] at hb
      cases hb
  · have hacquire := ownStep_acquire i (requests w₁ (.insertPayment p)) w₁
    have hgrant : ∀ w' : World, ∀ rq ∈ requests w₁ (.insertPayment p),
        Granted i w₁ w' rq.1 rq.2 := by
      intro w' rq hmem
      refine granted_of_not_blocked (hfree rq hmem) (fun id hid => ?_) fun id hid => ?_ <;>
      simp only [requests, List.mem_cons, List.not_mem_nil, or_false] at hmem <;>
      rcases hmem with rfl | rfl <;> first | rfl | cases hid
    rcases insertPayment_cases i p (w₁.acquire i (requests w₁ (.insertPayment p))) with
      ⟨hok, hseq, hins⟩ | ⟨e, herr, hins⟩
    · have hstep := hacquire.trans ⟨rfl, rfl⟩ hins
      refine ⟨hstep.guarantee fun rq hmem => ?_, fun id hid => ?_⟩
      · rcases List.mem_append.1 hmem with hmem | hmem
        · exact hgrant _ rq hmem
        · rw [List.mem_singleton] at hmem
          subst hmem
          refine ⟨fun j mode' _ hj => ?_, fun id hid => ?_, fun _ h => nomatch h⟩
          · exact absurd (hi.paymentLock j _ mode' hj) (lt_irrefl _)
          · cases hid
            exact hseq
      · rw [hok] at hid
        obtain rfl := Except.ok.inj hid
        refine hQ _ _ ((hstep.holds_iff _ _ _).2 (Or.inr ⟨rfl, ?_⟩)) ?_ (hr.trans hstep.progress)
        · exact List.mem_append_right _ (List.mem_singleton.2 rfl)
        · rw [hstep.db, Table.find?_eq_none]
          intro q hq hqid
          have hlt := hi.paymentId q hq
          change q.id = w₁.paymentSeq at hqid
          omega
    · have hstep := hacquire.trans ⟨rfl, rfl⟩ hins
      rw [List.append_nil] at hstep
      refine ⟨hstep.guarantee fun rq hmem => hgrant _ rq hmem, fun id hid => ?_⟩
      rw [herr] at hid
      cases hid

/-! ## Commit -/

theorem holds_commit (w : World) (i j : ℕ) (row : Row) (mode : LockMode) :
    (w.commit i).Holds j row mode ↔ w.Holds j row mode ∧ j ≠ i := by
  simp [World.Holds, World.commit, World.close]

theorem idle_commit (w : World) (i : ℕ) : (w.commit i).Idle i where
  locks row mode h := ((holds_commit w i i row mode).1 h).2 rfl
  writes := Function.update_self _ _ _
  reads r h := by simp [World.commit] at h

/-- A commit is a step within the guarantee if its writes are those of a change, or if there are
none. -/
theorem guarantee_commit (h : w.writes i = [] ∨
    ∃ c, Commits types tracked py i w c ∧ w.writes i = c.writes) :
    Guarantee types tracked py i w (w.commit i) where
  others j row mode hj := by simp [holds_commit, hj]
  granted row mode hw := absurd rfl ((holds_commit w i i row mode).1 hw).2
  writes j hj := Function.update_of_ne hj _ _
  reads j r hj hr := by
    simp only [World.commit, List.mem_filter, Bool.and_eq_true, decide_eq_true_eq] at hr
    exact ⟨hr.1, hr.2.2⟩
  seq := le_rfl
  started j b hj := by simp [World.commit, World.close, hj]
  bank := Or.inl ⟨rfl, List.filter_sublist⟩
  answers := List.Subset.refl _
  db := by
    change w.view i = w.db ∨ _
    rcases h with hnil | ⟨c, hc, hws⟩
    · refine Or.inl ?_
      rw [World.view, hnil, List.foldl_nil]
    · refine Or.inr ⟨c, hc, ?_, fun b hb => ?_⟩
      · change w.view i = _
        rw [World.view, hws, Change.run]
      · simp [World.commit, World.close] at hb

/-- A commit ends the transaction. -/
theorem wpOk_commit {Q : Unit → Session → World → Prop}
    (h : ∀ w₁, Progress tracked i [] [] [] w w₁ → w₁.Sound types tracked →
      w₁.writes i = [] ∨ ∃ c, Commits types tracked py i w₁ c ∧ w₁.writes i = c.writes)
    (hQ : ∀ w', w'.Idle i → Q () σ w') :
    (interference types tracked py).wpOk i (send .commit) Q σ w := by
  refine wpOk_sql (fun w => (.ok (), w.commit i)) (fun _ _ => rfl) fun w₁ hr hi => ?_
  have hacq : w₁.acquire i (requests w₁ .commit) = w₁ := acquire_nil w₁ i
  rw [hacq]
  refine ⟨lockOrder_of_requests rfl, fun _ => ⟨guarantee_commit (h w₁ hr hi), fun b _ => ?_⟩⟩
  exact hQ _ (idle_commit w₁ i)

/-! ## The bank, the queue, the clock and the session -/

/-- A statement that takes no locks, does not reach the database, and is always answered. -/
theorem own_exec {s : Stmt β} {Q : Except Err β → Session → World → Prop}
    (hrq : ∀ w, requests w s = [])
    (h : ∀ env w₁, Progress tracked i [] [] [] w w₁ → ∃ r w₂,
      execStmt i env w₁ σ s = some (r, w₂, σ) ∧ OwnStep i [] [] [] w₁ w₂ ∧ Q r σ w₂)
    (w₁ : World) (hr : Progress tracked i [] [] [] w w₁) :
    LockOrder i w₁ s ∧ ∀ env r w₂ σ', execStmt i env w₁ σ s = some (r, w₂, σ') →
      Guarantee types tracked py i w₁ w₂ ∧ Q r σ' w₂ := by
  refine ⟨lockOrder_of_requests (hrq w₁), fun env r w₂ σ' he => ?_⟩
  obtain ⟨r', w₂', he', hown, hq⟩ := h env w₁ hr
  rw [he'] at he
  cases he
  exact ⟨hown.guarantee (by simp), hq⟩

theorem ownStep_start (i : ℕ) (b : BankPayment) (w : World) :
    OwnStep i [] [] [] w (w.start i b) :=
  ⟨rfl, (List.append_nil _).symm, (List.append_nil _).symm, fun _ _ => rfl, fun _ _ h => Or.inl h,
    le_rfl, Or.inr ⟨b, rfl, rfl⟩, List.Subset.refl _⟩

theorem wpOk_startPayment {amount : ℚ} {Q : String → Session → World → Prop}
    (hQ : ∀ id w', (i, ⟨id, orderId, amount⟩) ∈ w'.started → Progress tracked i [] [] [] w w' →
      Q id σ w') :
    (interference types tracked py).wpOk i (send (.startPayment orderId amount)) Q σ w := by
  refine wpOk_send fun w₁ hr _ => own_exec (fun _ => rfl) (fun env w₁ hr => ?_) w₁ hr
  cases hs : env.start with
  | accepted id =>
    have hown := ownStep_start i ⟨id, orderId, amount⟩ w₁
    refine ⟨.ok id, _, by simp only [execStmt, hs], hown, fun b hb => ?_⟩
    obtain rfl := Except.ok.inj hb
    exact hQ id _ (List.mem_append_right _ (List.mem_singleton.2 rfl)) (hr.trans hown.progress)
  | refused e =>
    exact ⟨.error (.acquiring e), w₁, by simp only [execStmt, hs], ownStep_refl i w₁,
      fun _ hb => by cases hb⟩
  | lost e id =>
    exact ⟨.error (.acquiring e), _, by simp only [execStmt, hs]; rfl, ownStep_start i _ w₁,
      fun _ hb => by cases hb⟩

theorem wpOk_checkPayment {b : String} {Q : Except Err Dict → Session → World → Prop}
    (hQ : ∀ r w', (∀ d, r = .ok d → (b, .ok d) ∈ w'.answers) → Progress tracked i [] [] [] w w' →
      Q r σ w') :
    (interference types tracked py).wpOk i (attempt (.checkPayment b)) Q σ w := by
  refine wpOk_attempt fun w₁ hr _ => own_exec (fun _ => rfl) (fun env w₁ hr => ?_) w₁ hr
  have hown : OwnStep i [] [] [] w₁ { w₁ with answers := w₁.answers ++ [(b, env.check)] } :=
    ⟨rfl, (List.append_nil _).symm, (List.append_nil _).symm, fun _ _ => rfl, fun _ _ h => Or.inl h,
      le_rfl, Or.inl ⟨rfl, rfl⟩, List.subset_append_left _ _⟩
  refine ⟨_, _, rfl, hown, hQ _ _ (fun d hd => ?_) (hr.trans hown.progress)⟩
  cases hc : env.check with
  | ok d' =>
    rw [hc] at hd
    obtain rfl := Except.ok.inj hd
    exact List.mem_append_right _ (List.mem_singleton.2 rfl)
  | error e =>
    rw [hc] at hd
    cases hd

theorem wpOk_applyAsync {Q : Unit → Session → World → Prop}
    (hQ : ∀ w', Progress tracked i [] [] [] w w' → Q () σ w') :
    (interference types tracked py).wpOk i (send (.applyAsync paymentId)) Q σ w := by
  refine wpOk_send fun w₁ hr _ => own_exec (fun _ => rfl) (fun env w₁ hr => ?_) w₁ hr
  cases hf : env.failure with
  | some msg =>
    exact ⟨.error (.broker msg), w₁, by simp only [execStmt, hf], ownStep_refl i w₁,
      fun _ hb => by cases hb⟩
  | none =>
    have hown : OwnStep i [] [] [] w₁ { w₁ with queue := w₁.queue ++ [paymentId] } :=
      ⟨rfl, (List.append_nil _).symm, (List.append_nil _).symm, fun _ _ => rfl,
        fun _ _ h => Or.inl h, le_rfl, Or.inl ⟨rfl, rfl⟩, List.Subset.refl _⟩
    exact ⟨.ok (), _, by simp only [execStmt, hf], hown, fun _ _ => hQ _ (hr.trans hown.progress)⟩

theorem wpOk_now {Q : DateTime → Session → World → Prop}
    (hQ : ∀ t w', Progress tracked i [] [] [] w w' → Q t σ w') :
    (interference types tracked py).wpOk i (send .now) Q σ w := by
  refine wpOk_send fun w₁ hr _ => own_exec (fun _ => rfl) (fun env w₁ hr => ?_) w₁ hr
  exact ⟨_, _, rfl, ownStep_refl i w₁, fun b _ => hQ b _ hr⟩

theorem wpOk_identityMapGet {Q : Option Order → Session → World → Prop}
    (hQ : ∀ w', Progress tracked i [] [] [] w w' →
      Q (σ.identityMap.find? fun o => o.id = orderId) σ w') :
    (interference types tracked py).wpOk i (send (.identityMapGet orderId)) Q σ w := by
  refine wpOk_send fun w₁ hr _ => own_exec (fun _ => rfl) (fun env w₁ hr => ?_) w₁ hr
  refine ⟨_, _, rfl, ownStep_refl i w₁, fun b hb => ?_⟩
  obtain rfl := Except.ok.inj hb
  exact hQ _ hr

theorem wpOk_awaitOnly {Q : Unit → Session → World → Prop}
    (hQ : ∀ w', Progress tracked i [] [] [] w w' → Q () σ w') :
    (interference types tracked py).wpOk i (send .awaitOnly) Q σ w := by
  refine wpOk_send fun w₁ hr _ => own_exec (fun _ => rfl) (fun env w₁ hr => ?_) w₁ hr
  exact ⟨_, _, rfl, ownStep_refl i w₁, fun _ _ => hQ _ hr⟩

theorem wpOk_selectPaymentIds {Q : List ℕ → Session → World → Prop}
    (hQ : ∀ ids w', Progress tracked i [] [] [] w w' → Q ids σ w') :
    (interference types tracked py).wpOk i (send .selectPaymentIds) Q σ w := by
  refine wpOk_sql (fun w =>
    (.ok (((w.view i).payments.rows.filter Payment.needsCheck).map Payment.id), w))
    (fun _ _ => rfl) fun w₁ hr _ => ?_
  have hacq : w₁.acquire i (requests w₁ .selectPaymentIds) = w₁ := acquire_nil w₁ i
  rw [hacq]
  refine ⟨lockOrder_of_requests rfl, fun _ => ⟨(ownStep_refl i w₁).guarantee (by simp), ?_⟩⟩
  exact fun ids _ => hQ ids _ hr

end PaySystem
