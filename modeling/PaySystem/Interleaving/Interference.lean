import PaySystem.Ledger.Invariants
import PaySystem.Services.Tasks

/-!
# What the transactions may do to each other

The rely-guarantee specification of the services. `Progress` says what has happened between two
moments of a transaction: the locks it took, what it wrote and read, and what the others can have
done meanwhile to the rows and balances that its locks protect. `Guarantee` says what one step does
to the others; a step that changes the database commits a `Change`, with all that is known then.

The orders for which `tracked` holds are those whose payments were lawful from the start. Only for
their balances anything is claimed.
-/

namespace PaySystem

/-- Locks are taken in this order: payments, orders, users. -/
def Row.rank : Row → ℕ
  | payment _ => 0
  | order _ => 1
  | user _ => 2

/-- Transaction `i` holds a lock. -/
def World.Holds (w : World) (i : ℕ) (row : Row) (mode : LockMode) : Prop :=
  ⟨i, row, mode⟩ ∈ w.locks

/-- No locks, writes and reads of transaction `i`. -/
structure World.Idle (w : World) (i : ℕ) : Prop where
  locks : ∀ row mode, ¬ w.Holds i row mode
  writes : w.writes i = []
  reads : ∀ r, ⟨i, r⟩ ∉ w.reads

/-- The invariant of the world. -/
structure World.Sound (types : Set String) (tracked : ℕ → Prop) (w : World) : Prop where
  exclusive : ∀ i j row mode mode', i ≠ j → w.Holds i row mode → w.Holds j row mode' →
    mode.conflicts mode' = false
  paymentLock : ∀ i id mode, w.Holds i (.payment id) mode → id < w.paymentSeq
  userLock : ∀ i id mode, w.Holds i (.user id) mode → mode = .keyShare
  paymentId : ∀ p ∈ w.db.payments.rows, p.id < w.paymentSeq
  lawful : ∀ o, tracked o → w.db.LawfulOrder types o

/-- From `w` to `w'` transaction `i` has taken locks on `rows`, made the writes `ws` and the reads
`seen`, and has not committed. -/
structure Progress (tracked : ℕ → Prop) (i : ℕ) (rows : List Row) (ws : List Write)
    (seen : List ReadOf) (w w' : World) : Prop where
  kept : ∀ row mode, w.Holds i row mode → w'.Holds i row mode
  taken : ∀ row mode, w'.Holds i row mode → w.Holds i row mode ∨ row ∈ rows
  writes : w'.writes i = w.writes i ++ ws
  reads : ∀ r ∉ seen, ⟨i, r⟩ ∈ w'.reads → ⟨i, r⟩ ∈ w.reads ∧ r.unchanged w.db w'.db
  seq : w.paymentSeq ≤ w'.paymentSeq
  started : ∀ b, (i, b) ∈ w.started → (i, b) ∈ w'.started
  answers : w.answers ⊆ w'.answers
  loaded : ∀ order, Change.Loaded w.db order → Change.Loaded w'.db order
  order : ∀ o, w.Holds i (.order o) .update → w'.db.orders.find? o = w.db.orders.find? o
  payment : ∀ id, w.Holds i (.payment id) .update →
    w'.db.payments.find? id = w.db.payments.find? id
  nonRejected : ∀ o, tracked o → w.Holds i (.order o) .update →
    w'.db.balance .nonRejected o ≤ w.db.balance .nonRejected o
  completed : ∀ o, tracked o → w.Holds i (.order o) .update →
    w.db.balance .completed o ≤ w'.db.balance .completed o

/-- Where the change comes from: the transaction started the deposit at the bank, or the bank
answered a question about it that it is completed. -/
def Change.Documented (py : Pydantic) (i : ℕ) (w : World) : Change → Prop
  | .deposit _ p => ∃ b, p.bankPaymentId = some b ∧ (i, ⟨b, p.orderId, p.amount.toRat⟩) ∈ w.started
  | .complete _ p paidAt _ => ∃ b d info, p.bankPaymentId = some b ∧ (b, .ok d) ∈ w.answers ∧
    AcquiringPaymentInfo.validate py d = some info ∧
      info.status = PaymentStatus.Completed.value ∧ info.paidAt = paidAt
  | _ => True

/-- What is known when transaction `i` commits the change `c`. -/
structure Commits (types : Set String) (tracked : ℕ → Prop) (py : Pydantic) (i : ℕ) (w : World)
    (c : Change) : Prop where
  allowed : c.Allowed types w.db
  admitted : tracked c.row.orderId → c.Admitted w.db
  paymentLock : w.Holds i (.payment c.row.id) .update
  newLock : c.old = none → w.Holds i (.order c.row.orderId) .update
  orderLock : (c.run w.db).orders ≠ w.db.orders →
    ∃ mode, mode ≠ .keyShare ∧ w.Holds i (.order c.row.orderId) mode
  current : ⟨i, .order c.row.orderId⟩ ∈ w.reads → ⟨i, .balance .completed c.row.orderId⟩ ∈ w.reads →
    c.Current w.db
  documented : c.Documented py i w

/-- A lock on `row` that transaction `i` takes is compatible with those of the others. -/
structure Granted (i : ℕ) (w w' : World) (row : Row) (mode : LockMode) : Prop where
  compatible : ∀ j mode', j ≠ i → w.Holds j row mode' → mode'.conflicts mode = false
  payment : ∀ id, row = .payment id → id < w'.paymentSeq
  user : ∀ id, row = .user id → mode = .keyShare

/-- What a step of transaction `i` does. -/
structure Guarantee (types : Set String) (tracked : ℕ → Prop) (py : Pydantic) (i : ℕ)
    (w w' : World) : Prop where
  others : ∀ j row mode, j ≠ i → (w'.Holds j row mode ↔ w.Holds j row mode)
  granted : ∀ row mode, w'.Holds i row mode → w.Holds i row mode ∨ Granted i w w' row mode
  writes : ∀ j, j ≠ i → w'.writes j = w.writes j
  reads : ∀ j r, j ≠ i → ⟨j, r⟩ ∈ w'.reads → ⟨j, r⟩ ∈ w.reads ∧ r.unchanged w.db w'.db
  seq : w.paymentSeq ≤ w'.paymentSeq
  started : ∀ j b, j ≠ i → ((j, b) ∈ w'.started ↔ (j, b) ∈ w.started)
  bank : w'.bank = w.bank ∧ w'.started.Sublist w.started ∨
    ∃ b, w'.bank = w.bank ++ [b] ∧ w'.started = w.started ++ [(i, b)]
  answers : w.answers ⊆ w'.answers
  db : w'.db = w.db ∨ ∃ c, Commits types tracked py i w c ∧ w'.db = c.run w.db ∧
    ∀ b, (i, b) ∉ w'.started

variable {types : Set String} {tracked : ℕ → Prop} {py : Pydantic} {i j : ℕ} {w w' w'' : World}
  {rows rows' : List Row} {ws ws' : List Write} {seen seen' : List ReadOf}

theorem ReadOf.unchanged_refl (r : ReadOf) (db : Db) : r.unchanged db db := by
  cases r <;> rfl

theorem ReadOf.unchanged_trans {r : ReadOf} {db db' db'' : Db} (h : r.unchanged db db')
    (h' : r.unchanged db' db'') : r.unchanged db db'' := by
  cases r <;> exact Eq.trans h h'

/-! ## Progress -/

namespace Progress

theorem refl (i : ℕ) (w : World) : Progress tracked i [] [] [] w w where
  kept _ _ h := h
  taken _ _ h := Or.inl h
  writes := (List.append_nil _).symm
  reads r _ h := ⟨h, r.unchanged_refl _⟩
  seq := le_rfl
  started _ h := h
  answers := List.Subset.refl _
  loaded _ h := h
  order _ _ := rfl
  payment _ _ := rfl
  nonRejected _ _ _ := le_rfl
  completed _ _ _ := le_rfl

theorem trans (h : Progress tracked i rows ws seen w w')
    (h' : Progress tracked i rows' ws' seen' w' w'') :
    Progress tracked i (rows ++ rows') (ws ++ ws') (seen ++ seen') w w'' where
  kept row mode hw := h'.kept row mode (h.kept row mode hw)
  taken row mode hw := by
    rcases h'.taken row mode hw with hw | hr
    · rcases h.taken row mode hw with hw | hr
      · exact Or.inl hw
      · exact Or.inr (List.mem_append_left _ hr)
    · exact Or.inr (List.mem_append_right _ hr)
  writes := by rw [h'.writes, h.writes, List.append_assoc]
  reads r hr hw := by
    rw [List.mem_append, not_or] at hr
    obtain ⟨hw', hu'⟩ := h'.reads r hr.2 hw
    obtain ⟨hw, hu⟩ := h.reads r hr.1 hw'
    exact ⟨hw, ReadOf.unchanged_trans hu hu'⟩
  seq := h.seq.trans h'.seq
  started b hb := h'.started b (h.started b hb)
  answers _ ha := h'.answers (h.answers ha)
  loaded order ho := h'.loaded order (h.loaded order ho)
  order o ho := (h'.order o (h.kept _ _ ho)).trans (h.order o ho)
  payment id hid := (h'.payment id (h.kept _ _ hid)).trans (h.payment id hid)
  nonRejected o ht ho := (h'.nonRejected o ht (h.kept _ _ ho)).trans (h.nonRejected o ht ho)
  completed o ht ho := (h.completed o ht ho).trans (h'.completed o ht (h.kept _ _ ho))

/-- Only others have moved. -/
theorem idle (h : Progress tracked i [] [] [] w w') (hi : w.Idle i) : w'.Idle i where
  locks row mode hw := by
    rcases h.taken row mode hw with hw | hr
    · exact hi.locks row mode hw
    · cases hr
  writes := by rw [h.writes, hi.writes, List.append_nil]
  reads r hr := hi.reads r (h.reads r (List.not_mem_nil) hr).1

end Progress

/-! ## Guarantees -/

/-- A lock held by `j` keeps `i` from a conflicting one. -/
theorem World.Sound.not_holds (h : w.Sound types tracked) (hij : i ≠ j) {row : Row}
    {mode mode' : LockMode} (hc : mode.conflicts mode' = true) (hi : w.Holds i row mode) :
    ¬ w.Holds j row mode' := by
  intro hj
  rw [h.exclusive i j row mode mode' hij hi hj] at hc
  cases hc

theorem conflicts_update_left (mode : LockMode) : LockMode.update.conflicts mode = true := by
  cases mode <;> rfl

/-- A step keeps the invariant. -/
theorem Guarantee.sound (h : Guarantee types tracked py i w w') (hw : w.Sound types tracked) :
    w'.Sound types tracked where
  exclusive j k row mode mode' hjk hj hk := by
    by_cases hji : j = i
    · subst hji
      have hk' := (h.others k row mode' (Ne.symm hjk)).1 hk
      rcases h.granted row mode hj with hj | hg
      · exact hw.exclusive j k row mode mode' hjk hj hk'
      · rw [LockMode.conflicts_comm]
        exact hg.compatible k mode' (Ne.symm hjk) hk'
    · have hj' := (h.others j row mode hji).1 hj
      by_cases hki : k = i
      · subst hki
        rcases h.granted row mode' hk with hk | hg
        · exact hw.exclusive j k row mode mode' hjk hj' hk
        · exact hg.compatible j mode hji hj'
      · exact hw.exclusive j k row mode mode' hjk hj' ((h.others k row mode' hki).1 hk)
  paymentLock j id mode hj := by
    by_cases hji : j = i
    · subst hji
      rcases h.granted _ mode hj with hj | hg
      · exact (hw.paymentLock j id mode hj).trans_le h.seq
      · exact hg.payment id rfl
    · exact (hw.paymentLock j id mode ((h.others j _ mode hji).1 hj)).trans_le h.seq
  userLock j id mode hj := by
    by_cases hji : j = i
    · subst hji
      rcases h.granted _ mode hj with hj | hg
      · exact hw.userLock j id mode hj
      · exact hg.user id rfl
    · exact hw.userLock j id mode ((h.others j _ mode hji).1 hj)
  paymentId p hp := by
    rcases h.db with hdb | ⟨c, hc, hdb, -⟩
    · rw [hdb] at hp
      exact (hw.paymentId p hp).trans_le h.seq
    · rw [hdb] at hp
      rcases hc.allowed.mem_run.1 hp with rfl | ⟨hp, -⟩
      · exact (hw.paymentLock i _ _ hc.paymentLock).trans_le h.seq
      · exact (hw.paymentId p hp).trans_le h.seq
  lawful o ho := by
    rcases h.db with hdb | ⟨c, hc, hdb, -⟩
    · rw [hdb]
      exact hw.lawful o ho
    · rw [hdb]
      exact hc.allowed.lawfulOrder (hw.lawful o ho)

/-- **What a step guarantees is what the others rely on.** -/
theorem Guarantee.progress (h : Guarantee types tracked py j w w') (hij : i ≠ j)
    (hw : w.Sound types tracked) : Progress tracked i [] [] [] w w' := by
  have hholds := fun row mode => h.others i row mode hij
  -- What `j` commits to an order that `i` has locked comes from a check.
  have hchange : ∀ c, Commits types tracked py j w c → ∀ o, tracked o →
      w.Holds i (.order o) .update →
      (c.run w.db).balance .nonRejected o ≤ w.db.balance .nonRejected o ∧
        w.db.balance .completed o ≤ (c.run w.db).balance .completed o := by
    intro c hc o ht ho
    by_cases hid : c.row.orderId = o
    · subst hid
      refine hc.allowed.balance_of_old (fun hn => ?_) (hw.lawful _ ht)
      exact hw.not_holds hij (conflicts_update_left _) ho (hc.newLock hn)
    · exact ⟨(hc.allowed.balance_run_of_ne hid).le, (hc.allowed.balance_run_of_ne hid).ge⟩
  refine ⟨fun row mode => (hholds row mode).2, fun row mode hr => Or.inl ((hholds row mode).1 hr),
    (h.writes i hij).trans (List.append_nil _).symm, fun r _ hr => h.reads i r hij hr, h.seq,
    fun b => (h.started i b hij).2, h.answers, ?_, ?_, ?_, ?_, ?_⟩ <;>
  rcases h.db with hdb | ⟨c, hc, hdb, -⟩ <;> rw [hdb]
  · exact fun _ ho => ho
  · exact fun order ho => ho.run c
  · exact fun _ _ => rfl
  · intro o ho
    by_cases hid : c.row.orderId = o
    · subst hid
      by_contra hne
      obtain ⟨mode, -, hj⟩ := hc.orderLock fun heq => hne (by rw [heq])
      exact hw.not_holds hij (conflicts_update_left mode) ho hj
    · exact hc.allowed.find?_orders_run_of_ne hid
  · exact fun _ _ => rfl
  · intro id hid
    have hne : id ≠ c.row.id := by
      rintro rfl
      exact hw.not_holds hij (conflicts_update_left _) hid hc.paymentLock
    rw [hc.allowed.find?_payments_run, if_neg hne]
  · exact fun _ _ _ => le_rfl
  · exact fun o ht ho => (hchange c hc o ht ho).1
  · exact fun _ _ _ => le_rfl
  · exact fun o ht ho => (hchange c hc o ht ho).2

/-- The end of a transaction. -/
theorem guarantee_close (i : ℕ) (w : World) : Guarantee types tracked py i w (w.close i) where
  others j row mode hj := by simp [World.Holds, World.close, hj]
  granted row mode h := by simp [World.Holds, World.close] at h
  writes j hj := Function.update_of_ne hj _ _
  reads j r _ h := by
    simp only [World.close, List.mem_filter] at h
    exact ⟨h.1, r.unchanged_refl _⟩
  seq := le_rfl
  started j b hj := by simp [World.close, hj]
  bank := Or.inl ⟨rfl, List.filter_sublist⟩
  answers := List.Subset.refl _
  db := Or.inl rfl

theorem idle_close (i : ℕ) (w : World) : (w.close i).Idle i where
  locks row mode h := by simp [World.Holds, World.close] at h
  writes := Function.update_self _ _ _
  reads r h := by simp [World.close] at h

/-- A transaction that has to wait for a lock holds only locks of lower rank. -/
def LockOrder (i : ℕ) (w : World) {β : Type} (s : Stmt β) : Prop :=
  ∀ rq ∈ requests w s, w.blocked i rq = true → ∀ row mode, w.Holds i row mode →
    row.rank < rq.1.rank

/-- **The rely-guarantee specification of the services.** -/
def interference (types : Set String) (tracked : ℕ → Prop) (py : Pydantic) :
    RelyGuarantee (paySystem types py) where
  Inv := World.Sound types tracked
  Rely i w w' := Progress tracked i [] [] [] w w'
  Guar := Guarantee types tracked py
  Idle i w := w.Idle i
  Pre i w s := LockOrder i w s
  rely_refl := Progress.refl
  rely_trans h h' := h.trans h'
  inv_guar hw h := h.sound hw
  rely_guar hij hw h := h.progress hij hw
  close_guar _ := guarantee_close _ _
  idle_close := idle_close
  idle_rely hi h := h.idle hi

end PaySystem
