import Mathlib.Algebra.Order.BigOperators.Group.List
import Mathlib.Tactic.Linarith
import PaySystem.Ledger.Change

/-!
# Invariants of the payments

What one change keeps: the lifecycle of every payment, the bounds of the balances of an order, and
the agreement of the status of an order with its payments.
-/

namespace PaySystem

variable {types : Set String} {db : Db} {c : Change} {order : Order} {p : Payment} {orderId : ℕ}

/-- The sum of the submitted and processing payments of an order. -/
def Db.pending (db : Db) (orderId : ℕ) : ℚ :=
  db.payments.sum fun p => if p.orderId = orderId ∧
    p.paymentStatus ∈ [PaymentStatus.Submitted.value, PaymentStatus.Processing.value]
    then p.amount.toRat else 0

/-- The completed balance is not negative, and what is not rejected fits into the order. -/
structure Db.Bounded (db : Db) (order : Order) : Prop where
  nonneg : 0 ≤ db.balance .completed order.id
  le_total : db.balance .nonRejected order.id ≤ order.totalSum.toRat

/-- The stored status of an order is the status that its payments give. -/
def Db.StatusCurrent (db : Db) (orderId : ℕ) : Prop :=
  ∀ order, db.orders.find? orderId = some order → order.paymentStatus = db.orderStatus order

/-- The change stores the status of the database that it leaves, into an order that nobody has
changed since it was loaded. -/
def Change.Current (db : Db) (c : Change) : Prop :=
  ∀ order st, c.assigned = some (order, st) →
    db.orders.find? order.id = some order ∧ st = (c.run db).orderStatus order

/-! ## Balances of lawful orders -/

/-- What is neither completed nor rejected is pending. -/
theorem Db.LawfulOrder.balance_nonRejected (h : db.LawfulOrder types orderId) :
    db.balance .nonRejected orderId = db.balance .completed orderId + db.pending orderId := by
  rw [Db.balance, Db.balance, Db.pending, Table.sum, Table.sum, Table.sum, ← List.sum_map_add]
  congr 1
  refine List.map_congr_left fun p hp => ?_
  by_cases ho : p.orderId = orderId
  · subst ho
    obtain ⟨-, order, -, hl⟩ := h p hp rfl
    obtain ⟨s, -, hs⟩ := List.mem_map.1 hl.status
    cases s <;> simp only [Payment.contribution, BalanceFilter.passes, ← hs]
    · simpa [PaymentStatus.value, Payment.signedAmount] using
        fun hop => absurd (hl.ofOpen (by simp [Payment.isTerminal, ← hs]; decide)).1 hop
    · simpa [PaymentStatus.value, Payment.signedAmount] using
        fun hop => absurd (hl.ofOpen (by simp [Payment.isTerminal, ← hs]; decide)).1 hop
    · simp [PaymentStatus.value]
    · simp [PaymentStatus.value]
  · rw [contribution_of_ne ho, contribution_of_ne ho, if_neg fun hp => ho hp.1, add_zero]

theorem Db.LawfulOrder.pending_nonneg (h : db.LawfulOrder types orderId) :
    0 ≤ db.pending orderId := by
  refine List.sum_nonneg fun x hx => ?_
  obtain ⟨p, hp, rfl⟩ := List.mem_map.1 hx
  split_ifs with ho
  · exact (h p hp ho.1).1.le
  · exact le_rfl

theorem Db.LawfulOrder.completed_le (h : db.LawfulOrder types orderId) :
    db.balance .completed orderId ≤ db.balance .nonRejected orderId := by
  have := h.pending_nonneg
  have := h.balance_nonRejected
  linarith

/-- An open payment of a lawful order is a deposit. -/
theorem signedAmount_of_isOpen (h : db.LawfulOrder types orderId) (hp : p ∈ db.payments.rows)
    (ho : p.orderId = orderId) (hopen : p.isOpen = true) : p.signedAmount = p.amount.toRat := by
  obtain ⟨-, order, -, hl⟩ := h p hp ho
  exact if_pos (hl.ofOpen (Payment.isOpen_iff_isTerminal.1 hopen).1).1

theorem contribution_nonRejected_of_isOpen (h : db.LawfulOrder types p.orderId)
    (hp : p ∈ db.payments.rows) (hopen : p.isOpen = true) :
    p.contribution .nonRejected p.orderId = p.amount.toRat := by
  have hpass : BalanceFilter.nonRejected.passes p = true := by
    simpa [BalanceFilter.passes] using (Payment.isOpen_iff.1 hopen).2.1
  rw [contribution_of_passes hpass, signedAmount_of_isOpen h hp rfl hopen]

namespace Change

/-! ## The lifecycle -/

/-- The row that a change writes has a lifecycle if the row that it replaces had one. -/
theorem Allowed.lifecycle_row (h : c.Allowed types db)
    (hold : ∀ p, c.old = some p →
      ∃ order, db.orders.find? p.orderId = some order ∧ p.Lifecycle types order) :
    ∃ order, (c.run db).orders.find? c.row.orderId = some order ∧
      c.row.Lifecycle types order := by
  -- The order is still there after the change, with a status that may be new.
  have hrun : ∀ order st,
      db.orders.find? c.row.orderId = some { order with paymentStatus := st } →
      c.row.Lifecycle types order → ∃ order,
        (c.run db).orders.find? c.row.orderId = some order ∧ c.row.Lifecycle types order := by
    intro order st ho hl
    obtain ⟨st', ho'⟩ := orders_run_of_find? c ho
    exact ⟨_, ho', hl.congr rfl⟩
  cases c with
  | deposit order p =>
    obtain ⟨hid, ⟨st, ho⟩, -, hp⟩ := h
    refine hrun order st ?_ hp.lifecycle
    change db.orders.find? p.orderId = _
    rwa [hid]
  | cashReturn order p status =>
    obtain ⟨hid, ⟨st, ho⟩, -, hp⟩ := h
    refine hrun order st ?_ hp.lifecycle
    change db.orders.find? p.orderId = _
    rwa [hid]
  | advance p st =>
    obtain ⟨-, hopen, hst, hne⟩ := h
    obtain ⟨order, ho, hl⟩ := hold p rfl
    have hp := (Payment.isOpen_iff_isTerminal.1 hopen).1
    have hpaid : p.paidAt.isSome = true ↔ st = PaymentStatus.Completed.value := by
      rw [hl.paidAt]
      exact iff_of_false (Payment.isTerminal_eq_false_iff.1 hp).1 hne
    exact hrun order order.paymentStatus ho (hl.advance hp hst hpaid)
  | complete order p paidAt st =>
    obtain ⟨-, -, -, hopen⟩ := h
    obtain ⟨order, ho, hl⟩ := hold p rfl
    have hp := (Payment.isOpen_iff_isTerminal.1 hopen).1
    exact hrun order order.paymentStatus ho (hl.advance hp (by decide) (by simp))

theorem Allowed.amount_row (h : c.Allowed types db)
    (hold : ∀ p, c.old = some p → 0 < p.amount.toRat) : 0 < c.row.amount.toRat := by
  cases c with
  | deposit order p => exact h.2.2.2.amount
  | cashReturn order p st => exact h.2.2.2.amount
  | advance p st => exact hold p rfl
  | complete order p paidAt st => exact hold p rfl

/-- **A change keeps the payments lawful.** -/
theorem Allowed.lawful (h : c.Allowed types db) (hl : db.Lawful types) :
    (c.run db).Lawful types := by
  intro p hp
  rcases h.mem_run.1 hp with rfl | ⟨hp, -⟩
  · exact h.lifecycle_row fun p hold => hl p (h.old_mem hold)
  · obtain ⟨order, ho, hlp⟩ := hl p hp
    obtain ⟨st, ho'⟩ := orders_run_of_find? c ho
    exact ⟨_, ho', hlp.congr rfl⟩

/-- **A change keeps the payments of an order lawful**, whatever is known about the others. -/
theorem Allowed.lawfulOrder (h : c.Allowed types db) (hl : db.LawfulOrder types orderId) :
    (c.run db).LawfulOrder types orderId := by
  intro p hp ho
  rcases h.mem_run.1 hp with rfl | ⟨hp, -⟩
  · subst ho
    have hold : ∀ p, c.old = some p → 0 < p.amount.toRat ∧
        ∃ order, db.orders.find? p.orderId = some order ∧ p.Lifecycle types order := by
      intro p hold
      rw [old_orderId hold]
      exact hl p (h.old_mem hold) (old_orderId hold)
    exact ⟨h.amount_row fun p hp => (hold p hp).1, h.lifecycle_row fun p hp => (hold p hp).2⟩
  · obtain ⟨hpos, order, ho, hlp⟩ := hl p hp ho
    obtain ⟨st, ho'⟩ := orders_run_of_find? c ho
    exact ⟨hpos, _, ho', hlp.congr rfl⟩

/-- The replaced row was not final, and only its status and time of payment change. -/
theorem Allowed.origin_row (h : c.Allowed types db) (hold : c.old = some p) :
    p.SameOrigin c.row ∧ p.isTerminal = false := by
  cases c with
  | deposit order q => cases hold
  | cashReturn order q st => cases hold
  | advance q st =>
    cases hold
    exact ⟨⟨rfl, rfl, rfl, rfl, rfl, rfl, rfl⟩, (Payment.isOpen_iff_isTerminal.1 h.2.1).1⟩
  | complete order q paidAt st =>
    cases hold
    exact ⟨⟨rfl, rfl, rfl, rfl, rfl, rfl, rfl⟩, (Payment.isOpen_iff_isTerminal.1 h.2.2.2).1⟩

/-- **A change takes nothing back.** -/
theorem Allowed.preserves (h : c.Allowed types db) : db.Preserves (c.run db) := by
  intro p hp
  by_cases hid : p.id = c.row.id
  · have hold : c.old = some p := by
      rw [← h.find?_row, ← hid]
      exact Table.find?_key hp
    obtain ⟨horigin, hterm⟩ := h.origin_row hold
    refine ⟨c.row, h.mem_run.2 (Or.inl rfl), horigin, fun ht => ?_⟩
    rw [hterm] at ht
    exact absurd ht (by decide)
  · exact ⟨p, h.mem_run.2 (Or.inr ⟨hp, hid⟩), .refl p, fun _ => rfl⟩

/-! ## The effect on the balances -/

/-- What a change adds to the completed balance of a lawful order. -/
def completedDelta : Change → ℚ
  | deposit _ _ => 0
  | cashReturn _ p _ => -p.amount.toRat
  | advance _ _ => 0
  | complete _ p _ _ => p.amount.toRat

/-- What a change adds to the balance of a lawful order that is not rejected. -/
def nonRejectedDelta : Change → ℚ
  | deposit _ p => p.amount.toRat
  | cashReturn _ p _ => -p.amount.toRat
  | advance p status => if status = PaymentStatus.Rejected.value then -p.amount.toRat else 0
  | complete _ _ _ _ => 0

theorem Allowed.delta_completed (h : c.Allowed types db) (hl : db.LawfulOrder types c.row.orderId) :
    c.delta (Payment.contribution .completed c.row.orderId) = c.completedDelta := by
  cases c with
  | deposit order p =>
    have hp : BalanceFilter.completed.passes p = false := by
      rw [BalanceFilter.passes, h.2.2.2.status]
      decide
    rw [delta_of_new rfl]
    exact contribution_of_not_passes hp
  | cashReturn order p st =>
    have hp : BalanceFilter.completed.passes p = true := by
      rw [BalanceFilter.passes, h.2.2.2.status]
      decide
    rw [delta_of_new rfl]
    exact (contribution_of_passes hp).trans h.2.2.2.signedAmount
  | advance p st =>
    obtain ⟨-, hopen, -, hne⟩ := h
    have hp : BalanceFilter.completed.passes { p with paymentStatus := st } = false := by
      simpa [BalanceFilter.passes] using hne
    rw [delta_of_old rfl, contribution_completed_of_isOpen hopen, sub_zero]
    exact contribution_of_not_passes hp
  | complete order p paidAt st =>
    have hopen : p.isOpen = true := h.2.2.2
    have hdep := signedAmount_of_isOpen hl (h.old_mem rfl) rfl hopen
    rw [delta_of_old rfl, contribution_completed_of_isOpen hopen, sub_zero]
    exact (if_pos ⟨rfl, by simp [BalanceFilter.passes, row]⟩ : _ = _).trans hdep

theorem Allowed.delta_nonRejected (h : c.Allowed types db)
    (hl : db.LawfulOrder types c.row.orderId) :
    c.delta (Payment.contribution .nonRejected c.row.orderId) = c.nonRejectedDelta := by
  cases c with
  | deposit order p =>
    have hp : BalanceFilter.nonRejected.passes p = true := by
      rw [BalanceFilter.passes, h.2.2.2.status]
      decide
    rw [delta_of_new rfl]
    exact (contribution_of_passes hp).trans h.2.2.2.signedAmount
  | cashReturn order p st =>
    have hp : BalanceFilter.nonRejected.passes p = true := by
      rw [BalanceFilter.passes, h.2.2.2.status]
      decide
    rw [delta_of_new rfl]
    exact (contribution_of_passes hp).trans h.2.2.2.signedAmount
  | advance p st =>
    have hopen : p.isOpen = true := h.2.1
    have hdep := signedAmount_of_isOpen hl (h.old_mem rfl) rfl hopen
    have hold := contribution_nonRejected_of_isOpen (p := p) hl (h.old_mem rfl) hopen
    simp only [delta_of_old (c := advance p st) rfl, row, nonRejectedDelta]
    rw [hold]
    split_ifs with hst
    · have hp : BalanceFilter.nonRejected.passes { p with paymentStatus := st } = false := by
        simpa [BalanceFilter.passes] using hst
      rw [contribution_of_not_passes hp, zero_sub]
    · have hp : BalanceFilter.nonRejected.passes { p with paymentStatus := st } = true := by
        simpa [BalanceFilter.passes] using hst
      rw [sub_eq_zero]
      exact (if_pos ⟨rfl, hp⟩ : _ = _).trans hdep
  | complete order p paidAt st =>
    have hopen : p.isOpen = true := h.2.2.2
    have hdep := signedAmount_of_isOpen hl (h.old_mem rfl) rfl hopen
    have hold := contribution_nonRejected_of_isOpen (p := p) hl (h.old_mem rfl) hopen
    simp only [delta_of_old (c := complete order p paidAt st) rfl, row, nonRejectedDelta]
    rw [hold, sub_eq_zero]
    exact (if_pos ⟨rfl, by simp [BalanceFilter.passes, PaymentStatus.value]⟩ : _ = _).trans hdep

/-! ## Bounds and status of an order -/

theorem Loaded.eq_of_id_eq {order' : Order} (h : Loaded db order) (h' : Loaded db order')
    (hid : order.id = order'.id) :
    order.userId = order'.userId ∧ order.totalSum = order'.totalSum := by
  obtain ⟨st, ho⟩ := h
  obtain ⟨st', ho'⟩ := h'
  rw [hid, ho', Option.some.injEq, Order.mk.injEq] at ho
  exact ⟨ho.2.1.symm, ho.2.2.2.symm⟩

theorem Loaded.run (h : Loaded db order) (c : Change) : Loaded (c.run db) order := by
  obtain ⟨st, ho⟩ := h
  have hrun := orders_run_of_find? c ho
  exact hrun

/-- **An admitted change keeps the balances of an order bounded.** -/
theorem Allowed.bounded (h : c.Allowed types db) (hl : db.LawfulOrder types order.id)
    (ho : Loaded db order) (hadm : c.row.orderId = order.id → c.Admitted db)
    (hb : db.Bounded order) : (c.run db).Bounded order := by
  have hle := (h.lawfulOrder hl).completed_le
  by_cases hid : c.row.orderId = order.id
  swap
  · exact ⟨by rw [h.balance_run_of_ne hid]; exact hb.nonneg,
      by rw [h.balance_run_of_ne hid]; exact hb.le_total⟩
  have hpos : 0 < c.row.amount.toRat :=
    (h.lawfulOrder hl c.row (h.mem_run.2 (Or.inl rfl)) hid).1
  have hadm := hadm hid
  rw [← hid] at hl hle
  have hC := h.balance_run .completed c.row.orderId
  have hN := h.balance_run .nonRejected c.row.orderId
  rw [h.delta_completed hl] at hC
  rw [h.delta_nonRejected hl] at hN
  obtain ⟨hnonneg, hletotal⟩ := hb
  rw [← hid] at hnonneg hletotal
  refine ⟨?_, ?_⟩ <;> rw [← hid]
  · cases c with
    | cashReturn order' p st =>
      simp only [Admitted, row, completedDelta] at hC hadm ⊢
      linarith
    | _ =>
      simp only [row, completedDelta] at hC hpos hnonneg ⊢
      linarith
  · cases c with
    | deposit order' p =>
      have hload : Loaded db order' := h.2.1
      have htotal := (hload.eq_of_id_eq ho (h.1.symm.trans hid)).2
      simp only [Admitted, row, nonRejectedDelta] at hN hadm ⊢
      rw [htotal] at hadm
      linarith
    | advance p st =>
      simp only [row, nonRejectedDelta] at hN hpos hletotal ⊢
      split_ifs at hN <;> linarith
    | _ =>
      simp only [row, nonRejectedDelta] at hN hpos hletotal ⊢
      linarith

/-- The check of a payment only raises the completed balance of its order, and only lowers the
balance of what is not rejected. -/
theorem Allowed.balance_of_old (h : c.Allowed types db) (hold : c.old ≠ none)
    (hl : db.LawfulOrder types orderId) :
    (c.run db).balance .nonRejected orderId ≤ db.balance .nonRejected orderId ∧
      db.balance .completed orderId ≤ (c.run db).balance .completed orderId := by
  by_cases hid : c.row.orderId = orderId
  swap
  · exact ⟨(h.balance_run_of_ne hid).le, (h.balance_run_of_ne hid).ge⟩
  subst hid
  have hpos : 0 < c.row.amount.toRat :=
    (h.lawfulOrder hl c.row (h.mem_run.2 (Or.inl rfl)) rfl).1
  rw [h.balance_run, h.balance_run, h.delta_nonRejected hl, h.delta_completed hl]
  cases c with
  | deposit order p => exact absurd rfl hold
  | cashReturn order p st => exact absurd rfl hold
  | advance p st =>
    simp only [row] at hpos
    simp only [nonRejectedDelta, completedDelta, add_zero, le_refl, and_true]
    split_ifs <;> linarith
  | complete order p paidAt st =>
    simp only [row] at hpos
    simp only [nonRejectedDelta, completedDelta, add_zero, le_refl, true_and]
    linarith

/-- A change assigns a status exactly if it moves the completed balance. -/
theorem Allowed.assigned_isSome_iff (h : c.Allowed types db)
    (hl : db.LawfulOrder types c.row.orderId) :
    c.assigned.isSome = true ↔ (c.run db).balance .completed c.row.orderId ≠
      db.balance .completed c.row.orderId := by
  have hpos : 0 < c.row.amount.toRat :=
    (h.lawfulOrder hl c.row (h.mem_run.2 (Or.inl rfl)) rfl).1
  rw [h.balance_run, h.delta_completed hl, ne_eq, add_eq_left]
  cases c <;> simp only [row] at hpos <;> simp [assigned, completedDelta, hpos.ne']

/-- **A change that stores a current status keeps the status of an order current.** -/
theorem Allowed.statusCurrent (h : c.Allowed types db) (hl : db.LawfulOrder types orderId)
    (hcur : c.row.orderId = orderId → c.assigned.isSome = true → c.Current db)
    (hs : db.StatusCurrent orderId) : (c.run db).StatusCurrent orderId := by
  intro order ho
  have hid : order.id = orderId := Table.key_of_find? ho
  -- Neither the order nor its completed balance has changed.
  have hsame : (c.run db).orders.find? orderId = db.orders.find? orderId →
      (c.run db).balance .completed orderId = db.balance .completed orderId →
      order.paymentStatus = (c.run db).orderStatus order := by
    intro hfind hbal
    rw [Db.orderStatus, hid, hbal]
    rw [hfind] at ho
    have := hs order ho
    rwa [Db.orderStatus, hid] at this
  by_cases hrow : c.row.orderId = orderId
  swap
  · exact hsame (h.find?_orders_run_of_ne hrow) (h.balance_run_of_ne hrow)
  cases ha : c.assigned with
  | none =>
    refine hsame (by rw [orders_run_of_not_assigned ha]) ?_
    have hiff := h.assigned_isSome_iff (hrow ▸ hl)
    rw [ha, hrow] at hiff
    simpa using hiff
  | some x =>
    obtain ⟨order', st⟩ := x
    obtain ⟨ho', hst⟩ := hcur hrow (by rw [ha]; rfl) order' st ha
    have hid' : order'.id = orderId := (h.assigned_id ha).1.symm.trans hrow
    have hfind := find?_orders_run ha ho'
    subst hid'
    rw [ho, Option.some.injEq] at hfind
    subst hfind
    exact hst

end Change

end PaySystem
