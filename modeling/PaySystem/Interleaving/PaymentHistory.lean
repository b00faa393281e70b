import PaySystem.Interleaving.Programs

/-!
# The payments along every run

Concurrent and repeated checks of one payment, from the first delivery, from retries and from the
periodic task, only ever take an open payment on to its next status. In every reachable state the
payments have a lifecycle, and no later state takes anything of it back.
-/

namespace PaySystem

variable {types : Set String} {tracked : ℕ → Prop} {py : Pydantic} {i : ℕ} {w w' : World}

/-- One step keeps the payments lawful. -/
theorem Guarantee.lawful (h : Guarantee types tracked py i w w') (hl : w.db.Lawful types) :
    w'.db.Lawful types := by
  rcases h.db with hdb | ⟨c, hc, hdb, -⟩ <;> rw [hdb]
  · exact hl
  · exact hc.allowed.lawful hl

/-- One step takes nothing back. -/
theorem Guarantee.preserves (h : Guarantee types tracked py i w w') : w.db.Preserves w'.db := by
  rcases h.db with hdb | ⟨c, hc, hdb, -⟩ <;> rw [hdb]
  · exact .refl w.db
  · exact hc.allowed.preserves

/-- `_get_payment_for_update` and `enqueue_payment_status_checks_task` both find the payment. -/
def Db.SelectedForCheck (db : Db) (p : Payment) : Prop :=
  (db.payments.find? p.id).filter Payment.isOpen = some p ∧
    p.id ∈ (db.payments.rows.filter Payment.needsCheck).map Payment.id

/-- A payment with a lifecycle that is not final is selected for a check. -/
theorem Payment.Lifecycle.selectedForCheck {db : Db} {p : Payment} {order : Order}
    (h : p.Lifecycle types order) (hp : p ∈ db.payments.rows) (ht : p.isTerminal = false) :
    db.SelectedForCheck p := by
  have hopen : p.isOpen = true := isOpen_iff_isTerminal.2 ⟨ht, (h.ofOpen ht).2.2⟩
  refine ⟨?_, List.mem_map_of_mem (List.mem_filter.2 ⟨hp, hopen⟩)⟩
  have hfind : db.payments.find? p.id = some p := Table.find?_key hp
  rw [hfind, Option.filter_some_pos hopen]

/-- **The lifecycle of payments**, in every interleaving: each payment is in a legal state, one that
is not final is an acquiring deposit that every check will find, and between two states of a run no
payment disappears, changes its origin, or changes at all once it is final. -/
theorem payments_lifecycle (py : Pydantic) {w : World} (hw : w.AtRest)
    (hl : w.db.Lawful endpointTypes) {s s' : Config Stmt Err Outcome World Session}
    (hs : (paySystem endpointTypes py).Reach System.anyStep (atRest w) s)
    (hs' : (paySystem endpointTypes py).Reach System.anyStep s s') :
    (∀ p ∈ s.world.db.payments.rows,
      (∃ order, s.world.db.orders.find? p.orderId = some order ∧ p.Lifecycle endpointTypes order) ∧
      (p.isTerminal = false → s.world.db.SelectedForCheck p)) ∧
    s.world.db.Preserves s'.world.db := by
  have hverified := verified endpointTypes (fun _ => False) py
  have hvalid : (interference endpointTypes (fun _ => False) py).Valid (atRest w) :=
    valid_atRest hw fun _ h => h.elim
  have hlawful : s.world.db.Lawful endpointTypes :=
    hvalid.induction hverified hs hl fun _ _ _ _ _ hg hl => hg.lawful hl
  refine ⟨fun p hp => ?_, ?_⟩
  · obtain ⟨order, ho, hlife⟩ := hlawful p hp
    exact ⟨⟨order, ho, hlife⟩, hlife.selectedForCheck hp⟩
  · exact (hvalid.reach hverified hs).induction (P := fun w' => s.world.db.Preserves w'.db)
      hverified hs' (Db.Preserves.refl _) fun _ _ _ _ _ hg hpre => hpre.trans hg.preserves

/-- Two deposits, one of them checked: the other is still selected, and nothing is taken back. -/
theorem payments_lifecycle_sample : ∃ s,
    (paySystem endpointTypes .numbers).Reach System.anyStep (atRest sampleWorld) s ∧
    s.world.db.payments.rows.map Payment.paymentStatus =
      [PaymentStatus.Completed.value, PaymentStatus.Submitted.value] ∧
    (∀ p ∈ s.world.db.payments.rows,
      (∃ order, s.world.db.orders.find? p.orderId = some order ∧ p.Lifecycle endpointTypes order) ∧
      (p.isTerminal = false → s.world.db.SelectedForCheck p)) ∧
    s.world.db.Preserves s.world.db := by
  have hrun : ∃ s, (paySystem endpointTypes .numbers).Reach System.anyStep (atRest sampleWorld) s ∧
      (∀ i, s.threads i = none) ∧ decide (s.world.db.payments.rows.map Payment.paymentStatus =
        [PaymentStatus.Completed.value, PaymentStatus.Submitted.value]) = true :=
    System.exists_reach_of_run
      (sampleDeposit 0 sampleHalf "a" ++ sampleDeposit 1 sampleHalf "b" ++ sampleCheck 2 1 "a")
      (fun w : World => decide (w.db.payments.rows.map Payment.paymentStatus =
        [PaymentStatus.Completed.value, PaymentStatus.Submitted.value])) (by decide +kernel)
  obtain ⟨s, hs, -, hrows⟩ := hrun
  exact ⟨s, hs, of_decide_eq_true hrows,
    payments_lifecycle .numbers sampleWorld_atRest (fun _ hp => nomatch hp) hs .start⟩

end PaySystem
