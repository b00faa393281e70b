import PaySystem.Interleaving.Deliveries

/-!
# When the bank is spoken to

What a call has locked it still holds when it speaks to the bank, whatever the others have done in
between. A payment is started only under the lock of its order, and only if it still fits into it; a
question is only asked about an open payment, under its lock, so that no two calls ask about the
same payment at a time.
-/

namespace PaySystem

variable {types : Set String} {tracked : ℕ → Prop} {py : Pydantic} {greenlet : Bool} {β : Type}
  {i j : ℕ} {w w' : World} {σ σ' : Session} {env : Env} {s : Stmt β} {r : Except Err β}
  {t : Trail types} {p : Payment} {order : Order} {g g' : Marks (Trail types)}

/-- What the trail tells of locks is true: the rows are as they were read, and the sum has not
grown. -/
structure Trail.Locked (tracked : ℕ → Prop) (i : ℕ) (t : Trail types) (w : World) : Prop where
  order : ∀ order, t.order = some order → HoldsOrder i order w
  payment : ∀ p, t.payment = some p → HoldsPayment i p w ∧ p.isOpen = true ∧ t.call = .check p.id
  counted : ∀ o x, t.counted = some (o, x) → ∃ order, t.order = some order ∧ order.id = o ∧
    (tracked o → w.db.balance .nonRejected o ≤ x)

/-- Nobody takes it away. -/
theorem Trail.Locked.progress (h : t.Locked tracked i w) (hp : Progress tracked i [] [] [] w w') :
    t.Locked tracked i w' where
  order order ho := (h.order order ho).progress hp
  payment p hpay := ⟨(h.payment p hpay).1.progress hp, (h.payment p hpay).2⟩
  counted o x hx := by
    obtain ⟨order, ho, hid, hle⟩ := h.counted o x hx
    refine ⟨order, ho, hid, fun ht => (hp.nonRejected o ht ?_).trans (hle ht)⟩
    exact hid ▸ (h.order order ho).lock

/-! ## The own statements -/

/-- A statement keeps the locks and the database, or it is a commit, after which nothing is
locked. -/
theorem kept_of_exec (t : Trail types) (h : execStmt i env w σ s = some (r, w', σ')) :
    w.locks ⊆ w'.locks ∧ w'.db = w.db ∨
      (t.next s r).order = none ∧ (t.next s r).payment = none ∧ (t.next s r).counted = none := by
  cases s with
  | commit =>
    simp only [execStmt] at h
    rcases (sql_cases h).2 with ⟨msg, -, rfl, rfl⟩ | ⟨-, ha⟩
    · exact Or.inl ⟨List.Subset.refl _, rfl⟩
    · cases ha
      exact Or.inr ⟨rfl, rfl, rfl⟩
  | insertPayment p =>
    simp only [execStmt] at h
    rcases (sql_cases h).2 with ⟨msg, -, rfl, rfl⟩ | ⟨-, ha⟩
    · exact Or.inl ⟨List.Subset.refl _, rfl⟩
    · unfold World.insertPayment at ha
      split_ifs at ha <;> cases ha
      · exact Or.inl ⟨List.Subset.trans (List.subset_append_left _ _)
          (List.subset_append_left _ _), rfl⟩
      · exact Or.inl ⟨List.subset_append_left _ _, rfl⟩
  | identityMapGet | awaitOnly | checkPayment | now =>
    cases h
    exact Or.inl ⟨List.Subset.refl _, rfl⟩
  | startPayment | applyAsync =>
    simp only [execStmt] at h
    split at h <;> cases h <;> exact Or.inl ⟨List.Subset.refl _, rfl⟩
  | _ =>
    simp only [execStmt] at h
    rcases (sql_cases h).2 with ⟨msg, -, rfl, rfl⟩ | ⟨-, ha⟩
    · exact Or.inl ⟨List.Subset.refl _, rfl⟩
    · cases ha
      exact Or.inl ⟨List.subset_append_left _ _, rfl⟩

theorem view_acquire_of_writes (rqs : List (Row × LockMode)) (h : w.writes i = []) :
    (w.acquire i rqs).view i = w.db :=
  view_of_writes (w := w.acquire i rqs) h

/-- The order that a call has locked is the one it had locked, or it has just locked it. -/
theorem order_of_exec (h : execStmt i env w σ s = some (r, w', σ')) (hallow : t.Allows greenlet s)
    (hws : w.writes i = t.writes) (ho : (t.next s r).order = some order) :
    t.order = some order ∨ HoldsOrder i order w' := by
  cases s with
  | selectOrderForUpdate orderId =>
    simp only [execStmt] at h
    rcases (sql_cases h).2 with ⟨msg, -, rfl, rfl⟩ | ⟨-, ha⟩
    · exact Or.inl ho
    · rw [view_acquire_of_writes _ (hws.trans hallow.1)] at ha
      cases ha
      have hfind : w.db.orders.find? orderId = some order := ho
      have hid : order.id = orderId := Table.key_of_find? hfind
      refine Or.inr ⟨?_, hid ▸ hfind⟩
      have hrq : requests w (.selectOrderForUpdate orderId) = [(.order orderId, .update)] := by
        simp [requests, hfind]
      rw [hrq, hid]
      exact List.mem_append_right _ (List.mem_singleton.2 rfl)
  | commit => cases r with
    | error e => exact Or.inl ho
    | ok u => cases ho
  | selectBalance orderId f => cases f <;> cases r <;> exact Or.inl ho
  | _ => cases r <;> exact Or.inl ho

/-- The payment that a check has locked is the one it had locked, or it has just locked it. -/
theorem payment_of_exec (h : execStmt i env w σ s = some (r, w', σ')) (hallow : t.Allows greenlet s)
    (hws : w.writes i = t.writes) (hp : (t.next s r).payment = some p) :
    t.payment = some p ∨ HoldsPayment i p w' ∧ p.isOpen = true ∧ t.call = .check p.id := by
  cases s with
  | selectPaymentForUpdate paymentId =>
    simp only [execStmt] at h
    rcases (sql_cases h).2 with ⟨msg, -, rfl, rfl⟩ | ⟨-, ha⟩
    · exact Or.inl hp
    · rw [view_acquire_of_writes _ (hws.trans hallow.2)] at ha
      cases ha
      obtain ⟨hfind, hopen⟩ := Option.filter_eq_some_iff.1
        (show (w.db.payments.find? paymentId).filter Payment.isOpen = some p from hp)
      have hid : p.id = paymentId := Table.key_of_find? hfind
      refine Or.inr ⟨⟨?_, hid ▸ hfind⟩, hopen, hid ▸ hallow.1⟩
      have hrq : requests w (.selectPaymentForUpdate paymentId) = [(.payment paymentId, .update)] :=
        by simp [requests, hfind, hopen]
      rw [hrq, hid]
      exact List.mem_append_right _ (List.mem_singleton.2 rfl)
  | commit => cases r with
    | error e => exact Or.inl hp
    | ok u => cases hp
  | selectBalance orderId f => cases f <;> cases r <;> exact Or.inl hp
  | _ => cases r <;> exact Or.inl hp

/-- The sum of a call is the one it had taken, or it has just taken it. -/
theorem counted_of_exec (h : execStmt i env w σ s = some (r, w', σ')) (hallow : t.Allows greenlet s)
    (hws : w.writes i = t.writes) {o : ℕ} {x : ℚ} (hx : (t.next s r).counted = some (o, x)) :
    (t.next s r).order = t.order ∧ (t.counted = some (o, x) ∨ w.db.balance .nonRejected o = x ∧
      ∃ order, t.order = some order ∧ order.id = o) := by
  cases s with
  | selectOrderForUpdate orderId => cases r with
    | error e => exact ⟨rfl, Or.inl hx⟩
    | ok a => cases hallow.2.symm.trans hx
  | selectBalance orderId f => cases f with
    | completed => cases r <;> exact ⟨rfl, Or.inl hx⟩
    | nonRejected =>
      obtain ⟨hnil, hlocked⟩ := hallow rfl
      simp only [execStmt] at h
      rcases (sql_cases h).2 with ⟨msg, -, rfl, rfl⟩ | ⟨-, ha⟩
      · exact ⟨rfl, Or.inl hx⟩
      · rw [view_acquire_of_writes _ (hws.trans hnil)] at ha
        cases ha
        obtain ⟨rfl, rfl⟩ := Prod.mk.inj (Option.some.inj hx)
        exact ⟨rfl, Or.inr ⟨rfl, hlocked⟩⟩
  | commit => cases r with
    | error e => exact ⟨rfl, Or.inl hx⟩
    | ok u => cases hx
  | _ => cases r <;> exact ⟨rfl, Or.inl hx⟩

/-- **A call keeps what it has locked.** -/
theorem Trail.Locked.call (h : t.Locked tracked i w) (hallow : t.Allows greenlet s)
    (hws : w.writes i = t.writes) (hexec : execStmt i env w σ s = some (r, w', σ')) :
    (t.next s r).Locked tracked i w' := by
  rcases kept_of_exec t hexec with ⟨hlocks, hdb⟩ | ⟨ho, hp, hx⟩
  · refine ⟨fun order ho => ?_, fun p hp => ?_, fun o x hx => ?_⟩
    · rcases order_of_exec hexec hallow hws ho with ho | hnew
      · obtain ⟨hlock, hrow⟩ := h.order order ho
        exact ⟨hlocks hlock, by rwa [hdb]⟩
      · exact hnew
    · rw [Trail.call_next]
      rcases payment_of_exec hexec hallow hws hp with hp | hnew
      · obtain ⟨⟨hlock, hrow⟩, hrest⟩ := h.payment p hp
        exact ⟨⟨hlocks hlock, by rwa [hdb]⟩, hrest⟩
      · exact hnew
    · obtain ⟨hsame, hx | ⟨hbalance, order, ho, hid⟩⟩ := counted_of_exec hexec hallow hws hx
      · rw [hsame, hdb]
        exact h.counted o x hx
      · rw [hsame, hdb]
        exact ⟨order, ho, hid, fun _ => hbalance.le⟩
  · exact ⟨fun order h => (nomatch ho.symm.trans h), fun p h => (nomatch hp.symm.trans h),
      fun o x h => (nomatch hx.symm.trans h)⟩

/-! ## Runs -/

/-- The trails of the calls in flight are true of the locks. -/
def AllLocked (tracked : ℕ → Prop) (w : World) (g : Marks (Trail types)) : Prop :=
  ∀ i t, g i = some t → t.Locked tracked i w

theorem Linked.allLocked {c : Config Stmt Err Outcome World Session}
    {e : Event (Call types) Env} (h : Linked c.world g)
    (hm : System.Move (paySystem types py) (trails types greenlet) c e w' g g')
    (hsound : c.world.Sound types tracked)
    (hguar : w' = c.world ∨ Guarantee types tracked py e.thread c.world w')
    (hl : AllLocked tracked c.world g) : AllLocked tracked w' g' := by
  refine hm.forall_mark (P := fun i t => t.Locked tracked i w') (fun i t hi ht => ?_)
    (fun _ _ _ => ⟨fun _ h => (nomatch h), fun _ h => (nomatch h), fun _ _ h => (nomatch h)⟩)
    fun _ mark allowed exec _ =>
      (hl _ _ mark).call allowed ((h.writes _).trans (by rw [mark]; rfl)) exec
  rcases hguar with rfl | hguar
  · exact hl i t ht
  · exact (hl i t ht).progress (hguar.progress hi hsound)

/-- **In every run the trails are true of the locks.** -/
theorem allLocked_of_reach (py : Pydantic) (hw : w.AtRest)
    (hl : ∀ o, tracked o → w.db.LawfulOrder types o)
    {c : Config Stmt Err Outcome World Session}
    (hs : (paySystem types py).Reach System.anyStep (atRest w) c) :
    c.world.Sound types tracked ∧ ∃ g, System.Marked (trails types true) Session.Bare c g ∧
      AllLocked tracked c.world g := by
  have hverified := verified types tracked py
  have hvalid : (interference types tracked py).Valid (atRest w) := valid_atRest hw hl
  refine ⟨(hvalid.reach hverified hs).inv, ?_⟩
  obtain ⟨es, hes⟩ := hs.exists_run
  obtain ⟨g, hmarked, -, hlocked⟩ := linked_induction py hw hes (greenlets_true es)
    (fun _ w g => AllLocked tracked w g) (fun _ _ h => nomatch h)
    fun es c e c' g g' hrun he hlinked hm h => by
      have hvalid' := hvalid.reach hverified (System.reach_of_run es hrun)
      exact hlinked.allLocked hm hvalid'.inv (hvalid'.step hverified e he).2 h
  exact ⟨g, hmarked, hlocked⟩

/-- A call in flight that is about to send a statement is allowed to. -/
theorem exists_trail {c : Config Stmt Err Outcome World Session}
    (h : System.Marked (trails types greenlet) Session.Bare c g) {k : Except Err β → Tx Outcome}
    (ht : c.threads i = some ⟨.call s k, σ⟩) : ∃ t, g i = some t ∧ t.Allows greenlet s := by
  obtain ⟨-, t, hg, hfollows⟩ := h.busy i _ ht
  exact ⟨t, hg, hfollows.1⟩

/-- Two calls do not hold the same locked row. -/
theorem World.Sound.eq_of_holds (h : w.Sound types tracked) {row : Row}
    (hi : w.Holds i row .update) (hj : w.Holds j row .update) : i = j := by
  by_contra hij
  exact h.not_holds hij rfl hi hj

/-- What the thread is about to start at the bank. -/
def starting : Option (Thread Stmt Err Outcome Session) → Option (ℕ × ℚ)
  | some ⟨.call (.startPayment orderId amount) _, _⟩ => some (orderId, amount)
  | _ => none

theorem exists_of_starting {th : Option (Thread Stmt Err Outcome Session)} {orderId : ℕ}
    {amount : ℚ} (h : starting th = some (orderId, amount)) :
    ∃ k σ, th = some ⟨.call (.startPayment orderId amount) k, σ⟩ := by
  unfold starting at h
  split at h
  · cases h
    exact ⟨_, _, rfl⟩
  · cases h

/-- What the thread is about to ask the bank about. -/
def asking : Option (Thread Stmt Err Outcome Session) → Option String
  | some ⟨.call (.checkPayment bankPaymentId) _, _⟩ => some bankPaymentId
  | _ => none

theorem exists_of_asking {th : Option (Thread Stmt Err Outcome Session)} {bankPaymentId : String}
    (h : asking th = some bankPaymentId) :
    ∃ k σ, th = some ⟨.call (.checkPayment bankPaymentId) k, σ⟩ := by
  unfold asking at h
  split at h
  · cases h
    exact ⟨_, _, rfl⟩
  · cases h

/-- **The bank is only asked to start what fits**: whenever a call is about to start a payment at
the bank, in any interleaving, the payments of the order that are not rejected and the new amount
together are within the total of the order, and no other call is about to start one for it. -/
theorem start_fits (types : Set String) (py : Pydantic) {w : World} (hw : w.AtRest) {orderId : ℕ}
    (hl : w.db.LawfulOrder types orderId) {s : Config Stmt Err Outcome World Session}
    (hs : (paySystem types py).Reach System.anyStep (atRest w) s) {i : ℕ} {amount : ℚ}
    {k : Except Err String → Tx Outcome} {σ : Session}
    (ht : s.threads i = some ⟨.call (.startPayment orderId amount) k, σ⟩) :
    (∃ order, s.world.db.orders.find? orderId = some order ∧
      s.world.db.balance .nonRejected orderId + amount ≤ order.totalSum.toRat) ∧
    ∀ (j : ℕ) (amount' : ℚ) (k' : Except Err String → Tx Outcome) (σ' : Session),
      s.threads j = some ⟨.call (.startPayment orderId amount') k', σ'⟩ → j = i := by
  obtain ⟨hsound, g, hmarked, hlocked⟩ := allLocked_of_reach py hw
    (show ∀ o, o = orderId → w.db.LawfulOrder types o from fun o ho => ho ▸ hl) hs
  have hholds : ∀ (j : ℕ) (amount : ℚ) (k : Except Err String → Tx Outcome) (σ : Session),
      s.threads j = some ⟨.call (.startPayment orderId amount) k, σ⟩ →
        ∃ order, HoldsOrder j order s.world ∧ order.id = orderId ∧
          s.world.db.balance .nonRejected orderId + amount ≤ order.totalSum.toRat := by
    intro j amount k σ ht
    obtain ⟨t, hg, -, -, order, x, ho, hid, hx, hle, -⟩ := exists_trail hmarked ht
    obtain ⟨-, -, -, hsum⟩ := (hlocked j t hg).counted _ _ hx
    have hbalance := hsum rfl
    exact ⟨order, (hlocked j t hg).order order ho, hid, by linarith⟩
  obtain ⟨order, hlock, rfl, hle⟩ := hholds i amount k σ ht
  refine ⟨⟨order, hlock.row, hle⟩, fun j amount' k' σ' ht' => ?_⟩
  obtain ⟨order', hlock', hid', -⟩ := hholds j amount' k' σ' ht'
  exact hsound.eq_of_holds (hid' ▸ hlock'.lock) hlock.lock

/-- A deposit of half of the order is about to be started, while another one waits. -/
theorem start_fits_sample : ∃ (s : Config Stmt Err Outcome World Session)
    (k : Except Err String → Tx Outcome) (σ : Session),
    (paySystem endpointTypes .numbers).Reach System.anyStep (atRest sampleWorld) s ∧
    s.threads 1 = some ⟨.call (.startPayment 1 30) k, σ⟩ ∧
    (∃ order, s.world.db.orders.find? 1 = some order ∧
      s.world.db.balance .nonRejected 1 + 30 ≤ order.totalSum.toRat) ∧
    ∀ (j : ℕ) (amount' : ℚ) (k' : Except Err String → Tx Outcome) (σ' : Session),
      s.threads j = some ⟨.call (.startPayment 1 amount') k', σ'⟩ → j = 1 := by
  let call : Call endpointTypes := .deposit 7 sampleHalf ⟨_, rfl⟩
  let env := sampleEnv "a" PaymentStatus.Completed.value
  have hany : ((paySystem endpointTypes .numbers).run System.anyStep (atRest sampleWorld)
      (sampleDeposit 0 sampleHalf "b" ++
        [.spawn 1 call, .spawn 2 call, .run 1 env, .run 1 env])).any
        (fun s => decide (starting (s.threads 1) = some (1, 30))) = true := by decide +kernel
  obtain ⟨s, hs, htest⟩ := (Option.any_eq_true _ _).1 hany
  obtain ⟨k, σ, ht⟩ := exists_of_starting (of_decide_eq_true htest)
  have hreach := System.reach_of_run _ hs
  exact ⟨s, k, σ, hreach, ht, start_fits endpointTypes .numbers sampleWorld_atRest
    (fun _ hp => absurd hp List.not_mem_nil) hreach ht⟩

/-- **The bank is only asked about open payments, by one call at a time**: whenever a call is about
to ask the bank about an id, in any interleaving, it is the id of an open payment, and every other
call that is about to ask is about another payment. -/
theorem check_exclusive (types : Set String) (py : Pydantic) {w : World} (hw : w.AtRest)
    {s : Config Stmt Err Outcome World Session}
    (hs : (paySystem types py).Reach System.anyStep (atRest w) s) {i : ℕ} {bankPaymentId : String}
    {k : Except Err Dict → Tx Outcome} {σ : Session}
    (ht : s.threads i = some ⟨.call (.checkPayment bankPaymentId) k, σ⟩) :
    ∃ p, s.world.db.payments.find? p.id = some p ∧ p.isOpen = true ∧
      p.bankPaymentId = some bankPaymentId ∧
      ∀ (j : ℕ) (bankPaymentId' : String) (k' : Except Err Dict → Tx Outcome) (σ' : Session),
        s.threads j = some ⟨.call (.checkPayment bankPaymentId') k', σ'⟩ → j ≠ i →
          ∃ p', s.world.db.payments.find? p'.id = some p' ∧
            p'.bankPaymentId = some bankPaymentId' ∧ p'.id ≠ p.id := by
  obtain ⟨hsound, g, hmarked, hlocked⟩ := allLocked_of_reach py hw
    (show ∀ o, False → w.db.LawfulOrder types o from fun _ h => h.elim) hs
  have hholds : ∀ (j : ℕ) (b : String) (k : Except Err Dict → Tx Outcome) (σ : Session),
      s.threads j = some ⟨.call (.checkPayment b) k, σ⟩ → ∃ p, HoldsPayment j p s.world ∧
        p.isOpen = true ∧ p.bankPaymentId = some b := by
    intro j b k σ ht
    obtain ⟨t, hg, -, -, p, hp, hb⟩ := exists_trail hmarked ht
    obtain ⟨hlock, hopen, -⟩ := (hlocked j t hg).payment p hp
    exact ⟨p, hlock, hopen, hb⟩
  obtain ⟨p, hlock, hopen, hb⟩ := hholds i bankPaymentId k σ ht
  refine ⟨p, hlock.row, hopen, hb, fun j b' k' σ' ht' hji => ?_⟩
  obtain ⟨p', hlock', -, hb'⟩ := hholds j b' k' σ' ht'
  refine ⟨p', hlock'.row, hb', fun hid => hji ?_⟩
  exact hsound.eq_of_holds (hid ▸ hlock'.lock) hlock.lock

/-- Two deposits, and a check of each that is about to ask the bank. -/
theorem check_exclusive_sample : ∃ (s : Config Stmt Err Outcome World Session)
    (k : Except Err Dict → Tx Outcome) (σ : Session),
    (paySystem endpointTypes .numbers).Reach System.anyStep (atRest sampleWorld) s ∧
    s.threads 2 = some ⟨.call (.checkPayment "a") k, σ⟩ ∧
    ∃ p, s.world.db.payments.find? p.id = some p ∧ p.isOpen = true ∧
      p.bankPaymentId = some "a" ∧
      ∀ (j : ℕ) (bankPaymentId' : String) (k' : Except Err Dict → Tx Outcome) (σ' : Session),
        s.threads j = some ⟨.call (.checkPayment bankPaymentId') k', σ'⟩ → j ≠ 2 →
          ∃ p', s.world.db.payments.find? p'.id = some p' ∧
            p'.bankPaymentId = some bankPaymentId' ∧ p'.id ≠ p.id := by
  let env := sampleEnv "a" PaymentStatus.Completed.value
  have hany : ((paySystem endpointTypes .numbers).run System.anyStep (atRest sampleWorld)
      (sampleDeposit 0 sampleHalf "a" ++ sampleDeposit 1 sampleHalf "b" ++
        [.spawn 2 (.check 1), .spawn 3 (.check 2), .run 2 env, .run 3 env])).any
        (fun s => decide (asking (s.threads 2) = some "a")) = true := by decide +kernel
  obtain ⟨s, hs, htest⟩ := (Option.any_eq_true _ _).1 hany
  obtain ⟨k, σ, ht⟩ := exists_of_asking (of_decide_eq_true htest)
  have hreach := System.reach_of_run _ hs
  exact ⟨s, k, σ, hreach, ht, check_exclusive endpointTypes .numbers sampleWorld_atRest hreach ht⟩

end PaySystem
