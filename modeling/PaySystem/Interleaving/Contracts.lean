import Mathlib.Data.List.Infix
import PaySystem.Interleaving.Conversations
import PaySystem.Interleaving.PaymentHistory

/-!
# What a call achieves

The contract of a single call between its start and its end, while any other calls run, are started
and die in between: the periodic task leaves no open payment without a task, and a check that asks
for no other run has made its payment final, or found it so.
-/

namespace PaySystem

variable {types : Set String} {py : Pydantic} {greenlet : Bool} {β : Type} {i : ℕ}
  {w w' : World} {σ σ' : Session} {env : Env} {s : Stmt β} {r : Except Err β} {t : Trail types}
  {p : Payment} {g g' : Marks (Trail types)}

/-- What a step leaves of the payments and of the enqueued tasks. -/
structure World.Later (w w' : World) : Prop where
  preserves : w.db.Preserves w'.db
  queue : w.queue <+: w'.queue

theorem World.Later.refl (w : World) : w.Later w := ⟨Db.Preserves.refl _, List.prefix_refl _⟩

theorem World.Later.trans {w'' : World} (h : w.Later w') (h' : w'.Later w'') : w.Later w'' :=
  ⟨h.preserves.trans h'.preserves, h.queue.trans h'.queue⟩

/-- No row disappears. -/
theorem World.Later.exists_row (h : w.Later w') {id : ℕ} (hid : id ∈ w.db.storedIds) :
    ∃ q ∈ w'.db.payments.rows, q.id = id := by
  obtain ⟨p, hp, rfl⟩ := List.mem_map.1 hid
  obtain ⟨q, hq, hsame, -⟩ := h.preserves p hp
  exact ⟨q, hq, hsame.id⟩

/-- What is open has been open before. -/
theorem World.Later.isOpen (h : w.Later w') {q : Payment} (hp : p ∈ w.db.payments.rows)
    (hq : q ∈ w'.db.payments.rows) (hid : q.id = p.id) (hopen : q.isOpen = true) :
    p.isOpen = true := by
  obtain ⟨p', hp', hsame, hfinal⟩ := h.preserves p hp
  obtain rfl : q = p' := Table.eq_of_key_eq hq hp' (hid.trans hsame.id.symm)
  rw [Payment.isOpen_iff_isTerminal] at hopen ⊢
  refine ⟨Bool.eq_false_iff.2 fun ht => ?_, hsame.bankPaymentId ▸ hopen.2⟩
  rw [hfinal ht, ht] at hopen
  cases hopen.1

/-- A run in which thread `i` makes the call `call`: it is started in the state `start` that the
events `before` have reached from rest, and is still in flight after the events `during`. -/
structure CallRun (py : Pydantic) (w : World) (i : ℕ) (call : Call types)
    (start finish : Config Stmt Err Outcome World Session) : Prop where
  atRest : w.AtRest
  before : (paySystem types py).Reach System.anyStep (PaySystem.atRest w) start
  during : ∃ c es, (paySystem types py).step start (.spawn i call) = some c ∧
    (paySystem types py).run System.anyStep c es = some finish ∧
    ∀ e ∈ es, e.isSpawn i = false

/-- The configuration at the end of a call is valid, and its payments are lawful if they were so at
the beginning. -/
theorem CallRun.finish_valid {call : Call types}
    {start finish : Config Stmt Err Outcome World Session}
    (h : CallRun py w i call start finish) (hl : w.db.Lawful types) :
    (interference types (fun _ => False) py).Valid finish ∧ finish.world.db.Lawful types := by
  have hverified := verified types (fun _ => False) py
  have hvalid : (interference types (fun _ => False) py).Valid (PaySystem.atRest w) :=
    valid_atRest h.atRest fun _ h => h.elim
  obtain ⟨c, es, hspawn, hrun, -⟩ := h.during
  have hreach : (paySystem types py).Reach System.anyStep (PaySystem.atRest w) finish :=
    (h.before.step _ hspawn trivial).trans (System.reach_of_run es hrun)
  exact ⟨hvalid.reach hverified hreach,
    hvalid.induction (P := fun w => w.db.Lawful types) hverified hreach hl
      fun _ _ _ _ _ hg hl => hg.lawful hl⟩

theorem Linked.queue_prefix {c : Config Stmt Err Outcome World Session} {e : Event (Call types) Env}
    {greenlet : Bool}
    (hm : System.Move (paySystem types py) (trails types greenlet) c e w' g g') :
    c.world.queue <+: w'.queue := by
  cases hm with
  | spawn i call idle => exact List.prefix_refl _
  | call i env mark st allowed exec answered sent =>
    rw [(effect_of_exec exec).queue]
    exact List.prefix_append _ _
  | finish e closing mark ends => exact List.prefix_refl _

theorem later_of_step {c c' : Config Stmt Err Outcome World Session} {e : Event (Call types) Env}
    (hvalid : (interference types (fun _ => False) py).Valid c)
    (he : (paySystem types py).step c e = some c')
    (hm : System.Move (paySystem types py) (trails types greenlet) c e c'.world g g') :
    c.world.Later c'.world := by
  refine ⟨?_, Linked.queue_prefix hm⟩
  rcases (hvalid.step (verified types (fun _ => False) py) e he).2 with heq | hguar
  · rw [heq]
    exact Db.Preserves.refl _
  · exact hguar.preserves

/-- A move keeps what is known of the call of thread `i`, if the others and its own statements keep
it. -/
theorem Linked.call_move {c : Config Stmt Err Outcome World Session} {e : Event (Call types) Env}
    {call : Call types} {P : World → Trail types → Prop} (h : Linked c.world g)
    (hm : System.Move (paySystem types py) (trails types true) c e w' g g')
    (hlater : c.world.Later w')
    (hother : ∀ {w w' : World} {t : Trail types}, w.Later w' → P w t → P w' t)
    (hown : ∀ {β : Type} {env : Env} {σ σ' : Session} {s : Stmt β} {r : Except Err β}
      {w w' : World} {t : Trail types}, t.call = call → t.Allows true s → w.writes i = t.writes →
      execStmt i env w σ s = some (r, w', σ') → w.Later w' → P w t → P w' (t.next s r))
    (hP : ∀ t, g i = some t → t.call = call ∧ P c.world t) (hspawn : e.isSpawn i = false) :
    ∀ t, g' i = some t → t.call = call ∧ P w' t := by
  refine fun t ht => hm.forall_mark (P := fun j t => j = i → t.call = call ∧ P w' t)
    (fun j t _ ht hj => ?_) (fun j c hc hj => ?_) (fun _ mark allowed exec _ hj => ?_) i t ht rfl
  · obtain ⟨hcall, hPt⟩ := hP t (hj ▸ ht)
    exact ⟨hcall, hother hlater hPt⟩
  · subst hc hj
    cases hspawn.symm.trans (decide_eq_true rfl)
  · subst hj
    obtain ⟨hcall, hPt⟩ := hP _ mark
    exact ⟨(Trail.call_next _ _ _).trans hcall,
      hown hcall allowed ((h.writes _).trans (by rw [mark]; rfl)) exec hlater hPt⟩

/-- **The rule for a call among others**: what holds of its trail at the start, what the steps of
the others keep and what its own statements keep, holds when it ends, and the trail is as its result
promises. -/
theorem CallRun.induction {call : Call types} {start finish : Config Stmt Err Outcome World Session}
    (h : CallRun py w i call start finish) {P : World → Trail types → Prop}
    (hstart : P start.world (.init call))
    (hother : ∀ {w w' : World} {t : Trail types}, w.Later w' → P w t → P w' t)
    (hown : ∀ {β : Type} {env : Env} {σ σ' : Session} {s : Stmt β} {r : Except Err β}
      {w w' : World} {t : Trail types}, t.call = call → t.Allows true s → w.writes i = t.writes →
      execStmt i env w σ s = some (r, w', σ') → w.Later w' → P w t → P w' (t.next s r))
    {env : Env} {r : Except Err Outcome} (hend : System.ended finish
      (.run i env : Event (Call types) Env) = some r) :
    ∃ t : Trail types, t.call = call ∧ t.Ends r ∧ P finish.world t := by
  obtain ⟨c, es, hspawn, hrun, hes⟩ := h.during
  have hverified := verified types (fun _ => False) py
  have hvalid : (interference types (fun _ => False) py).Valid start :=
    (valid_atRest h.atRest fun _ h => h.elim).reach hverified h.before
  obtain ⟨es₁, hes₁⟩ := h.before.exists_run
  obtain ⟨g₁, hmarked₁, hlinked₁, -⟩ := linked_induction py h.atRest hes₁ (greenlets_true es₁)
    (fun _ _ _ => True) trivial fun _ _ _ _ _ _ _ _ _ _ _ => trivial
  obtain ⟨g₂, hmarked₂, hm₂⟩ := hmarked₁.step (obeys types py true) (show Session.Bare _ from rfl)
    (e := .spawn i call) trivial hspawn
  have hvalid₂ := (hvalid.step hverified _ hspawn).1
  obtain ⟨-, hworld, hg₂⟩ := System.Move.spawn_iff.1 hm₂
  have hrun' := Linked.induction hmarked₂ (hlinked₁.move hm₂) hrun (greenlets_true es)
    (fun es w' g => (∀ e ∈ es, e.isSpawn i = false) → ∀ t, g i = some t → t.call = call ∧ P w' t)
    (fun _ t ht => by
      rw [hg₂, Function.update_self] at ht
      obtain rfl := Option.some.inj ht
      exact ⟨rfl, hworld ▸ hstart⟩)
    fun es c e c' g g' hrun he hlinked hm hJ hes => by
      have hlater :=
        later_of_step (hvalid₂.reach hverified (System.reach_of_run es hrun)) he hm
      exact hlinked.call_move hm hlater hother hown
        (hJ fun e he => hes e (List.mem_append_left _ he))
        (hes e (List.mem_append_right _ (List.mem_singleton.2 rfl)))
  obtain ⟨g, hmarked, -, hJ⟩ := hrun'
  obtain ⟨t, ht, hends⟩ := hmarked.ends_of_ended hend
  obtain ⟨hcall, hP⟩ := hJ hes t ht
  exact ⟨t, hcall, hends, hP⟩

/-! ## The periodic task -/

/-- The list has every payment that was stored at the start and is open. -/
def World.Lists (start w : World) (ids : List ℕ) : Prop :=
  ∀ p ∈ w.db.payments.rows, p.id ∈ start.db.storedIds → p.isOpen = true → p.id ∈ ids

/-- A list stays complete, as no payment opens again. -/
theorem World.Lists.later {start : World} {ids : List ℕ} (h : start.Lists w ids)
    (hstart : start.Later w) (hl : w.Later w') : start.Lists w' ids := by
  intro q hq hid hopen
  obtain ⟨p, hp, hpq⟩ := hstart.exists_row hid
  exact hpq ▸ h p hp (hpq ▸ hid) (hl.isOpen hp hq hpq.symm hopen)

/-- What the periodic task has listed and enqueued since its start. -/
structure Trail.Sweeps (start w : World) (t : Trail types) : Prop where
  later : start.Later w
  listed : ∀ ids, t.listed = some ids → start.Lists w ids
  queued : t.queued ⊆ w.queue.drop start.queue.length

theorem Trail.Sweeps.other {start : World} (h : t.Sweeps start w) (hl : w.Later w') :
    t.Sweeps start w' where
  later := h.later.trans hl
  listed ids hids := (h.listed ids hids).later h.later hl
  queued := List.Subset.trans h.queued (List.IsPrefix.drop hl.queue _).subset

theorem Trail.Sweeps.own {start : World} (h : t.Sweeps start w) (hallow : t.Allows true s)
    (hws : w.writes i = t.writes) (hexec : execStmt i env w σ s = some (r, w', σ'))
    (hl : w.Later w') : (t.next s r).Sweeps start w' := by
  refine ⟨h.later.trans hl, fun ids hids => ?_, ?_⟩
  · rcases listed_of_exec hexec hallow hws hids with hids | ⟨rfl, hdb⟩
    · exact (h.listed ids hids).later h.later hl
    · intro p hp hid hopen
      rw [hdb] at hp
      exact List.mem_map_of_mem (List.mem_filter.2 ⟨hp, hopen⟩)
  · rw [(effect_of_exec hexec).queue, List.drop_append_of_le_length h.later.queue.length_le]
    exact List.append_subset.2 ⟨List.Subset.trans h.queued (List.subset_append_left _ _),
      List.subset_append_right _ _⟩

/-- **The periodic task leaves nothing out**: whatever runs beside it, when it returns, every
payment that was stored when it started and is still open has a task that was enqueued since. -/
theorem sweep_complete {start finish : Config Stmt Err Outcome World Session}
    (h : CallRun py w i (.enqueue : Call types) start finish) {env : Env}
    (hend : System.ended finish (.run i env : Event (Call types) Env) = some (.ok .done)) :
    ∀ p ∈ finish.world.db.payments.rows, p.id ∈ start.world.db.storedIds → p.isOpen = true →
      p.id ∈ finish.world.queue.drop start.world.queue.length := by
  obtain ⟨t, -, hends, hsweeps⟩ := h.induction (P := fun w t => t.Sweeps start.world w)
    ⟨.refl _, (fun _ h => nomatch h), List.nil_subset _⟩ (fun hl h => h.other hl)
    (fun _ hallow hws hexec hl h => h.own hallow hws hexec hl) hend
  exact fun p hp hid hopen => hsweeps.queued (hsweeps.listed _ hends.2 p hp hid hopen)

/-- A call that is executed, and runs until its last step in a configuration that passes a test. -/
theorem CallRun.exists_of_run (py : Pydantic) (i : ℕ) (call : Call types) (hw : w.AtRest)
    (es : List (Event (Call types) Env)) (P : Config Stmt Err Outcome World Session → Bool)
    (hes : es.all (fun e => !e.isSpawn i) = true)
    (h : ((paySystem types py).run System.anyStep (PaySystem.atRest w)
      (.spawn i call :: es)).any P = true) :
    ∃ finish, CallRun py w i call (PaySystem.atRest w) finish ∧ P finish = true := by
  obtain ⟨s, hs, hP⟩ := (Option.any_eq_true _ _).1 h
  obtain ⟨c, hspawn, -, hrun⟩ := System.run_cons.1 hs
  refine ⟨s, ⟨hw, .start, c, es, hspawn, hrun, fun e he => ?_⟩, hP⟩
  have hno := List.all_eq_true.1 hes e he
  rwa [Bool.not_eq_true'] at hno

/-- The periodic task, beside which another deposit is made: the open deposit has a new task. -/
theorem sweep_complete_sample : ∃ finish : Config Stmt Err Outcome World Session,
    finish.world.queue = [1, 2, 1] ∧
    ∀ p ∈ finish.world.db.payments.rows, p.id ∈ sampleDeposited.db.storedIds → p.isOpen = true →
      p.id ∈ finish.world.queue.drop sampleDeposited.queue.length := by
  obtain ⟨finish, hrun, htest⟩ := CallRun.exists_of_run .numbers 1
    (.enqueue : Call endpointTypes) sampleDeposited_atRest
    (.run 1 (sampleEnv "b" "") :: sampleDeposit 2 sampleHalf "b" ++ [.run 1 (sampleEnv "b" "")])
    (fun s => decide (s.world.queue = [1, 2, 1] ∧ System.ended s
      (.run 1 (sampleEnv "b" "") : Event (Call endpointTypes) Env) = some (.ok .done)))
    (by decide +kernel) (by decide +kernel)
  obtain ⟨hqueue, hend⟩ := of_decide_eq_true htest
  exact ⟨finish, hqueue, sweep_complete hrun hend⟩

/-! ## The check -/

/-- The rows of the payment are not open. -/
def Db.Closed (db : Db) (paymentId : ℕ) : Prop :=
  ∀ p ∈ db.payments.rows, p.id = paymentId → p.isOpen = false

/-- The writes change the status of orders only. -/
def OrdersOnly (ws : List Write) : Prop := ∀ x ∈ ws, ∃ orderId st, x = .updateOrder orderId st

theorem OrdersOnly.payments {ws : List Write} (h : OrdersOnly ws) (db : Db) :
    (ws.foldl Db.apply db).payments = db.payments := by
  induction ws generalizing db with
  | nil => rfl
  | cons x ws ih =>
    obtain ⟨orderId, st, rfl⟩ := h x List.mem_cons_self
    rw [List.foldl_cons, ih fun y hy => h y (List.mem_cons_of_mem _ hy)]
    exact payments_updateOrder db orderId st

/-- The writes of a check: the new status of its payment, and then that of an order. -/
def WritesOfCheck (paymentId : ℕ) (ws : List Write) : Prop :=
  ws = [] ∨ ∃ status paidAt rest, ws = .updatePayment paymentId status paidAt :: rest ∧
    OrdersOnly rest

/-- A payment that is written as final is closed. -/
theorem Db.closed_updatePayment {id : ℕ} {status : String}
    (hfinal : status = PaymentStatus.Completed.value ∨ status = PaymentStatus.Rejected.value)
    (db : Db) (paidAt : Option DateTime) :
    (db.apply (.updatePayment id status paidAt)).Closed id := by
  intro p hp hid
  cases hfind : db.payments.find? id with
  | none =>
    simp only [Db.apply, hfind] at hp
    exact absurd hid (Table.find?_eq_none.1 hfind p hp)
  | some q =>
    have hq : q.id = id := Table.key_of_find? hfind
    rw [payments_updatePayment hfind] at hp
    rcases (Table.mem_update (x := q) (hq.symm ▸ hfind)).1 hp with ⟨-, hne⟩ | rfl
    · exact absurd (hid.trans hq.symm) hne
    · refine Bool.eq_false_iff.2 fun hopen => ?_
      obtain ⟨hcompleted, hrejected, -⟩ := Payment.isOpen_iff.1 hopen
      exact hfinal.elim hcompleted hrejected

/-- A final status closes the payment. -/
theorem WritesOfCheck.closed {ws : List Write} {id : ℕ} (h : WritesOfCheck id ws)
    (hs : ws.any Trail.settles = true) (db : Db) : (ws.foldl Db.apply db).Closed id := by
  rcases h with rfl | ⟨status, paidAt, rest, rfl, hrest⟩
  · cases hs
  have hfinal : status = PaymentStatus.Completed.value ∨
      status = PaymentStatus.Rejected.value := by
    rw [List.any_cons, Bool.or_eq_true, List.any_eq_true] at hs
    rcases hs with hs | ⟨x, hx, hs⟩
    · simpa [Trail.settles] using hs
    · obtain ⟨orderId, st, rfl⟩ := hrest x hx
      cases hs
  intro p hp
  rw [List.foldl_cons, hrest.payments] at hp
  exact Db.closed_updatePayment hfinal db paidAt p hp

/-- A statement leaves the writes of a check as they have to be. -/
theorem WritesOfCheck.next {id : ℕ} (h : WritesOfCheck id t.writes) (hcall : t.call = .check id)
    (hpayment : ∀ p, t.payment = some p → p.id = id) (hallow : t.Allows greenlet s) :
    WritesOfCheck id (s.written t.writes r) := by
  cases r with
  | error e => cases s <;> exact h
  | ok b => cases s with
    | insertPayment p =>
      have hmakes := hallow.1 0
      rw [hcall] at hmakes
      exact hmakes.elim
    | updatePayment paymentId status paidAt =>
      obtain ⟨⟨p, hp, rfl⟩, hnil, -⟩ := hallow
      rw [← hpayment p hp]
      exact Or.inr ⟨status, paidAt, [], congrArg (· ++ [_]) hnil, (fun _ h => nomatch h)⟩
    | updateOrder orderId st =>
      rcases h with hnil | ⟨status, paidAt, rest, heq, hrest⟩
      · exact absurd hnil (hallow id hcall)
      · refine Or.inr ⟨status, paidAt, rest ++ [.updateOrder orderId st],
          by rw [← List.cons_append, ← heq]; rfl, fun x hx => ?_⟩
        rcases List.mem_append.1 hx with hx | hx
        · exact hrest x hx
        · exact ⟨orderId, st, List.mem_singleton.1 hx⟩
    | commit => exact Or.inl rfl
    | _ => exact h

/-- A check that knows its payment to be closed has known it before, or has just seen that it is not
open, or has just committed a final status. -/
theorem settled_of_exec (h : execStmt i env w σ s = some (r, w', σ'))
    (hallow : t.Allows greenlet s) (hws : w.writes i = t.writes)
    (hs : (t.next s r).settled = true) :
    t.settled = true ∨ (∃ id, t.call = .check id ∧ w'.db.Closed id) ∨
      t.writes.any Trail.settles = true ∧ w'.db = t.writes.foldl Db.apply w.db := by
  cases s with
  | selectPaymentForUpdate id =>
    simp only [execStmt] at h
    rcases (sql_cases h).2 with ⟨msg, -, rfl, -⟩ | ⟨-, ha⟩
    · exact Or.inl hs
    · rw [view_acquire_of_writes _ (hws.trans hallow.2)] at ha
      cases ha
      refine Or.inr (Or.inl ⟨id, hallow.1, fun p hp hid => Bool.eq_false_iff.2 fun hopen => ?_⟩)
      have hfind : w.db.payments.find? id = some p := hid ▸ Table.find?_key hp
      have hnone : ((w.db.payments.find? id).filter Payment.isOpen).isNone = true := hs
      rw [hfind, Option.filter_some_pos hopen] at hnone
      cases hnone
  | commit =>
    simp only [execStmt] at h
    rcases (sql_cases h).2 with ⟨msg, -, rfl, -⟩ | ⟨-, ha⟩
    · exact Or.inl hs
    · cases ha
      rcases Bool.or_eq_true_iff.1 (show (t.settled || t.writes.any Trail.settles) = true from hs)
        with hs | hs
      · exact Or.inl hs
      · refine Or.inr (Or.inr ⟨hs, ?_⟩)
        rw [← hws]
        rfl
  | selectBalance orderId f => cases f <;> cases r <;> exact Or.inl hs
  | _ => cases r <;> exact Or.inl hs

/-- What a check knows of its payment. -/
structure Trail.Checks (w : World) (id : ℕ) (t : Trail types) : Prop where
  stored : id ∈ w.db.storedIds
  payment : ∀ p, t.payment = some p → p.id = id
  writes : WritesOfCheck id t.writes
  settled : t.settled = true → w.db.Closed id

/-- What is closed stays closed. -/
theorem Db.Closed.later {id : ℕ} (h : w.db.Closed id) (hid : id ∈ w.db.storedIds)
    (hl : w.Later w') : w'.db.Closed id := by
  intro q hq hqid
  obtain ⟨p, hp, hpid⟩ := List.mem_map.1 hid
  refine Bool.eq_false_iff.2 fun hopen => ?_
  cases (hl.isOpen hp hq (hqid.trans hpid.symm) hopen).symm.trans (h p hp hpid)

theorem Trail.checks_init {id : ℕ} (hid : id ∈ w.db.storedIds) :
    (Trail.init (.check id : Call types)).Checks w id :=
  ⟨hid, (fun _ h => nomatch h), Or.inl rfl, (fun h => nomatch h)⟩

theorem Trail.Checks.other {id : ℕ} (h : t.Checks w id) (hl : w.Later w') : t.Checks w' id where
  stored := List.mem_map.2 (hl.exists_row h.stored)
  payment := h.payment
  writes := h.writes
  settled hs := (h.settled hs).later h.stored hl

theorem Trail.Checks.own {id : ℕ} (h : t.Checks w id) (hcall : t.call = .check id)
    (hallow : t.Allows greenlet s) (hws : w.writes i = t.writes)
    (hexec : execStmt i env w σ s = some (r, w', σ')) (hl : w.Later w') :
    (t.next s r).Checks w' id := by
  refine ⟨(h.other hl).stored, fun p hp => ?_, h.writes.next hcall h.payment hallow, fun hs => ?_⟩
  · rcases payment_of_exec hexec hallow hws hp with hp | ⟨-, -, hp⟩
    · exact h.payment p hp
    · exact Call.check.inj (hp.symm.trans hcall)
  · rcases settled_of_exec hexec hallow hws hs with hs | ⟨id', hid', hclosed⟩ | ⟨hany, hdb⟩
    · exact (h.settled hs).later h.stored hl
    · exact Call.check.inj (hid'.symm.trans hcall) ▸ hclosed
    · rw [hdb]
      exact h.writes.closed hany w.db

/-- **A check that is final is right for good**: if a check of a stored payment ends without asking
for another run, then the payment is completed or rejected, and its row is the same in every later
state, whatever else runs. -/
theorem check_settles {start finish : Config Stmt Err Outcome World Session} {paymentId : ℕ}
    (h : CallRun py w i (.check paymentId : Call types) start finish) (hl : w.db.Lawful types)
    (hstored : paymentId ∈ start.world.db.storedIds) {env : Env} {isFinal : Bool}
    (hend : System.ended finish (.run i env : Event (Call types) Env) = some (.ok (.final isFinal)))
    (hdone : checkPaymentStatusTask (.ok isFinal) = .done) :
    ∃ p, p.id = paymentId ∧ p.isTerminal = true ∧
      ∀ s, (paySystem types py).Reach System.anyStep finish s →
        p ∈ s.world.db.payments.rows := by
  have hfinal : isFinal = true := by
    cases isFinal with
    | false => cases hdone
    | true => rfl
  subst hfinal
  obtain ⟨t, -, hends, hchecks⟩ := h.induction (P := fun w t => t.Checks w paymentId)
    (Trail.checks_init hstored) (fun hl h => h.other hl)
    (fun hcall hallow hws hexec hl h => h.own hcall hallow hws hexec hl) hend
  have hverified := verified types (fun _ => False) py
  obtain ⟨hvalid, hlawful⟩ := h.finish_valid hl
  obtain ⟨p, hp, hid⟩ := List.mem_map.1 hchecks.stored
  obtain ⟨order, -, hlife⟩ := hlawful p hp
  have hterminal : p.isTerminal = true := by
    by_contra hne
    have hopen := Payment.isOpen_iff_isTerminal.2
      ⟨Bool.eq_false_iff.2 hne, (hlife.ofOpen (Bool.eq_false_iff.2 hne)).2.2⟩
    cases hopen.symm.trans (hchecks.settled (hends.2 rfl) p hp hid)
  refine ⟨p, hid, hterminal, fun s hs => ?_⟩
  refine hvalid.induction (P := fun w => p ∈ w.db.payments.rows) hverified hs hp
    fun _ _ _ _ _ hg hp => ?_
  obtain ⟨p', hp', -, hsame⟩ := hg.preserves p hp
  exact hsame hterminal ▸ hp'

theorem sampleDeposited_lawful : sampleDeposited.db.Lawful endpointTypes := by
  intro p hp
  obtain rfl := List.mem_singleton.1 hp
  refine ⟨sampleOrder, rfl, Payment.IsDeposit.lifecycle ?_⟩
  exact ⟨rfl, by decide +kernel, rfl, rfl, rfl, rfl, rfl⟩

/-- The check of a deposit that the bank has completed, beside which another deposit is made. -/
theorem check_settles_sample : ∃ finish : Config Stmt Err Outcome World Session,
    finish.world.db.payments.rows.map Payment.paymentStatus =
      [PaymentStatus.Completed.value, PaymentStatus.Submitted.value] ∧
    ∃ p, p.id = 1 ∧ p.isTerminal = true ∧
      ∀ s, (paySystem endpointTypes .numbers).Reach System.anyStep finish s →
        p ∈ s.world.db.payments.rows := by
  obtain ⟨finish, hrun, htest⟩ := CallRun.exists_of_run .numbers 1
    (.check 1 : Call endpointTypes) sampleDeposited_atRest
    (.run 1 (sampleEnv "a" PaymentStatus.Completed.value) :: sampleDeposit 2 sampleHalf "b" ++
      List.replicate 8 (.run 1 (sampleEnv "a" PaymentStatus.Completed.value)))
    (fun s => decide (s.world.db.payments.rows.map Payment.paymentStatus =
        [PaymentStatus.Completed.value, PaymentStatus.Submitted.value] ∧ System.ended s
      (.run 1 (sampleEnv "a" "") : Event (Call endpointTypes) Env) = some (.ok (.final true))))
    (by decide +kernel) (by decide +kernel)
  obtain ⟨hstatus, hend⟩ := of_decide_eq_true htest
  exact ⟨finish, hstatus, check_settles hrun sampleDeposited_lawful (by decide) hend rfl⟩

end PaySystem
