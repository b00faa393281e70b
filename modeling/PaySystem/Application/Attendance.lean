import PaySystem.Application.Runs
import PaySystem.Interleaving.Contracts
import PaySystem.Interleaving.Origins

/-!
# No open payment is forgotten

As long as no call dies and the broker takes and keeps every message, a payment that is open is
attended to: there is a message for a check of it or a check of it is running, unless its retries
are used up, or the request that makes it is still being handled and has to enqueue the first check.
-/

namespace PaySystem

variable {py : Pydantic} {i : ℕ} {c c' : Config Stmt Err Outcome World Session}
  {e : Event (Call endpointTypes) Env} {g g' : Marks (Trail endpointTypes)} {p : Payment}
  {t : Trail endpointTypes} {β : Type} {s : Stmt β} {r : Except Err β} {env : Env}

/-! ## The calls in flight -/

/-- A call has stored nothing, or the one payment that it makes. -/
def Trail.Once {types : Set String} (t : Trail types) : Prop :=
  t.stored = [] ∨ ∃ p, t.stored = [p] ∧ t.call.Makes p

theorem Trail.Once.next {types : Set String} {t : Trail types} (h : t.Once) (hsingle : t.Single) :
    (t.next s r).Once := by
  unfold Once
  rw [call_next]
  rcases t.stored_next s r with ⟨hstored, -⟩ | ⟨hstored, -⟩ <;> rw [hstored]
  · exact h
  · rcases hsingle with hnil | ⟨p, hp, hnone, hmakes⟩
    · rwa [hnil, List.append_nil]
    · rw [hnone, hp]
      exact Or.inr ⟨p, rfl, hmakes⟩

/-- The statement sends a task to the broker. -/
def Stmt.isTask {β : Type} : Stmt β → Bool
  | .applyAsync _ => true
  | _ => false

/-- The thread is about to send a task to the broker, or it is at its end, where a task may send its
retry. -/
def atBroker (c : Config Stmt Err Outcome World Session) (i : ℕ) : Bool :=
  match c.threads i with
  | some ⟨.call s _, _⟩ => s.isTask
  | some _ => true
  | none => false

/-- What is known of a call in flight while the broker takes every task. -/
structure Trail.Attentive (w : World) (t : Trail endpointTypes) : Prop where
  single : t.Single
  once : t.Once
  accepted : t.refused = false
  checks : ∀ id, t.call = .check id → t.Checks w id

/-- The broker refuses a task only if the environment fails. -/
theorem refused_next {w w' : World} {σ σ' : Session} (h : t.refused = false)
    (hexec : execStmt i env w σ s = some (r, w', σ'))
    (hs : s.isTask = true → env.failure = none) : (t.next s r).refused = false := by
  cases s with
  | applyAsync id =>
    simp only [execStmt, hs rfl] at hexec
    cases hexec
    exact h
  | selectBalance orderId f => cases f <;> cases r <;> exact h
  | _ => cases r <;> exact h

theorem Trail.attentive_init (w : World) {c : Call endpointTypes}
    (hc : ∀ id, c = .check id → id ∈ w.db.storedIds) : (Trail.init c).Attentive w :=
  ⟨Or.inl rfl, Or.inl rfl, rfl, by rintro id rfl; exact Trail.checks_init (hc id rfl)⟩

theorem Trail.Attentive.later {w w' : World} (h : t.Attentive w) (hl : w.Later w') :
    t.Attentive w' :=
  ⟨h.single, h.once, h.accepted, fun id hid => (h.checks id hid).other hl⟩

theorem Trail.Attentive.next {w w' : World} {σ σ' : Session} (h : t.Attentive w)
    (hallow : t.Allows true s) (hws : w.writes i = t.writes)
    (hexec : execStmt i env w σ s = some (r, w', σ')) (hl : w.Later w')
    (hs : s.isTask = true → env.failure = none) : (t.next s r).Attentive w' := by
  refine ⟨h.single.next hallow, h.once.next h.single, refused_next h.accepted hexec hs,
    fun id hid => ?_⟩
  rw [Trail.call_next] at hid
  exact (h.checks id hid).own hid hallow hws hexec hl

/-- The calls in flight, and the world that they run in. -/
structure Services (py : Pydantic) (c : Config Stmt Err Outcome World Session)
    (g : Marks (Trail endpointTypes)) : Prop where
  marked : System.Marked (trails endpointTypes true) Session.Bare c g
  linked : Linked c.world g
  valid : (interference endpointTypes (fun _ => False) py).Valid c
  lawful : c.world.db.Lawful endpointTypes
  queue : c.world.queue ⊆ c.world.db.storedIds
  attentive : ∀ i t, g i = some t → t.Attentive c.world

/-- **A step of the services**, in which the broker takes every task and checks are of stored
payments. -/
theorem Services.step (h : Services py c g) (he : (paySystem endpointTypes py).step c e = some c')
    (hspawn : ∀ i id, e = .spawn i (.check id) → id ∈ c.world.db.storedIds)
    (hbroker : ∀ i env, e = .run i env → atBroker c i = true → env.failure = none) :
    ∃ g', Services py c' g' ∧
      System.Move (paySystem endpointTypes py) (trails endpointTypes true) c e c'.world g g' ∧
      c.world.Later c'.world := by
  have hverified := verified endpointTypes (fun _ => False) py
  obtain ⟨g', hmarked, hm⟩ := h.marked.step (obeys endpointTypes py true)
    (show Session.Bare _ from rfl)
    (answers_of_greenlets (greenlets_true [e]) e (List.mem_singleton.2 rfl)) he
  have hlater := later_of_step h.valid he hm
  refine ⟨g', ⟨hmarked, h.linked.move hm, (h.valid.step hverified e he).1, ?_,
    h.linked.queue_subset hm h.queue, ?_⟩, hm, hlater⟩
  · rcases (h.valid.step hverified e he).2 with heq | hguar
    · rw [heq]
      exact h.lawful
    · exact hguar.lawful h.lawful
  · refine hm.forall_mark (P := fun _ t => t.Attentive c'.world)
      (fun i t _ ht => (h.attentive i t ht).later hlater) (fun i call hcall => ?_)
      fun hrun mark allowed exec sent => ?_
    · refine (Trail.attentive_init c.world fun id hid => ?_).later hlater
      exact hspawn i id (hid ▸ hcall)
    · refine (h.attentive _ _ mark).next allowed ((h.linked.writes _).trans (by rw [mark]; rfl))
        exec hlater fun htask => hbroker _ _ hrun ?_
      obtain ⟨k, hk⟩ := sent
      simp only [atBroker, hk, htask]

/-! ## Payments that a request has still to enqueue -/

/-- The call has stored the payment, and not enqueued its check. -/
def Trail.Owes (t : Trail endpointTypes) (id : ℕ) : Prop :=
  (∃ q ∈ t.stored, q.id = id) ∧ id ∉ t.queued

/-- A payment that is open after a statement was open before, or the call has just stored it and
owes its check. -/
theorem Services.open_of_call {w' : World} {σ σ' : Session} (h : Services py c g)
    (mark : g i = some t) (allowed : t.Allows true s)
    (exec : execStmt i env c.world σ s = some (r, w', σ')) (hl : c.world.Later w')
    (hp : p ∈ w'.db.payments.rows) (hopen : p.isOpen = true) :
    (∃ q ∈ c.world.db.payments.rows, q.id = p.id ∧ q.isOpen = true) ∨ (t.next s r).Owes p.id := by
  have he : Effect i s r c.world w' := effect_of_exec exec
  have hws : c.world.writes i = t.writes := (h.linked.writes i).trans (by rw [mark]; rfl)
  by_cases hid : p.id ∈ c.world.db.storedIds
  · obtain ⟨q, hq, hqp⟩ := List.mem_map.1 hid
    exact Or.inl ⟨q, hq, hqp, hl.isOpen hq hp hqp.symm hopen⟩
  have hqueued : p.id ∉ (t.next s r).queued := by
    intro hmem
    rcases List.mem_append.1 hmem with hmem | hmem
    · exact hid (h.queue ((h.linked.marks i t mark).queued hmem))
    · exact hid (enqueued_subset allowed (h.linked.marks i t mark) hmem)
  have hnew : p.origin ∈ w'.db.origins := List.mem_map_of_mem hp
  have hold : p.origin ∉ c.world.db.origins := fun hmem => hid (by
    rw [storedIds_eq]
    exact List.mem_map.2 ⟨p.origin, hmem, rfl⟩)
  refine Or.inr ⟨?_, hqueued⟩
  rcases t.stored_next s r with ⟨-, hdb⟩ | ⟨hstored, -, -⟩
  · rw [he.db, hdb] at hnew
    exact absurd hnew hold
  · rcases h.linked.pending.origins_commit he with hdb | ⟨-, hdb⟩ <;> rw [hdb] at hnew
    · exact absurd hnew hold
    · rcases List.mem_append.1 hnew with hnew | hnew
      · exact absurd hnew hold
      · obtain ⟨q, hq, horigin⟩ := List.mem_map.1 hnew
        rw [hstored, ← hws]
        exact ⟨q, List.mem_append_right _ hq, (Payment.mk.inj horigin).1⟩

/-- A payment that is open after a move was open before, or a call owes its check. -/
theorem Services.open_of_move {w' : World} (h : Services py c g)
    (hm : System.Move (paySystem endpointTypes py) (trails endpointTypes true) c e w' g g')
    (hl : c.world.Later w') (hp : p ∈ w'.db.payments.rows) (hopen : p.isOpen = true) :
    (∃ q ∈ c.world.db.payments.rows, q.id = p.id ∧ q.isOpen = true) ∨
      ∃ i t, g' i = some t ∧ t.Owes p.id := by
  cases hm with
  | spawn i call idle => exact Or.inl ⟨p, hp, rfl, hopen⟩
  | call i env mark st allowed exec answered sent =>
    exact (h.open_of_call mark allowed exec hl hp hopen).imp_right fun howes =>
      ⟨i, _, Function.update_self .., howes⟩
  | finish e closing mark ends => exact Or.inl ⟨p, hp, rfl, hopen⟩

/-- Who owes the check of a payment still does after a statement, or has just enqueued it. -/
theorem Trail.Owes.next {w w' : World} {σ σ' : Session} {id : ℕ} (h : t.Owes id)
    (hexec : execStmt i env w σ s = some (r, w', σ')) :
    (t.next s r).Owes id ∨ w'.queue = w.queue ++ [id] := by
  obtain ⟨⟨q, hq, hid⟩, hqueued⟩ := h
  by_cases hnew : id ∈ s.enqueued r
  · refine Or.inr ((effect_of_exec hexec).queue.trans (congrArg _ ?_))
    cases s with
    | applyAsync id' => cases r with
      | error e => cases hnew
      | ok u => rw [List.mem_singleton.1 hnew]; rfl
    | _ => cases r <;> cases hnew
  · refine Or.inl ⟨⟨q, ?_, hid⟩, fun hmem => ?_⟩
    · rcases t.stored_next s r with ⟨hstored, -⟩ | ⟨hstored, -⟩ <;> rw [hstored]
      · exact hq
      · exact List.mem_append_left _ hq
    · exact (List.mem_append.1 hmem).elim hqueued hnew

/-- Who owes the check of a payment has made the payment. -/
theorem Services.stored_of_owes (h : Services py c g) (mark : g i = some t) (howes : t.Owes p.id)
    (hp : p ∈ c.world.db.payments.rows) :
    ∃ q, t.stored = [q] ∧ q.SameOrigin p ∧ t.call.Makes q := by
  obtain ⟨⟨q, hq, hqp⟩, -⟩ := howes
  obtain ⟨q', hstored, hmakes⟩ :=
    (h.attentive i t mark).once.resolve_left (List.ne_nil_of_mem hq)
  obtain rfl : q = q' := by
    rw [hstored] at hq
    exact List.mem_singleton.1 hq
  obtain ⟨row, hrow, horigin⟩ := mem_origins_iff.1 ((h.linked.marks i t mark).stored q hq)
  obtain rfl : row = p := Table.eq_of_key_eq hrow hp (horigin.id.trans hqp)
  exact ⟨q, hstored, horigin, hmakes⟩

/-- Nobody ends who owes the check of an open payment. -/
theorem Services.not_owes_of_ends {r : Except Err Outcome} (h : Services py c g)
    (mark : g i = some t) (hends : t.Ends r) (hp : p ∈ c.world.db.payments.rows)
    (hopen : p.isOpen = true) : ¬ t.Owes p.id := by
  intro howes
  obtain ⟨q, hstored, horigin, hmakes⟩ := h.stored_of_owes mark howes hp
  rcases r with e | ⟨p' | isFinal⟩
  · rcases hends with hnil | hrefused
    · cases hnil.symm.trans hstored
    · exact absurd (hrefused.symm.trans (h.attentive i t mark).accepted) nofun
  · obtain ⟨hp', -, hdeposit⟩ := hends
    obtain rfl : p' = q := by
      rw [hstored] at hp'
      exact List.mem_singleton.1 hp'
    have hreturn : p'.operationType = OperationType.Return.value := by
      cases hcall : t.call with
      | deposit userId payload paymentType =>
        rw [hcall] at hmakes
        exact absurd (horigin.id ▸ hdeposit hmakes.2.2.2.1) howes.2
      | cashReturn userId payload =>
        rw [hcall] at hmakes
        exact hmakes.2.2.2.1
      | _ =>
        rw [hcall] at hmakes
        exact hmakes.elim
    -- A return is completed when it is stored.
    obtain ⟨order, -, hlife⟩ := h.lawful p hp
    exact (Payment.isOpen_iff.1 hopen).1 (hlife.ofReturn (horigin.operationType.trans hreturn)).2.1
  · obtain ⟨⟨id, hcall⟩, -⟩ := hends
    rw [hcall] at hmakes
    exact hmakes
  · rw [hends.1] at hmakes
    exact hmakes

/-- No check of an open payment is over. -/
theorem Services.not_done_of_ends {r : Except Err Outcome} (h : Services py c g)
    (mark : g i = some t) (hends : t.Ends r) (hcall : t.call = .check p.id)
    (hp : p ∈ c.world.db.payments.rows) (hopen : p.isOpen = true) :
    checkPaymentStatusTask (App.checkResult r) ≠ .done := by
  rcases r with e | ⟨p' | isFinal⟩
  · exact nofun
  · obtain ⟨-, hmakes, -⟩ := hends
    rw [hcall] at hmakes
    exact hmakes.elim
  · cases isFinal with
    | false => exact nofun
    | true =>
      have hclosed := ((h.attentive i t mark).checks p.id hcall).settled (hends.2 rfl)
      cases hopen.symm.trans (hclosed p hp rfl)
  · cases hends.1.symm.trans hcall

/-! ## The application -/

namespace App

variable {Token : Type} {d : Deployment Token} {app app' : App Token}
  {x : AppEvent Token} {es : List (AppEvent Token)} {bs : List (Event (Call endpointTypes) Env)}
  {m : TaskMessage} {id : ℕ}

/-- There is a message for a check of the payment, or a check of it is running, or its retries are
used up. -/
structure Attends (app : App Token) (id : ℕ) : Prop where
  attended : (∃ m ∈ app.messages, m.paymentId = id) ∨ (∃ x ∈ app.tasks, x.2.paymentId = id) ∨
    id ∈ app.givenUp

/-- No call dies, and the broker takes every message and loses none. -/
def Calm (app : App Token) : AppEvent Token → Prop
  | .lose _ => False
  | .abort _ => False
  | .run i env => atBroker app.calls i = true → env.failure = none
  | _ => True

instance (app : App Token) : ∀ x, Decidable (app.Calm x)
  | .lose _ => inferInstanceAs (Decidable False)
  | .abort _ => inferInstanceAs (Decidable False)
  | .run i env =>
    inferInstanceAs (Decidable (atBroker app.calls i = true → env.failure = none))
  | .auth _ => inferInstanceAs (Decidable True)
  | .post _ _ _ => inferInstanceAs (Decidable True)
  | .beat _ => inferInstanceAs (Decidable True)
  | .deliver _ _ => inferInstanceAs (Decidable True)
  | .redeliver _ => inferInstanceAs (Decidable True)

/-- The application while it is calm. -/
structure Tended (d : Deployment Token) (app : App Token) (g : Marks (Trail endpointTypes)) :
    Prop where
  services : Services d.py app.calls g
  messages : ∀ m ∈ app.messages, m.paymentId ∈ app.calls.world.queue
  tasks : ∀ x ∈ app.tasks, x.2.paymentId ∈ app.calls.world.queue ∧
    ∃ t, g x.1 = some t ∧ t.call = .check x.2.paymentId
  attends : ∀ p ∈ app.calls.world.db.payments.rows, p.isOpen = true →
    app.Attends p.id ∨ ∃ i t, g i = some t ∧ t.Owes p.id

/-- The application after the services have moved. -/
def moved (app : App Token) (calls : Config Stmt Err Outcome World Session) : App Token :=
  { app with
    calls := calls
    messages := app.messages ++ enqueued app.calls.world calls.world }

theorem Attends.moved {calls : Config Stmt Err Outcome World Session} (h : app.Attends id) :
    (app.moved calls).Attends id :=
  ⟨h.attended.imp_left fun ⟨m, hm, hid⟩ => ⟨m, List.mem_append_left _ hm, hid⟩⟩

/-- What is enqueued is attended to. -/
theorem attends_of_enqueued {calls : Config Stmt Err Outcome World Session}
    (hqueue : app.calls.world.queue ++ [id] <+: calls.world.queue) :
    (app.moved calls).Attends id := by
  obtain ⟨l, hl⟩ := hqueue
  refine ⟨Or.inl ⟨.first id, List.mem_append_right _ (List.mem_map.2 ⟨id, ?_, rfl⟩), rfl⟩⟩
  rw [← hl, List.append_assoc, List.drop_left]
  exact List.mem_append_left _ (List.mem_singleton.2 rfl)

/-- What becomes of a payment that was attended to, or whose check was owed, when the services move
and no call ends. -/
theorem Tended.attends_of_move {c' : Config Stmt Err Outcome World Session} (h : Tended d app g)
    (hm : System.Move (App.services d) (trails endpointTypes true) app.calls e c'.world g g')
    (hl : app.calls.world.Later c'.world) (hrun : System.ended app.calls e = none)
    (hcrash : e ≠ .abort e.thread) : ∀ p ∈ c'.world.db.payments.rows, p.isOpen = true →
      (app.moved c').Attends p.id ∨ ∃ i t, g' i = some t ∧ t.Owes p.id := by
  intro p hp hopen
  rcases h.services.open_of_move hm hl hp hopen with ⟨q, hq, hqp, hqopen⟩ | howes
  · rcases h.attends q hq hqopen with hatt | ⟨i, t, ht, howes⟩
    · exact Or.inl (hqp ▸ hatt.moved)
    · rcases hm.mark_cases ht with ⟨-, hsame⟩ | ⟨env, β, st, σ, σ', r, -, -, hexec, hnext⟩ |
        ⟨rfl, hover, -⟩
      · exact Or.inr ⟨i, t, hsame, hqp ▸ howes⟩
      · rcases howes.next hexec with howes | hqueue
        · exact Or.inr ⟨i, _, hnext, hqp ▸ howes⟩
        · exact Or.inl (attends_of_enqueued (hqp ▸ hqueue ▸ List.prefix_refl _))
      · rcases hover with hover | ⟨r, hr⟩
        · exact absurd hover hcrash
        · cases hrun.symm.trans hr
  · exact Or.inr howes

theorem Tended.messages_moved {c' : Config Stmt Err Outcome World Session} (h : Tended d app g)
    (hl : app.calls.world.Later c'.world) :
    ∀ m ∈ (app.moved c').messages, m.paymentId ∈ c'.world.queue := by
  intro m hm
  rcases List.mem_append.1 hm with hm | hm
  · exact hl.queue.subset (h.messages m hm)
  · obtain ⟨id, hid, rfl⟩ := List.mem_map.1 hm
    exact List.mem_of_mem_drop hid

/-- **A move of the services in which no call ends.** -/
theorem Tended.move {c' : Config Stmt Err Outcome World Session} (h : Tended d app g)
    (hg : Services d.py c' g')
    (hm : System.Move (App.services d) (trails endpointTypes true) app.calls e c'.world g g')
    (hl : app.calls.world.Later c'.world) (hrun : System.ended app.calls e = none)
    (hcrash : e ≠ .abort e.thread) : Tended d (app.moved c') g' where
  services := hg
  messages := h.messages_moved hl
  tasks x hx := by
    obtain ⟨hqueue, t, ht, hcall⟩ := h.tasks x hx
    refine ⟨hl.queue.subset hqueue, ?_⟩
    rcases hm.mark_cases ht with ⟨-, hsame⟩ | ⟨env, β, st, σ, σ', r, -, -, -, hnext⟩ |
      ⟨hthread, hover, -⟩
    · exact ⟨t, hsame, hcall⟩
    · exact ⟨_, hnext, (Trail.call_next _ _ _).trans hcall⟩
    · rcases hover with hover | ⟨r, hr⟩
      · exact absurd (hthread ▸ hover) hcrash
      · cases hrun.symm.trans hr
  attends := h.attends_of_move hm hl hrun hcrash

/-! ### The end of a call -/

section

variable {env : Env} {r : Except Err Outcome}

theorem messages_subset_endTask : app.messages ⊆ (app.endTask d env r m).messages := by
  unfold endTask
  split
  · exact List.Subset.refl _
  · split
    · exact List.Subset.refl _
    · split
      · exact List.Subset.refl _
      · exact List.subset_append_left _ _

theorem givenUp_subset_endTask : app.givenUp ⊆ (app.endTask d env r m).givenUp := by
  unfold endTask
  split
  · exact List.Subset.refl _
  · split
    · exact List.subset_append_left _ _
    · split <;> exact List.Subset.refl _

/-- A check that is not over sends its retry, or is given up. -/
theorem attended_of_endTask (henv : env.failure = none)
    (hr : checkPaymentStatusTask (checkResult r) ≠ .done) :
    (∃ m' ∈ (app.endTask d env r m).messages, m'.paymentId = m.paymentId) ∨
      m.paymentId ∈ (app.endTask d env r m).givenUp := by
  unfold endTask
  cases htask : checkPaymentStatusTask (checkResult r) with
  | done => exact absurd htask hr
  | retry countdown =>
    cases hretry : d.celery.retry m with
    | none => exact Or.inr (List.mem_append_right _ (List.mem_singleton.2 rfl))
    | some m' =>
      simp only [henv]
      exact Or.inl ⟨m', List.mem_append_right _ (List.mem_singleton.2 rfl),
        d.celery.paymentId_retry m m' hretry⟩

theorem mem_messages_endTask {m' : TaskMessage} (h : m' ∈ (app.endTask d env r m).messages) :
    m' ∈ app.messages ∨ m'.paymentId = m.paymentId := by
  unfold endTask at h
  split at h
  · exact Or.inl h
  · split at h
    · exact Or.inl h
    · rename_i m'' hretry
      split at h
      · exact Or.inl h
      · refine (List.mem_append.1 h).imp_right fun h => ?_
        rw [List.mem_singleton.1 h]
        exact d.celery.paymentId_retry m m'' hretry

theorem mem_tasks_release {y : ℕ × TaskMessage} :
    y ∈ (app.release i).tasks ↔ y ∈ app.tasks ∧ y.1 ≠ i := by
  rw [release, List.mem_filter, decide_eq_true_eq]

theorem mem_of_lookup (h : app.tasks.lookup i = some m) : (i, m) ∈ app.tasks := by
  obtain ⟨l₁, l₂, hl, -⟩ := List.lookup_eq_some_iff.1 h
  rw [hl]
  exact List.mem_append_right _ List.mem_cons_self

theorem ne_of_lookup_none (h : app.tasks.lookup i = none) {y : ℕ × TaskMessage}
    (hy : y ∈ app.tasks) : y.1 ≠ i := by
  have hne := List.lookup_eq_none_iff.1 h y hy
  rintro rfl
  simp at hne

theorem mem_tasks_finish {y : ℕ × TaskMessage} :
    y ∈ (app.finish d env i r).tasks ↔ y ∈ app.tasks ∧ y.1 ≠ i := by
  cases hm : app.tasks.lookup i with
  | none =>
    rw [finish_of_lookup_none hm]
    exact ⟨fun hy => ⟨hy, ne_of_lookup_none hm hy⟩, And.left⟩
  | some m => rw [finish_of_lookup hm, mem_tasks_release, tasks_endTask]

theorem mem_messages_finish {m' : TaskMessage} (h : m' ∈ (app.finish d env i r).messages) :
    m' ∈ app.messages ∨ ∃ m, (i, m) ∈ app.tasks ∧ m'.paymentId = m.paymentId := by
  cases hm : app.tasks.lookup i with
  | none => exact Or.inl (by rwa [finish_of_lookup_none hm] at h)
  | some m =>
    rw [finish_of_lookup hm] at h
    exact (mem_messages_endTask h).imp_right fun hid => ⟨m, mem_of_lookup hm, hid⟩

/-- Who was attended to still is, unless its check is over. -/
theorem Attends.finish (h : app.Attends id) (henv : env.failure = none)
    (htask : ∀ m, (i, m) ∈ app.tasks → ∀ m', (i, m') ∈ app.tasks → m.paymentId = m'.paymentId)
    (hr : ∀ m, (i, m) ∈ app.tasks → m.paymentId = id →
      checkPaymentStatusTask (checkResult r) ≠ .done) : (app.finish d env i r).Attends id := by
  cases hm : app.tasks.lookup i with
  | none => rwa [finish_of_lookup_none hm]
  | some m =>
    have hmem := mem_of_lookup hm
    rw [finish_of_lookup hm]
    rcases h.attended with ⟨m', hm', hid⟩ | ⟨⟨j, m'⟩, hm', hid⟩ | hgiven
    · exact ⟨Or.inl ⟨m', messages_subset_endTask hm', hid⟩⟩
    · by_cases hj : j = i
      · subst hj
        obtain rfl : m.paymentId = id := (htask m hmem m' hm').trans hid
        exact ⟨(attended_of_endTask henv (hr m hmem rfl)).imp_right Or.inr⟩
      · exact ⟨Or.inr (Or.inl ⟨_, mem_tasks_release.2 ⟨tasks_endTask.symm ▸ hm', hj⟩, hid⟩)⟩
    · exact ⟨Or.inr (Or.inr (givenUp_subset_endTask hgiven))⟩

/-- **The end of a call.** -/
theorem Tended.finish {c' : Config Stmt Err Outcome World Session} (h : Tended d app g)
    (hg : Services d.py c' g') (hm : System.Move (App.services d) (trails endpointTypes true)
      app.calls (.run i env) c'.world g g') (hl : app.calls.world.Later c'.world)
    (hr : System.ended app.calls (.run i env : Event (Call endpointTypes) Env) = some r)
    (henv : env.failure = none) : Tended d ((app.moved c').finish d env i r) g' := by
  -- The thread is at its end, so the move is no statement.
  have hmark : ∀ {j t}, g j = some t → j ≠ i ∧ g' j = some t ∨ j = i ∧ t.Ends r := by
    intro j t ht
    rcases hm.mark_cases ht with hsame | ⟨env, β, st, σ, σ', r', hrun, ⟨k, hk⟩, -⟩ |
      ⟨hthread, -, -, hends⟩
    · exact Or.inl hsame
    · obtain rfl : i = j := (Event.run.inj hrun).1
      simp [System.ended, hk] at hr
    · exact Or.inr ⟨hthread.symm, hends r hr⟩
  refine ⟨calls_finish.symm ▸ hg, fun m hm => ?_, fun y hy => ?_, fun p hp hopen => ?_⟩
  · rw [calls_finish]
    rcases mem_messages_finish hm with hm | ⟨m', hm', hid⟩
    · exact h.messages_moved hl m hm
    · exact hid ▸ hl.queue.subset (h.tasks _ hm').1
  · rw [calls_finish]
    obtain ⟨hy, hne⟩ := mem_tasks_finish.1 hy
    obtain ⟨hqueue, t, ht, hcall⟩ := h.tasks y hy
    exact ⟨hl.queue.subset hqueue, t, ((hmark ht).resolve_right fun h => hne h.1).2, hcall⟩
  · rw [calls_finish] at hp
    rcases h.services.open_of_move hm hl hp hopen with ⟨q, hq, hqp, hqopen⟩ | howes
    · rw [← hqp]
      rcases h.attends q hq hqopen with hatt | ⟨j, t, ht, howes⟩
      · refine Or.inl (hatt.moved.finish henv (fun m hm m' hm' => ?_) fun m hm hid => ?_)
        · obtain ⟨-, t, ht, hcall⟩ := h.tasks _ hm
          obtain ⟨-, t', ht', hcall'⟩ := h.tasks _ hm'
          obtain rfl := Option.some.inj (ht.symm.trans ht')
          exact Call.check.inj (hcall.symm.trans hcall')
        · obtain ⟨-, t, ht, hcall⟩ := h.tasks _ hm
          have hends := ((hmark ht).resolve_left fun h => h.1 rfl).2
          exact h.services.not_done_of_ends ht hends (hcall.trans (congrArg _ hid)) hq hqopen
      · rcases hmark ht with ⟨-, hsame⟩ | ⟨rfl, hends⟩
        · exact Or.inr ⟨j, t, hsame, howes⟩
        · exact absurd howes (h.services.not_owes_of_ends ht hends hq hqopen)
    · exact Or.inr howes

end

/-! ### Steps and runs -/

/-- At the end of a call its task may send a retry. -/
theorem atBroker_of_ended {env : Env} {r : Except Err Outcome}
    (h : System.ended c (.run i env : Event (Call endpointTypes) Env) = some r) :
    atBroker c i = true := by
  unfold atBroker
  cases ht : c.threads i with
  | none => simp [System.ended, ht] at h
  | some th =>
    obtain ⟨prog, σ⟩ := th
    cases prog with
    | call s k => simp [System.ended, ht] at h
    | _ => rfl

theorem moved_self : app.moved app.calls = app := by
  simp [moved, enqueued]

/-- A call stays the one that its thread has begun. -/
theorem calling_move {c' : Config Stmt Err Outcome World Session}
    (hm : System.Move (App.services d) (trails endpointTypes true) app.calls e c'.world g g')
    (h : System.Calling Trail.call bs g) : System.Calling Trail.call (bs ++ [e]) g' :=
  hm.calling (fun _ => rfl) (fun _ _ _ => Trail.call_next ..) h

/-- One event of the services. -/
theorem Tended.services_step (h : Tended d app g) (hcalls : (App.services d).run System.anyStep
      app.calls [e] = some c') (hspawn : ∀ i id, e = .spawn i (.check id) →
      id ∈ app.calls.world.queue)
    (hbroker : ∀ i env, e = .run i env → atBroker app.calls i = true → env.failure = none) :
    ∃ g', Services d.py c' g' ∧
      System.Move (App.services d) (trails endpointTypes true) app.calls e c'.world g g' ∧
      app.calls.world.Later c'.world := by
  obtain ⟨c₁, he, -, hnil⟩ := System.run_cons.1 hcalls
  obtain rfl := Option.some.inj hnil
  exact h.services.step he (fun i id hid => h.services.queue (hspawn i id hid)) hbroker

/-- A worker takes a message. -/
theorem Tended.deliver (h : Tended d app g) (hm : m ∈ app.messages)
    (hg : g i = some t) (hcall : t.call = .check m.paymentId) :
    Tended d { app with messages := app.messages.erase m, tasks := (i, m) :: app.tasks } g where
  services := h.services
  messages m' hm' := h.messages m' (List.mem_of_mem_erase hm')
  tasks y hy := by
    rcases List.mem_cons.1 hy with rfl | hy
    · exact ⟨h.messages m hm, t, hg, hcall⟩
    · exact h.tasks y hy
  attends p hp hopen := by
    refine (h.attends p hp hopen).imp_left fun hatt => ⟨?_⟩
    rcases hatt.attended with ⟨m', hm', hid⟩ | ⟨y, hy, hid⟩ | hgiven
    · by_cases hne : m' = m
      · exact Or.inr (Or.inl ⟨(i, m), List.mem_cons_self, hne ▸ hid⟩)
      · exact Or.inl ⟨m', (List.mem_erase_of_ne hne).2 hm', hid⟩
    · exact Or.inr (Or.inl ⟨y, List.mem_cons_of_mem _ hy, hid⟩)
    · exact Or.inr (Or.inr hgiven)

/-- The broker delivers a message again. -/
theorem Tended.redeliver (h : Tended d app g) (hm : m.paymentId ∈ app.calls.world.queue) :
    Tended d { app with messages := app.messages ++ [m] } g where
  services := h.services
  messages m' hm' := by
    rcases List.mem_append.1 hm' with hm' | hm'
    · exact h.messages m' hm'
    · exact List.mem_singleton.1 hm' ▸ hm
  tasks := h.tasks
  attends p hp hopen := (h.attends p hp hopen).imp_left fun hatt =>
    ⟨hatt.attended.imp_left fun ⟨m', hm', hid⟩ => ⟨m', List.mem_append_left _ hm', hid⟩⟩

variable [DecidableEq Token]

/-- **A step of the application while it is calm.** The trails still know the calls of their
threads. -/
theorem Tended.step (h : Tended d app g) (hcalm : app.Calm x) (hx : App.step d app x = some app')
    (hcalling : System.Calling Trail.call bs g) :
    ∃ g', Tended d app' g' ∧ System.Calling Trail.call (bs ++ app.sends d x) g' := by
  obtain ⟨hpossible, calls, hcalls, rfl⟩ := step_eq_some_iff.1 hx
  change ∃ g', Tended d (app.update d (app.moved calls) x) g' ∧ _
  have hstay : app.sends d x = [] →
      app.moved calls = app ∧ System.Calling Trail.call (bs ++ app.sends d x) g := by
    intro hnil
    rw [hnil] at hcalls ⊢
    obtain rfl := Option.some.inj hcalls
    exact ⟨moved_self, (List.append_nil bs).symm ▸ hcalling⟩
  have hstart : ∀ i call, app.sends d x = [.spawn i call] →
      (∀ id, call = .check id → id ∈ app.calls.world.queue) →
      ∃ g', Tended d (app.moved calls) g' ∧ g' i = some (.init call) ∧
        System.Calling Trail.call (bs ++ app.sends d x) g' := by
    intro i call hsends hcheck
    rw [hsends] at hcalls ⊢
    obtain ⟨g', hg', hm, hl⟩ := h.services_step hcalls
      (fun j id heq => hcheck id (Event.spawn.inj heq).2) (fun _ _ heq => by cases heq)
    refine ⟨g', h.move hg' hm hl rfl (fun heq => by cases heq), ?_, calling_move hm hcalling⟩
    obtain ⟨-, -, rfl⟩ := System.Move.spawn_iff.1 hm
    exact Function.update_self ..
  cases x with
  | auth e =>
    obtain ⟨heq, hcalling⟩ := hstay rfl
    rw [heq]
    exact ⟨g, ⟨h.services, h.messages, h.tasks, fun p hp hopen =>
      (h.attends p hp hopen).imp_left fun hatt => ⟨hatt.attended⟩⟩, hcalling⟩
  | post i now r =>
    cases hcall : r.call d.jwt d.settings app.auth now with
    | none =>
      obtain ⟨heq, hcalling⟩ := hstay (by simp [sends, hcall])
      rw [heq]
      exact ⟨g, h, hcalling⟩
    | some call =>
      have hsends : app.sends d (.post i now r) = [.spawn i call] := by simp [sends, hcall]
      obtain ⟨g', hg', -, hcalling⟩ := hstart i call hsends fun id hid => by
        obtain ⟨-, -, user, -, payload, -, heq⟩ := PaymentRequest.call_eq_some_iff.1 hcall
        rw [hid] at heq
        cases hendpoint : r.endpoint <;> rw [hendpoint] at heq <;> cases heq
      exact ⟨g', hg', hcalling⟩
  | beat i =>
    obtain ⟨g', hg', -, hcalling⟩ := hstart i .enqueue rfl fun _ heq => by cases heq
    exact ⟨g', hg', hcalling⟩
  | deliver i m =>
    have hm : m ∈ app.messages := of_decide_eq_true hpossible
    obtain ⟨g', hg', ht, hcalling⟩ := hstart i (.check m.paymentId) rfl fun id hid =>
      Call.check.inj hid ▸ h.messages m hm
    exact ⟨g', hg'.deliver (List.mem_append_left _ hm) ht rfl, hcalling⟩
  | redeliver m =>
    obtain ⟨heq, hcalling⟩ := hstay rfl
    rw [heq]
    exact ⟨g, h.redeliver (of_decide_eq_true hpossible), hcalling⟩
  | lose m => exact hcalm.elim
  | abort i => exact hcalm.elim
  | run i env =>
    obtain ⟨g', hg', hm, hl⟩ := h.services_step hcalls (fun _ _ heq => by cases heq)
      fun j env' heq => by
        obtain ⟨rfl, rfl⟩ := Event.run.inj heq
        exact hcalm
    refine ⟨g', ?_, calling_move hm hcalling⟩
    simp only [update]
    cases hr : System.ended app.calls (.run i env : Event (Call endpointTypes) Env) with
    | none => exact h.move hg' hm hl hr fun heq => by cases heq
    | some r => exact h.finish hg' hm hl hr (hcalm (atBroker_of_ended hr))

end App

open App

variable {Token : Type} [DecidableEq Token] {app app' : App Token} {es : List (AppEvent Token)}
  {w : World}

end PaySystem
