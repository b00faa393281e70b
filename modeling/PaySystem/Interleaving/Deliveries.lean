import PaySystem.Interleaving.Trails

/-!
# What has been enqueued

In every interleaving, and wherever calls die: a task that has been enqueued is about a payment that
is committed, and a deposit that the endpoint returns is committed and its task has been enqueued.
What becomes of the tasks is the broker's affair. The trails of the calls in flight are tied to the
world by `Linked`, which every move of a run keeps.
-/

namespace PaySystem

variable {types : Set String} {py : Pydantic} {greenlet : Bool} {β : Type} {i : ℕ} {w w' : World}
  {σ σ' : Session} {env : Env} {s : Stmt β} {r : Except Err β} {t : Trail types} {p : Payment}
  {g g' : Marks (Trail types)} {c₀ : Config Stmt Err Outcome World Session}

/-! ## Answers -/

/-- The session has not loaded an order. -/
def Session.Bare (σ : Session) : Prop := σ.identityMap = []

/-- The events run statements where an attribute read may send SQL only if `greenlet` holds. -/
def Greenlets (greenlet : Bool) (es : List (Event (Call types) Env)) : Prop :=
  ∀ i env, .run i env ∈ es → env.greenlet = true → greenlet = true

theorem greenlets_true (es : List (Event (Call types) Env)) : Greenlets true es :=
  fun _ _ _ _ => rfl

theorem session_of_exec (h : execStmt i env w σ s = some (r, w', σ')) : σ' = σ := by
  cases s with
  | identityMapGet | awaitOnly | checkPayment | now =>
    cases h
    rfl
  | startPayment | applyAsync =>
    simp only [execStmt] at h
    split at h <;> cases h <;> rfl
  | _ =>
    simp only [execStmt] at h
    exact (sql_cases h).1

/-- **The machine answers as the protocol expects.** -/
theorem answers_of_exec (hg : env.greenlet = true → greenlet = true) (hσ : σ.Bare)
    (h : execStmt i env w σ s = some (r, w', σ')) : Trail.Answers greenlet s r := by
  cases s with
  | selectOrderForUpdate orderId =>
    simp only [execStmt] at h
    rcases (sql_cases h).2 with ⟨msg, -, rfl, -⟩ | ⟨-, ha⟩
    · trivial
    · cases ha
      cases hfind : ((w.acquire i _).view i).orders.find? orderId with
      | none => trivial
      | some order => exact Table.key_of_find? hfind
  | selectPaymentForUpdate paymentId =>
    simp only [execStmt] at h
    rcases (sql_cases h).2 with ⟨msg, -, rfl, -⟩ | ⟨-, ha⟩
    · trivial
    · cases ha
      cases hfind : (((w.acquire i _).view i).payments.find? paymentId).filter Payment.isOpen with
      | none => trivial
      | some p =>
        obtain ⟨hp, hopen⟩ := Option.filter_eq_some_iff.1 hfind
        exact ⟨Table.key_of_find? hp, hopen⟩
  | identityMapGet orderId =>
    cases h
    change σ.identityMap.find? _ = none
    rw [hσ]
    rfl
  | awaitOnly =>
    cases h
    cases hgreen : env.greenlet with
    | false => trivial
    | true => exact hg hgreen
  | _ => cases r <;> trivial

theorem answers_of_greenlets {es : List (Event (Call types) Env)} (h : Greenlets greenlet es) :
    ∀ e ∈ es, (paySystem types py).Answers (trails types greenlet) Session.Bare e := by
  intro e he
  cases e with
  | run i env =>
    intro β w w' σ σ' s r hσ hexec
    have heq : σ' = σ := session_of_exec hexec
    exact ⟨heq ▸ hσ, answers_of_exec (h i env he) hσ hexec⟩
  | spawn i c => trivial
  | abort i => trivial

/-! ## Trails and the world -/

/-- The ids of the committed payments. -/
def Db.storedIds (db : Db) : List ℕ := db.payments.rows.map Payment.id

/-- What the trail tells of the rows and of the enqueued tasks is true. -/
structure Trail.TrueOf (t : Trail types) (w : World) : Prop where
  stored : ∀ p ∈ t.stored, p.origin ∈ w.db.origins
  listed : ∀ ids, t.listed = some ids → ids ⊆ w.db.storedIds
  queued : t.queued ⊆ w.queue

/-- The trails of the calls in flight are true of the world. -/
structure Linked (w : World) (g : Marks (Trail types)) : Prop where
  pending : w.Pending
  writes : ∀ i, w.writes i = (g i).elim [] Trail.writes
  marks : ∀ i t, g i = some t → t.TrueOf w

theorem storedIds_eq (db : Db) : db.storedIds = db.origins.map Payment.id := by
  rw [Db.origins, List.map_map]
  rfl

/-- A statement leaves the database and what the call has stored alone, or it stores what the call
has inserted. -/
theorem Trail.stored_next (t : Trail types) (s : Stmt β) (r : Except Err β) :
    (t.next s r).stored = t.stored ∧ (∀ ws db, s.committed ws db r = db) ∨
      (t.next s r).stored = t.stored ++ inserts t.writes ∧ (∀ ws, s.written ws r = []) ∧
        ∀ ws db, s.committed ws db r = ws.foldl Db.apply db := by
  cases s with
  | commit => cases r with
    | error e => exact Or.inl ⟨rfl, fun _ _ => rfl⟩
    | ok u => exact Or.inr ⟨rfl, fun _ => rfl, fun _ _ => rfl⟩
  | selectBalance orderId f => cases f <;> cases r <;> exact Or.inl ⟨rfl, fun _ _ => rfl⟩
  | _ => cases r <;> exact Or.inl ⟨rfl, fun _ _ => rfl⟩

/-- What a call has selected it had selected before, or it has just selected all open payments. -/
theorem listed_of_exec (h : execStmt i env w σ s = some (r, w', σ'))
    (hallow : t.Allows greenlet s) (hws : w.writes i = t.writes) {ids : List ℕ}
    (hids : (t.next s r).listed = some ids) :
    t.listed = some ids ∨
      ids = (w.db.payments.rows.filter Payment.needsCheck).map Payment.id ∧ w'.db = w.db := by
  cases s with
  | selectPaymentIds =>
    simp only [execStmt] at h
    rcases (sql_cases h).2 with ⟨msg, -, rfl, -⟩ | ⟨-, ha⟩
    · exact Or.inl hids
    · have hview : (w.acquire i []).view i = w.db :=
        view_of_writes (w := w.acquire i []) (hws.trans hallow.2)
      rw [hview] at ha
      cases ha
      exact Or.inr ⟨(Option.some.inj hids).symm, rfl⟩
  | selectBalance orderId f => cases f <;> cases r <;> exact Or.inl hids
  | _ => cases r <;> exact Or.inl hids

/-- No commit takes an origin away. -/
theorem World.Pending.origins_subset (h : w.Pending) (he : Effect i s r w w') :
    w.db.origins ⊆ w'.db.origins := by
  rcases h.origins_commit he with hdb | ⟨-, hdb⟩ <;> rw [hdb]
  · exact List.Subset.refl _
  · exact List.subset_append_left _ _

theorem storedIds_subset {db db' : Db} (h : db.origins ⊆ db'.origins) :
    db.storedIds ⊆ db'.storedIds := by
  rw [storedIds_eq, storedIds_eq]
  exact List.map_subset _ h

/-- What is true stays so, as nothing is taken away. -/
theorem Trail.TrueOf.mono (h : t.TrueOf w) (horigins : w.db.origins ⊆ w'.db.origins)
    (hqueue : w.queue ⊆ w'.queue) : t.TrueOf w' where
  stored p hp := horigins (h.stored p hp)
  listed ids hids := List.Subset.trans (h.listed ids hids) (storedIds_subset horigins)
  queued := List.Subset.trans h.queued hqueue

/-- A stored payment of a trail. -/
theorem Trail.TrueOf.mem_storedIds (h : t.TrueOf w) (hp : p ∈ t.stored) :
    p.id ∈ w.db.storedIds := by
  rw [storedIds_eq]
  exact List.mem_map.2 ⟨p.origin, h.stored p hp, rfl⟩

/-- What a call enqueues is stored. -/
theorem enqueued_subset (hallow : t.Allows greenlet s) (h : t.TrueOf w) :
    s.enqueued r ⊆ w.db.storedIds := by
  cases s with
  | applyAsync id => cases r with
    | error e => exact List.nil_subset _
    | ok u =>
      intro id' hid
      obtain rfl := List.mem_singleton.1 hid
      rcases hallow with ⟨ids, hids, hmem⟩ | ⟨p, hp, rfl⟩
      · exact h.listed ids hids hmem
      · exact h.mem_storedIds hp
  | _ => cases r <;> exact List.nil_subset _

/-- **A statement keeps the trails true.** -/
theorem Linked.call (h : Linked w g) (ht : g i = some t) (hallow : t.Allows greenlet s)
    (hexec : execStmt i env w σ s = some (r, w', σ')) :
    Linked w' (Function.update g i (some (t.next s r))) := by
  have he : Effect i s r w w' := effect_of_exec hexec
  have hws : w.writes i = t.writes := by
    rw [h.writes, ht]
    rfl
  have horigins := h.pending.origins_subset he
  have hqueue : w.queue ⊆ w'.queue := by
    rw [he.queue]
    exact List.subset_append_left _ _
  have hself := h.marks i t ht
  refine ⟨h.pending.step he, fun j => ?_, forall_mark_update ?_ fun j t' _ hj =>
    (h.marks j t' hj).mono horigins hqueue⟩
  · rw [he.writes]
    by_cases hji : j = i
    · subst hji
      rw [Function.update_self, Function.update_self, hws]
      rfl
    · rw [Function.update_of_ne hji, Function.update_of_ne hji]
      exact h.writes j
  · rintro _ ⟨⟩
    refine ⟨fun p hp => ?_, fun ids hids => ?_, ?_⟩
    · rcases t.stored_next s r with ⟨hstored, -⟩ | ⟨hstored, -, hcommit⟩ <;> rw [hstored] at hp
      · exact horigins (hself.stored p hp)
      · rcases List.mem_append.1 hp with hp | hp
        · exact horigins (hself.stored p hp)
        rw [he.db, hcommit]
        change p.origin ∈ (w.view i).origins
        rw [h.pending.origins_view, hws]
        exact List.mem_append_right _ (List.mem_map_of_mem hp)
    · refine List.Subset.trans ?_ (storedIds_subset horigins)
      rcases listed_of_exec hexec hallow hws hids with hids | ⟨rfl, -⟩
      · exact hself.listed ids hids
      · exact List.map_subset _ (List.filter_subset_self _)
    · rw [he.queue]
      exact List.append_subset.2 ⟨List.Subset.trans hself.queued (List.subset_append_left _ _),
        List.subset_append_right _ _⟩

/-- **A move keeps the trails true.** -/
theorem Linked.move {c : Config Stmt Err Outcome World Session} {e : Event (Call types) Env}
    (h : Linked c.world g)
    (hm : System.Move (paySystem types py) (trails types greenlet) c e w' g g') : Linked w' g' := by
  cases hm with
  | spawn i call idle =>
    refine ⟨h.pending, fun j => ?_, forall_mark_update ?_ fun j t' _ => h.marks j t'⟩
    · by_cases hji : j = i
      · subst hji
        rw [Function.update_self, h.writes, idle]
        rfl
      · rw [Function.update_of_ne hji]
        exact h.writes j
    · rintro _ ⟨⟩
      exact ⟨fun _ hp => (List.not_mem_nil hp).elim, (fun _ h => nomatch h), List.nil_subset _⟩
  | call i env mark st allowed exec answered sent => exact h.call mark allowed exec
  | finish e closing mark ends =>
    refine ⟨h.pending.close _, fun j => ?_,
      forall_mark_update (fun _ h => nomatch h) fun j t' _ hj => ?_⟩
    · change Function.update c.world.writes e.thread [] j = _
      by_cases hji : j = e.thread
      · rw [hji, Function.update_self, Function.update_self]
        rfl
      · rw [Function.update_of_ne hji, Function.update_of_ne hji]
        exact h.writes j
    · exact (h.marks j t' hj).mono (List.Subset.refl _) (List.Subset.refl _)

theorem linked_start (hw : w.AtRest) : Linked w (fun _ => none : Marks (Trail types)) :=
  ⟨hw.pending, hw.writes, fun _ _ h => nomatch h⟩

/-! ## Runs -/

/-- What a move leaves of the rows and of the enqueued tasks. -/
theorem Linked.subset {c : Config Stmt Err Outcome World Session} {e : Event (Call types) Env}
    (h : Linked c.world g)
    (hm : System.Move (paySystem types py) (trails types greenlet) c e w' g g') :
    c.world.db.origins ⊆ w'.db.origins ∧ c.world.queue ⊆ w'.queue := by
  cases hm with
  | spawn i call idle => exact ⟨List.Subset.refl _, List.Subset.refl _⟩
  | call i env mark st allowed exec answered sent =>
    have he := effect_of_exec exec
    refine ⟨h.pending.origins_subset he, ?_⟩
    rw [he.queue]
    exact List.subset_append_left _ _
  | finish e closing mark ends => exact ⟨List.Subset.refl _, List.Subset.refl _⟩

/-- The enqueued tasks are about stored payments, if they were so before. -/
theorem Linked.queue_subset {c : Config Stmt Err Outcome World Session}
    {e : Event (Call types) Env} (h : Linked c.world g)
    (hm : System.Move (paySystem types py) (trails types greenlet) c e w' g g')
    (hq : c.world.queue ⊆ c.world.db.storedIds) : w'.queue ⊆ w'.db.storedIds := by
  refine List.Subset.trans ?_ (storedIds_subset (h.subset hm).1)
  cases hm with
  | spawn i call idle => exact hq
  | call i env mark st allowed exec answered sent =>
    rw [(effect_of_exec exec).queue]
    exact List.append_subset.2 ⟨hq, enqueued_subset allowed (h.marks i _ mark)⟩
  | finish e closing mark ends => exact hq

/-- **Induction along a run** of the services, with trails that are true. -/
theorem Linked.induction (hmarked : System.Marked (trails types greenlet) Session.Bare c₀ g)
    (hlinked : Linked c₀.world g) {c : Config Stmt Err Outcome World Session}
    {es : List (Event (Call types) Env)}
    (hs : (paySystem types py).run System.anyStep c₀ es = some c) (hes : Greenlets greenlet es)
    (J : List (Event (Call types) Env) → World → Marks (Trail types) → Prop)
    (hstart : J [] c₀.world g)
    (hmove : ∀ es c e c' g g', (paySystem types py).run System.anyStep c₀ es = some c →
      (paySystem types py).step c e = some c' → Linked c.world g →
      System.Move (paySystem types py) (trails types greenlet) c e c'.world g g' →
      J es c.world g → J (es ++ [e]) c'.world g') :
    ∃ g, System.Marked (trails types greenlet) Session.Bare c g ∧ Linked c.world g ∧
      J es c.world g := by
  refine hmarked.induction (obeys types py greenlet) (show Session.Bare _ from rfl) hs
    (answers_of_greenlets hes)
    (fun es w g => Linked w g ∧ J es w g) ⟨hlinked, hstart⟩ ?_
  exact fun es c e c' g g' hrun he _ hm h =>
    ⟨h.1.move hm, hmove es c e c' g g' hrun he h.1 hm h.2⟩

/-- The same for a run that starts at rest. -/
theorem linked_induction (py : Pydantic) (hw : w.AtRest)
    {c : Config Stmt Err Outcome World Session} {es : List (Event (Call types) Env)}
    (hs : (paySystem types py).run System.anyStep (atRest w) es = some c)
    (hes : Greenlets greenlet es)
    (J : List (Event (Call types) Env) → World → Marks (Trail types) → Prop)
    (hstart : J [] w fun _ => none)
    (hmove : ∀ es c e c' g g', (paySystem types py).run System.anyStep (atRest w) es = some c →
      (paySystem types py).step c e = some c' → Linked c.world g →
      System.Move (paySystem types py) (trails types greenlet) c e c'.world g g' →
      J es c.world g → J (es ++ [e]) c'.world g') :
    ∃ g, System.Marked (trails types greenlet) Session.Bare c g ∧ Linked c.world g ∧
      J es c.world g :=
  Linked.induction (System.marked_idle w) (linked_start hw) hs hes J hstart hmove

/-- **No phantom task**: in every interleaving, with any crashes, every task that has been enqueued
is about a committed payment. -/
theorem queue_stored (types : Set String) (py : Pydantic) {w : World} (hw : w.AtRest)
    (hq : ∀ id ∈ w.queue, ∃ p ∈ w.db.payments.rows, p.id = id)
    {s : Config Stmt Err Outcome World Session}
    (hs : (paySystem types py).Reach System.anyStep (atRest w) s) :
    ∀ id ∈ s.world.queue, ∃ p ∈ s.world.db.payments.rows, p.id = id := by
  obtain ⟨es, hes⟩ := hs.exists_run
  obtain ⟨g, -, -, hqueue⟩ := linked_induction py hw hes (greenlets_true es)
    (fun _ w _ => w.queue ⊆ w.db.storedIds) (fun id hid => List.mem_map.2 (hq id hid))
    fun _ _ _ _ _ _ _ _ hlinked hm h => hlinked.queue_subset hm h
  exact fun id hid => List.mem_map.1 (hqueue hid)

/-- After a deposit its task has been enqueued. -/
theorem queue_stored_sample : ∃ s,
    (paySystem endpointTypes .numbers).Reach System.anyStep (atRest sampleWorld) s ∧
    s.world.queue = [1] ∧
    ∀ id ∈ s.world.queue, ∃ p ∈ s.world.db.payments.rows, p.id = id := by
  have hrun : ∃ s, (paySystem endpointTypes .numbers).Reach System.anyStep (atRest sampleWorld) s ∧
      (∀ i, s.threads i = none) ∧ decide (s.world.queue = [1]) = true :=
    System.exists_reach_of_run (sampleDeposit 0 sampleHalf "a")
      (fun w : World => decide (w.queue = [1])) (by decide +kernel)
  obtain ⟨s, hs, -, hqueue⟩ := hrun
  exact ⟨s, hs, of_decide_eq_true hqueue,
    queue_stored endpointTypes .numbers sampleWorld_atRest (fun _ h => nomatch h) hs⟩

/-- The payments that were returned so far are stored, and the tasks of the deposits have been
enqueued. -/
def World.Delivers (w : World) (results : List (Except Err Outcome)) : Prop :=
  ∀ p, .ok (.payment p) ∈ results → p.origin ∈ w.db.origins ∧
    (p.operationType = OperationType.Deposit.value → p.id ∈ w.queue)

theorem Linked.delivers {c : Config Stmt Err Outcome World Session} {e : Event (Call types) Env}
    {results : List (Except Err Outcome)} (h : Linked c.world g)
    (hm : System.Move (paySystem types py) (trails types greenlet) c e w' g g')
    (hd : c.world.Delivers results) : w'.Delivers (results ++ (System.ended c e).toList) := by
  obtain ⟨horigins, hqueue⟩ := h.subset hm
  intro p hp
  rcases List.mem_append.1 hp with hp | hp
  · exact ⟨horigins (hd p hp).1, fun hop => hqueue ((hd p hp).2 hop)⟩
  · obtain ⟨t, ht, hstored, -, hqueued⟩ := hm.ends_of_ended (Option.mem_toList.1 hp)
    have htrue := (h.marks _ _ ht).mono horigins hqueue
    exact ⟨htrue.stored p hstored, fun hop => htrue.queued (hqueued hop)⟩

/-- **What an endpoint returns is there**: at every point of every run, each payment that a call has
returned is stored with its origin, and if it is a deposit its task has been enqueued. -/
theorem returned_stored (types : Set String) (py : Pydantic) {w : World} (hw : w.AtRest)
    {s : Config Stmt Err Outcome World Session} {es : List (Event (Call types) Env)}
    (hs : (paySystem types py).run System.anyStep (atRest w) es = some s) {p : Payment}
    (hp : .ok (.payment p) ∈ (paySystem types py).results (atRest w) es) :
    (∃ p' ∈ s.world.db.payments.rows, p.SameOrigin p') ∧
      (p.operationType = OperationType.Deposit.value → p.id ∈ s.world.queue) := by
  obtain ⟨g, -, -, hdelivers⟩ := linked_induction py hw hs (greenlets_true es)
    (fun es w' _ => w'.Delivers ((paySystem types py).results (atRest w) es)) nofun
    fun es c e c' g g' hrun he hlinked hm h => by
      have hresults : (paySystem types py).results (atRest w) (es ++ [e]) = _ :=
        System.results_concat hrun he
      rw [hresults]
      exact hlinked.delivers hm h
  exact ⟨mem_origins_iff.1 (hdelivers p hp).1, (hdelivers p hp).2⟩

deriving instance DecidableEq for Outcome

/-- What the deposit of half of the order returns. -/
def sampleReturned : Payment :=
  { submittedPayment 7 1 30 PaymentType.ACQUIRING.value "a" with id := 1 }

/-- A deposit of half of the order is returned, stored and enqueued. -/
theorem returned_stored_sample : ∃ s,
    (paySystem endpointTypes .numbers).run System.anyStep (atRest sampleWorld)
      (sampleDeposit 0 sampleHalf "a") = some s ∧
    (∃ p' ∈ s.world.db.payments.rows, sampleReturned.SameOrigin p') ∧
      (sampleReturned.operationType = OperationType.Deposit.value →
        sampleReturned.id ∈ s.world.queue) := by
  have hsome : ((paySystem endpointTypes .numbers).run System.anyStep (atRest sampleWorld)
      (sampleDeposit 0 sampleHalf "a")).isSome = true := by decide +kernel
  obtain ⟨s, hs⟩ := Option.isSome_iff_exists.1 hsome
  have hreturned : .ok (.payment sampleReturned) ∈
      (paySystem endpointTypes .numbers).results (atRest sampleWorld)
        (sampleDeposit 0 sampleHalf "a") := by decide +kernel
  exact ⟨s, hs, returned_stored endpointTypes .numbers sampleWorld_atRest hs hreturned⟩

end PaySystem
