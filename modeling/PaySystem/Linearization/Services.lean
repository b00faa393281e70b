import PaySystem.Interleaving.Balances
import PaySystem.Linearization.Server

/-!
# The services are linearizable

Calls interleave their statements in any way, wait for each other's locks, fail and die. Still every
run is one of the server that keeps the books and handles one call after the other, each at one
instant between its start and its end.
-/

namespace PaySystem

variable {types : Set String} {py : Pydantic} {β : Type} {i : ℕ} {w w' : World} {σ σ' : Session}
  {env : Env} {s : Stmt β} {r : Except Err β} {m : Course types}
  {c c' : Config Stmt Err Outcome World Session} {e : Event (Call types) Env}
  {es : List (Event (Call types) Env)} {g g' : Marks (Course types)}

/-- The calls in flight are on the courses `g`, and what these tell of the locks, the writes and the
sums is true. -/
structure OnCourse (types : Set String) (py : Pydantic)
    (c : Config Stmt Err Outcome World Session) (g : Marks (Course types)) : Prop where
  valid : (interference types (fun _ => True) py).Valid c
  linked : Linked c.world (Marks.map Course.trail g)
  locked : AllLocked (fun _ => True) c.world (Marks.map Course.trail g)
  admitted : ∀ i m, g i = some m → m.Admitted c.world

theorem map_trail (h : g i = some m) : Marks.map Course.trail g i = some m.trail :=
  congrArg (Option.map Course.trail) h

theorem OnCourse.writes (h : OnCourse types py c g) (hi : g i = some m) :
    c.world.writes i = m.trail.writes := by
  rw [h.linked.writes, map_trail hi]
  rfl

theorem OnCourse.lockedBy (h : OnCourse types py c g) (hi : g i = some m) :
    m.trail.Locked (fun _ => True) i c.world := h.locked i m.trail (map_trail hi)

theorem onCourse_start (hw : w.AtRest) (hl : ∀ o, w.db.LawfulOrder types o) :
    OnCourse types py (atRest w) fun _ => none where
  valid := valid_atRest hw fun o _ => hl o
  linked := linked_start hw
  locked _ _ h := nomatch h
  admitted _ _ h := nomatch h

/-- **A move keeps the courses true.** -/
theorem OnCourse.move (h : OnCourse types py c g) (he : (paySystem types py).step c e = some c')
    (hm : System.Move (paySystem types py) (services types py) c e c'.world g g') :
    OnCourse types py c' g' := by
  have hread := hm.read reads_courses
  obtain ⟨hvalid, hguar⟩ := h.valid.step (verified types _ py) e he
  refine ⟨hvalid, h.linked.move hread, h.linked.allLocked hread h.valid.inv hguar h.locked, ?_⟩
  refine hm.forall_mark (fun i m hi hmark => ?_) (fun _ _ _ _ hsummed => by cases hsummed)
    fun _ mark allowed exec _ =>
      (h.admitted _ _ mark).call (h.writes mark) (h.lockedBy mark) allowed.2 exec
  rcases hguar with heq | hguar
  · rw [heq]
    exact h.admitted i m hmark
  · exact (h.admitted i m hmark).progress (h.lockedBy hmark) (hguar.progress hi h.valid.inv)

/-- **A statement leaves the books alone, or serves its call.** -/
theorem OnCourse.serves (h : OnCourse types py c g) (hi : g i = some m)
    (hallow : (services types py).allows m s)
    (hexec : execStmt i env c.world σ s = some (r, w', σ')) :
    w'.db.books = c.world.db.books ∧ (m.next py s r).ticket = m.ticket ∨
      ∃ call x, m.ticket = ⟨call, none⟩ ∧ (m.next py s r).ticket = ⟨call, some x⟩ ∧
        call.Served c.world.db.books x w'.db.books := by
  have hlocked := h.lockedBy hi
  have hcall : (m.next py s r).trail.call = m.trail.call := Trail.call_next ..
  cases hm : m.decided with
  | some x =>
    have hnext : (m.next py s r).decided = some x := by rw [Course.next, hm, Option.some_or]
    refine Or.inl ⟨congrArg Db.books (db_of_decided hallow.2 hm hexec), ?_⟩
    rw [Course.ticket, Course.ticket, hcall, hnext, hm]
  | none =>
    have hnext := Course.decided_next py hm s r
    cases hx : m.trail.decides py s r with
    | none =>
      refine Or.inl ⟨congrArg Db.books (db_of_undecided hlocked hallow.2 hexec hx), ?_⟩
      rw [Course.ticket, Course.ticket, hcall, hnext, hx, hm]
    | some x =>
      refine Or.inr ⟨m.trail.call, x, ?_, ?_, ?_⟩
      · rw [Course.ticket, hm]
      · rw [Course.ticket, hcall, hnext, hx]
      · cases r with
        | error e =>
          rw [db_of_error hexec]
          exact served_of_error hlocked hallow.1 hexec hx
        | ok b =>
          exact served_of_answer (fun o => h.valid.inv.lawful o trivial) h.linked.pending
            (h.writes hi) hlocked (h.admitted i m hi) hallow hexec hx

theorem linearizes_services (types : Set String) (py : Pydantic) :
    Linearizes (paySystem types py) (services types py) (bookkeeper types)
      (fun w : World => w.db.books) Course.ticket (OnCourse types py) where
  init _ := rfl
  ends _ _ h := h.2
  close _ _ := rfl
  call h hi hallow hexec := h.serves hi hallow hexec
  keeps he hm h := h.move he hm

theorem answers_services (types : Set String) (py : Pydantic) (e : Event (Call types) Env) :
    (paySystem types py).Answers (services types py) Session.Bare e := by
  cases e with
  | run i env =>
    intro β w w' σ σ' s r hσ hexec
    have heq : σ' = σ := session_of_exec hexec
    have hanswers : Trail.Answers true s r := answers_of_exec (fun _ => rfl) hσ hexec
    exact ⟨heq ▸ hσ, hanswers, hanswers, fun e he => raises_of_exec (he ▸ hexec)⟩
  | spawn i c => trivial
  | abort i => trivial

/-- **The services are linearizable**: every run is, event by event and with the same results, a run
of the server that handles each call at one instant between its start and its end, on the books of
all orders. -/
theorem services_atomic (types : Set String) (py : Pydantic) {w : World} (hw : w.AtRest)
    (hl : ∀ o, w.db.LawfulOrder types o) {s : Config Stmt Err Outcome World Session}
    {es : List (Event (Call types) Env)}
    (hs : (paySystem types py).run System.anyStep (atRest w) es = some s) :
    ∃ q, (∀ i, q i = none ↔ s.threads i = none) ∧
      ServesRun (bookkeeper types) es ((paySystem types py).results (atRest w) es) w.db.books
        (fun _ => none) s.world.db.books q := by
  obtain ⟨g, hmarked, -, hserves⟩ := (linearizes_services types py).serves_run
    (System.Obeys.refine reads_courses (obeys types py true) (obeys_courses types py))
    (show Session.Bare _ from rfl) (answers_services types py) (System.marked_idle w)
    (onCourse_start hw hl) hs
  exact ⟨Marks.map Course.ticket g, fun _ => map_ticket_eq_none_iff hmarked, hserves⟩

/-- The checks that lose an update of the status of their order are served one after the other. -/
theorem services_atomic_sample : ∃ s,
    (paySystem endpointTypes .numbers).run System.anyStep (atRest sampleWorld) overlappingChecks =
      some s ∧ s.world.db.balance .completed 1 = 60 ∧
    ∃ q, (∀ i, q i = none ↔ s.threads i = none) ∧
      ServesRun (bookkeeper endpointTypes) overlappingChecks
        ((paySystem endpointTypes .numbers).results (atRest sampleWorld) overlappingChecks)
        sampleWorld.db.books (fun _ => none) s.world.db.books q := by
  have hany : ((paySystem endpointTypes .numbers).run System.anyStep (atRest sampleWorld)
      overlappingChecks).any (fun s => decide (s.world.db.balance .completed 1 = 60)) = true := by
    decide +kernel
  obtain ⟨s, hs, hsum⟩ := (Option.any_eq_true _ _).1 hany
  exact ⟨s, hs, of_decide_eq_true hsum, services_atomic endpointTypes .numbers sampleWorld_atRest
    (fun _ _ hp => absurd hp List.not_mem_nil) hs⟩

end PaySystem
