import PaySystem.Foundations.Protocol

/-!
# Atomic servers

An atomic server serves each call at one instant between the start and the end of the call. A system
whose calls interleave is linearizable if each of its runs is also one of an atomic server, with the
same results at the same events: whatever is said of the server then holds of the system.

The states of a protocol say when a call has been served. That a system is linearizable is then
checked for one statement at a time (`Linearizes`).
-/

namespace PaySystem

variable {Stmt : Type → Type} {ε α W S E C τ A ρ : Type}

/-- A server with the states `A`, which answers calls with values of `ρ`. -/
structure Server (C ε α ρ A : Type) where
  /-- What it means to serve a call in a state: the answers, and the states after it. -/
  serves : C → A → ρ → A → Prop
  /-- The caller of a call with this answer may get this result. -/
  shows : ρ → Except ε α → Prop

/-- What a server knows of a call in flight: the call, and its answer once it has been served. -/
structure Ticket (C ρ : Type) where
  call : C
  answer : Option ρ

/-- **An event of the atomic server**, with the result that a caller gets. -/
inductive Serves (V : Server C ε α ρ A) : Event C E → A → Marks (Ticket C ρ) →
    Option (Except ε α) → A → Marks (Ticket C ρ) → Prop
  | accept (a : A) {g : Marks (Ticket C ρ)} (i : ℕ) (c : C) (idle : g i = none) :
    Serves V (.spawn i c) a g none a (Function.update g i (some ⟨c, none⟩))
  /-- The instant at which a call is served. -/
  | serve {a a' : A} {g : Marks (Ticket C ρ)} (i : ℕ) (env : E) {c : C} {x : ρ}
    (waiting : g i = some ⟨c, none⟩) (served : V.serves c a x a') :
    Serves V (.run i env) a g none a' (Function.update g i (some ⟨c, some x⟩))
  | wait (a : A) {g : Marks (Ticket C ρ)} (i : ℕ) (env : E) : Serves V (.run i env) a g none a g
  | reply (a : A) {g : Marks (Ticket C ρ)} (i : ℕ) (env : E) {c : C} {x : ρ} {r : Except ε α}
    (served : g i = some ⟨c, some x⟩) (shown : V.shows x r) :
    Serves V (.run i env) a g (some r) a (Function.update g i none)
  | crash (a : A) (g : Marks (Ticket C ρ)) (i : ℕ) :
    Serves V (.abort i) a g none a (Function.update g i none)

/-- A run of the atomic server, with its results. -/
inductive ServesRun (V : Server C ε α ρ A) : List (Event C E) → List (Except ε α) → A →
    Marks (Ticket C ρ) → A → Marks (Ticket C ρ) → Prop
  | nil (a : A) (g : Marks (Ticket C ρ)) : ServesRun V [] [] a g a g
  | cons {e : Event C E} {es : List (Event C E)} {r : Option (Except ε α)}
    {rs : List (Except ε α)} {a a₁ a' : A} {g g₁ g' : Marks (Ticket C ρ)}
    (first : Serves V e a g r a₁ g₁) (rest : ServesRun V es rs a₁ g₁ a' g') :
    ServesRun V (e :: es) (r.toList ++ rs) a g a' g'

variable {V : Server C ε α ρ A} {a a' : A} {g g' : Marks (Ticket C ρ)} {e : Event C E}
  {es : List (Event C E)} {rs : List (Except ε α)} {r : Option (Except ε α)}

/-- **Induction along a run of the server.** -/
theorem ServesRun.induction (h : ServesRun V es rs a g a' g') {P : Event C E → Prop}
    (hP : ∀ e ∈ es, P e) {J : A → Marks (Ticket C ρ) → Prop} (h₀ : J a g)
    (hstep : ∀ {e a g r a' g'}, P e → Serves V e a g r a' g' → J a g → J a' g') : J a' g' := by
  induction h with
  | nil a g => exact h₀
  | cons first rest ih =>
    exact ih (fun e he => hP e (List.mem_cons_of_mem _ he))
      (hstep (hP _ List.mem_cons_self) first h₀)

/-- Each thread is touched by its own events only. -/
theorem Serves.ticket_of_ne (h : Serves V e a g r a' g') {i : ℕ} (hi : i ≠ e.thread) :
    g' i = g i := by
  cases h with
  | wait => rfl
  | _ => exact Function.update_of_ne hi _ _

/-! ## Systems -/

section

variable {Y : System Stmt ε α W S E C} {U : Usage Stmt ε α τ C} {abs : W → A}
  {ticket : τ → Ticket C ρ} {I : Config Stmt ε α W S → Marks τ → Prop} {fine : S → Prop}
  {s s' : Config Stmt ε α W S} {m m' : Marks τ}

/-- The statements of the system serve the calls: `abs` is the state of the server, and `I` an
invariant that this rests on. -/
structure Linearizes (Y : System Stmt ε α W S E C) (U : Usage Stmt ε α τ C)
    (V : Server C ε α ρ A) (abs : W → A) (ticket : τ → Ticket C ρ)
    (I : Config Stmt ε α W S → Marks τ → Prop) : Prop where
  init : ∀ c, ticket (U.init c) = ⟨c, none⟩
  ends : ∀ t r, U.ends t r → ∃ x, (ticket t).answer = some x ∧ V.shows x r
  close : ∀ i w, abs (Y.close i w) = abs w
  /-- A statement changes nothing for the server, or it is the instant at which the call is
  served. -/
  call : ∀ {s : Config Stmt ε α W S} {i : ℕ} {env : E} {m : Marks τ} {t : τ} {β : Type}
    {st : Stmt β} {σ σ' : S} {r : Except ε β} {w' : W}, I s m → m i = some t → U.allows t st →
    Y.exec i env s.world σ st = some (r, w', σ') →
    abs w' = abs s.world ∧ ticket (U.next t st r) = ticket t ∨
      ∃ c x, ticket t = ⟨c, none⟩ ∧ ticket (U.next t st r) = ⟨c, some x⟩ ∧
        V.serves c (abs s.world) x (abs w')
  keeps : ∀ {s : Config Stmt ε α W S} {e : Event C E} {s' : Config Stmt ε α W S} {m m' : Marks τ},
    Y.step s e = some s' → System.Move Y U s e s'.world m m' → I s m → I s' m'

/-- **One event.** -/
theorem Linearizes.serves (h : Linearizes Y U V abs ticket I) {w' : W}
    (hm : System.Move Y U s e w' m m') (hI : I s m) :
    Serves V e (abs s.world) (Marks.map ticket m) (System.ended s e) (abs w')
      (Marks.map ticket m') := by
  cases hm with
  | spawn i c idle =>
    rw [Marks.map_update, Option.map_some, h.init]
    exact .accept _ i c (by rw [Marks.map, idle, Option.map_none])
  | call i env mark st allowed exec answered sent =>
    obtain ⟨k, hk⟩ := sent
    have hended : System.ended s (.run i env : Event C E) = none := by simp only [System.ended, hk]
    rw [hended, Marks.map_update, Option.map_some]
    rcases h.call hI mark allowed exec with ⟨habs, hsame⟩ | ⟨c, x, hwaiting, hserved, hV⟩
    · have htickets := congrArg (Option.map ticket) mark
      change Marks.map ticket m i = some (ticket _) at htickets
      rw [habs, hsame, ← htickets, Function.update_eq_self]
      exact .wait _ i env
    · rw [hserved]
      exact .serve i env (by rw [Marks.map, mark, Option.map_some, hwaiting]) hV
  | finish e closing mark ends =>
    rw [Marks.map_update, Option.map_none, h.close]
    cases e with
    | spawn i c =>
      exfalso
      rcases closing with hc | ⟨r, hr⟩
      · cases hc
      · cases hr
    | run i env =>
      rcases closing with hc | ⟨r, hr⟩
      · cases hc
      · rw [hr]
        obtain ⟨x, hanswer, hshown⟩ := h.ends _ r (ends r hr)
        have htickets := congrArg (Option.map ticket) mark
        change Marks.map ticket m i = some ⟨(ticket _).call, (ticket _).answer⟩ at htickets
        rw [hanswer] at htickets
        exact .reply _ i env htickets hshown
    | abort i => exact .crash _ _ i

/-- **A run of the system is one of the atomic server.** -/
theorem Linearizes.serves_run (h : Linearizes Y U V abs ticket I) (hbody : Y.Obeys U)
    (hfresh : fine Y.fresh) (hans : ∀ e, Y.Answers U fine e) (hm : System.Marked U fine s m)
    (hI : I s m) (hs : Y.run System.anyStep s es = some s') :
    ∃ m', System.Marked U fine s' m' ∧ I s' m' ∧
      ServesRun V es (Y.results s es) (abs s.world) (Marks.map ticket m) (abs s'.world)
        (Marks.map ticket m') := by
  induction es generalizing s m with
  | nil =>
    obtain rfl := Option.some.inj hs
    exact ⟨m, hm, hI, .nil _ _⟩
  | cons e es ih =>
    obtain ⟨s₁, he, -, hs⟩ := System.run_cons.1 hs
    obtain ⟨m₁, hm₁, hmove⟩ := hm.step hbody hfresh (hans e) he
    obtain ⟨m', hm', hI', hserves⟩ := ih hm₁ (h.keeps he hmove hI) hs
    refine ⟨m', hm', hI', ?_⟩
    rw [System.results_cons he]
    exact .cons (h.serves hmove hI) hserves

/-- The tickets are those of the threads in flight. -/
theorem map_ticket_eq_none_iff (h : System.Marked U fine s m) {i : ℕ} :
    Marks.map ticket m i = none ↔ s.threads i = none := by
  rw [Marks.map, Option.map_eq_none_iff]
  constructor
  · intro hi
    cases hth : s.threads i with
    | none => rfl
    | some th =>
      obtain ⟨-, t, ht, -⟩ := h.busy i th hth
      cases hi.symm.trans ht
  · exact h.idle i

end

/-! ## The instant at which a call is served -/

/-- In the run `es` from `s₀`, the last call of thread `i` is `c`, and it was served with the answer
`x` at one of its own events. -/
inductive ServedIn (Y : System Stmt ε α W S E C) (V : Server C ε α ρ A) (abs : W → A)
    (s₀ : Config Stmt ε α W S) (i : ℕ) (c : C) (x : ρ) : List (Event C E) → Prop
  | intro {es₁ es₂ : List (Event C E)} {env : E} {s₁ s₂ : Config Stmt ε α W S}
    (begun : lastCall i es₁ = some c) (before : Y.run System.anyStep s₀ es₁ = some s₁)
    (step : Y.step s₁ (.run i env) = some s₂)
    (served : V.serves c (abs s₁.world) x (abs s₂.world))
    (rest : ∀ e ∈ es₂, e.isSpawn i = false) : ServedIn Y V abs s₀ i c x (es₁ ++ .run i env :: es₂)

section

variable {Y : System Stmt ε α W S E C} {U : Usage Stmt ε α τ C} {abs : W → A}
  {ticket : τ → Ticket C ρ} {I : Config Stmt ε α W S → Marks τ → Prop} {fine : S → Prop}
  {s₀ s s' : Config Stmt ε α W S} {m m' : Marks τ} {i : ℕ}

theorem ServedIn.concat {c : C} {x : ρ} (h : ServedIn Y V abs s₀ i c x es)
    (he : e.isSpawn i = false) : ServedIn Y V abs s₀ i c x (es ++ [e]) := by
  cases h with
  | @intro es₁ es₂ env s₁ s₂ begun before step served rest =>
    rw [List.append_assoc, List.cons_append]
    refine .intro begun before step served fun e' he' => ?_
    rcases List.mem_append.1 he' with he' | he'
    · exact rest e' he'
    · exact List.mem_singleton.1 he' ▸ he

theorem ServedIn.lastCall_eq {c : C} {x : ρ} (h : ServedIn Y V abs s₀ i c x es) :
    lastCall i es = some c := by
  cases h with
  | intro begun before step served rest =>
    rw [lastCall_append (List.forall_mem_cons.2 ⟨rfl, rest⟩)]
    exact begun

/-- What the ticket of thread `i` says is true of the run `es` from `s₀`. -/
def Ticket.TrueIn (Y : System Stmt ε α W S E C) (V : Server C ε α ρ A) (abs : W → A)
    (s₀ : Config Stmt ε α W S) (es : List (Event C E)) (i : ℕ) : Ticket C ρ → Prop
  | ⟨c, none⟩ => lastCall i es = some c
  | ⟨c, some x⟩ => ServedIn Y V abs s₀ i c x es

theorem Ticket.TrueIn.concat {k : Ticket C ρ} (h : k.TrueIn Y V abs s₀ es i)
    (he : e.isSpawn i = false) : k.TrueIn Y V abs s₀ (es ++ [e]) i := by
  obtain ⟨c, _ | x⟩ := k
  · exact (lastCall_append (List.forall_mem_singleton.2 he)).trans h
  · exact ServedIn.concat h he

/-- **One event** keeps the tickets true. -/
theorem Linearizes.true_move (h : Linearizes Y U V abs ticket I)
    (hrun : Y.run System.anyStep s₀ es = some s) (he : Y.step s e = some s')
    (hm : System.Move Y U s e s'.world m m') (hI : I s m)
    (htrue : ∀ i t, m i = some t → (ticket t).TrueIn Y V abs s₀ es i) :
    ∀ i t, m' i = some t → (ticket t).TrueIn Y V abs s₀ (es ++ [e]) i := by
  refine hm.forall_mark (fun i t hi ht => (htrue i t ht).concat (Event.isSpawn_of_ne hi))
    (fun i c heq => ?_) fun heq mark allowed exec _ => ?_
  · subst heq
    rw [h.init]
    change lastCall i (es ++ [.spawn i c]) = some c
    rw [lastCall_concat, Event.begun, if_pos rfl, Option.some_or]
  · subst heq
    have hbefore := htrue _ _ mark
    rcases h.call hI mark allowed exec with ⟨-, hsame⟩ | ⟨c, x, hwaiting, hserved, hV⟩
    · rw [hsame]
      exact hbefore.concat rfl
    · rw [hwaiting] at hbefore
      rw [hserved]
      exact .intro hbefore hrun he hV fun _ h => absurd h List.not_mem_nil

/-- **In every run the tickets are true.** -/
theorem Linearizes.true_run (h : Linearizes Y U V abs ticket I) (hbody : Y.Obeys U)
    (hfresh : fine Y.fresh) (hans : ∀ e, Y.Answers U fine e)
    (hm : System.Marked U fine s₀ fun _ => none) (hI : I s₀ fun _ => none)
    (hs : Y.run System.anyStep s₀ es = some s) :
    ∃ m, System.Marked U fine s m ∧ I s m ∧
      ∀ i t, m i = some t → (ticket t).TrueIn Y V abs s₀ es i := by
  induction es using List.reverseRecOn generalizing s with
  | nil =>
    obtain rfl := Option.some.inj hs
    exact ⟨_, hm, hI, fun _ _ h => absurd h.symm (Option.some_ne_none _)⟩
  | append_singleton es e ih =>
    obtain ⟨s₁, hrun, he, -⟩ := System.run_concat.1 hs
    obtain ⟨m₁, hm₁, hI₁, htrue⟩ := ih hrun
    obtain ⟨m, hmarked, hmove⟩ := hm₁.step hbody hfresh (hans e) he
    exact ⟨m, hmarked, h.keeps he hmove hI₁, h.true_move hrun he hmove hI₁ htrue⟩

/-- **Whatever a call ends with, it was served** between its start and its end. -/
theorem Linearizes.served_of_ended (h : Linearizes Y U V abs ticket I) (hbody : Y.Obeys U)
    (hfresh : fine Y.fresh) (hans : ∀ e, Y.Answers U fine e)
    (hm : System.Marked U fine s₀ fun _ => none) (hI : I s₀ fun _ => none)
    (hs : Y.run System.anyStep s₀ es = some s) {env : E} {r : Except ε α}
    (hr : System.ended s (.run i env : Event C E) = some r) :
    ∃ c x, ServedIn Y V abs s₀ i c x es ∧ V.shows x r := by
  obtain ⟨m, hmarked, -, htrue⟩ := h.true_run hbody hfresh hans hm hI hs
  obtain ⟨t, ht, hends⟩ := hmarked.ends_of_ended hr
  obtain ⟨x, hanswer, hshown⟩ := h.ends t r hends
  have hk := htrue i t ht
  generalize ticket t = k at hanswer hk
  obtain ⟨c, a⟩ := k
  obtain rfl : a = some x := hanswer
  exact ⟨c, x, hk, hshown⟩

end

end PaySystem
