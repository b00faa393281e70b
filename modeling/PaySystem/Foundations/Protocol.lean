import Mathlib.Data.List.Induction
import Mathlib.Data.List.Perm.Subperm
import PaySystem.Foundations.RelyGuarantee

/-!
# Protocols of threads

A protocol says, of one thread and without looking at the world, in which order it sends its
statements: it has states, the statements that may be sent in a state, and the state after an
answer. That a program follows a protocol is checked by recursion on the program (`Prog.Follows`),
and the rules are those of a weakest precondition.

In a run of a system whose programs follow the protocol, every thread in flight has a state
(`Marked`). A step of the run is then one of three moves of the states (`Move`), and whatever the
states say about the world is proved of these moves, by an induction that is done here once
(`System.Marked.induction`).
-/

namespace PaySystem

variable {Stmt : Type → Type} {ε α β W S E C τ : Type}

/-- A protocol with the states `τ`. -/
structure Protocol (Stmt : Type → Type) (ε τ : Type) where
  /-- The statement may be sent in this state. -/
  allows {β : Type} (t : τ) (s : Stmt β) : Prop
  /-- The statement may be answered like this. -/
  answers {β : Type} (s : Stmt β) (r : Except ε β) : Prop
  /-- The state after the answer. -/
  next {β : Type} (t : τ) (s : Stmt β) (r : Except ε β) : τ

/-! ## Programs -/

namespace Prog

variable {A : Protocol Stmt ε τ}

/-- The program follows the protocol from the state `t`, and `Q` holds of the state and of the
result at its end. -/
def Follows (A : Protocol Stmt ε τ) {α : Type} :
    Prog Stmt ε α → (τ → Except ε α → Prop) → τ → Prop
  | .pure a, Q, t => Q t (.ok a)
  | .throw e, Q, t => Q t (.error e)
  | .call s k, Q, t => A.allows t s ∧ ∀ r, A.answers s r → (k r).Follows A Q (A.next t s r)

theorem Follows.mono {p : Prog Stmt ε α} {Q Q' : τ → Except ε α → Prop} {t : τ}
    (h : p.Follows A Q t) (hQ : ∀ t r, Q t r → Q' t r) : p.Follows A Q' t := by
  induction p generalizing t with
  | pure a => exact hQ _ _ h
  | throw e => exact hQ _ _ h
  | call s k ih => exact ⟨h.1, fun r hr => ih r (h.2 r hr)⟩

/-- The program follows the protocol; `Q` holds at its end if it returns, and `X` if it raises. -/
def FollowsOr (A : Protocol Stmt ε τ) (X : τ → ε → Prop) {α : Type} (p : Prog Stmt ε α)
    (Q : τ → α → Prop) (t : τ) : Prop :=
  p.Follows A (fun t r => match r with
    | .ok a => Q t a
    | .error e => X t e) t

variable {X : τ → ε → Prop} {t : τ}

theorem followsOr_pure {a : α} {Q : τ → α → Prop} (h : Q t a) :
    FollowsOr A X (.pure a : Prog Stmt ε α) Q t := h

theorem followsOr_throw {e : ε} {Q : τ → α → Prop} (h : X t e) :
    FollowsOr A X (.throw e : Prog Stmt ε α) Q t := h

theorem FollowsOr.mono {p : Prog Stmt ε α} {Q Q' : τ → α → Prop} (h : FollowsOr A X p Q t)
    (hQ : ∀ t a, Q t a → Q' t a) : FollowsOr A X p Q' t :=
  Follows.mono h fun t r hr => match r, hr with
    | .ok a, hr => hQ t a hr
    | .error _, hr => hr

/-- **The rule of sequencing.** -/
theorem followsOr_bind {p : Prog Stmt ε α} {f : α → Prog Stmt ε β} {Q : τ → β → Prop}
    (h : FollowsOr A X p (fun t a => FollowsOr A X (f a) Q t) t) :
    FollowsOr A X (p.bind f) Q t := by
  induction p generalizing t with
  | pure a => exact h
  | throw e => exact h
  | call s k ih => exact ⟨h.1, fun r hr => ih r (h.2 r hr)⟩

/-- The rule of a statement whose exception propagates. -/
theorem followsOr_send {s : Stmt β} {Q : τ → β → Prop} (hs : A.allows t s)
    (hX : ∀ e, X (A.next t s (.error e)) e)
    (hQ : ∀ b, A.answers s (.ok b) → Q (A.next t s (.ok b)) b) :
    FollowsOr A X (send s : Prog Stmt ε β) Q t := by
  refine ⟨hs, fun r hr => ?_⟩
  cases r with
  | ok b => exact hQ b hr
  | error e => exact hX e

/-- The rule of a statement whose exception is caught. -/
theorem followsOr_attempt {s : Stmt β} {Q : τ → Except ε β → Prop} (hs : A.allows t s)
    (hQ : ∀ r, A.answers s r → Q (A.next t s r) r) :
    FollowsOr A X (attempt s : Prog Stmt ε (Except ε β)) Q t :=
  ⟨hs, hQ⟩

end Prog

/-! ## Runs -/

/-- The states of the threads in flight. -/
abbrev Marks (τ : Type) := ℕ → Option τ

/-- What holds of the state of thread `i` and of all others. -/
theorem forall_mark_update {g : Marks τ} {i : ℕ} {m : Option τ} {P : ℕ → τ → Prop}
    (hself : ∀ t, m = some t → P i t) (hother : ∀ j t, j ≠ i → g j = some t → P j t) :
    ∀ j t, Function.update g i m j = some t → P j t := by
  intro j t hj
  by_cases hji : j = i
  · subst hji
    rw [Function.update_self] at hj
    exact hself t hj
  · rw [Function.update_of_ne hji] at hj
    exact hother j t hji hj

/-- What `f` reads off the states. -/
def Marks.map {τ' : Type} (f : τ → τ') (g : Marks τ) : Marks τ' := fun i => (g i).map f

theorem Marks.map_update {τ' : Type} {f : τ → τ'} {g : Marks τ} (i : ℕ) (t : Option τ) :
    Marks.map f (Function.update g i t) = Function.update (Marks.map f g) i (t.map f) :=
  funext fun j => Function.apply_update (fun _ => Option.map f) g i t j

/-- How the calls of a system use a protocol: the state in which a call begins, and what holds of
the state and of the result when it ends. -/
structure Usage (Stmt : Type → Type) (ε α τ C : Type) extends Protocol Stmt ε τ where
  init : C → τ
  ends : τ → Except ε α → Prop

namespace System

variable (Y : System Stmt ε α W S E C) (U : Usage Stmt ε α τ C)

/-- Every call follows the protocol. -/
def Obeys : Prop := ∀ c, (Y.body c).Follows U.toProtocol U.ends (U.init c)

/-- The answers to the statements of an event are those that the protocol expects, in a session that
is `fine` and stays so. -/
def Answers (fine : S → Prop) : Event C E → Prop
  | .run i env => ∀ {β : Type} {w w' : W} {σ σ' : S} {s : Stmt β} {r : Except ε β},
      fine σ → Y.exec i env w σ s = some (r, w', σ') → fine σ' ∧ U.answers s r
  | _ => True

/-- Every thread in flight follows the protocol from its state. -/
structure Marked (fine : S → Prop) (s : Config Stmt ε α W S) (g : Marks τ) : Prop where
  idle : ∀ i, s.threads i = none → g i = none
  busy : ∀ i th, s.threads i = some th → fine th.session ∧
    ∃ t, g i = some t ∧ th.prog.Follows U.toProtocol U.ends t

/-- What an event does to the world and to the states. -/
inductive Move (s : Config Stmt ε α W S) : Event C E → W → Marks τ → Marks τ → Prop
  /-- A call begins. -/
  | spawn {g : Marks τ} (i : ℕ) (c : C) (idle : g i = none) :
    Move s (.spawn i c) s.world g (Function.update g i (some (U.init c)))
  /-- A statement is answered. -/
  | call {g : Marks τ} (i : ℕ) (env : E) {t : τ} (mark : g i = some t) {β : Type} (st : Stmt β)
    (allowed : U.allows t st) {σ σ' : S} {r : Except ε β} {w' : W}
    (exec : Y.exec i env s.world σ st = some (r, w', σ')) (answered : U.answers st r)
    (sent : ∃ k, s.threads i = some ⟨.call st k, σ⟩) :
    Move s (.run i env) w' g (Function.update g i (some (U.next t st r)))
  /-- A thread ends, by return, exception or crash. -/
  | finish {g : Marks τ} (e : Event C E) (closing : e = .abort e.thread ∨ ∃ r, ended s e = some r)
    {t : τ} (mark : g e.thread = some t) (ends : ∀ r, ended s e = some r → U.ends t r) :
    Move s e (Y.close e.thread s.world) g (Function.update g e.thread none)

variable {Y U} {fine : S → Prop} {s s' : Config Stmt ε α W S} {g : Marks τ} {e : Event C E}

/-- A step that leaves thread `i` with `th`, which follows the protocol from `m`. -/
theorem Marked.update (h : Marked U fine s g) (i : ℕ) (w' : W)
    (th : Option (Thread Stmt ε α S)) (m : Option τ) (hnone : th = none → m = none)
    (hsome : ∀ th', th = some th' → fine th'.session ∧
      ∃ t, m = some t ∧ th'.prog.Follows U.toProtocol U.ends t) :
    Marked U fine ⟨w', Function.update s.threads i th⟩ (Function.update g i m) where
  idle j hj := by
    change Function.update s.threads i th j = none at hj
    by_cases hji : j = i
    · subst hji
      rw [Function.update_self] at hj ⊢
      exact hnone hj
    · rw [Function.update_of_ne hji] at hj ⊢
      exact h.idle j hj
  busy j th' hj := by
    change Function.update s.threads i th j = some th' at hj
    by_cases hji : j = i
    · subst hji
      rw [Function.update_self] at hj ⊢
      exact hsome th' hj
    · rw [Function.update_of_ne hji] at hj ⊢
      exact h.busy j th' hj

/-- **One step**: every event is one of the moves, and keeps the threads marked. -/
theorem Marked.step (h : Marked U fine s g) (hbody : Y.Obeys U) (hfresh : fine Y.fresh)
    (hans : Y.Answers U fine e) (he : Y.step s e = some s') :
    ∃ g', Marked U fine s' g' ∧ Move Y U s e s'.world g g' := by
  cases e with
  | spawn i c =>
    cases ht : s.threads i with
    | some th => simp [System.step, ht] at he
    | none =>
      simp only [System.step, ht, Option.some.injEq] at he
      subst he
      refine ⟨_, h.update i s.world _ (some (U.init c))
          (fun hth => absurd hth (Option.some_ne_none _)) fun th' hth => ?_,
        .spawn i c (h.idle i ht)⟩
      obtain rfl := Option.some.inj hth
      exact ⟨hfresh, _, rfl, hbody c⟩
  | abort i =>
    cases ht : s.threads i with
    | none => simp [System.step, ht] at he
    | some th =>
      simp only [System.step, ht, Option.some.injEq] at he
      subst he
      obtain ⟨-, t, hg, -⟩ := h.busy i th ht
      exact ⟨_, h.update i _ none none (fun _ => rfl) fun _ hth =>
          absurd hth.symm (Option.some_ne_none _),
        .finish (.abort i) (Or.inl rfl) hg fun _ hr => absurd hr.symm (Option.some_ne_none _)⟩
  | run i env =>
    cases ht : s.threads i with
    | none => simp [System.step, ht] at he
    | some th =>
      obtain ⟨hfine, t, hg, hfollows⟩ := h.busy i th ht
      obtain ⟨p, σ⟩ := th
      cases p with
      | pure a =>
        simp only [System.step, ht, Option.some.injEq] at he
        subst he
        refine ⟨_, h.update i _ none none (fun _ => rfl) fun _ hth =>
            absurd hth.symm (Option.some_ne_none _),
          .finish (.run i env) (Or.inr ⟨.ok a, by simp only [ended, ht]⟩) hg ?_⟩
        rintro r hr
        simp only [ended, ht, Option.some.injEq] at hr
        exact hr ▸ hfollows
      | throw x =>
        simp only [System.step, ht, Option.some.injEq] at he
        subst he
        refine ⟨_, h.update i _ none none (fun _ => rfl) fun _ hth =>
            absurd hth.symm (Option.some_ne_none _),
          .finish (.run i env) (Or.inr ⟨.error x, by simp only [ended, ht]⟩) hg ?_⟩
        rintro r hr
        simp only [ended, ht, Option.some.injEq] at hr
        exact hr ▸ hfollows
      | call st k =>
        rw [step_run_call ht, Option.map_eq_some_iff] at he
        obtain ⟨⟨r, w', σ'⟩, hx, rfl⟩ := he
        obtain ⟨hfine', hr⟩ := hans hfine hx
        refine ⟨_, h.update i w' _ (some (U.next t st r))
            (fun hth => absurd hth (Option.some_ne_none _)) fun th' hth => ?_,
          .call i env hg st hfollows.1 hx hr ⟨k, ht⟩⟩
        obtain rfl := Option.some.inj hth
        exact ⟨hfine', _, rfl, hfollows.2 r hr⟩

/-- A call that ends with a result has the state that the result promises. -/
theorem Move.ends_of_ended {w' : W} {g' : Marks τ} (h : Move Y U s e w' g g') {r : Except ε α}
    (hr : ended s e = some r) : ∃ t, g e.thread = some t ∧ U.ends t r := by
  cases h with
  | spawn i c idle => cases hr
  | call i env mark st allowed exec answered sent =>
    obtain ⟨k, hk⟩ := sent
    simp [ended, hk] at hr
  | finish e closing mark ends => exact ⟨_, mark, ends r hr⟩

/-- **What every state satisfies** after a move: what the others satisfied before the move and keep,
and what the thread of the event establishes. -/
theorem Move.forall_mark {w' : W} {g' : Marks τ} {P : ℕ → τ → Prop} (h : Move Y U s e w' g g')
    (hother : ∀ i t, i ≠ e.thread → g i = some t → P i t)
    (hinit : ∀ i c, e = .spawn i c → P i (U.init c))
    (hcall : ∀ {i : ℕ} {env : E} {t : τ} {β : Type} {st : Stmt β} {σ σ' : S} {r : Except ε β},
      e = .run i env → g i = some t → U.allows t st →
      Y.exec i env s.world σ st = some (r, w', σ') → (∃ k, s.threads i = some ⟨.call st k, σ⟩) →
      P i (U.next t st r)) : ∀ i t, g' i = some t → P i t := by
  cases h with
  | spawn i c idle =>
    refine forall_mark_update ?_ hother
    rintro _ ⟨⟩
    exact hinit i c rfl
  | call i env mark st allowed exec answered sent =>
    refine forall_mark_update ?_ hother
    rintro _ ⟨⟩
    exact hcall rfl mark allowed exec sent
  | finish e closing mark ends => exact forall_mark_update (fun _ h => nomatch h) hother

/-- What becomes of a state: it stays, it goes on with an answer, or its thread ends. -/
theorem Move.mark_cases {w' : W} {g' : Marks τ} (h : Move Y U s e w' g g') {j : ℕ} {t : τ}
    (ht : g j = some t) : j ≠ e.thread ∧ g' j = some t ∨
      (∃ (env : E) (β : Type) (st : Stmt β) (σ σ' : S) (r : Except ε β), e = .run j env ∧
        (∃ k, s.threads j = some ⟨.call st k, σ⟩) ∧
        Y.exec j env s.world σ st = some (r, w', σ') ∧ g' j = some (U.next t st r)) ∨
      e.thread = j ∧ (e = .abort j ∨ ∃ r, ended s e = some r) ∧ w' = Y.close j s.world ∧
        ∀ r, ended s e = some r → U.ends t r := by
  cases h with
  | spawn i c idle =>
    have hne : j ≠ i := by
      rintro rfl
      cases idle.symm.trans ht
    exact Or.inl ⟨hne, by rwa [Function.update_of_ne hne]⟩
  | call i env mark st allowed exec answered sent =>
    by_cases hji : j = i
    · subst hji
      obtain rfl := Option.some.inj (mark.symm.trans ht)
      exact Or.inr (Or.inl ⟨env, _, st, _, _, _, rfl, sent, exec, Function.update_self ..⟩)
    · exact Or.inl ⟨hji, by rwa [Function.update_of_ne hji]⟩
  | finish e closing mark ends =>
    by_cases hji : j = e.thread
    · subst hji
      obtain rfl := Option.some.inj (mark.symm.trans ht)
      exact Or.inr (Or.inr ⟨rfl, closing, rfl, ends⟩)
    · exact Or.inl ⟨hji, by rwa [Function.update_of_ne hji]⟩

/-- The start of a call. -/
theorem Move.spawn_iff {i : ℕ} {c : C} {w' : W} {g' : Marks τ} :
    Move Y U s (.spawn i c) w' g g' ↔ g i = none ∧ w' = s.world ∧
      g' = Function.update g i (some (U.init c)) := by
  constructor
  · rintro (⟨_, _, hidle⟩ | _ | ⟨_, hover, -, -⟩)
    · exact ⟨hidle, rfl, rfl⟩
    · rcases hover with hover | ⟨r, hover⟩ <;> cases hover
  · rintro ⟨hidle, rfl, rfl⟩
    exact .spawn i c hidle

/-- The state of a thread that is about to end. -/
theorem Marked.ends_of_ended (h : Marked U fine s g) {i : ℕ} {env : E} {r : Except ε α}
    (hr : ended s (.run i env : Event C E) = some r) : ∃ t, g i = some t ∧ U.ends t r := by
  cases ht : s.threads i with
  | none => simp [ended, ht] at hr
  | some th =>
    obtain ⟨-, t, hg, hfollows⟩ := h.busy i th ht
    obtain ⟨p, σ⟩ := th
    cases p with
    | call st k => simp [ended, ht] at hr
    | pure a =>
      simp only [ended, ht, Option.some.injEq] at hr
      exact ⟨t, hg, hr ▸ hfollows⟩
    | throw x =>
      simp only [ended, ht, Option.some.injEq] at hr
      exact ⟨t, hg, hr ▸ hfollows⟩

/-- No thread is in flight. -/
theorem marked_idle (w : W) : Marked U fine (⟨w, fun _ => none⟩ : Config Stmt ε α W S)
    fun _ => none :=
  ⟨fun _ _ => rfl, fun _ _ h => nomatch h⟩

theorem run_append {ok : ℕ → W → W → Prop} [∀ i w w', Decidable (ok i w w')]
    {es es' : List (Event C E)} : Y.run ok s (es ++ es') = some s' ↔
      ∃ s₁, Y.run ok s es = some s₁ ∧ Y.run ok s₁ es' = some s' := by
  induction es generalizing s with
  | nil =>
    change Y.run ok s es' = some s' ↔ ∃ s₁, some s = some s₁ ∧ _
    constructor
    · exact fun h => ⟨s, rfl, h⟩
    · rintro ⟨s₁, h₁, h⟩
      exact Option.some.inj h₁ ▸ h
  | cons e es ih =>
    simp only [List.cons_append, run_cons, ih]
    constructor
    · rintro ⟨s₁, h₁, hok, s₂, h₂, h₃⟩
      exact ⟨s₂, ⟨s₁, h₁, hok, h₂⟩, h₃⟩
    · rintro ⟨s₂, ⟨s₁, h₁, hok, h₂⟩, h₃⟩
      exact ⟨s₁, h₁, hok, s₂, h₂, h₃⟩

/-- The last event of a run. -/
theorem run_concat {ok : ℕ → W → W → Prop} [∀ i w w', Decidable (ok i w w')]
    {es : List (Event C E)} : Y.run ok s (es ++ [e]) = some s' ↔ ∃ s₁, Y.run ok s es = some s₁ ∧
      Y.step s₁ e = some s' ∧ ok e.thread s₁.world s'.world := by
  rw [run_append]
  refine exists_congr fun s₁ => and_congr_right fun _ => ?_
  rw [run_cons]
  constructor
  · rintro ⟨s₂, h₂, hok, h⟩
    exact Option.some.inj h ▸ ⟨h₂, hok⟩
  · rintro ⟨h₂, hok⟩
    exact ⟨s', h₂, hok, rfl⟩

/-- The result of the call that ends in the last event of a run. -/
theorem results_concat {ok : ℕ → W → W → Prop} [∀ i w w', Decidable (ok i w w')]
    {s₁ : Config Stmt ε α W S} {es : List (Event C E)} (h : Y.run ok s es = some s₁)
    (he : Y.step s₁ e = some s') :
    Y.results s (es ++ [e]) = Y.results s es ++ (ended s₁ e).toList := by
  induction es generalizing s with
  | nil =>
    obtain rfl := Option.some.inj h
    exact (results_cons he).trans (List.append_nil _)
  | cons e' es ih =>
    obtain ⟨s₂, h₂, -, h₃⟩ := run_cons.1 h
    rw [List.cons_append, results_cons h₂, results_cons h₂, ih h₃, List.append_assoc]

/-- What is reached is reached by a list of events. -/
theorem Reach.exists_run {ok : ℕ → W → W → Prop} [∀ i w w', Decidable (ok i w w')]
    {s₀ : Config Stmt ε α W S} (h : Y.Reach ok s₀ s) : ∃ es, Y.run ok s₀ es = some s := by
  induction h with
  | start => exact ⟨[], rfl⟩
  | step _ e he hok ih =>
    obtain ⟨es, hes⟩ := ih
    exact ⟨es ++ [e], run_concat.2 ⟨_, hes, he, hok⟩⟩

/-- **Induction along a run**, with the states of the threads: what the moves keep holds at the end.
In the step, `s` is reached by the events `es` so far. -/
theorem Marked.induction (hbody : Y.Obeys U) (hfresh : fine Y.fresh) {ok : ℕ → W → W → Prop}
    [∀ i w w', Decidable (ok i w w')] {s₀ : Config Stmt ε α W S} {g₀ : Marks τ}
    (h₀ : Marked U fine s₀ g₀) {es : List (Event C E)} (hs : Y.run ok s₀ es = some s)
    (hans : ∀ e ∈ es, Y.Answers U fine e) (J : List (Event C E) → W → Marks τ → Prop)
    (hstart : J [] s₀.world g₀)
    (hmove : ∀ es s e s' g g', Y.run ok s₀ es = some s → Y.step s e = some s' →
      Marked U fine s g → Move Y U s e s'.world g g' → J es s.world g →
      J (es ++ [e]) s'.world g') :
    ∃ g, Marked U fine s g ∧ J es s.world g := by
  induction es using List.reverseRecOn generalizing s with
  | nil =>
    obtain rfl := Option.some.inj hs
    exact ⟨_, h₀, hstart⟩
  | append_singleton es e ih =>
    obtain ⟨s₁, h₁, he, -⟩ := run_concat.1 hs
    obtain ⟨g, hg, hJ⟩ := ih h₁ fun e he => hans e (List.mem_append_left _ he)
    obtain ⟨g', hg', hm⟩ := hg.step hbody hfresh
      (hans e (List.mem_append_right _ (List.mem_singleton.2 rfl))) he
    exact ⟨g', hg', hmove es s₁ e s g g' h₁ he hg hm hJ⟩

/-! ## Two protocols at once -/

end System

section

variable {τ' : Type} {A : Usage Stmt ε α τ C} {B : Usage Stmt ε α τ' C} {f : τ' → τ}

/-- Both protocols at once; `f` reads the states of `A` off those of `B`. -/
def Usage.refine (A : Usage Stmt ε α τ C) (f : τ' → τ) (B : Usage Stmt ε α τ' C) :
    Usage Stmt ε α τ' C where
  allows t s := A.allows (f t) s ∧ B.allows t s
  answers s r := A.answers s r ∧ B.answers s r
  next := B.next
  init := B.init
  ends t r := A.ends (f t) r ∧ B.ends t r

/-- What `f` reads off the states of `B` goes on as the states of `A` do. -/
structure Usage.Reads (A : Usage Stmt ε α τ C) (f : τ' → τ) (B : Usage Stmt ε α τ' C) : Prop where
  init : ∀ c, f (B.init c) = A.init c
  next : ∀ {β : Type} (t : τ') (s : Stmt β) (r : Except ε β), f (B.next t s r) = A.next (f t) s r

theorem Usage.Reads.follows (h : A.Reads f B) {p : Prog Stmt ε β} {Q : τ → Except ε β → Prop}
    {Q' : τ' → Except ε β → Prop} {t : τ'} (hA : p.Follows A.toProtocol Q (f t))
    (hB : p.Follows B.toProtocol Q' t) :
    p.Follows (A.refine f B).toProtocol (fun t r => Q (f t) r ∧ Q' t r) t := by
  induction p generalizing t with
  | pure a => exact ⟨hA, hB⟩
  | throw e => exact ⟨hA, hB⟩
  | call s k ih =>
    refine ⟨⟨hA.1, hB.1⟩, fun r hr => ih r ?_ (hB.2 r hr.2)⟩
    change (k r).Follows A.toProtocol Q (f (B.next t s r))
    rw [h.next]
    exact hA.2 r hr.1

namespace System

variable {Y : System Stmt ε α W S E C} {s : Config Stmt ε α W S} {e : Event C E}

theorem Obeys.refine (h : A.Reads f B) (hA : Y.Obeys A) (hB : Y.Obeys B) :
    Y.Obeys (A.refine f B) :=
  fun c => h.follows ((h.init c).symm ▸ hA c) (hB c)

/-- A move of both is a move of the first one. -/
theorem Move.read (h : A.Reads f B) {w' : W} {g g' : Marks τ'}
    (hm : Move Y (A.refine f B) s e w' g g') :
    Move Y A s e w' (Marks.map f g) (Marks.map f g') := by
  cases hm with
  | spawn i c idle =>
    rw [Marks.map_update, Option.map_some, show (A.refine f B).init c = B.init c from rfl, h.init]
    exact .spawn i c (by rw [Marks.map, idle, Option.map_none])
  | call i env mark st allowed exec answered sent =>
    rw [Marks.map_update, Option.map_some]
    change Move Y A s _ w' _ (Function.update _ i (some (f (B.next _ st _))))
    rw [h.next]
    exact .call i env (by rw [Marks.map, mark, Option.map_some]) st allowed.1 exec answered.1 sent
  | finish e closing mark ends =>
    rw [Marks.map_update, Option.map_none]
    exact .finish e closing (by rw [Marks.map, mark, Option.map_some]) fun r hr => (ends r hr).1

end System

end

/-! ## Calls -/

/-- The call that thread `i` begins in an event. -/
def Event.begun (i : ℕ) : Event C E → Option C
  | .spawn j c => if j = i then some c else none
  | _ => none

/-- The last call that thread `i` has begun in the events. -/
def lastCall (i : ℕ) (es : List (Event C E)) : Option C :=
  es.foldl (fun c e => (e.begun i).or c) none

theorem lastCall_concat (i : ℕ) (es : List (Event C E)) (e : Event C E) :
    lastCall i (es ++ [e]) = (e.begun i).or (lastCall i es) := by
  rw [lastCall, List.foldl_append]
  rfl

/-- Other events leave it alone. -/
theorem lastCall_append {i : ℕ} {es es' : List (Event C E)} (h : ∀ e ∈ es', e.isSpawn i = false) :
    lastCall i (es ++ es') = lastCall i es := by
  induction es' using List.reverseRecOn with
  | nil => rw [List.append_nil]
  | append_singleton es' e ih =>
    have he : e.begun i = none := by
      have hspawn := h e (List.mem_append_right _ (List.mem_singleton_self e))
      cases e with
      | spawn j c => exact if_neg (of_decide_eq_false hspawn)
      | _ => rfl
    rw [← List.append_assoc, lastCall_concat, he, Option.none_or]
    exact ih fun e' he' => h e' (List.mem_append_left _ he')

namespace System

variable {s : Config Stmt ε α W S} {g : Marks τ} {e : Event C E} {Y : System Stmt ε α W S E C}
  {U : Usage Stmt ε α τ C}

/-- The states know the calls of their threads. -/
def Calling (call : τ → C) (es : List (Event C E)) (g : Marks τ) : Prop :=
  ∀ i t, g i = some t → lastCall i es = some (call t)

theorem Move.calling {call : τ → C} {es : List (Event C E)} {w' : W} {g' : Marks τ}
    (hm : Move Y U s e w' g g') (hinit : ∀ c, call (U.init c) = c)
    (hnext : ∀ {β : Type} (t : τ) (st : Stmt β) (r : Except ε β), call (U.next t st r) = call t)
    (h : Calling call es g) : Calling call (es ++ [e]) g' := by
  have hkeep : ∀ {i t}, e.isSpawn i = false → g i = some t →
      lastCall i (es ++ [e]) = some (call t) := fun hi ht =>
    (lastCall_append (List.forall_mem_singleton.2 hi)).trans (h _ _ ht)
  refine hm.forall_mark (fun i t hi ht => hkeep (Event.isSpawn_of_ne hi) ht)
    (fun i c heq => ?_) fun heq mark _ _ _ => ?_
  · rw [heq, lastCall_concat, Event.begun, if_pos rfl, Option.some_or, hinit]
  · rw [hnext]
    exact hkeep (heq ▸ rfl) mark

/-! ## Logs -/

/-- The calls that a run starts. -/
def spawned (es : List (Event C E)) : List C :=
  es.filterMap fun
    | .spawn _ c => some c
    | _ => none

/-- How calls account for the entries of a log: `call` is the call of a thread, `spent` says that it
has made its entry, and `Makes` which entry a call may make. -/
structure Account (τ C A : Type) where
  call : τ → C
  spent : τ → Bool
  Makes : C → A → Prop

/-- The entries of the log were made by calls of their own: `cs` are these calls, and `live` those
that may still make one. -/
def Account.Covers {A : Type} (K : Account τ C A) (es : List (Event C E)) (log : List A)
    (g : Marks τ) : Prop :=
  ∃ (cs : List C) (live : List (ℕ × C)), List.Forall₂ K.Makes cs log ∧
    (cs ++ live.map Prod.snd).Subperm (spawned es) ∧
    ∀ i t, g i = some t → K.spent t = false → (i, K.call t) ∈ live

namespace Account

variable {A : Type} {K : Account τ C A} {es : List (Event C E)} {log : List A} {i : ℕ}

theorem covers_start : K.Covers ([] : List (Event C E)) [] fun _ => none :=
  ⟨[], [], .nil, List.Perm.refl _ |>.subperm, fun _ _ h => nomatch h⟩

/-- Whoever covers the log made its entries. -/
theorem Covers.exists_calls (h : K.Covers es log g) :
    ∃ cs, cs.Subperm (spawned es) ∧ List.Forall₂ K.Makes cs log := by
  obtain ⟨cs, live, hmakes, hsub, -⟩ := h
  exact ⟨cs, (List.sublist_append_left _ _).subperm.trans hsub, hmakes⟩

private theorem spawned_concat (es : List (Event C E)) (e : Event C E) :
    spawned (es ++ [e]) = spawned es ++ spawned [e] := List.filterMap_append

/-- A call may have made what the account says, and more. -/
theorem Covers.mono {K' : Account τ C A} (h : K.Covers es log g) (hcall : K'.call = K.call)
    (hspent : K'.spent = K.spent) (hmakes : ∀ c a, K.Makes c a → K'.Makes c a) :
    K'.Covers es log g := by
  obtain ⟨cs, live, hforall, hsub, hlive⟩ := h
  refine ⟨cs, live, hforall.imp hmakes, hsub, ?_⟩
  rw [hcall, hspent]
  exact hlive

theorem Covers.spawn (h : K.Covers es log g) {c : C} {t : τ} (hcall : K.call t = c) :
    K.Covers (es ++ [.spawn i c]) log (Function.update g i (some t)) := by
  obtain ⟨cs, live, hmakes, hsub, hlive⟩ := h
  refine ⟨cs, live ++ [(i, c)], hmakes, ?_, forall_mark_update ?_ ?_⟩
  · rw [spawned_concat, List.map_append, ← List.append_assoc]
    exact hsub.append (List.Subperm.refl _)
  · rintro _ ⟨⟩ -
    exact List.mem_append_right _ (List.mem_singleton.2 (by rw [hcall]))
  · exact fun j t' _ hj hspent => List.mem_append_left _ (hlive j t' hj hspent)

/-- A step of thread `i` without an entry. -/
theorem Covers.keep (h : K.Covers es log g) (e : Event C E) (m : Option τ)
    (hm : ∀ t', m = some t' → K.spent t' = false →
      ∃ t, g i = some t ∧ K.spent t = false ∧ K.call t' = K.call t) :
    K.Covers (es ++ [e]) log (Function.update g i m) := by
  obtain ⟨cs, live, hmakes, hsub, hlive⟩ := h
  refine ⟨cs, live, hmakes, hsub.trans ?_, forall_mark_update (fun t' ht' hspent => ?_)
    fun j t' _ => hlive j t'⟩
  · rw [spawned_concat]
    exact (List.sublist_append_left _ _).subperm
  · obtain ⟨t, ht, hspent', hcall⟩ := hm t' ht' hspent
    rw [hcall]
    exact hlive i t ht hspent'

/-- A step of thread `i` that makes its entry. -/
theorem Covers.entry (h : K.Covers es log g) (e : Event C E) {t t' : τ} {a : A} (ht : g i = some t)
    (hspent : K.spent t = false) (hspent' : K.spent t' = true) (ha : K.Makes (K.call t) a) :
    K.Covers (es ++ [e]) (log ++ [a]) (Function.update g i (some t')) := by
  obtain ⟨cs, live, hmakes, hsub, hlive⟩ := h
  obtain ⟨l₁, l₂, rfl⟩ := List.append_of_mem (hlive i t ht hspent)
  refine ⟨cs ++ [K.call t], l₁ ++ l₂, List.rel_append hmakes (.cons ha .nil), ?_,
    forall_mark_update ?_ fun j t'' hji hj hfree => ?_⟩
  · rw [spawned_concat]
    refine List.Subperm.trans (List.Perm.subperm ?_)
      (hsub.trans (List.sublist_append_left _ _).subperm)
    simp only [List.map_append, List.map_cons, List.append_assoc]
    refine List.Perm.append_left _ ?_
    change (K.call t :: (l₁.map Prod.snd ++ l₂.map Prod.snd)).Perm _
    exact List.perm_middle.symm
  · rintro _ ⟨⟩ hfree
    rw [hspent'] at hfree
    cases hfree
  · have hmem := hlive j t'' hj hfree
    rw [List.mem_append, List.mem_cons] at hmem
    rcases hmem with hmem | hmem | hmem
    · exact List.mem_append_left _ hmem
    · exact absurd (congrArg Prod.fst hmem) hji
    · exact List.mem_append_right _ hmem

/-- **A move keeps the log covered**, if a statement adds at most one entry, and this one for a
thread that has not made its entry yet. -/
theorem Covers.move {log : W → List A} {w' : W} {g' : Marks τ} (h : K.Covers es (log s.world) g)
    (hm : Move Y U s e w' g g') (hinit : ∀ c, K.call (U.init c) = c)
    (hclose : ∀ i w, log (Y.close i w) = log w)
    (hcall : ∀ {i : ℕ} {env : E} {t : τ} {β : Type} {st : Stmt β} {σ σ' : S} {r : Except ε β}
      {w' : W}, g i = some t → U.allows t st → Y.exec i env s.world σ st = some (r, w', σ') →
      K.call (U.next t st r) = K.call t ∧
      (log w' = log s.world ∧ (K.spent (U.next t st r) = false → K.spent t = false) ∨
        ∃ a, log w' = log s.world ++ [a] ∧ K.Makes (K.call t) a ∧ K.spent t = false ∧
          K.spent (U.next t st r) = true)) :
    K.Covers (es ++ [e]) (log w') g' := by
  cases hm with
  | spawn i c idle => exact h.spawn (hinit c)
  | call i env mark st allowed exec answered sent =>
    obtain ⟨hsame, ⟨hlog, hspent⟩ | ⟨a, hlog, ha, hspent, hspent'⟩⟩ := hcall mark allowed exec
    · rw [hlog]
      refine h.keep _ _ ?_
      rintro _ ⟨⟩ hfree
      exact ⟨_, mark, hspent hfree, hsame⟩
    · rw [hlog]
      exact h.entry _ mark hspent hspent' ha
  | finish e closing mark ends =>
    rw [hclose]
    exact h.keep _ _ fun _ h => nomatch h

end Account

end System

end PaySystem
