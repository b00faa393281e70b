import Mathlib.Logic.Function.Basic
import PaySystem.Foundations.Program

/-!
# Interleaved programs and rely-guarantee reasoning

A `System` runs any number of programs over one world. An event starts a call, answers the next
statement of a thread, or kills a thread; every order of events is a run, and `Reach` collects
what the runs reach.

`RelyGuarantee` is a proof system for such runs. Each thread is verified alone: `wp` follows its
program and, before every statement, lets the other threads change the world in any way that the
thread's `Rely` allows; every step of the thread must be within its `Guar`. The soundness theorem
is `Valid.step`: if the guarantee of each thread is within the rely of every other, the proofs of
the threads hold together, in every interleaving.
-/

namespace PaySystem

variable {Stmt : Type → Type} {ε α β W S E C : Type}

/-- A machine together with the programs of its calls and the session a call starts with. -/
structure System (Stmt : Type → Type) (ε α W S E C : Type) extends Machine Stmt ε W S E where
  body : C → Prog Stmt ε α
  fresh : S

/-- A thread: the rest of its program and its session. -/
structure Thread (Stmt : Type → Type) (ε α S : Type) : Type 1 where
  prog : Prog Stmt ε α
  session : S

/-- Configurations: the world, and the threads in flight by their number. -/
structure Config (Stmt : Type → Type) (ε α W S : Type) : Type 1 where
  world : W
  threads : ℕ → Option (Thread Stmt ε α S)

/-- What the scheduler may do next. -/
inductive Event (C E : Type)
  /-- Start the call `c` as thread `i`. -/
  | spawn (i : ℕ) (c : C)
  /-- Run the next statement of thread `i`, or its end. -/
  | run (i : ℕ) (env : E)
  /-- Thread `i` dies. -/
  | abort (i : ℕ)

/-- The thread an event is about. -/
def Event.thread : Event C E → ℕ
  | .spawn i _ => i
  | .run i _ => i
  | .abort i => i

/-- The event starts a call as thread `i`. -/
def Event.isSpawn (i : ℕ) : Event C E → Bool
  | .spawn j _ => j = i
  | _ => false

/-- The event runs thread `i`. -/
def Event.isRun (i : ℕ) : Event C E → Bool
  | .run j _ => j = i
  | _ => false

theorem Event.isSpawn_of_ne {i : ℕ} {e : Event C E} (h : i ≠ e.thread) : e.isSpawn i = false := by
  cases e with
  | spawn j c => exact decide_eq_false h.symm
  | _ => rfl

theorem Event.isRun_of_ne {i : ℕ} {e : Event C E} (h : i ≠ e.thread) : e.isRun i = false := by
  cases e with
  | run j env => exact decide_eq_false h.symm
  | _ => rfl

namespace System

variable (Y : System Stmt ε α W S E C)

/-- The end of thread `i`. -/
def finish (s : Config Stmt ε α W S) (i : ℕ) : Config Stmt ε α W S :=
  ⟨Y.close i s.world, Function.update s.threads i none⟩

/-- One event; `none` if it cannot happen now. -/
def step (s : Config Stmt ε α W S) : Event C E → Option (Config Stmt ε α W S)
  | .spawn i c => match s.threads i with
    | none => some ⟨s.world, Function.update s.threads i (some ⟨Y.body c, Y.fresh⟩)⟩
    | some _ => none
  | .run i env => match s.threads i with
    | none => none
    | some ⟨.call st k, σ⟩ => match Y.exec i env s.world σ st with
      | none => none
      | some (r, w, σ') => some ⟨w, Function.update s.threads i (some ⟨k r, σ'⟩)⟩
    | some _ => some (Y.finish s i)
  | .abort i => match s.threads i with
    | none => none
    | some _ => some (Y.finish s i)

/-- The events of a run, one after the other, as long as each step satisfies `ok`: a condition on
the thread that steps and on the world before and after. -/
def run (ok : ℕ → W → W → Prop) [∀ i w w', Decidable (ok i w w')] (s : Config Stmt ε α W S) :
    List (Event C E) → Option (Config Stmt ε α W S)
  | [] => some s
  | e :: es => (Y.step s e).bind fun s' =>
    if ok e.thread s.world s'.world then run ok s' es else none

/-- What the runs from `s₀` reach whose steps all satisfy `ok`. -/
inductive Reach (ok : ℕ → W → W → Prop) (s₀ : Config Stmt ε α W S) :
    Config Stmt ε α W S → Prop
  | start : Reach ok s₀ s₀
  | step {s s' : Config Stmt ε α W S} (h : Reach ok s₀ s) (e : Event C E)
    (he : Y.step s e = some s') (hok : ok e.thread s.world s'.world) : Reach ok s₀ s'

/-- No condition on the steps of a run. -/
def anyStep : ℕ → W → W → Prop := fun _ _ _ => True

instance (i : ℕ) (w w' : W) : Decidable (anyStep i w w') := isTrue trivial

/-- The result of the call that ends in an event: a dead thread has none. -/
def ended (s : Config Stmt ε α W S) : Event C E → Option (Except ε α)
  | .run i _ => match s.threads i with
    | some ⟨.pure a, _⟩ => some (.ok a)
    | some ⟨.throw e, _⟩ => some (.error e)
    | _ => none
  | _ => none

/-- The results of the calls that end in a run, in the order in which they end. -/
def results (s : Config Stmt ε α W S) : List (Event C E) → List (Except ε α)
  | [] => []
  | e :: es => match Y.step s e with
    | none => []
    | some s' => (ended s e).toList ++ results s' es

variable {Y}

theorem run_cons {ok : ℕ → W → W → Prop} [∀ i w w', Decidable (ok i w w')]
    {s s' : Config Stmt ε α W S} {e : Event C E} {es : List (Event C E)} :
    Y.run ok s (e :: es) = some s' ↔ ∃ s₁, Y.step s e = some s₁ ∧
      ok e.thread s.world s₁.world ∧ Y.run ok s₁ es = some s' := by
  simp only [run, Option.bind_eq_some_iff, Option.ite_none_right_eq_some]

theorem results_cons {s s' : Config Stmt ε α W S} {e : Event C E} {es : List (Event C E)}
    (h : Y.step s e = some s') : Y.results s (e :: es) = (ended s e).toList ++ Y.results s' es := by
  rw [results, h]

/-- A run whose steps satisfy a condition is a run. -/
theorem run_anyStep {ok : ℕ → W → W → Prop} [∀ i w w', Decidable (ok i w w')]
    {s s' : Config Stmt ε α W S} {es : List (Event C E)} (h : Y.run ok s es = some s') :
    Y.run anyStep s es = some s' := by
  induction es generalizing s with
  | nil => exact h
  | cons e es ih =>
    obtain ⟨s₁, h₁, -, h₂⟩ := run_cons.1 h
    exact run_cons.2 ⟨s₁, h₁, trivial, ih h₂⟩

/-- The step of a thread that sends a statement is the step of the statement. -/
theorem step_run_call {s : Config Stmt ε α W S} {i : ℕ} {env : E} {st : Stmt β}
    {k : Except ε β → Prog Stmt ε α} {σ : S} (ht : s.threads i = some ⟨.call st k, σ⟩) :
    Y.step s (.run i env) = (Y.exec i env s.world σ st).map fun x =>
      ⟨x.2.1, Function.update s.threads i (some ⟨k x.1, x.2.2⟩)⟩ := by
  simp only [step, ht]
  cases Y.exec i env s.world σ st <;> rfl

/-- What an event does: it starts a call in an idle thread, runs one statement, or ends a thread. -/
theorem step_cases {s s' : Config Stmt ε α W S} {e : Event C E} (h : Y.step s e = some s') :
    (∃ c, e = .spawn e.thread c ∧ s.threads e.thread = none ∧
      s' = ⟨s.world, Function.update s.threads e.thread (some ⟨Y.body c, Y.fresh⟩)⟩) ∨
    (∃ (β : Type) (st : Stmt β) (k : Except ε β → Prog Stmt ε α) (σ σ' : S) (env : E)
      (r : Except ε β) (w' : W), e = .run e.thread env ∧
      s.threads e.thread = some ⟨.call st k, σ⟩ ∧
      Y.exec e.thread env s.world σ st = some (r, w', σ') ∧
      s' = ⟨w', Function.update s.threads e.thread (some ⟨k r, σ'⟩)⟩) ∨
    s' = Y.finish s e.thread := by
  cases e with
  | spawn i c =>
    cases ht : s.threads i with
    | some t => simp [step, ht] at h
    | none =>
      simp only [step, ht, Option.some.injEq] at h
      exact Or.inl ⟨c, rfl, ht, h.symm⟩
  | abort i =>
    cases ht : s.threads i with
    | none => simp [step, ht] at h
    | some t =>
      simp only [step, ht, Option.some.injEq] at h
      exact Or.inr (Or.inr h.symm)
  | run i env =>
    cases ht : s.threads i with
    | none => simp [step, ht] at h
    | some t =>
      obtain ⟨p, σ⟩ := t
      cases p with
      | pure a =>
        simp only [step, ht, Option.some.injEq] at h
        exact Or.inr (Or.inr h.symm)
      | throw e =>
        simp only [step, ht, Option.some.injEq] at h
        exact Or.inr (Or.inr h.symm)
      | call st k =>
        rw [step_run_call ht, Option.map_eq_some_iff] at h
        obtain ⟨⟨r, w', σ'⟩, hx, rfl⟩ := h
        exact Or.inr (Or.inl ⟨_, st, k, σ, σ', env, r, w', rfl, ht, hx, rfl⟩)

/-- A step touches only the thread of its event. -/
theorem threads_of_step {s s' : Config Stmt ε α W S} {e : Event C E} (h : Y.step s e = some s')
    {i : ℕ} (hi : i ≠ e.thread) : s'.threads i = s.threads i := by
  obtain ⟨c, -, -, rfl⟩ | ⟨β, st, k, σ, σ', env, r, w', -, -, -, rfl⟩ | rfl := step_cases h
  · exact Function.update_of_ne hi _ _
  · exact Function.update_of_ne hi _ _
  · exact Function.update_of_ne hi _ _

theorem Reach.trans {ok : ℕ → W → W → Prop} {s₀ s₁ s₂ : Config Stmt ε α W S}
    (h₁ : Y.Reach ok s₀ s₁) (h₂ : Y.Reach ok s₁ s₂) : Y.Reach ok s₀ s₂ := by
  induction h₂ with
  | start => exact h₁
  | step _ e he hok ih => exact .step ih e he hok

/-- An executed list of events is a run. -/
theorem reach_of_run {ok : ℕ → W → W → Prop} [∀ i w w', Decidable (ok i w w')]
    {s s' : Config Stmt ε α W S} (es : List (Event C E)) (h : Y.run ok s es = some s') :
    Y.Reach ok s s' := by
  induction es generalizing s with
  | nil =>
    obtain rfl : s = s' := by simpa [run] using h
    exact .start
  | cons e es ih =>
    obtain ⟨s₁, h₁, hok, h₂⟩ := run_cons.1 h
    exact (Reach.start.step e h₁ hok).trans (ih h₂)

/-- A run touches only the threads of its events. -/
theorem threads_of_run {ok : ℕ → W → W → Prop} [∀ i w w', Decidable (ok i w w')]
    {s s' : Config Stmt ε α W S} (es : List (Event C E)) (h : Y.run ok s es = some s') {i : ℕ}
    (hi : i ∉ es.map Event.thread) : s'.threads i = s.threads i := by
  induction es generalizing s with
  | nil =>
    obtain rfl : s = s' := by simpa [run] using h
    rfl
  | cons e es ih =>
    obtain ⟨s₁, h₁, -, h₂⟩ := run_cons.1 h
    rw [List.map_cons, List.mem_cons, not_or] at hi
    rw [ih h₂ hi.2]
    exact threads_of_step h₁ hi.1

/-- An executed list of events that leaves no thread, in a world that passes the test `P`. -/
theorem exists_run {ok : ℕ → W → W → Prop} [∀ i w w', Decidable (ok i w w')] {w : W}
    (es : List (Event C E)) (P : W → Bool)
    (h : (Y.run ok ⟨w, fun _ => none⟩ es).any (fun s => P s.world &&
      es.all fun e => (s.threads e.thread).isNone) = true) :
    ∃ s, Y.run ok ⟨w, fun _ => none⟩ es = some s ∧ (∀ i, s.threads i = none) ∧
      P s.world = true := by
  obtain ⟨s, hs, htest⟩ := (Option.any_eq_true _ _).1 h
  rw [Bool.and_eq_true, List.all_eq_true] at htest
  refine ⟨s, hs, fun i => ?_, htest.1⟩
  by_cases hi : i ∈ es.map Event.thread
  · obtain ⟨e, he, rfl⟩ := List.mem_map.1 hi
    exact Option.isNone_iff_eq_none.1 (htest.2 e he)
  · exact threads_of_run es hs hi

theorem exists_reach_of_run {ok : ℕ → W → W → Prop} [∀ i w w', Decidable (ok i w w')] {w : W}
    (es : List (Event C E)) (P : W → Bool)
    (h : (Y.run ok ⟨w, fun _ => none⟩ es).any (fun s => P s.world &&
      es.all fun e => (s.threads e.thread).isNone) = true) :
    ∃ s, Y.Reach ok ⟨w, fun _ => none⟩ s ∧ (∀ i, s.threads i = none) ∧ P s.world = true := by
  obtain ⟨s, hs, hidle, hP⟩ := exists_run es P h
  exact ⟨s, reach_of_run es hs, hidle, hP⟩

/-- **A program run alone is a run of the system**: the thread takes its steps one after the other
and nobody else moves. -/
theorem reach_of_eval {i : ℕ} (p : Prog Stmt ε α) {env : ℕ → E} {w : W} {σ : S}
    {x : Ending ε α W S E} (threads : ℕ → Option (Thread Stmt ε α S))
    (h : p.eval Y.toMachine i env w σ = some x) :
    Y.Reach anyStep ⟨w, Function.update threads i (some ⟨p, σ⟩)⟩
      ⟨Y.close i x.world, Function.update threads i none⟩ := by
  induction p generalizing env w σ with
  | pure a =>
    obtain rfl : _ = x := Option.some.inj h
    refine Reach.start.step (.run i (env 0)) ?_ trivial
    simp [step, finish]
  | throw e =>
    obtain rfl : _ = x := Option.some.inj h
    refine Reach.start.step (.run i (env 0)) ?_ trivial
    simp [step, finish]
  | call s k ih =>
    cases hs : Y.exec i (env 0) w σ s with
    | none => simp [Prog.eval, hs] at h
    | some r =>
      obtain ⟨r, w', σ'⟩ := r
      rw [Prog.eval_call_of_exec _ hs] at h
      refine (Reach.start.step (.run i (env 0)) ?_ trivial).trans (ih r h)
      simp [step, hs]

/-- A call run alone from a configuration in which thread `i` is idle. -/
theorem reach_of_call {i : ℕ} (c : C) {env : ℕ → E} {s : Config Stmt ε α W S}
    {x : Ending ε α W S E} (hi : s.threads i = none)
    (h : (Y.body c).eval Y.toMachine i env s.world Y.fresh = some x) :
    Y.Reach anyStep s ⟨Y.close i x.world, s.threads⟩ := by
  have hr := reach_of_eval (Y := Y) (Y.body c) s.threads h
  have hend : Function.update s.threads i none = s.threads :=
    Function.update_eq_self_iff.2 hi.symm
  rw [hend] at hr
  exact (Reach.start.step (.spawn i c) (by simp [step, hi]) trivial).trans hr

end System

/-! ## The proof system -/

/-- A rely-guarantee specification of a system: an invariant of the world, what a thread may
assume of the others' steps (`Rely`) and must ensure of its own (`Guar`), what holds of a thread
number that is not in use (`Idle`), and what must hold before each statement (`Pre`). -/
structure RelyGuarantee (Y : System Stmt ε α W S E C) where
  Inv : W → Prop
  Rely : ℕ → W → W → Prop
  Guar : ℕ → W → W → Prop
  Idle : ℕ → W → Prop
  Pre {β : Type} (i : ℕ) (w : W) (s : Stmt β) : Prop
  rely_refl (i : ℕ) (w : W) : Rely i w w
  rely_trans {i : ℕ} {w₁ w₂ w₃ : W} : Rely i w₁ w₂ → Rely i w₂ w₃ → Rely i w₁ w₃
  inv_guar {i : ℕ} {w w' : W} : Inv w → Guar i w w' → Inv w'
  rely_guar {i j : ℕ} {w w' : W} : i ≠ j → Inv w → Guar j w w' → Rely i w w'
  close_guar {i : ℕ} {w : W} : Inv w → Guar i w (Y.close i w)
  idle_close (i : ℕ) (w : W) : Idle i (Y.close i w)
  idle_rely {i : ℕ} {w w' : W} : Idle i w → Rely i w w' → Idle i w'

namespace RelyGuarantee

variable {Y : System Stmt ε α W S E C} (L : RelyGuarantee Y)

/-- The weakest precondition of a program of thread `i` for the postcondition `Q`, in the presence
of the other threads. -/
def wp {α : Type} (i : ℕ) : Prog Stmt ε α → (Except ε α → S → W → Prop) → S → W → Prop
  | .pure a, Q, σ, w => Q (.ok a) σ w
  | .throw e, Q, σ, w => Q (.error e) σ w
  | .call s k, Q, σ, w => ∀ w₁, L.Rely i w w₁ → L.Inv w₁ → L.Pre i w₁ s ∧
      ∀ env r w₂ σ', Y.exec i env w₁ σ s = some (r, w₂, σ') →
        L.Guar i w₁ w₂ ∧ wp i (k r) Q σ' w₂

/-- Nothing is asked of the result: the program only has to be safe for the others. -/
def anyResult {α : Type} : Except ε α → S → W → Prop := fun _ _ _ => True

variable {L} {i : ℕ} {σ : S} {w : W}

theorem wp_mono {α : Type} {p : Prog Stmt ε α} {Q Q' : Except ε α → S → W → Prop}
    (h : L.wp i p Q σ w) (hQ : ∀ r σ w, Q r σ w → Q' r σ w) : L.wp i p Q' σ w := by
  induction p generalizing σ w with
  | pure a => exact hQ _ _ _ h
  | throw e => exact hQ _ _ _ h
  | call s k ih =>
    intro w₁ hr hi
    obtain ⟨hp, hs⟩ := h w₁ hr hi
    exact ⟨hp, fun env r w₂ σ' he => ⟨(hs env r w₂ σ' he).1, ih r (hs env r w₂ σ' he).2⟩⟩

/-- **The rule of sequencing**: the second program is verified from what the first leaves. -/
theorem wp_bind {α β : Type} {p : Prog Stmt ε α} {f : α → Prog Stmt ε β}
    {Q : Except ε β → S → W → Prop} :
    L.wp i (p.bind f) Q σ w ↔ L.wp i p (fun r σ w => match r with
      | .ok a => L.wp i (f a) Q σ w
      | .error e => Q (.error e) σ w) σ w := by
  induction p generalizing σ w with
  | pure a => exact Iff.rfl
  | throw e => exact Iff.rfl
  | call s k ih =>
    simp only [Prog.bind, wp, ih]

/-- A verified program stays verified while the others run. -/
theorem wp_rely {α : Type} {p : Prog Stmt ε α} {w' : W} (h : L.wp i p anyResult σ w)
    (hr : L.Rely i w w') : L.wp i p anyResult σ w' := by
  cases p with
  | pure a => trivial
  | throw e => trivial
  | call s k => exact fun w₁ hr₁ hi => h w₁ (L.rely_trans hr hr₁) hi

/-- **The rule of a statement** whose exception propagates. -/
theorem wp_send {s : Stmt β} {Q : Except ε β → S → W → Prop}
    (h : ∀ w₁, L.Rely i w w₁ → L.Inv w₁ → L.Pre i w₁ s ∧
      ∀ env r w₂ σ', Y.exec i env w₁ σ s = some (r, w₂, σ') → L.Guar i w₁ w₂ ∧ Q r σ' w₂) :
    L.wp i (Prog.send s) Q σ w := by
  intro w₁ hr hi
  obtain ⟨hp, hs⟩ := h w₁ hr hi
  refine ⟨hp, fun env r w₂ σ' he => ?_⟩
  obtain ⟨hg, hq⟩ := hs env r w₂ σ' he
  cases r with
  | ok b => exact ⟨hg, hq⟩
  | error e => exact ⟨hg, hq⟩

/-- The weakest precondition for a postcondition on normal results only. -/
def wpOk (L : RelyGuarantee Y) {α : Type} (i : ℕ) (p : Prog Stmt ε α) (Q : α → S → W → Prop)
    (σ : S) (w : W) : Prop :=
  L.wp i p (fun r σ w => ∀ a, r = .ok a → Q a σ w) σ w

theorem wpOk_pure {α : Type} {a : α} {Q : α → S → W → Prop} (h : Q a σ w) :
    L.wpOk i (.pure a) Q σ w := by
  rintro _ ⟨⟩
  exact h

theorem wpOk_throw {α : Type} {e : ε} {Q : α → S → W → Prop} : L.wpOk i (.throw e) Q σ w :=
  fun _ h => nomatch h

theorem wpOk_bind {α β : Type} {p : Prog Stmt ε α} {f : α → Prog Stmt ε β}
    {Q : β → S → W → Prop} (h : L.wpOk i p (fun a σ w => L.wpOk i (f a) Q σ w) σ w) :
    L.wpOk i (p.bind f) Q σ w := by
  refine wp_bind.2 (wp_mono h fun r σ w hr => ?_)
  cases r with
  | ok a => exact hr a rfl
  | error e => exact fun _ h => nomatch h

theorem wpOk_send {s : Stmt β} {Q : β → S → W → Prop}
    (h : ∀ w₁, L.Rely i w w₁ → L.Inv w₁ → L.Pre i w₁ s ∧
      ∀ env r w₂ σ', Y.exec i env w₁ σ s = some (r, w₂, σ') →
        L.Guar i w₁ w₂ ∧ ∀ b, r = .ok b → Q b σ' w₂) :
    L.wpOk i (Prog.send s) Q σ w :=
  wp_send h

/-- The rule of a statement whose exception is caught. -/
theorem wpOk_attempt {s : Stmt β} {Q : Except ε β → S → W → Prop}
    (h : ∀ w₁, L.Rely i w w₁ → L.Inv w₁ → L.Pre i w₁ s ∧
      ∀ env r w₂ σ', Y.exec i env w₁ σ s = some (r, w₂, σ') → L.Guar i w₁ w₂ ∧ Q r σ' w₂) :
    L.wpOk i (Prog.attempt s) Q σ w := by
  intro w₁ hr hi
  obtain ⟨hp, hs⟩ := h w₁ hr hi
  refine ⟨hp, fun env r w₂ σ' he => ⟨(hs env r w₂ σ' he).1, ?_⟩⟩
  rintro _ ⟨⟩
  exact (hs env r w₂ σ' he).2

theorem wpOk_mono {α : Type} {p : Prog Stmt ε α} {Q Q' : α → S → W → Prop}
    (h : L.wpOk i p Q σ w) (hQ : ∀ a σ w, Q a σ w → Q' a σ w) : L.wpOk i p Q' σ w :=
  wp_mono h fun _ _ _ hr a ha => hQ a _ _ (hr a ha)

theorem wpOk.anyResult {α : Type} {p : Prog Stmt ε α} {Q : α → S → W → Prop}
    (h : L.wpOk i p Q σ w) : L.wp i p anyResult σ w :=
  wp_mono h fun _ _ _ _ => trivial

/-! ## Soundness -/

variable (L)

/-- Every call is verified, from any world in which its thread number is idle. -/
def Verified : Prop := ∀ c i w, L.Inv w → L.Idle i w → L.wp i (Y.body c) anyResult Y.fresh w

/-- The proofs of all threads hold in a configuration. -/
structure Valid (s : Config Stmt ε α W S) : Prop where
  inv : L.Inv s.world
  safe : ∀ i t, s.threads i = some t → L.wp i t.prog anyResult t.session s.world
  idle : ∀ i, s.threads i = none → L.Idle i s.world

variable {L}

/-- A configuration without threads is valid if its world is. -/
theorem Valid.of_idle {w : W} (hinv : L.Inv w) (hidle : ∀ i, L.Idle i w) :
    L.Valid ⟨w, fun _ => none⟩ where
  inv := hinv
  safe _ _ h := nomatch h
  idle i _ := hidle i

/-- A step of thread `i` within its guarantee, which leaves it with the thread `t`. -/
theorem Valid.update {s : Config Stmt ε α W S} (h : L.Valid s) {w' : W}
    {t : Option (Thread Stmt ε α S)} (hg : L.Guar i s.world w')
    (hsafe : ∀ t', t = some t' → L.wp i t'.prog anyResult t'.session w')
    (hidle : t = none → L.Idle i w') : L.Valid ⟨w', Function.update s.threads i t⟩ where
  inv := L.inv_guar h.inv hg
  safe j t' ht := by
    by_cases hj : j = i
    · subst hj
      exact hsafe t' (by simpa using ht)
    · change Function.update s.threads i t j = some t' at ht
      rw [Function.update_of_ne hj] at ht
      exact wp_rely (h.safe j t' ht) (L.rely_guar hj h.inv hg)
  idle j ht := by
    by_cases hj : j = i
    · subst hj
      exact hidle (by simpa using ht)
    · change Function.update s.threads i t j = none at ht
      rw [Function.update_of_ne hj] at ht
      exact L.idle_rely (h.idle j ht) (L.rely_guar hj h.inv hg)

/-- The end of a thread, by return, exception or crash. -/
theorem Valid.finish {s : Config Stmt ε α W S} (h : L.Valid s) (i : ℕ) :
    L.Valid (Y.finish s i) :=
  h.update (L.close_guar h.inv) (fun _ ht => nomatch ht) fun _ => L.idle_close i _

/-- The start of a call. -/
theorem Valid.spawn (hv : L.Verified) {s : Config Stmt ε α W S} (h : L.Valid s)
    (hi : s.threads i = none) (c : C) :
    L.Valid ⟨s.world, Function.update s.threads i (some ⟨Y.body c, Y.fresh⟩)⟩ where
  inv := h.inv
  safe j t ht := by
    by_cases hj : j = i
    · subst hj
      obtain rfl : _ = t := by simpa using ht
      exact hv c j _ h.inv (h.idle j hi)
    · exact h.safe j t (by simpa [Function.update_of_ne hj] using ht)
  idle j ht := by
    by_cases hj : j = i
    · subst hj
      simp at ht
    · exact h.idle j (by simpa [Function.update_of_ne hj] using ht)

/-- **Soundness, one step**: every event keeps the proofs of all threads, and changes the world
only within the guarantee of the thread that moves. -/
theorem Valid.step (hv : L.Verified) {s s' : Config Stmt ε α W S} (h : L.Valid s) (e : Event C E)
    (he : Y.step s e = some s') :
    L.Valid s' ∧ (s'.world = s.world ∨ L.Guar e.thread s.world s'.world) := by
  obtain ⟨c, -, hi, rfl⟩ | ⟨β, st, k, σ, σ', env, r, w', -, ht, hx, rfl⟩ | rfl :=
    System.step_cases he
  · exact ⟨h.spawn hv hi c, Or.inl rfl⟩
  · have hsafe : L.wp e.thread (.call st k) anyResult σ s.world := h.safe e.thread _ ht
    obtain ⟨-, hs⟩ := hsafe s.world (L.rely_refl _ _) h.inv
    obtain ⟨hg, hw⟩ := hs env r w' σ' hx
    refine ⟨h.update hg (fun t' ht' => ?_) (fun hn => nomatch hn), Or.inr hg⟩
    obtain rfl := Option.some.inj ht'
    exact hw
  · exact ⟨h.finish e.thread, Or.inr (L.close_guar h.inv)⟩

/-- **Soundness, whole runs.** -/
theorem Valid.reach (hv : L.Verified) {ok : ℕ → W → W → Prop} {s s' : Config Stmt ε α W S}
    (h : L.Valid s) (hr : Y.Reach ok s s') : L.Valid s' := by
  induction hr with
  | start => exact h
  | step _ e he _ ih => exact (ih.step hv e he).1

/-- **Induction along a run**: what every guaranteed step keeps holds of every world reached. -/
theorem Valid.induction (hv : L.Verified) {ok : ℕ → W → W → Prop} {s s' : Config Stmt ε α W S}
    (h : L.Valid s) (hr : Y.Reach ok s s') {P : W → Prop} (h₀ : P s.world)
    (hstep : ∀ i w w', L.Inv w → ok i w w' → L.Guar i w w' → P w → P w') : P s'.world := by
  induction hr with
  | start => exact h₀
  | step hr e he hok ih =>
    have hval := h.reach hv hr
    rcases (hval.step hv e he).2 with heq | hg
    · rwa [heq]
    · exact hstep _ _ _ hval.inv hok hg ih

/-- What has to hold before a statement holds whenever a thread is about to send it. -/
theorem Valid.pre {s : Config Stmt ε α W S} (h : L.Valid s) {st : Stmt β}
    {k : Except ε β → Prog Stmt ε α} (ht : s.threads i = some ⟨.call st k, σ⟩) :
    L.Pre i s.world st := by
  have hs : L.wp i (.call st k) anyResult σ s.world := h.safe i _ ht
  exact (hs s.world (L.rely_refl i _) h.inv).1

end RelyGuarantee

end PaySystem
