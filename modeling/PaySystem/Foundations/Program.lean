import Mathlib.Logic.Function.Iterate

/-!
# Programs over a signature of statements

A service is a program: a tree whose nodes are the statements it sends to the systems around it
(a database, a remote API, a queue) and whose branches are the answers it may get. A statement is
answered by a value or by an exception; an exception that the program does not look at ends it.

The same program is run in two ways: alone, by `Prog.eval`, and as one of the interleaved threads
of a system (`RelyGuarantee.lean`). `Machine` gives the statements their meaning.
-/

namespace PaySystem

/-- Programs over the statements `Stmt` with exceptions `ε` and results `α`. -/
inductive Prog (Stmt : Type → Type) (ε α : Type) : Type 1
  | pure (a : α)
  | throw (e : ε)
  /-- Send the statement `s` and go on with its answer. -/
  | call {β : Type} (s : Stmt β) (k : Except ε β → Prog Stmt ε α)

namespace Prog

variable {Stmt : Type → Type} {ε α β : Type}

/-- Sequencing; an exception skips the continuation. -/
def bind : Prog Stmt ε α → (α → Prog Stmt ε β) → Prog Stmt ε β
  | .pure a, f => f a
  | .throw e, _ => .throw e
  | .call s k, f => .call s fun r => (k r).bind f

instance : Monad (Prog Stmt ε) where
  pure := .pure
  bind := .bind

/-- Send a statement; its exception propagates. -/
def send (s : Stmt β) : Prog Stmt ε β :=
  .call s fun
    | .ok b => .pure b
    | .error e => .throw e

/-- Send a statement and catch its exception. -/
def attempt (s : Stmt β) : Prog Stmt ε (Except ε β) := .call s .pure

end Prog

/-- The meaning of the statements: thread `i` sends one in a world `w`, from its own session `σ`,
while the environment answers as `env` says. `none` means that the statement has to wait. `close`
is what the end of a program, by return, exception or crash, does to the world. -/
structure Machine (Stmt : Type → Type) (ε W S E : Type) where
  exec {β : Type} (i : ℕ) (env : E) (w : W) (σ : S) (s : Stmt β) : Option (Except ε β × W × S)
  close (i : ℕ) (w : W) : W

/-! ## Running a program alone -/

/-- How a program run alone ended: its result, the world and session it left, and the part of the
environment's answers it did not use. -/
structure Ending (ε α W S E : Type) where
  result : Except ε α
  world : W
  session : S
  rest : ℕ → E

namespace Prog

variable {Stmt : Type → Type} {ε α β W S E : Type} (M : Machine Stmt ε W S E)

/-- Run a program alone as thread `i`; its `n`-th statement is answered by `env n`. `none` if a
statement has to wait, which nobody would end. -/
def eval (i : ℕ) (env : ℕ → E) (w : W) (σ : S) : Prog Stmt ε α → Option (Ending ε α W S E)
  | .pure a => some ⟨.ok a, w, σ, env⟩
  | .throw e => some ⟨.error e, w, σ, env⟩
  | .call s k => match M.exec i (env 0) w σ s with
    | none => none
    | some (r, w', σ') => (k r).eval i (fun n => env (n + 1)) w' σ'

/-- The answer of a statement decides how the program goes on. -/
theorem eval_call_of_exec {i : ℕ} {env : ℕ → E} {w w' : W} {σ σ' : S} {s : Stmt β}
    {k : Except ε β → Prog Stmt ε α} {r : Except ε β}
    (h : M.exec i (env 0) w σ s = some (r, w', σ')) :
    (Prog.call s k).eval M i env w σ = (k r).eval M i (fun n => env (n + 1)) w' σ' := by
  simp only [eval, h]

/-- A program that ended has sent its first statement, and then gone on to the end. -/
theorem exec_of_eval_call {i : ℕ} {env : ℕ → E} {w : W} {σ : S} {s : Stmt β}
    {k : Except ε β → Prog Stmt ε α} {x : Ending ε α W S E}
    (h : (Prog.call s k).eval M i env w σ = some x) :
    ∃ r w' σ', M.exec i (env 0) w σ s = some (r, w', σ') ∧
      (k r).eval M i (fun n => env (n + 1)) w' σ' = some x := by
  cases hexec : M.exec i (env 0) w σ s with
  | none => simp [eval, hexec] at h
  | some y =>
    obtain ⟨r, w', σ'⟩ := y
    rw [eval_call_of_exec M hexec] at h
    exact ⟨r, w', σ', rfl, h⟩

/-! ## What a program leaves alone -/

/-- The statements that the program may send are all of the kind `P`. -/
def Sends (P : ∀ β : Type, Stmt β → Prop) : Prog Stmt ε α → Prop
  | .pure _ => True
  | .throw _ => True
  | .call s k => P _ s ∧ ∀ r, (k r).Sends P

theorem sends_send {P : ∀ β : Type, Stmt β → Prop} {s : Stmt β} (h : P β s) :
    (send s : Prog Stmt ε β).Sends P := by
  refine ⟨h, fun r => ?_⟩
  cases r <;> trivial

theorem Sends.bind {P : ∀ β : Type, Stmt β → Prop} {p : Prog Stmt ε α} {f : α → Prog Stmt ε β}
    (hp : p.Sends P) (hf : ∀ a, (f a).Sends P) : (p.bind f).Sends P := by
  induction p with
  | pure a => exact hf a
  | throw e => trivial
  | call s k ih => exact ⟨hp.1, fun r => ih r (hp.2 r)⟩

/-- **Frame rule**: what no statement of the kind `P` changes is not changed by a program that only
sends such statements. -/
theorem Sends.eval_eq {γ : Type*} {P : ∀ β : Type, Stmt β → Prop} {f : W → γ} {i : ℕ}
    (hexec : ∀ {β : Type} {s : Stmt β} {env w σ r w' σ'}, P β s →
      M.exec i env w σ s = some (r, w', σ') → f w' = f w)
    {p : Prog Stmt ε α} (hp : p.Sends P) {env : ℕ → E} {w : W} {σ : S} {x : Ending ε α W S E}
    (h : p.eval M i env w σ = some x) : f x.world = f w := by
  induction p generalizing env w σ with
  | pure a =>
    obtain rfl := Option.some.inj h
    rfl
  | throw e =>
    obtain rfl := Option.some.inj h
    rfl
  | call s k ih =>
    obtain ⟨r, w', σ', hs, hk⟩ := exec_of_eval_call M h
    rw [ih r (hp.2 r) hk, hexec hp.1 hs]

end Prog

/-! ## Reasoning about a program run alone -/

namespace Machine

variable {Stmt : Type → Type} {ε α β W S E : Type} (M : Machine Stmt ε W S E)

/-- The weakest precondition of a program of thread `i` run alone, whose `n`-th statement is
answered by `env n`: no statement has to wait, and `Q` holds of the end and of the answers that are
left. -/
def alone {α : Type} (i : ℕ) : Prog Stmt ε α → (ℕ → E) →
    (Except ε α → S → W → (ℕ → E) → Prop) → S → W → Prop
  | .pure a, env, Q, σ, w => Q (.ok a) σ w env
  | .throw e, env, Q, σ, w => Q (.error e) σ w env
  | .call s k, env, Q, σ, w => ∃ r w' σ', M.exec i (env 0) w σ s = some (r, w', σ') ∧
      alone i (k r) (fun n => env (n + 1)) Q σ' w'

variable {M} {i : ℕ} {env : ℕ → E} {σ : S} {w : W}

/-- **Soundness**: the program ends, and its ending satisfies the postcondition. -/
theorem eval_of_alone {p : Prog Stmt ε α} {Q : Except ε α → S → W → (ℕ → E) → Prop}
    (h : M.alone i p env Q σ w) :
    ∃ x, p.eval M i env w σ = some x ∧ Q x.result x.session x.world x.rest := by
  induction p generalizing env σ w with
  | pure a => exact ⟨_, rfl, h⟩
  | throw e => exact ⟨_, rfl, h⟩
  | call s k ih =>
    obtain ⟨r, w', σ', hexec, hk⟩ := h
    rw [Prog.eval_call_of_exec M hexec]
    exact ih r hk

theorem alone_mono {p : Prog Stmt ε α} {Q Q' : Except ε α → S → W → (ℕ → E) → Prop}
    (h : M.alone i p env Q σ w) (hQ : ∀ r σ w env, Q r σ w env → Q' r σ w env) :
    M.alone i p env Q' σ w := by
  induction p generalizing env σ w with
  | pure a => exact hQ _ _ _ _ h
  | throw e => exact hQ _ _ _ _ h
  | call s k ih =>
    obtain ⟨r, w', σ', hexec, hk⟩ := h
    exact ⟨r, w', σ', hexec, ih r hk⟩

theorem alone_bind {p : Prog Stmt ε α} {f : α → Prog Stmt ε β}
    {Q : Except ε β → S → W → (ℕ → E) → Prop}
    (h : M.alone i p env (fun r σ w env => match r with
      | .ok a => M.alone i (f a) env Q σ w
      | .error e => Q (.error e) σ w env) σ w) : M.alone i (p.bind f) env Q σ w := by
  induction p generalizing env σ w with
  | pure a => exact h
  | throw e => exact h
  | call s k ih =>
    obtain ⟨r, w', σ', hexec, hk⟩ := h
    exact ⟨r, w', σ', hexec, ih r hk⟩

theorem alone_send {s : Stmt β} {Q : Except ε β → S → W → (ℕ → E) → Prop} {r : Except ε β}
    {w' : W} {σ' : S} (hexec : M.exec i (env 0) w σ s = some (r, w', σ'))
    (hQ : Q r σ' w' fun n => env (n + 1)) : M.alone i (Prog.send s) env Q σ w := by
  refine ⟨r, w', σ', hexec, ?_⟩
  cases r with
  | ok b => exact hQ
  | error e => exact hQ

/-- The rule of a statement whose exception is caught. -/
theorem alone_attempt {s : Stmt β} {Q : Except ε (Except ε β) → S → W → (ℕ → E) → Prop}
    {r : Except ε β} {w' : W} {σ' : S} (hexec : M.exec i (env 0) w σ s = some (r, w', σ'))
    (hQ : Q (.ok r) σ' w' fun n => env (n + 1)) : M.alone i (Prog.attempt s) env Q σ w :=
  ⟨r, w', σ', hexec, hQ⟩

end Machine

end PaySystem
