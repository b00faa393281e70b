import PaySystem.Foundations.RelyGuarantee

/-!
# Serial runs

A run in which each call ends before the next begins. The session that a call runs in may be any
that is `fine` in the world that the call finds; with fresh sessions, serial runs are among the
interleaved runs of the system (`Serial.reach`).
-/

namespace PaySystem

namespace System

variable {Stmt : Type → Type} {ε α W S E C : Type} (Y : System Stmt ε α W S E C)

/-- The world `w` is left when the calls of a serial run from `w₀` have ended. -/
inductive Serial (fine : S → W → Prop) (w₀ : W) : W → Prop
  | start : Serial fine w₀ w₀
  | call {w : W} (h : Serial fine w₀ w) (i : ℕ) (c : C) {σ : S} (hσ : fine σ w) {env : ℕ → E}
      {x : Ending ε α W S E} (hx : (Y.body c).eval Y.toMachine i env w σ = some x) :
      Serial fine w₀ (Y.close i x.world)

/-- Calls that run one after the other, each as a thread of its own in a fresh session. -/
def runCalls (w : W) : List (ℕ × C × (ℕ → E)) → Option W
  | [] => some w
  | (i, c, env) :: calls => ((Y.body c).eval Y.toMachine i env w Y.fresh).bind fun x =>
    runCalls (Y.close i x.world) calls

variable {Y} {fine : S → W → Prop} {w₀ w : W}

/-- **The rule of invariants**: what every call re-establishes, when it runs alone, holds after
every call of a serial run. -/
theorem Serial.invariant {I : W → Prop} (h : Y.Serial fine w₀ w) (h₀ : I w₀)
    (hcall : ∀ i c env σ w, fine σ w → I w → Y.toMachine.alone i (Y.body c) env
      (fun _ _ w' _ => I (Y.close i w')) σ w) : I w := by
  induction h with
  | start => exact h₀
  | call _ i c hσ hx ih =>
    obtain ⟨y, hy, hI⟩ := Machine.eval_of_alone (hcall i c _ _ _ hσ ih)
    rw [hx, Option.some.injEq] at hy
    rwa [hy]

theorem Serial.trans {w₁ w₂ : W} (h₁ : Y.Serial fine w₀ w₁) (h₂ : Y.Serial fine w₁ w₂) :
    Y.Serial fine w₀ w₂ := by
  induction h₂ with
  | start => exact h₁
  | call _ i c hσ hx ih => exact .call ih i c hσ hx

/-- An executed list of calls is a serial run. -/
theorem exists_serial_of_runCalls (calls : List (ℕ × C × (ℕ → E)))
    (hfine : ∀ w, fine Y.fresh w) (P : W → Bool) (h : (Y.runCalls w₀ calls).any P = true) :
    ∃ w, Y.Serial fine w₀ w ∧ P w = true := by
  induction calls generalizing w₀ with
  | nil => exact ⟨w₀, .start, h⟩
  | cons call calls ih =>
    obtain ⟨i, c, env⟩ := call
    cases hx : (Y.body c).eval Y.toMachine i env w₀ Y.fresh with
    | none => simp [runCalls, hx] at h
    | some x =>
      rw [runCalls, hx, Option.bind_some] at h
      obtain ⟨w, hw, hP⟩ := ih h
      exact ⟨w, (Serial.start.call i c (hfine w₀) hx).trans hw, hP⟩

/-- **Serial runs are interleaved runs.** -/
theorem Serial.reach (h : Y.Serial (fun σ _ => σ = Y.fresh) w₀ w) :
    Y.Reach anyStep ⟨w₀, fun _ => none⟩ ⟨w, fun _ => none⟩ := by
  induction h with
  | start => exact .start
  | call _ i c hσ hx ih =>
    subst hσ
    exact ih.trans (reach_of_call (s := ⟨_, fun _ => none⟩) c rfl hx)

end System

end PaySystem
