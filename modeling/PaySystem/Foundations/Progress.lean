import Mathlib.Algebra.BigOperators.Group.Finset.Basic
import Mathlib.Algebra.BigOperators.Group.Finset.Piecewise
import Mathlib.Logic.Hydra
import Mathlib.Order.WellFounded
import PaySystem.Foundations.RelyGuarantee
import PaySystem.Foundations.WaitFor

/-!
# Progress and termination

When no more calls are started, all threads of a system come to their end, however they are
scheduled, if no configuration is stuck. Every statement leaves less of a program, so that the
programs in flight, as a multiset, cannot be run forever; and threads that wait for each other are
not stuck if they do not wait in a cycle.
-/

namespace PaySystem

/-- In a finite set of threads that do not wait for each other in a cycle, one waits for nobody. -/
theorem exists_waits_for_nobody {ι : Type*} {R : ι → ι → Prop} {T : Set ι} (hfin : T.Finite)
    (hne : T.Nonempty) (hacyclic : ∀ i, ¬ Relation.TransGen R i i) : ∃ i ∈ T, ∀ j ∈ T, ¬ R i j := by
  have : IsTrans T fun i j : T => Relation.TransGen R j.1 i.1 := ⟨fun _ _ _ h h' => h'.trans h⟩
  have : Std.Irrefl fun i j : T => Relation.TransGen R j.1 i.1 := ⟨fun i => hacyclic i.1⟩
  have := hfin.to_subtype
  have hwf := Finite.wellFounded_of_trans_of_irrefl fun i j : T => Relation.TransGen R j.1 i.1
  have := hne.to_subtype
  obtain ⟨i, -, hi⟩ := hwf.has_min Set.univ Set.univ_nonempty
  exact ⟨i.1, i.2, fun j hj hij => hi ⟨j, hj⟩ trivial (.single hij)⟩

variable {Stmt : Type → Type} {ε α W S E C : Type}

/-- What is left of a program after the answer of a statement. -/
inductive Prog.Rest : Prog Stmt ε α → Prog Stmt ε α → Prop
  | intro {β : Type} (s : Stmt β) (k : Except ε β → Prog Stmt ε α) (r : Except ε β) :
    Rest (k r) (.call s k)

/-- Programs end. -/
theorem Prog.wellFounded_rest :
    WellFounded (Rest : Prog Stmt ε α → Prog Stmt ε α → Prop) := by
  refine ⟨fun p => ?_⟩
  induction p with
  | pure a => exact ⟨_, fun _ h => nomatch h⟩
  | throw e => exact ⟨_, fun _ h => nomatch h⟩
  | call s k ih =>
    refine ⟨_, fun p hp => ?_⟩
    cases hp with
    | intro s k r => exact ih r

namespace System

variable {Y : System Stmt ε α W S E C} {s s' : Config Stmt ε α W S} {e : Event C E} {n : ℕ}

/-- The program of a thread, if there is one. -/
def programs : Option (Thread Stmt ε α S) → Multiset (Prog Stmt ε α)
  | some t => {t.prog}
  | none => 0

/-- The programs in flight in the threads below `n`. -/
def inFlight (s : Config Stmt ε α W S) (n : ℕ) : Multiset (Prog Stmt ε α) :=
  ∑ i ∈ Finset.range n, programs (s.threads i)

theorem inFlight_update {i : ℕ} (hi : i < n) (w : W) (t : Option (Thread Stmt ε α S)) :
    inFlight (⟨w, Function.update s.threads i t⟩ : Config Stmt ε α W S) n + programs (s.threads i) =
      inFlight s n + programs t := by
  have hmem : i ∈ Finset.range n := Finset.mem_range.2 hi
  have hrest : ∑ j ∈ (Finset.range n).erase i, programs (Function.update s.threads i t j) =
      ∑ j ∈ (Finset.range n).erase i, programs (s.threads j) :=
    Finset.sum_congr rfl fun j hj => by rw [Function.update_of_ne (Finset.ne_of_mem_erase hj)]
  unfold inFlight
  rw [← Finset.add_sum_erase _ _ hmem, ← Finset.add_sum_erase _ _ hmem, hrest]
  change programs (Function.update s.threads i t i) + _ + _ = _
  rw [Function.update_self, add_comm, add_comm (programs t), ← add_assoc]

/-- An event that starts no call is one of a thread in flight. -/
theorem exists_thread_of_step (h : Y.step s e = some s') (he : ∀ i c, e ≠ .spawn i c) :
    ∃ t, s.threads e.thread = some t := by
  cases e with
  | spawn i c => exact absurd rfl (he i c)
  | run i env =>
    cases ht : s.threads i with
    | none => simp [step, ht] at h
    | some t => exact ⟨t, ht⟩
  | abort i =>
    cases ht : s.threads i with
    | none => simp [step, ht] at h
    | some t => exact ⟨t, ht⟩

/-- **An event that starts no call leaves less to be run.** -/
theorem cutExpand_of_step (h : Y.step s e = some s') (he : ∀ i c, e ≠ .spawn i c)
    (hn : e.thread < n) : Relation.CutExpand Prog.Rest (inFlight s' n) (inFlight s n) := by
  rcases step_cases h with ⟨c, hc, -⟩ | ⟨β, st, k, σ, σ', env, r, w', -, ht, -, rfl⟩ | rfl
  · exact absurd hc (he _ c)
  · refine ⟨{k r}, .call st k, fun p hp => ?_, ?_⟩
    · rw [Multiset.mem_singleton.1 hp]
      exact .intro st k r
    · have hupdate := inFlight_update (s := s) hn w' (some ⟨k r, σ'⟩)
      rwa [ht] at hupdate
  · obtain ⟨t, ht⟩ := exists_thread_of_step h he
    refine ⟨0, t.prog, fun p hp => absurd hp (Multiset.notMem_zero p), ?_⟩
    have hupdate := inFlight_update (s := s) hn (Y.close e.thread s.world) none
    rwa [ht] at hupdate

/-- From `s` a goal is reached in every schedule that starts no calls: one can always go on until
then, whatever the environment answers, and not forever. -/
inductive Inevitably (Y : System Stmt ε α W S E C) (goal : Config Stmt ε α W S → Prop) :
    Config Stmt ε α W S → Prop
  | done {s : Config Stmt ε α W S} (h : goal s) : Inevitably Y goal s
  | later {s : Config Stmt ε α W S} (i : ℕ) (move : ∀ env, ∃ s', Y.step s (.run i env) = some s')
    (every : ∀ e s', (∀ i c, e ≠ .spawn i c) → Y.step s e = some s' → Inevitably Y goal s') :
    Inevitably Y goal s

/-- No thread is in flight. -/
def Idle (s : Config Stmt ε α W S) : Prop := ∀ i, s.threads i = none

/-- **All threads come to their end**, if none of the configurations that may follow is stuck. -/
theorem inevitably_idle {I : Config Stmt ε α W S → Prop}
    (hstep : ∀ s e s', I s → Y.step s e = some s' → I s')
    (hprogress : ∀ s i t, I s → s.threads i = some t →
      ∃ j, ∀ env, ∃ s', Y.step s (.run j env) = some s')
    (hs : I s) (hn : ∀ i, n ≤ i → s.threads i = none) : Inevitably Y Idle s := by
  induction h : inFlight s n using Prog.wellFounded_rest.cutExpand.induction generalizing s with
  | h m ih =>
    subst h
    by_cases hidle : Idle s
    · exact .done hidle
    · obtain ⟨i, hi⟩ := not_forall.1 hidle
      obtain ⟨t, ht⟩ := Option.ne_none_iff_exists'.1 hi
      obtain ⟨j, hj⟩ := hprogress s i t hs ht
      refine .later j hj fun e s' he hs' => ih _ ?_ (hstep s e s' hs hs') (fun k hk => ?_) rfl
      · obtain ⟨t', ht'⟩ := exists_thread_of_step hs' he
        refine cutExpand_of_step hs' he (not_le.1 fun hle => ?_)
        cases (hn _ hle).symm.trans ht'
      · obtain ⟨t', ht'⟩ := exists_thread_of_step hs' he
        rw [threads_of_step hs' fun hke => ?_]
        · exact hn k hk
        · cases (hn k hk).symm.trans (hke ▸ ht')

/-- There are finitely many threads. -/
theorem Reach.exists_bound {ok : ℕ → W → W → Prop} {w : W}
    (h : Y.Reach ok ⟨w, fun _ => none⟩ s) : ∃ n, ∀ i, n ≤ i → s.threads i = none := by
  induction h with
  | start => exact ⟨0, fun _ _ => rfl⟩
  | step _ e he _ ih =>
    obtain ⟨n, hn⟩ := ih
    refine ⟨max n (e.thread + 1), fun i hi => ?_⟩
    rw [threads_of_step he (by omega)]
    exact hn i (by omega)

end System

end PaySystem
