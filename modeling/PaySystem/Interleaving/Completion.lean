import PaySystem.Foundations.Progress
import PaySystem.Interleaving.Deadlock

/-!
# Every call ends

Among the calls in flight there is always one that waits for no lock, and it can go on whatever the
database, the bank and the broker answer. No service sends statements forever. So once no more calls
are started, all calls end, in every schedule.
-/

namespace PaySystem

variable {types : Set String} {py : Pydantic} {s : Config Stmt Err Outcome World Session} {i : ℕ}
  {t : Thread Stmt Err Outcome Session}

/-- In the configurations of a run every thread is verified. -/
abbrev Verified (types : Set String) (py : Pydantic)
    (s : Config Stmt Err Outcome World Session) : Prop :=
  (interference types (fun _ => False) py).Valid s

/-- Only a thread in flight is waited for. -/
theorem exists_thread_of_holds {row : Row} (h : Verified types py s) (hold : HoldsRow s i row) :
    ∃ t, s.threads i = some t := by
  cases ht : s.threads i with
  | some t => exact ⟨t, rfl⟩
  | none =>
    obtain ⟨mode, hmode⟩ := hold
    exact absurd hmode ((h.idle i ht).locks row mode)

/-- Locks are waited for in the order of their ranks. -/
theorem waitsFor_acyclic (h : Verified types py s) (i : ℕ) :
    ¬ Relation.TransGen (WaitsFor (BlockedOn s) (HoldsRow s)) i i := by
  have hrank : ∀ j row row', HoldsRow s j row → BlockedOn s j row' → row.rank < row'.rank := by
    rintro j row row' ⟨mode, hheld⟩ ⟨β, st, k, σ, mode', ht, hrq, hb⟩
    exact h.pre ht _ hrq hb row mode hheld
  exact WaitsFor.acyclic hrank i

/-- A thread that waits for nobody in flight can go on, whatever the environment answers. -/
theorem exists_step_of_free (h : Verified types py s) (ht : s.threads i = some t)
    (hfree : ∀ j t', s.threads j = some t' → ¬ WaitsFor (BlockedOn s) (HoldsRow s) i j)
    (env : Env) : ∃ s', (paySystem types py).step s (.run i env) = some s' := by
  cases hstep : (paySystem types py).step s (.run i env) with
  | some s' => exact ⟨s', rfl⟩
  | none =>
    obtain ⟨j, hj⟩ := exists_waitsForLock ht hstep
    obtain ⟨row, hb, hold⟩ := hj.waitsFor
    obtain ⟨t', ht'⟩ := exists_thread_of_holds h hold
    exact absurd ⟨row, hb, hold⟩ (hfree j t' ht')

/-- If calls are in flight then one of them can go on. -/
theorem Verified.exists_free {n : ℕ} (h : Verified types py s)
    (hn : ∀ i, n ≤ i → s.threads i = none) (ht : s.threads i = some t) :
    ∃ j, ∀ env, ∃ s', (paySystem types py).step s (.run j env) = some s' := by
  have hfin : {j | ∃ t', s.threads j = some t'}.Finite := by
    refine (Set.finite_lt_nat n).subset fun j hj => (show j < n from not_le.1 fun hle => ?_)
    obtain ⟨t', ht'⟩ := hj
    cases (hn j hle).symm.trans ht'
  obtain ⟨j, ⟨t', ht'⟩, hfree⟩ :=
    exists_waits_for_nobody hfin ⟨i, t, ht⟩ (waitsFor_acyclic h)
  exact ⟨j, exists_step_of_free h ht' fun k t'' hk => hfree k ⟨t'', hk⟩⟩

theorem Verified.of_reach (types : Set String) (py : Pydantic) {w : World} (hw : w.AtRest)
    (hs : (paySystem types py).Reach System.anyStep (atRest w) s) : Verified types py s :=
  (valid_atRest hw fun _ h => h.elim).reach (verified types _ py) hs

/-- **Every call ends**: from any point of any run on, in every schedule that starts no more calls,
whatever the database, the bank and the broker answer and whichever calls die, some call can go on
until none is in flight any more, and that happens after finitely many steps. -/
theorem every_call_ends (types : Set String) (py : Pydantic) {w : World} (hw : w.AtRest)
    {s : Config Stmt Err Outcome World Session}
    (hs : (paySystem types py).Reach System.anyStep (atRest w) s) :
    System.Inevitably (paySystem types py) System.Idle s := by
  obtain ⟨n, hn⟩ := hs.exists_bound
  refine System.inevitably_idle
    (I := fun s => (paySystem types py).Reach System.anyStep (atRest w) s)
    (fun s e s' hs he => hs.step e he trivial) (fun s i t hs ht => ?_) hs hn
  obtain ⟨n, hn⟩ := hs.exists_bound
  exact (Verified.of_reach types py hw hs).exists_free hn ht

/-- Two deposits into one order, of which one waits for the other: both end. -/
theorem every_call_ends_sample : ∃ s,
    (paySystem endpointTypes .numbers).Reach System.anyStep (atRest sampleWorld) s ∧
    WaitsForLock s 1 0 ∧
    System.Inevitably (paySystem endpointTypes .numbers) System.Idle s := by
  let call : Call endpointTypes := .deposit 7 sampleHalf ⟨_, rfl⟩
  let env := sampleEnv "a" PaymentStatus.Completed.value
  have hsome : ((paySystem endpointTypes .numbers).run System.anyStep (atRest sampleWorld)
      [.spawn 0 call, .run 0 env, .spawn 1 call]).isSome = true := by rfl
  obtain ⟨s, hrun⟩ := Option.isSome_iff_exists.1 hsome
  have hs := System.reach_of_run _ hrun
  obtain rfl := Option.some.inj hrun
  refine ⟨_, hs, ?_, every_call_ends endpointTypes .numbers sampleWorld_atRest hs⟩
  refine .intro (.selectOrderForUpdate 1) _ .fresh rfl (.order 1, .update) ?_ .update (by decide) ?_
    rfl
  · exact List.mem_singleton.2 rfl
  · exact List.mem_singleton.2 rfl

end PaySystem
