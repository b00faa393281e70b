import PaySystem.Foundations.WaitFor
import PaySystem.Interleaving.Programs

/-!
# No circular wait

Deposits and returns lock the order first and then the new payment; a check locks the payment first
and the order last. Still no transactions wait for each other in a cycle: whoever waits for a
payment holds nothing, whoever waits for an order holds at most payments, and nobody waits for a
user or for a row that was just inserted.
-/

namespace PaySystem

/-- In a reached configuration thread `i` waits for thread `j`: its next statement requests a lock
that conflicts with one that `j` holds. -/
inductive WaitsForLock (s : Config Stmt Err Outcome World Session) (i j : ℕ) : Prop
  | intro {β : Type} (st : Stmt β) (k : Except Err β → Tx Outcome) (σ : Session)
      (thread : s.threads i = some ⟨.call st k, σ⟩) (rq : Row × LockMode)
      (request : rq ∈ requests s.world st) (mode : LockMode) (other : j ≠ i)
      (held : s.world.Holds j rq.1 mode) (conflict : mode.conflicts rq.2 = true)

variable {types : Set String} {py : Pydantic} {s : Config Stmt Err Outcome World Session}

/-- Thread `i` is blocked on a row. -/
def BlockedOn (s : Config Stmt Err Outcome World Session) (i : ℕ) (row : Row) : Prop :=
  ∃ (β : Type) (st : Stmt β) (k : Except Err β → Tx Outcome) (σ : Session) (mode : LockMode),
    s.threads i = some ⟨.call st k, σ⟩ ∧ (row, mode) ∈ requests s.world st ∧
      s.world.blocked i (row, mode) = true

/-- Thread `i` holds a lock on a row. -/
def HoldsRow (s : Config Stmt Err Outcome World Session) (i : ℕ) (row : Row) : Prop :=
  ∃ mode, s.world.Holds i row mode

theorem blocked_eq_true {w : World} {i j : ℕ} {rq : Row × LockMode} {mode : LockMode} (hj : j ≠ i)
    (hheld : w.Holds j rq.1 mode) (hc : mode.conflicts rq.2 = true) : w.blocked i rq = true := by
  by_contra hb
  rw [blocked_eq_false_iff.1 (Bool.eq_false_of_not_eq_true hb) j mode hj hheld] at hc
  cases hc

theorem WaitsForLock.waitsFor {i j : ℕ} (h : WaitsForLock s i j) :
    WaitsFor (BlockedOn s) (HoldsRow s) i j := by
  obtain ⟨st, k, σ, hthread, rq, hrq, mode, hj, hheld, hc⟩ := h
  exact ⟨rq.1, ⟨_, st, k, σ, rq.2, hthread, hrq, blocked_eq_true hj hheld hc⟩, mode, hheld⟩

theorem blocked_of_sql_eq_none {i : ℕ} {env : Env} {w : World} {σ : Session} {β : Type}
    {rqs : List (Row × LockMode)} {act : World → Except Err β × World}
    (h : sql i env w σ rqs act = none) : ∃ rq ∈ rqs, w.blocked i rq = true := by
  unfold sql at h
  cases hf : env.failure with
  | some msg => simp [hf] at h
  | none =>
    rw [hf] at h
    simp only at h
    split_ifs at h with hany
    exact List.any_eq_true.1 hany

/-- A statement only has to wait for locks. -/
theorem blocked_of_execStmt_eq_none {i : ℕ} {env : Env} {w : World} {σ : Session} {β : Type}
    {st : Stmt β} (h : execStmt i env w σ st = none) :
    ∃ rq ∈ requests w st, w.blocked i rq = true := by
  cases st <;> simp only [execStmt] at h
  case startPayment => cases hs : env.start <;> simp [hs] at h
  case applyAsync => cases hf : env.failure <;> simp [hf] at h
  all_goals first | exact blocked_of_sql_eq_none h | cases h

/-- **Whoever cannot go on waits for somebody**: the wait-for relation misses no reason to wait. -/
theorem exists_waitsForLock {i : ℕ} {env : Env} {t : Thread Stmt Err Outcome Session}
    (ht : s.threads i = some t) (h : (paySystem types py).step s (.run i env) = none) :
    ∃ j, WaitsForLock s i j := by
  obtain ⟨p, σ⟩ := t
  cases p with
  | pure a => simp [System.step, ht] at h
  | throw e => simp [System.step, ht] at h
  | call st k =>
    have hexec : execStmt i env s.world σ st = none := by
      cases hx : execStmt i env s.world σ st with
      | none => rfl
      | some x =>
        have hx' : (paySystem types py).exec i env s.world σ st = some x := hx
        simp [System.step, ht, hx'] at h
    obtain ⟨rq, hrq, hb⟩ := blocked_of_execStmt_eq_none hexec
    obtain ⟨l, hl, hblock⟩ := List.any_eq_true.1 hb
    rw [Bool.and_eq_true, decide_eq_true_eq] at hblock
    obtain ⟨⟨htx, hrow⟩, hc⟩ := hblock
    refine ⟨l.tx, st, k, σ, ht, rq, hrq, l.mode, htx, ?_, hc⟩
    rw [World.Holds, ← hrow]
    exact hl

/-- **No circular wait**: in every reachable configuration, of any calls over any orders and
payments, the wait-for relation on row locks is acyclic. -/
theorem no_circular_wait (types : Set String) (py : Pydantic) {w : World} (hw : w.AtRest)
    {s : Config Stmt Err Outcome World Session}
    (hs : (paySystem types py).Reach System.anyStep (atRest w) s) (i : ℕ) :
    ¬ Relation.TransGen (WaitsForLock s) i i := by
  have hvalid : (interference types (fun _ => False) py).Valid s :=
    (valid_atRest hw fun _ h => h.elim).reach (verified types _ py) hs
  have hrank : ∀ j row row', HoldsRow s j row → BlockedOn s j row' → row.rank < row'.rank := by
    rintro j row row' ⟨mode, hheld⟩ ⟨β, st, k, σ, mode', ht, hrq, hb⟩
    exact hvalid.pre ht _ hrq hb row mode hheld
  intro hcycle
  exact WaitsFor.acyclic hrank i
    (Relation.TransGen.mono (fun _ _ h => WaitsForLock.waitsFor h) i i hcycle)

/-- Two deposits into one order: the second waits for the first, and that is no cycle. -/
theorem no_circular_wait_sample : ∃ s,
    (paySystem endpointTypes .numbers).Reach System.anyStep (atRest sampleWorld) s ∧
    WaitsForLock s 1 0 ∧ ¬ Relation.TransGen (WaitsForLock s) 1 1 := by
  let call : Call endpointTypes := .deposit 7 sampleHalf ⟨_, rfl⟩
  let env := sampleEnv "a" PaymentStatus.Completed.value
  have hsome : ((paySystem endpointTypes .numbers).run System.anyStep (atRest sampleWorld)
      [.spawn 0 call, .run 0 env, .spawn 1 call]).isSome = true := by rfl
  obtain ⟨s, hrun⟩ := Option.isSome_iff_exists.1 hsome
  have hs := System.reach_of_run _ hrun
  obtain rfl := Option.some.inj hrun
  refine ⟨_, hs, ?_, no_circular_wait endpointTypes .numbers sampleWorld_atRest hs 1⟩
  refine .intro (.selectOrderForUpdate 1) _ .fresh rfl (.order 1, .update) ?_ .update (by decide) ?_
    rfl
  · exact List.mem_singleton.2 rfl
  · exact List.mem_singleton.2 rfl

end PaySystem
