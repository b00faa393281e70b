import Mathlib.Algebra.BigOperators.Group.List.Basic
import Mathlib.Algebra.Order.BigOperators.Group.List
import PaySystem.Application.Runs
import PaySystem.Interleaving.Effects
import PaySystem.Interleaving.Origins

/-!
# How often the bank is asked

A message causes at most `maxRetries + 1` runs of its task, and each run asks the bank at most once.
The runs that the messages and the tasks in flight may still cause are a credit: what is enqueued
adds to it, a run and a retry are paid from it.
-/

namespace PaySystem

namespace App

variable {Token : Type} {d : Deployment Token} {app app' : App Token} {e : AppEvent Token}
  {es : List (AppEvent Token)} {env : Env} {i : ℕ} {r : Except Err Outcome} {m : TaskMessage}
  {S : ℕ → Bool} {w w' : World}

/-! ## The queue -/

/-- What has been enqueued stays on record. -/
theorem queue_prefix_of_step {c c' : Config Stmt Err Outcome World Session}
    {e : Event (Call endpointTypes) Env} (h : (services d).step c e = some c') :
    c.world.queue <+: c'.world.queue := by
  obtain ⟨call, -, -, rfl⟩ | ⟨β, st, k, σ, σ', env, r, w', -, -, hexec, rfl⟩ | rfl :=
    System.step_cases h
  · exact List.prefix_refl _
  · change _ <+: w'.queue
    rw [(effect_of_exec hexec).queue]
    exact List.prefix_append _ _
  · exact List.prefix_refl _

theorem queue_prefix_of_run {c c' : Config Stmt Err Outcome World Session}
    {es : List (Event (Call endpointTypes) Env)}
    (h : (services d).run System.anyStep c es = some c') : c.world.queue <+: c'.world.queue := by
  induction es generalizing c with
  | nil =>
    obtain rfl := Option.some.inj h
    exact List.prefix_refl _
  | cons e es ih =>
    obtain ⟨c₁, he, -, hes⟩ := System.run_cons.1 h
    exact (queue_prefix_of_step he).trans (ih hes)

/-! ## Credit -/

/-- The runs that a message about one of the payments `S` may still cause, if it may be retried up
to `k` times. -/
def runsLeft (S : ℕ → Bool) (k : ℕ) (m : TaskMessage) : ℕ :=
  if S m.paymentId then k - m.retries else 0

/-- The runs that are still to be expected. A task in flight is one of the runs of its message. -/
def credit (S : ℕ → Bool) (app : App Token) : ℕ :=
  (app.messages.map (runsLeft S (maxRetries + 1))).sum +
    (app.tasks.map fun x => runsLeft S maxRetries x.2).sum

/-- The runs that what was enqueued may cause. -/
def earned (S : ℕ → Bool) (app : App Token) : ℕ :=
  (maxRetries + 1) * app.calls.world.queue.countP S

/-- A worker starts a check of one of the payments `S`. -/
def delivers (S : ℕ → Bool) : AppEvent Token → Bool
  | .deliver _ m => S m.paymentId
  | _ => false

/-- The broker will deliver a message about one of the payments `S` again. -/
def redelivers (S : ℕ → Bool) : AppEvent Token → Bool
  | .redeliver m => S m.paymentId
  | _ => false

theorem runsLeft_le (S : ℕ → Bool) (m : TaskMessage) (k : ℕ) :
    runsLeft S k m ≤ if S m.paymentId then k else 0 := by
  unfold runsLeft
  split_ifs
  · exact Nat.sub_le _ _
  · exact le_rfl

/-- A delivery is paid. -/
theorem runsLeft_succ (S : ℕ → Bool) (m : TaskMessage) : runsLeft S (maxRetries + 1) m =
    (if S m.paymentId then 1 else 0) + runsLeft S maxRetries m := by
  have hle := m.le_maxRetries
  unfold runsLeft
  split_ifs <;> omega

/-- So is a retry. -/
theorem runsLeft_retry {m' : TaskMessage} (h : d.celery.retry m = some m') :
    runsLeft S (maxRetries + 1) m' = runsLeft S maxRetries m := by
  have hretries := d.celery.retries_retry _ _ h
  unfold runsLeft
  rw [d.celery.paymentId_retry _ _ h, hretries, Nat.add_sub_add_right]

theorem sum_enqueued (S : ℕ → Bool) (w w' : World) :
    ((enqueued w w').map (runsLeft S (maxRetries + 1))).sum =
      (maxRetries + 1) * (w'.queue.drop w.queue.length).countP S := by
  unfold enqueued
  induction w'.queue.drop w.queue.length with
  | nil => rfl
  | cons id ids ih =>
    have hfirst : runsLeft S (maxRetries + 1) (TaskMessage.first id) =
        (maxRetries + 1) * if S id then 1 else 0 := by
      change (if S id then _ else _) = _
      split_ifs <;> rfl
    rw [List.map_cons, List.map_cons, List.sum_cons, ih, List.countP_cons, hfirst, Nat.mul_add,
      Nat.add_comm]

/-- The end of a task leaves the credit of before, with that of its retry. -/
theorem credit_endTask_le : ((app.endTask d env r m).messages.map
    (runsLeft S (maxRetries + 1))).sum ≤
      (app.messages.map (runsLeft S (maxRetries + 1))).sum + runsLeft S maxRetries m := by
  unfold endTask
  split
  · exact Nat.le_add_right _ _
  · split
    · exact Nat.le_add_right _ _
    · rename_i m' hretry
      split
      · exact Nat.le_add_right _ _
      · rw [List.map_append, List.sum_append, List.map_singleton, List.sum_singleton,
          runsLeft_retry hretry]

theorem sum_filter_le {α : Type} (f : α → ℕ) (p : α → Bool) (l : List α) :
    ((l.filter p).map f).sum ≤ (l.map f).sum :=
  (List.filter_sublist.map f).sum_le_sum fun _ _ => Nat.zero_le _

theorem credit_release_le : credit S (app.release i) ≤ credit S app :=
  Nat.add_le_add_left (sum_filter_le _ _ _) _

/-- A thread that has a task is rid of it. -/
theorem sum_release_le (h : app.tasks.lookup i = some m) :
    ((app.release i).tasks.map fun x => runsLeft S maxRetries x.2).sum + runsLeft S maxRetries m ≤
      (app.tasks.map fun x => runsLeft S maxRetries x.2).sum := by
  obtain ⟨l₁, l₂, hl, -⟩ := List.lookup_eq_some_iff.1 h
  have hsub : ∀ l : List _, ((l.filter fun x : ℕ × TaskMessage => decide (x.1 ≠ i)).map
      fun x => runsLeft S maxRetries x.2).sum ≤ (l.map fun x => runsLeft S maxRetries x.2).sum :=
    sum_filter_le _ _
  have h₁ := hsub l₁
  have h₂ := hsub l₂
  have hself : decide ((i, m).1 ≠ i) = false := decide_eq_false (not_not.2 rfl)
  simp only [release, hl, List.filter_append, List.map_append, List.sum_append, List.filter_cons,
    hself, Bool.false_eq_true, if_false, List.map_cons, List.sum_cons]
  omega

theorem credit_finish_le : credit S (app.finish d env i r) ≤ credit S app := by
  cases hm : app.tasks.lookup i with
  | none => rw [finish_of_lookup_none hm]
  | some m =>
    rw [finish_of_lookup hm]
    have hmessages : ((app.endTask d env r m).messages.map
        (runsLeft S (maxRetries + 1))).sum ≤ _ := credit_endTask_le
    have hlookup : (app.endTask d env r m).tasks.lookup i = some m := by rwa [tasks_endTask]
    have htasks := sum_release_le (S := S) hlookup
    rw [tasks_endTask] at htasks
    unfold credit
    change ((app.endTask d env r m).messages.map _).sum + _ ≤ _
    omega

/-! ## Steps -/

variable [DecidableEq Token]

/-- **Every run of a task is paid**, by what was enqueued or by the broker that delivers again. -/
theorem credit_of_step (S : ℕ → Bool) (h : step d app e = some app') :
    (if delivers S e then 1 else 0) + credit S app' + earned S app ≤
      credit S app + earned S app' + if redelivers S e then maxRetries + 1 else 0 := by
  obtain ⟨hpossible, calls, hcalls, rfl⟩ := step_eq_some_iff.1 h
  have hqueue : calls.world.queue.countP S = app.calls.world.queue.countP S +
      (calls.world.queue.drop app.calls.world.queue.length).countP S := by
    obtain ⟨new, hnew⟩ := queue_prefix_of_run hcalls
    rw [← hnew, List.drop_left, List.countP_append]
  set app₁ : App Token := { app with
    calls := calls
    messages := app.messages ++ enqueued app.calls.world calls.world } with happ₁
  -- Before the update, the credit has grown by what was enqueued.
  have hcredit : credit S app₁ + earned S app = credit S app + earned S app₁ := by
    simp only [credit, earned, happ₁, List.map_append, List.sum_append, sum_enqueued, hqueue,
      Nat.mul_add]
    omega
  have hearned : ∀ app₂ : App Token, app₂.calls = app₁.calls → earned S app₂ = earned S app₁ :=
    fun app₂ hcalls => by rw [earned, hcalls, earned]
  rw [hearned _ calls_update]
  suffices hupdate : (if delivers S e then 1 else 0) + credit S (app.update d app₁ e) ≤
      credit S app₁ + if redelivers S e then maxRetries + 1 else 0 by omega
  cases e with
  | deliver i m =>
    have hm : m ∈ app₁.messages := List.mem_append_left _ (of_decide_eq_true hpossible)
    have herase := List.sum_map_erase (runsLeft S (maxRetries + 1)) hm
    rw [runsLeft_succ] at herase
    have hcost : delivers S (.deliver i m : AppEvent Token) = S m.paymentId := rfl
    simp only [redelivers, credit, update, List.map_cons, List.sum_cons, Bool.false_eq_true,
      if_false]
    rw [hcost]
    omega
  | redeliver m =>
    have hincome : redelivers S (.redeliver m : AppEvent Token) = S m.paymentId := rfl
    simp only [delivers, credit, update, List.map_append, List.sum_append, List.map_singleton,
      List.sum_singleton, Bool.false_eq_true, if_false]
    rw [hincome]
    have hle := runsLeft_le S m (maxRetries + 1)
    omega
  | lose m =>
    have hm : m ∈ app₁.messages := List.mem_append_left _ (of_decide_eq_true hpossible)
    have herase := List.sum_map_erase (runsLeft S (maxRetries + 1)) hm
    simp only [delivers, redelivers, credit, update, Bool.false_eq_true, if_false] at herase ⊢
    omega
  | run i env =>
    simp only [delivers, redelivers, update, Bool.false_eq_true, if_false, Nat.zero_add,
      Nat.add_zero]
    cases System.ended app.calls (.run i env : Event (Call endpointTypes) Env) with
    | none => exact le_rfl
    | some r => exact credit_finish_le
  | abort i =>
    simp only [delivers, redelivers, update, Bool.false_eq_true, if_false, Nat.zero_add,
      Nat.add_zero]
    exact credit_release_le
  | _ => exact (Nat.zero_add _).le

/-! ## Runs -/

omit [DecidableEq Token] in
theorem sum_map_ite (p : AppEvent Token → Bool) (n : ℕ) (es : List (AppEvent Token)) :
    (es.map fun e => if p e then n else 0).sum = n * es.countP p := by
  induction es with
  | nil => rfl
  | cons e es ih =>
    rw [List.map_cons, List.sum_cons, ih, List.countP_cons]
    split_ifs
    · rw [Nat.mul_add, Nat.mul_one, Nat.add_comm]
    · rw [Nat.zero_add, Nat.add_zero]

/-- How often checks of the payments `S` are started. -/
theorem deliveries_le (S : ℕ → Bool) (hmessages : app.messages = []) (htasks : app.tasks = [])
    (h : (step d).run app es = some app') : es.countP (delivers S) + earned S app ≤
      earned S app' + (maxRetries + 1) * es.countP (redelivers S) := by
  have haccount := Automaton.account (fun s e s' he => credit_of_step S he) h
  have hzero : credit S app = 0 := by
    rw [credit, hmessages, htasks]
    rfl
  rw [sum_map_ite, sum_map_ite, hzero] at haccount
  omega

/-- The call is a check of one of the payments `S`. -/
def checks (S : ℕ → Bool) : Call endpointTypes → Bool
  | .check paymentId => S paymentId
  | _ => false

/-- Checks are started by deliveries only. -/
theorem countP_spawned (S : ℕ → Bool) (h : (step d).run app es = some app') :
    (System.spawned ((step d).trace (sends d) app es)).countP (checks S) =
      es.countP (delivers S) := by
  have hstep : ∀ (app : App Token) (e : AppEvent Token),
      (System.spawned (sends d app e)).countP (checks S) = if delivers S e then 1 else 0 := by
    intro app e
    cases e with
    | post i now r =>
      have hcall : ∀ c, r.call d.jwt d.settings app.auth now = some c → checks S c = false := by
        intro c hc
        simp only [PaymentRequest.call, Option.bind_eq_bind, Option.bind_eq_some_iff,
          Option.some.injEq] at hc
        obtain ⟨-, -, user, -, payload, -, rfl⟩ := hc
        cases r.endpoint <;> rfl
      cases hc : r.call d.jwt d.settings app.auth now with
      | none => simp [sends, hc, System.spawned, delivers]
      | some c => simp [sends, hc, System.spawned, delivers, hcall c hc]
    | deliver i m =>
      change ([.check m.paymentId] : List (Call endpointTypes)).countP (checks S) = _
      rw [List.countP_singleton]
      rfl
    | _ => simp [sends, System.spawned, delivers, checks]
  induction es generalizing app with
  | nil => rfl
  | cons e es ih =>
    obtain ⟨app₁, he, hes⟩ := Automaton.run_cons.1 h
    rw [Automaton.trace_cons he, System.spawned, List.filterMap_append, List.countP_append,
      List.countP_cons, Nat.add_comm]
    exact congrArg₂ _ (ih hes) (hstep app e)

end App

open App

variable [DecidableEq Token]

/-- The payment `paymentId` has the id `bankPaymentId` at the bank. -/
def Db.hasBankId (db : Db) (bankPaymentId : String) (paymentId : ℕ) : Bool :=
  db.payments.rows.any fun p => p.id = paymentId && p.bankPaymentId = some bankPaymentId

theorem countP_le_of_forall₂ {α β : Type} {R : α → β → Prop} {p : α → Bool} {q : β → Bool}
    {l : List α} {m : List β} (h : List.Forall₂ R l m)
    (hR : ∀ a b, R a b → q b = true → p a = true) :
    m.countP q ≤ l.countP p := by
  induction h with
  | nil => exact le_rfl
  | @cons a b l m hab _ ih =>
    rw [List.countP_cons, List.countP_cons]
    have hab := hR a b hab
    split_ifs with hq hp
    · exact Nat.succ_le_succ ih
    · exact absurd (hab hq) hp
    · exact Nat.le_succ_of_le ih
    · exact ih

/-- **The bank is not flooded**: in every run of the application, whatever is delivered twice, lost
or retried, the bank is asked about a payment at most eleven times for each time that a check of the
payment was enqueued or the broker delivered one again. -/
theorem questions_bounded (d : Deployment Token) (hw : w.AtRest)
    (hcalls : app.calls = PaySystem.atRest w) (hmessages : app.messages = [])
    (htasks : app.tasks = []) (h : (step d).run app es = some app') (bankPaymentId : String) :
    (app'.calls.world.answers.drop w.answers.length).countP (fun x => x.1 = bankPaymentId) ≤
      (maxRetries + 1) *
        ((app'.calls.world.queue.drop w.queue.length).countP
            (app'.calls.world.db.hasBankId bankPaymentId) +
          es.countP (redelivers (app'.calls.world.db.hasBankId bankPaymentId))) := by
  have hrun := services_of_run h
  have hqueue := queue_prefix_of_run hrun
  have hdeliveries := deliveries_le (app'.calls.world.db.hasBankId bankPaymentId) hmessages htasks h
  rw [hcalls] at hrun hqueue
  obtain ⟨g, hg⟩ := spoken_of_run d.py hw hrun
  obtain ⟨cs, hsub, hasks⟩ := hg.asks.exists_calls
  have hle : _ ≤ cs.countP (checks (app'.calls.world.db.hasBankId bankPaymentId)) :=
    countP_le_of_forall₂ (q := fun x => decide (x.1 = bankPaymentId)) hasks fun c x hcx hx => by
      obtain ⟨p, hp, rfl, hbank⟩ := hcx
      rw [of_decide_eq_true hx] at hbank
      exact List.any_eq_true.2 ⟨p, hp, by simp [hbank]⟩
  refine hle.trans ((hsub.countP_le _).trans ?_)
  rw [countP_spawned _ h]
  obtain ⟨new, hnew⟩ := hqueue
  have hdrop : app'.calls.world.queue.drop w.queue.length = new := by
    rw [← hnew]
    exact List.drop_left
  rw [hdrop, Nat.mul_add]
  simp only [earned, hcalls, ← hnew, List.countP_append, Nat.mul_add] at hdeliveries
  omega

/-- A deposit whose check is delivered twice, as the bank has not completed it at first: the bank is
asked two times. -/
theorem questions_bounded_sample : ∃ app',
    (step sampleDeployment).run sampleApp sampleRetryEvents = some app' ∧
    app'.calls.world.answers.length = 2 ∧
    (app'.calls.world.answers.drop sampleWorld.answers.length).countP (fun x => x.1 = "a") ≤
      (maxRetries + 1) *
        ((app'.calls.world.queue.drop sampleWorld.queue.length).countP
            (app'.calls.world.db.hasBankId "a") +
          sampleRetryEvents.countP (redelivers (app'.calls.world.db.hasBankId "a"))) := by
  have hany : ((step sampleDeployment).run sampleApp sampleRetryEvents).any (fun app' =>
      decide (app'.calls.world.answers.length = 2)) = true := by decide +kernel
  obtain ⟨app', hrun, hlen⟩ := (Option.any_eq_true _ _).1 hany
  exact ⟨app', hrun, of_decide_eq_true hlen, questions_bounded sampleDeployment sampleWorld_atRest
    rfl rfl rfl hrun "a"⟩

end PaySystem
