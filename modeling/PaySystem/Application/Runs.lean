import PaySystem.Application.App
import PaySystem.Foundations.Protocol

/-!
# Runs of the application

A run of the application is a run of the services with the events that it sends them, and a run of
the token endpoints with the requests to them.
-/

namespace PaySystem

theorem PaymentRequest.call_eq_some_iff {Token : Type} [DecidableEq Token] {settings : Settings}
    {jwt : Jwt Token} {db : AuthDb Token}
    {now : DateTime} {r : PaymentRequest Token} {c : Call endpointTypes} :
    r.call jwt settings db now = some c ↔ ∃ token, r.bearer = some token ∧
      ∃ user, (getJwtStrategy settings).currentUser jwt db now token = some user ∧
      ∃ payload, PaymentCreate.validate r.orderId r.amount = some payload ∧
        r.endpoint.call user payload = c := by
  simp only [PaymentRequest.call, Option.bind_eq_bind, Option.bind_eq_some_iff, Option.some.injEq]

namespace App

variable {Token : Type} {d : Deployment Token} {app app' app₁ : App Token} {e : AppEvent Token}
  {es : List (AppEvent Token)} {env : Env} {i : ℕ} {r : Except Err Outcome} {m : TaskMessage}

/-! ## What an event leaves alone -/

@[simp] theorem calls_endTask : (app.endTask d env r m).calls = app.calls := by
  unfold endTask
  split
  · rfl
  · split
    · rfl
    · split <;> rfl

@[simp] theorem auth_endTask : (app.endTask d env r m).auth = app.auth := by
  unfold endTask
  split
  · rfl
  · split
    · rfl
    · split <;> rfl

@[simp] theorem tasks_endTask : (app.endTask d env r m).tasks = app.tasks := by
  unfold endTask
  split
  · rfl
  · split
    · rfl
    · split <;> rfl

theorem finish_of_lookup (h : app.tasks.lookup i = some m) :
    app.finish d env i r = (app.endTask d env r m).release i := by
  unfold finish
  rw [h]

theorem finish_of_lookup_none (h : app.tasks.lookup i = none) : app.finish d env i r = app := by
  unfold finish
  rw [h]

@[simp] theorem calls_finish : (app.finish d env i r).calls = app.calls := by
  unfold finish
  split
  · rfl
  · exact calls_endTask

@[simp] theorem auth_finish : (app.finish d env i r).auth = app.auth := by
  unfold finish
  split
  · rfl
  · exact auth_endTask

variable [DecidableEq Token]

@[simp] theorem calls_update : (app.update d app' e).calls = app'.calls := by
  cases e with
  | run i env =>
    simp only [update]
    cases System.ended app.calls (.run i env : Event (Call endpointTypes) Env) with
    | none => rfl
    | some r => exact calls_finish
  | _ => rfl

/-- The request of a token endpoint in an event. -/
def authEvent : AppEvent Token → Option (AuthEvent Token)
  | .auth e => some e
  | _ => none

theorem auth_update : (app.update d app' e).auth =
    (authEvent e).toList.foldl (AuthDb.next d.jwt d.settings) app'.auth := by
  cases e with
  | run i env =>
    simp only [update]
    cases System.ended app.calls (.run i env : Event (Call endpointTypes) Env) with
    | none => rfl
    | some r => exact auth_finish
  | _ => rfl

/-! ## Steps and runs -/

/-- **What a step does.** -/
theorem step_eq_some_iff : step d app e = some app' ↔ app.possible e = true ∧
    ∃ calls, (services d).run System.anyStep app.calls (app.sends d e) = some calls ∧
      app' = app.update d
        { app with
          calls := calls
          messages := app.messages ++ enqueued app.calls.world calls.world } e := by
  unfold step
  split_ifs with h
  · simp only [Option.map_eq_some_iff, h, true_and]
    exact exists_congr fun calls => and_congr_right fun _ => eq_comm
  · simp [h]

theorem services_of_step (h : step d app e = some app') :
    (services d).run System.anyStep app.calls (app.sends d e) = some app'.calls := by
  obtain ⟨-, calls, hcalls, rfl⟩ := step_eq_some_iff.1 h
  rwa [calls_update]

theorem auth_of_step (h : step d app e = some app') :
    app'.auth = (authEvent e).toList.foldl (AuthDb.next d.jwt d.settings) app.auth := by
  obtain ⟨-, calls, -, rfl⟩ := step_eq_some_iff.1 h
  rw [auth_update]

/-- **The services run as part of the application.** -/
theorem services_of_run (h : (step d).run app es = some app') :
    (services d).run System.anyStep app.calls ((step d).trace (sends d) app es) =
      some app'.calls := by
  induction es generalizing app with
  | nil =>
    obtain rfl := Option.some.inj h
    rfl
  | cons e es ih =>
    obtain ⟨app₁, he, hes⟩ := Automaton.run_cons.1 h
    rw [Automaton.trace_cons he]
    exact System.run_append.2 ⟨_, services_of_step he, ih hes⟩

/-- **So do the token endpoints.** -/
theorem auth_of_run (h : (step d).run app es = some app') :
    app'.auth = (es.filterMap authEvent).foldl (AuthDb.next d.jwt d.settings) app.auth := by
  induction es generalizing app with
  | nil =>
    obtain rfl := Option.some.inj h
    rfl
  | cons e es ih =>
    obtain ⟨app₁, he, hes⟩ := Automaton.run_cons.1 h
    rw [ih hes, auth_of_step he]
    cases h : authEvent e with
    | none => rw [List.filterMap_cons_none h]; rfl
    | some a => rw [List.filterMap_cons_some h]; rfl

end App

end PaySystem
