import PaySystem.Application.Runs
import PaySystem.Interleaving.Origins
import PaySystem.Interleaving.PaymentHistory

/-!
# Who may move money

A payment is only ever made for a request of its own to a payment endpoint, and only if the request
came with an access token of the owner of the order that was valid at this moment and had not been
presented in a logout before, whatever else the application was doing.
-/

namespace PaySystem

open App

variable {Token : Type} {d : Deployment Token} {app app' : App Token} {e : AppEvent Token}
  {es : List (AppEvent Token)} {p : Payment} {w : World}

/-- The operation of the payments that the endpoint makes. -/
def PaymentEndpoint.operationType : PaymentEndpoint → OperationType
  | createAcquiringDepositPayment => .Deposit
  | createReturnPayment => .Return

/-- The request asks for this payment. -/
structure PaymentRequest.AsksFor (r : PaymentRequest Token) (p : Payment) : Prop where
  operation : p.operationType = r.endpoint.operationType.value
  orderId : p.orderId = r.orderId
  amount : p.amount.toRat = r.amount

theorem PaymentCreate.validate_eq_some {orderId : ℕ} {amount : ℚ} {payload : PaymentCreate}
    (h : PaymentCreate.validate orderId amount = some payload) :
    payload.orderId = orderId ∧ payload.amount = amount := by
  unfold PaymentCreate.validate at h
  split_ifs at h
  obtain rfl := Option.some.inj h
  exact ⟨rfl, rfl⟩

/-- The payments of the call that an endpoint starts. -/
theorem PaymentEndpoint.makes_call {endpoint : PaymentEndpoint} {user : User}
    {payload : PaymentCreate} (h : (endpoint.call user payload).Makes p) :
    p.userId = user.id ∧ p.orderId = payload.orderId ∧ p.amount.toRat = payload.amount ∧
      p.operationType = endpoint.operationType.value := by
  cases endpoint with
  | createAcquiringDepositPayment => exact ⟨h.1, h.2.1, h.2.2.1, h.2.2.2.1⟩
  | createReturnPayment => exact ⟨h.1, h.2.1, h.2.2.1, h.2.2.2.1⟩

/-- The token is a valid and unexpired access token of the active user. -/
structure AccessTokenOf (jwt : Jwt Token) (users : Table User) (now : DateTime) (token : Token)
    (user : User) : Prop where
  claims : ∃ c, jwt.decode token = some c ∧ TokenKind.access.audience ∈ c.aud ∧
    now < c.exp * 10 ^ 6 ∧ users.find? c.sub = some user
  active : user.isActive = true

variable [DecidableEq Token]

/-- The event at the place `k` of the run is a request for the payment `p`, with an access token of
the user of `p` that no logout before has presented. -/
def AuthorizedAt (d : Deployment Token) (app : App Token) (es : List (AppEvent Token)) (k : ℕ)
    (p : Payment) : Prop :=
  ∃ pre i now r post token user, es = pre ++ .post i now r :: post ∧ pre.length = k ∧
    r.AsksFor p ∧ r.bearer = some token ∧ user.id = p.userId ∧
    AccessTokenOf d.jwt (afterRun d.jwt d.settings app.auth.users (pre.filterMap authEvent)).users
      now token user ∧
    ¬ LoggedOut d.jwt d.settings app.auth.users (pre.filterMap authEvent) token

/-- A call that may make a payment is started by a request only. -/
theorem exists_request {c : Call endpointTypes} (hc : c ∈ System.spawned (app.sends d e))
    (hmakes : c.Makes p) : ∃ i now r, e = .post i now r ∧
      r.call d.jwt d.settings app.auth now = some c := by
  cases e with
  | post i now r =>
    refine ⟨i, now, r, rfl, ?_⟩
    cases hcall : r.call d.jwt d.settings app.auth now with
    | none => simp [sends, hcall, System.spawned] at hc
    | some c' =>
      simp only [sends, hcall, Option.map_some, Option.toList_some] at hc
      rw [List.mem_singleton.1 hc]
  | beat i =>
    obtain rfl := List.mem_singleton.1 hc
    exact hmakes.elim
  | deliver i m =>
    obtain rfl := List.mem_singleton.1 hc
    exact hmakes.elim
  | _ => cases hc

theorem spawned_length_le (app : App Token) (e : AppEvent Token) :
    (System.spawned (app.sends d e)).length ≤ 1 := by
  cases e with
  | post i now r =>
    cases hcall : r.call d.jwt d.settings app.auth now <;> simp [sends, hcall, System.spawned]
  | _ => simp [sends, System.spawned]

/-- A call that makes a payment was started by an authorized request for it. -/
theorem authorizedAt_of_outAt {k : ℕ} {c : Call endpointTypes}
    (hauth : app.auth.revokedTokens = [])
    (hk : (step d).OutAt (fun app e => System.spawned (app.sends d e)) app es k c)
    (hp : c.Makes p) : AuthorizedAt d app es k p := by
  obtain ⟨pre, e, post, app₁, hes, hlen, hpre, hc⟩ := hk
  obtain ⟨i, now, r, rfl, hcall⟩ := exists_request hc hp
  obtain ⟨token, hbearer, user, huser, payload, hpayload, rfl⟩ :=
    PaymentRequest.call_eq_some_iff.1 hcall
  obtain ⟨hid, horder, hamount, hop⟩ := PaymentEndpoint.makes_call hp
  obtain ⟨horder', hamount'⟩ := PaymentCreate.validate_eq_some hpayload
  have hdb : app₁.auth =
      afterRun d.jwt d.settings app.auth.users (pre.filterMap authEvent) := by
    rw [auth_of_run hpre, afterRun, ← hauth]
  rw [hdb] at huser
  obtain ⟨hrevoked, ⟨claims, hdecode, haccepted, hfind⟩, hactive⟩ := currentUser_eq_some_iff.1 huser
  obtain ⟨haud, hexp⟩ := (TokenKind.access.accepted_iff claims).1 haccepted
  refine ⟨pre, i, now, r, post, token, user, hes, hlen, ⟨hop, horder.trans horder',
    hamount.trans hamount'⟩, hbearer, hid.symm, ⟨⟨claims, hdecode, haud, hexp, hfind⟩, hactive⟩,
    fun hout => ?_⟩
  rw [← isRevoked_afterRun, hrevoked] at hout
  cases hout

/-- **Authorization**, in every run of the application: each new payment belongs to a request of its
own, which asked for it with a valid access token of the owner of the order, and no logout before
the request had presented this token. -/
theorem payments_authorized (d : Deployment Token) (hw : w.AtRest)
    (hl : w.db.Lawful endpointTypes) (hcalls : app.calls = PaySystem.atRest w)
    (hauth : app.auth.revokedTokens = []) (h : (step d).run app es = some app') :
    ∃ old new ks, app'.calls.world.db.payments.rows = old ++ new ∧
      List.Forall₂ Payment.SameOrigin w.db.payments.rows old ∧ ks.Nodup ∧
      List.Forall₂ (AuthorizedAt d app es) ks new ∧
      ∀ p ∈ new, ∃ order, app'.calls.world.db.orders.find? p.orderId = some order ∧
        order.userId = p.userId := by
  have hrun := services_of_run h
  rw [hcalls] at hrun
  obtain ⟨g, hg⟩ := sourced_of_run d.py hw hrun
  obtain ⟨old, new, cs, hrows, hold, hsub, hmakes⟩ := hg.exists_rows
  obtain ⟨ks, hnodup, hks⟩ := Automaton.exists_places spawned_length_le h
  rw [System.spawned, Automaton.filterMap_trace _ h] at hsub
  obtain ⟨ks', ⟨l, hperm, hsub'⟩, hks'⟩ := exists_forall₂_of_subperm hsub hks
  refine ⟨old, new, ks', hrows, hold, hperm.nodup_iff.1 (hnodup.sublist hsub'),
    forall₂_comp hks' hmakes fun k c p hk hp => authorizedAt_of_outAt hauth hk hp, fun p hp => ?_⟩
  have hlawful : app'.calls.world.db.Lawful endpointTypes :=
    (valid_atRest hw fun _ h => h.elim).induction (verified endpointTypes (fun _ => False) d.py)
      (System.reach_of_run _ hrun) hl fun _ _ _ _ _ hg hl => hg.lawful hl
  obtain ⟨order, horder, hlife⟩ := hlawful p (hrows ▸ List.mem_append_right _ hp)
  exact ⟨order, horder, hlife.userId.symm⟩

/-- A login, a deposit with its token, and two checks of the deposit. -/
theorem payments_authorized_sample : ∃ app',
    (step sampleDeployment).run sampleApp sampleRetryEvents = some app' ∧
    app'.calls.world.db.payments.rows.length = 1 ∧
    ∃ old new ks, app'.calls.world.db.payments.rows = old ++ new ∧
      List.Forall₂ Payment.SameOrigin sampleWorld.db.payments.rows old ∧ ks.Nodup ∧
      List.Forall₂ (AuthorizedAt sampleDeployment sampleApp sampleRetryEvents) ks new ∧
      ∀ p ∈ new, ∃ order, app'.calls.world.db.orders.find? p.orderId = some order ∧
        order.userId = p.userId := by
  have hany : ((step sampleDeployment).run sampleApp sampleRetryEvents).any (fun app' =>
      decide (app'.calls.world.db.payments.rows.length = 1)) = true := by decide +kernel
  obtain ⟨app', hrun, hlen⟩ := (Option.any_eq_true _ _).1 hany
  exact ⟨app', hrun, of_decide_eq_true hlen, payments_authorized sampleDeployment
    sampleWorld_atRest (fun _ hp => nomatch hp) rfl rfl hrun⟩

end PaySystem
