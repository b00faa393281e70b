import PaySystem.Auth.Stages

/-!
# Concurrent calls of `destroy_token`

The table ends up right in every run of the calls for a token. A call raises, though, if another one
commits its row between this call's `SELECT`, which found no row, and its `INSERT`; and only then.
-/

namespace PaySystem

open DestroyStage

variable {Token : Type} [DecidableEq Token] {token : Token} {s s' : DestroyConfig Token}
  {stage : ℕ → DestroyStage}

/-! ## Runs -/

/-- **The table in a run.** -/
theorem Tracks.run (h : Tracks token s stage) {events : List (Event User Unit)}
    (hs : (destroySystem token).run System.anyStep s events = some s') :
    AddedOnce token s.world.revokedTokens s'.world.revokedTokens ∧
      ∃ stage', Tracks token s' stage' := by
  induction events generalizing s stage with
  | nil =>
    obtain rfl : s = s' := Option.some.inj hs
    exact ⟨Or.inl rfl, stage, h⟩
  | cons e events ih =>
    obtain ⟨s₁, he, -, hs⟩ := System.run_cons.1 hs
    obtain ⟨next, hmoves, h₁⟩ := h.step he
    obtain ⟨hadded, hstage⟩ := ih h₁ hs
    exact ⟨hmoves.addedOnce.trans hadded, hstage⟩

/-- As soon as a call has ended, the token is in the table. -/
theorem Tracks.mem_of_results (h : Tracks token s stage)
    (hended : ∀ i, (stage i).result.isSome = true → token ∈ s.world.tokens)
    {events : List (Event User Unit)}
    (hs : (destroySystem token).run System.anyStep s events = some s')
    (hne : (destroySystem token).results s events ≠ []) : token ∈ s'.world.tokens := by
  induction events generalizing s stage with
  | nil => exact absurd rfl hne
  | cons e events ih =>
    have hadded := (h.run hs).1
    obtain ⟨s₁, he, -, hs⟩ := System.run_cons.1 hs
    obtain ⟨next, hmoves, h₁⟩ := h.step he
    rw [System.results_cons he] at hne
    cases hx : System.ended s e with
    | some x =>
      have hresult := h.result_of_ended hx
      exact hadded.mem (hended e.thread (by rw [hresult]; rfl))
    | none =>
      rw [hx, Option.toList_none, List.nil_append] at hne
      refine ih h₁ (fun i hi => ?_) hs hne
      by_cases hie : i = e.thread
      · subst hie
        exact hmoves.mem_of_result (by simpa using hi)
      · rw [Function.update_of_ne hie] at hi
        exact hmoves.addedOnce.mem (hended i hi)

/-- A call that is bound to raise does so, unless it is killed. -/
theorem Tracks.error_mem_results (h : Tracks token s stage) {j : ℕ}
    (hdoomed : (stage j).Doomed (token ∈ s.world.tokens)) {events : List (Event User Unit)}
    (hs : (destroySystem token).run System.anyStep s events = some s')
    (hlive : ∀ i, Event.abort i ∉ events) (hend : s'.threads j = none) :
    .error .integrity ∈ (destroySystem token).results s events := by
  induction events generalizing s stage with
  | nil =>
    obtain rfl : s = s' := Option.some.inj hs
    rw [h.threads j] at hend
    generalize stage j = before at hdoomed hend
    cases hdoomed <;> cases hend
  | cons e events ih =>
    obtain ⟨s₁, he, -, hs₁⟩ := System.run_cons.1 hs
    obtain ⟨next, hmoves, h₁⟩ := h.step he
    rw [System.results_cons he, List.mem_append]
    have hlive₁ : ∀ i, Event.abort i ∉ events := fun i hi => hlive i (List.mem_cons_of_mem e hi)
    by_cases hje : j = e.thread
    · cases e with
      | abort i => exact absurd List.mem_cons_self (hlive i)
      | spawn i user =>
        obtain rfl : j = i := hje
        generalize hj : stage j = before at hdoomed
        change Moves token _ _ (stage j) next _ at hmoves
        rw [hj] at hmoves
        cases hdoomed <;> cases hmoves
      | run i env =>
        obtain rfl : j = i := hje
        change Tracks token s₁ (Function.update stage j next) at h₁
        obtain hdoomed₁ | hraised := hmoves.doomed hdoomed
        · exact Or.inr (ih h₁ (by rwa [Function.update_self]) hs₁ hlive₁)
        · left
          have hended := h.ended_run j
          rw [show stage j = raised from hraised] at hended
          simp [hended, DestroyStage.result]
    · refine Or.inr (ih h₁ ?_ hs₁ hlive₁)
      rw [Function.update_of_ne hje]
      generalize stage j = before at hdoomed
      cases hdoomed with
      | raised => exact .raised
      | inserting user hmem => exact .inserting user (hmoves.addedOnce.mem hmem)

/-- **Calls return normally** in every run whose steps meet the condition. -/
theorem Tidy.ok_of_mem_results (htidy : Tidy token s stage) (h : Tracks token s stage)
    {events : List (Event User Unit)}
    (hs : (destroySystem token).run (CommitsAlone token) s events = some s')
    {x : Except DestroyErr Unit} (hx : x ∈ (destroySystem token).results s events) :
    x = .ok () := by
  induction events generalizing s stage with
  | nil => cases hx
  | cons e events ih =>
    obtain ⟨s₁, he, hok, hs⟩ := System.run_cons.1 hs
    obtain ⟨next, hmoves, h₁⟩ := h.step he
    rw [System.results_cons he, List.mem_append, Option.mem_toList] at hx
    rcases hx with hx | hx
    · have hresult := h.result_of_ended hx
      generalize hstage : stage e.thread = before at hresult
      cases before with
      | returned => exact (Option.some.inj hresult).symm
      | raised => exact absurd .raised (hstage ▸ htidy e.thread)
      | _ => cases hresult
    · exact ih ((htidy.step_iff h hmoves).2 hok) h₁ hs hx

/-- In a finished run, the condition is necessary. -/
theorem Tidy.run_commitsAlone (htidy : Tidy token s stage) (h : Tracks token s stage)
    {events : List (Event User Unit)}
    (hs : (destroySystem token).run System.anyStep s events = some s')
    (hlive : ∀ i, Event.abort i ∉ events) (hend : ∀ i, s'.threads i = none)
    (hok : ∀ x ∈ (destroySystem token).results s events, x = .ok ()) :
    (destroySystem token).run (CommitsAlone token) s events = some s' := by
  induction events generalizing s stage with
  | nil => exact hs
  | cons e events ih =>
    obtain ⟨s₁, he, -, hs⟩ := System.run_cons.1 hs
    obtain ⟨next, hmoves, h₁⟩ := h.step he
    have hlive₁ : ∀ i, Event.abort i ∉ events := fun i hi => hlive i (List.mem_cons_of_mem e hi)
    have hok₁ : ∀ x ∈ (destroySystem token).results s₁ events, x = .ok () := by
      intro x hx
      refine hok x ?_
      rw [System.results_cons he]
      exact List.mem_append_right _ hx
    have htidy₁ : Tidy token s₁ (Function.update stage e.thread next) := by
      intro j hdoomed
      have herror := h₁.error_mem_results hdoomed hs hlive₁ (hend j)
      cases hok₁ _ herror
    exact System.run_cons.2 ⟨s₁, he, (htidy.step_iff h hmoves).1 htidy₁,
      ih htidy₁ h₁ hs hlive₁ hok₁⟩

/-! ## Progress -/

/-- **A call takes at most four steps.** -/
theorem Tracks.countP_isRun_le (h : Tracks token s stage) (i : ℕ)
    {events : List (Event User Unit)}
    (hs : (destroySystem token).run System.anyStep s events = some s') :
    events.countP (Event.isRun i) ≤ (stage i).remaining + 4 * events.countP (Event.isSpawn i) := by
  induction events generalizing s stage with
  | nil => simp
  | cons e events ih =>
    obtain ⟨s₁, he, -, hs⟩ := System.run_cons.1 hs
    obtain ⟨next, hmoves, h₁⟩ := h.step he
    have hle := ih h₁ hs
    by_cases hie : i = e.thread
    · subst hie
      have hstep := hmoves.remaining_le
      rw [Function.update_self] at hle
      rw [List.countP_cons, List.countP_cons]
      omega
    · rw [Function.update_of_ne hie] at hle
      rwa [List.countP_cons_of_neg (by simp [Event.isRun_of_ne hie]),
        List.countP_cons_of_neg (by simp [Event.isSpawn_of_ne hie])]

/-- **No deadlock**: as long as a call is running, some call can take its next step. -/
theorem Tracks.exists_step (h : Tracks token s stage) {i : ℕ} (hi : s.threads i ≠ none) :
    ∃ j, (destroySystem token).step s (.run j ()) ≠ none := by
  have hcommit : ∀ j user, stage j = committing user →
      (destroySystem token).step s (.run j ()) ≠ none := by
    intro j user hj
    simp [h.step_committing hj]
  cases hstage : stage i with
  | idle =>
    rw [h.threads i, hstage] at hi
    exact absurd rfl hi
  | selecting user =>
    refine ⟨i, ?_⟩
    rw [h.step_selecting hstage]
    split_ifs <;> simp
  | inserting user =>
    -- The call waits only for the holder of an uncommitted row, which can commit it.
    by_cases hwaits : token ∉ s.world.tokens ∧ token ∈ s.world.allTokens
    · obtain ⟨j, user', hj⟩ := h.exists_committing hwaits.1 hwaits.2
      exact ⟨j, hcommit j user' hj⟩
    · refine ⟨i, ?_⟩
      rw [h.step_inserting hstage]
      split_ifs with hmem hall
      · simp
      · exact absurd ⟨hmem, hall⟩ hwaits
      · simp
  | committing user => exact ⟨i, hcommit i user hstage⟩
  | returned => exact ⟨i, by simp [h.step_end (i := i) (by rw [hstage]; rfl)]⟩
  | raised => exact ⟨i, by simp [h.step_end (i := i) (by rw [hstage]; rfl)]⟩

/-! ## Idempotence -/

/-- What is asked of a run of calls: each returns normally, and they add one row of the token to
the table, if it has none. -/
structure DestroysOnce (token : Token) (rows rows' : List (RevokedToken Token))
    (results : List (Except DestroyErr Unit)) : Prop where
  returns : ∀ x ∈ results, x = .ok ()
  addedOnce : AddedOnce token rows rows'
  revoked : results ≠ [] → token ∈ rows'.map RevokedToken.token

/-- **When the calls for a token are idempotent.** In a run of any number of calls, they all return
normally and leave one row of the token, if no call commits the row while another one runs that has
looked for it and found none. In a finished run without kills, the condition is also necessary. The
table is right in any case. A call takes at most four steps, and the calls do not all wait for each
other. -/
theorem destroyToken_idempotent_iff (token : Token) (rows : List (RevokedToken Token))
    (hrows : (rows.map RevokedToken.token).Nodup) {events : List (Event User Unit)}
    {s : DestroyConfig Token}
    (hs : (destroySystem token).run System.anyStep (destroyStart rows hrows) events = some s) :
    ((destroySystem token).run (CommitsAlone token) (destroyStart rows hrows) events = some s →
      DestroysOnce token rows s.world.revokedTokens
        ((destroySystem token).results (destroyStart rows hrows) events)) ∧
    ((∀ i, Event.abort i ∉ events) → (∀ i, s.threads i = none) →
      (DestroysOnce token rows s.world.revokedTokens
          ((destroySystem token).results (destroyStart rows hrows) events) ↔
        (destroySystem token).run (CommitsAlone token) (destroyStart rows hrows) events =
          some s)) ∧
    (AddedOnce token rows s.world.revokedTokens ∧
      ((destroySystem token).results (destroyStart rows hrows) events ≠ [] →
        token ∈ s.world.tokens)) ∧
    (∀ i, events.countP (Event.isRun i) ≤ 4 * events.countP (Event.isSpawn i)) ∧
    ((∃ i, s.threads i ≠ none) → ∃ j, (destroySystem token).step s (.run j ()) ≠ none) := by
  have hstart := tracks_destroyStart token hrows
  have htidy : Tidy token (destroyStart rows hrows) fun _ => idle := fun _ h => nomatch h
  obtain ⟨hadded, stage, hfinal⟩ := hstart.run hs
  have hrevoked := hstart.mem_of_results (fun _ h => nomatch h) hs
  have hok (h : (destroySystem token).run (CommitsAlone token) (destroyStart rows hrows) events =
      some s) : DestroysOnce token rows s.world.revokedTokens
        ((destroySystem token).results (destroyStart rows hrows) events) :=
    ⟨fun x hx => htidy.ok_of_mem_results hstart h hx, hadded, hrevoked⟩
  refine ⟨hok, fun hlive hend => ⟨fun h => ?_, hok⟩, ⟨hadded, hrevoked⟩, fun i => ?_, ?_⟩
  · exact htidy.run_commitsAlone hstart hs hlive hend h.returns
  · simpa [DestroyStage.remaining] using hstart.countP_isRun_le i hs
  · rintro ⟨i, hi⟩
    exact hfinal.exists_step hi

/-- Two calls that overlap: the second one looks for the token after the commit of the first. -/
def overlappingCalls : List (Event User Unit) :=
  [.spawn 0 ⟨7, true⟩, .spawn 1 ⟨7, true⟩, .run 0 (), .run 0 (), .run 0 (), .run 1 (),
    .run 1 (), .run 0 ()]

theorem destroyToken_idempotent_iff_sample : ∃ s,
    (destroySystem "t").run System.anyStep (destroyStart [] List.nodup_nil) overlappingCalls =
      some s ∧ (∀ i, s.threads i = none) ∧ s.world.revokedTokens.length = 1 ∧
    DestroysOnce "t" [] s.world.revokedTokens
      ((destroySystem "t").results (destroyStart [] List.nodup_nil) overlappingCalls) ∧
    (∀ i, overlappingCalls.countP (Event.isRun i) ≤
      4 * overlappingCalls.countP (Event.isSpawn i)) := by
  have hrun : ∃ s, (destroySystem "t").run (CommitsAlone "t") (destroyStart [] List.nodup_nil)
      overlappingCalls = some s ∧ (∀ i, s.threads i = none) ∧
      decide (s.world.revokedTokens.length = 1) = true :=
    System.exists_run overlappingCalls
      (fun w : Blacklist String => decide (w.revokedTokens.length = 1)) (by decide +kernel)
  obtain ⟨s, hs, hidle, hlength⟩ := hrun
  have hany := System.run_anyStep hs
  obtain ⟨-, hiff, -, hcount, -⟩ := destroyToken_idempotent_iff "t" [] List.nodup_nil hany
  have hlive : ∀ i, Event.abort i ∉ overlappingCalls := by simp [overlappingCalls]
  exact ⟨s, hany, hidle, of_decide_eq_true hlength, (hiff hlive hidle).2 hs, hcount⟩

/-- Two calls that both look for the token before one commits its row. -/
def racingCalls : List (Event User Unit) :=
  [.spawn 0 ⟨7, true⟩, .spawn 1 ⟨7, true⟩, .run 0 (), .run 1 (), .run 0 (), .run 0 (),
    .run 1 (), .run 0 (), .run 1 ()]

/-- **The second of two racing calls raises.** -/
theorem destroyToken_raises : ∃ s,
    (destroySystem "t").run System.anyStep (destroyStart [] List.nodup_nil) racingCalls = some s ∧
    (∀ i, Event.abort i ∉ racingCalls) ∧ (∀ i, s.threads i = none) ∧
    (destroySystem "t").results (destroyStart [] List.nodup_nil) racingCalls =
      [.ok (), .error .integrity] ∧
    ¬ DestroysOnce "t" [] s.world.revokedTokens
      ((destroySystem "t").results (destroyStart [] List.nodup_nil) racingCalls) := by
  have hrun : ∃ s, (destroySystem "t").run System.anyStep (destroyStart [] List.nodup_nil)
      racingCalls = some s ∧ (∀ i, s.threads i = none) ∧ true = true :=
    System.exists_run racingCalls (fun _ => true) (by decide +kernel)
  have hresults : (destroySystem "t").results (destroyStart [] List.nodup_nil) racingCalls =
      [.ok (), .error .integrity] := by decide +kernel
  obtain ⟨s, hs, hidle, -⟩ := hrun
  refine ⟨s, hs, by simp [racingCalls], hidle, hresults, fun h => ?_⟩
  have hok := h.returns (.error .integrity) (by simp [hresults])
  cases hok

end PaySystem
