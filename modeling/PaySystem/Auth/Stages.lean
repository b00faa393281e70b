import PaySystem.Auth.Destroy

/-!
# The stages of concurrent calls

Any number of calls of `destroy_token` for one token, in any interleaving of their statements. A
call goes through the stages `DestroyStage`. `Tracks` says that a configuration is the one that
belongs to the stages of its calls, and `Tracks.step` says, once, what a step can do: one of the
moves `Moves`. What holds of the moves is proved of them alone.
-/

namespace PaySystem

open Prog (send)

variable {Token : Type}

/-- Where a call is: about to send the statement named, or at its end. -/
inductive DestroyStage
  | idle
  | selecting (user : User)
  | inserting (user : User)
  | committing (user : User)
  | returned
  | raised

namespace DestroyStage

/-- The rest of the call. -/
def thread (token : Token) : DestroyStage → Option (Thread (TokenStmt Token) DestroyErr Unit Unit)
  | idle => none
  | selecting user => some ⟨destroyToken true token user, ()⟩
  | inserting user => some ⟨addRevoked ⟨token, user.id⟩, ()⟩
  | committing _ => some ⟨send .commit, ()⟩
  | returned => some ⟨.pure (), ()⟩
  | raised => some ⟨.throw .integrity, ()⟩

/-- The uncommitted rows. -/
def rows (token : Token) : DestroyStage → List (RevokedToken Token)
  | committing user => [⟨token, user.id⟩]
  | _ => []

/-- The transaction is running and has found no row. -/
def HasMissed : DestroyStage → Prop
  | inserting _ => True
  | committing _ => True
  | raised => True
  | _ => False

/-- The steps to the end of the call. -/
def remaining : DestroyStage → ℕ
  | idle => 0
  | selecting _ => 4
  | inserting _ => 3
  | committing _ => 2
  | returned => 1
  | raised => 1

/-- How the call ends, if this is its end. -/
def result : DestroyStage → Option (Except DestroyErr Unit)
  | returned => some (.ok ())
  | raised => some (.error .integrity)
  | _ => none

/-- The call can only end by the exception, since the table contains the token. -/
inductive Doomed (present : Prop) : DestroyStage → Prop
  | inserting (user : User) (h : present) : Doomed present (inserting user)
  | raised : Doomed present raised

end DestroyStage

open DestroyStage

/-- Configurations of the calls for a token. -/
abbrev DestroyConfig (Token : Type) :=
  Config (TokenStmt Token) DestroyErr Unit (Blacklist Token) Unit

/-- No call is running. -/
def destroyStart (rows : List (RevokedToken Token)) (h : (rows.map RevokedToken.token).Nodup) :
    DestroyConfig Token := ⟨.atRest rows h, fun _ => none⟩

/-- The stages of the calls, and what they say about the configuration. -/
structure Tracks (token : Token) (s : DestroyConfig Token) (stage : ℕ → DestroyStage) : Prop where
  threads : ∀ i, s.threads i = (stage i).thread token
  own : ∀ i, s.world.own i = (stage i).rows token
  absent : ∀ i, (i, token) ∈ s.world.absent ↔ (stage i).HasMissed

/-- What an event does to the stage of its call and to the rows of the table. -/
inductive Moves (token : Token) (rows : List (RevokedToken Token)) :
    Event User Unit → DestroyStage → DestroyStage → List (RevokedToken Token) → Prop
  | spawn (i : ℕ) (user : User) : Moves token rows (.spawn i user) idle (selecting user) rows
  | found (i : ℕ) (user : User) (h : token ∈ rows.map RevokedToken.token) :
    Moves token rows (.run i ()) (selecting user) returned rows
  | missed (i : ℕ) (user : User) (h : token ∉ rows.map RevokedToken.token) :
    Moves token rows (.run i ()) (selecting user) (inserting user) rows
  | inserted (i : ℕ) (user : User) (h : token ∉ rows.map RevokedToken.token) :
    Moves token rows (.run i ()) (inserting user) (committing user) rows
  | rejected (i : ℕ) (user : User) (h : token ∈ rows.map RevokedToken.token) :
    Moves token rows (.run i ()) (inserting user) raised rows
  | committed (i : ℕ) (user : User) (h : token ∉ rows.map RevokedToken.token) :
    Moves token rows (.run i ()) (committing user) returned (rows ++ [⟨token, user.id⟩])
  | returns (i : ℕ) : Moves token rows (.run i ()) returned idle rows
  | raises (i : ℕ) : Moves token rows (.run i ()) raised idle rows
  | aborts (i : ℕ) (stage : DestroyStage) : Moves token rows (.abort i) stage idle rows

variable {token : Token} {s s' : DestroyConfig Token} {stage : ℕ → DestroyStage}
  {rows rows' : List (RevokedToken Token)} {before next : DestroyStage} {e : Event User Unit}

/-! ## What the stages say -/

theorem tracks_destroyStart (token : Token) (h : (rows.map RevokedToken.token).Nodup) :
    Tracks token (destroyStart rows h) fun _ => idle where
  threads _ := rfl
  own _ := rfl
  absent i := by simp [destroyStart, Blacklist.atRest, HasMissed]

/-- A step of thread `i`, which leaves what the other calls have read and written. -/
theorem Tracks.update (h : Tracks token s stage) (i : ℕ) (w : Blacklist Token)
    (next : DestroyStage) (hown : w.own i = next.rows token)
    (hown' : ∀ j, j ≠ i → w.own j = s.world.own j)
    (habsent : (i, token) ∈ w.absent ↔ next.HasMissed)
    (habsent' : ∀ j, j ≠ i → ((j, token) ∈ w.absent ↔ (j, token) ∈ s.world.absent)) :
    Tracks token ⟨w, Function.update s.threads i (next.thread token)⟩
      (Function.update stage i next) where
  threads j := by
    by_cases hj : j = i
    · subst hj
      simp
    · simp only [Function.update_of_ne hj]
      exact h.threads j
  own j := by
    by_cases hj : j = i
    · subst hj
      simpa using hown
    · rw [Function.update_of_ne hj]
      exact (hown' j hj).trans (h.own j)
  absent j := by
    by_cases hj : j = i
    · subst hj
      simpa using habsent
    · rw [Function.update_of_ne hj]
      exact (habsent' j hj).trans (h.absent j)

/-- A step that leaves the table as it is. -/
theorem Tracks.move (h : Tracks token s stage) {i : ℕ} (next : DestroyStage)
    (hi : stage i = before) (hrows : before.rows token = next.rows token)
    (hmissed : before.HasMissed ↔ next.HasMissed) :
    Tracks token ⟨s.world, Function.update s.threads i (next.thread token)⟩
      (Function.update stage i next) := by
  subst hi
  exact h.update i s.world next ((h.own i).trans hrows) (fun _ _ => rfl)
    ((h.absent i).trans hmissed) fun _ _ => Iff.rfl

/-- The end of a transaction. -/
theorem Tracks.close (h : Tracks token s stage) (i : ℕ) (w : Blacklist Token)
    (next : DestroyStage) (hinserted : w.inserted = (s.world.close i).inserted)
    (habsent : w.absent = (s.world.close i).absent) (hrows : next.rows token = [])
    (hmissed : ¬ next.HasMissed) :
    Tracks token ⟨w, Function.update s.threads i (next.thread token)⟩
      (Function.update stage i next) := by
  have hown (j : ℕ) : w.own j = (s.world.close i).own j := by
    rw [Blacklist.own, hinserted, Blacklist.own]
  refine h.update i w next ?_ (fun j hj => ?_) ?_ fun j hj => ?_
  · rw [hown, Blacklist.own_close_self, hrows]
  · rw [hown, Blacklist.own_close_of_ne hj]
  · simp [habsent, Blacklist.mem_absent_close, hmissed]
  · simp [habsent, Blacklist.mem_absent_close, hj]

theorem Tracks.mem_own (h : Tracks token s stage) {i : ℕ} {user : User}
    (hi : stage i = committing user) : ⟨token, user.id⟩ ∈ s.world.own i := by
  rw [h.own i, hi]
  exact List.mem_singleton_self _

/-- Two calls cannot both hold an uncommitted row of the token. -/
theorem Tracks.eq_of_committing (h : Tracks token s stage) {i j : ℕ} {user user' : User}
    (hi : stage i = committing user) (hj : stage j = committing user') : i = j :=
  Blacklist.own_unique (h.mem_own hi) (h.mem_own hj) rfl

theorem Tracks.view_eq (h : Tracks token s stage) {i : ℕ} (hi : stage i = before) :
    s.world.view i = s.world.revokedTokens ++ before.rows token := by
  rw [Blacklist.view, h.own i, hi]

/-- A call without an uncommitted row sees what is committed. -/
theorem Tracks.tokens_view (h : Tracks token s stage) {i : ℕ} (hi : (stage i).rows token = []) :
    (s.world.view i).map RevokedToken.token = s.world.tokens := by
  rw [h.view_eq rfl, hi, List.append_nil, Blacklist.tokens]

/-- An uncommitted row of the token is the row of a call that can commit. -/
theorem Tracks.exists_committing (h : Tracks token s stage) (hnew : token ∉ s.world.tokens)
    (hmem : token ∈ s.world.allTokens) : ∃ j user, stage j = committing user := by
  rw [Blacklist.allTokens, List.map_append, List.mem_append] at hmem
  obtain ⟨r, hr, rfl⟩ := List.mem_map.1 (hmem.resolve_left hnew)
  obtain ⟨⟨j, r⟩, hx, rfl⟩ := List.mem_map.1 hr
  have hown : r ∈ s.world.own j :=
    List.mem_map_of_mem (f := Prod.snd) (List.mem_filter.2 ⟨hx, decide_eq_true rfl⟩)
  rw [h.own j] at hown
  cases hj : stage j with
  | committing user => exact ⟨j, user, hj⟩
  | _ => simp [hj, DestroyStage.rows] at hown

theorem Tracks.ended_run (h : Tracks token s stage) (i : ℕ) :
    System.ended s (.run i () : Event User Unit) = (stage i).result := by
  have ht := h.threads i
  cases hi : stage i <;> simp only [System.ended, ht, hi] <;> rfl

theorem Tracks.result_of_ended (h : Tracks token s stage) {x : Except DestroyErr Unit}
    (hx : System.ended s e = some x) : (stage e.thread).result = some x := by
  cases e with
  | run i env => exact (h.ended_run i).symm.trans hx
  | _ => cases hx

/-! ## What a move does -/

/-- Nothing has been added to the rows, or one row of the token to rows without one. -/
def AddedOnce (token : Token) (rows rows' : List (RevokedToken Token)) : Prop :=
  rows' = rows ∨ token ∉ rows.map RevokedToken.token ∧
    ∃ user : User, rows' = rows ++ [⟨token, user.id⟩]

theorem AddedOnce.mem (h : AddedOnce token rows rows')
    (hmem : token ∈ rows.map RevokedToken.token) : token ∈ rows'.map RevokedToken.token := by
  obtain rfl | ⟨hnew, -⟩ := h
  · exact hmem
  · exact absurd hmem hnew

theorem AddedOnce.trans {rows'' : List (RevokedToken Token)} (h : AddedOnce token rows rows')
    (h' : AddedOnce token rows' rows'') : AddedOnce token rows rows'' := by
  obtain rfl | ⟨hnew, user, rfl⟩ := h
  · exact h'
  · obtain rfl | ⟨hnew', -⟩ := h'
    · exact Or.inr ⟨hnew, user, rfl⟩
    · simp at hnew'

/-- Only a `COMMIT` changes the table. -/
theorem Moves.rows_eq (h : Moves token rows e before next rows') :
    rows' = rows ∨ token ∉ rows.map RevokedToken.token ∧
      ∃ user, before = committing user ∧ rows' = rows ++ [⟨token, user.id⟩] := by
  cases h with
  | committed i user h => exact Or.inr ⟨h, user, rfl, rfl⟩
  | _ => exact Or.inl rfl

theorem Moves.addedOnce (h : Moves token rows e before next rows') :
    AddedOnce token rows rows' := by
  obtain heq | ⟨hnew, user, -, heq⟩ := h.rows_eq
  · exact Or.inl heq
  · exact Or.inr ⟨hnew, user, heq⟩

/-- At its end, a call leaves the token in the table. -/
theorem Moves.mem_of_result (h : Moves token rows e before next rows')
    (hnext : next.result.isSome = true) : token ∈ rows'.map RevokedToken.token := by
  cases h with
  | found i user h => exact h
  | rejected i user h => exact h
  | committed i user h => simp
  | _ => simp [DestroyStage.result] at hnext

theorem Moves.not_doomed (h : Moves token rows e before next rows')
    (hbefore : ¬ before.Doomed (token ∈ rows.map RevokedToken.token)) :
    ¬ next.Doomed (token ∈ rows'.map RevokedToken.token) := by
  intro hnext
  cases h with
  | missed i user h =>
    cases hnext with
    | inserting _ hmem => exact h hmem
  | rejected i user h => exact hbefore (.inserting user h)
  | _ => cases hnext

/-- A call that is bound to raise stays so, until it has raised. -/
theorem Moves.doomed {i : ℕ} (h : Moves token rows (.run i ()) before next rows')
    (hbefore : before.Doomed (token ∈ rows.map RevokedToken.token)) :
    next.Doomed (token ∈ rows'.map RevokedToken.token) ∨ before = raised := by
  cases hbefore with
  | raised => exact Or.inr rfl
  | inserting user hmem =>
    cases h with
    | inserted _ _ h => exact absurd hmem h
    | rejected => exact Or.inl .raised

theorem Moves.remaining_le (h : Moves token rows e before next rows') :
    next.remaining + (if e.isRun e.thread = true then 1 else 0) ≤
      before.remaining + 4 * (if e.isSpawn e.thread = true then 1 else 0) := by
  cases h <;> simp [DestroyStage.remaining, Event.isRun, Event.isSpawn, Event.thread]

/-- The condition on a step: if it commits the first row of the token, no other running transaction
has looked for one and found none. -/
def CommitsAlone (token : Token) (i : ℕ) (w w' : Blacklist Token) : Prop :=
  token ∉ w.tokens → token ∈ w'.tokens → ∀ x ∈ w.absent, x.2 = token → x.1 = i

/-- No call is bound to raise. -/
def Tidy (token : Token) (s : DestroyConfig Token) (stage : ℕ → DestroyStage) : Prop :=
  ∀ i, ¬ (stage i).Doomed (token ∈ s.world.tokens)

/-- Only the condition keeps the calls from being bound to raise. -/
theorem Tidy.step_iff (htidy : Tidy token s stage) (h : Tracks token s stage)
    (hmoves : Moves token s.world.revokedTokens e (stage e.thread) next s'.world.revokedTokens) :
    Tidy token s' (Function.update stage e.thread next) ↔
      CommitsAlone token e.thread s.world s'.world := by
  constructor
  · intro htidy' hnew hmem ⟨j, token'⟩ hj htoken
    subst htoken
    by_contra hne
    change j ≠ e.thread at hne
    have hmissed := (h.absent j).1 hj
    have hj' := htidy' j
    rw [Function.update_of_ne hne] at hj'
    cases hstage : stage j with
    | inserting user => exact hj' (hstage ▸ .inserting user hmem)
    | raised => exact hj' (hstage ▸ .raised)
    | committing user =>
      obtain heq | ⟨-, user', hi, -⟩ := hmoves.rows_eq
      · exact hnew (by rwa [Blacklist.tokens, ← heq])
      · exact hne (h.eq_of_committing hstage hi)
    | _ => simp [hstage, HasMissed] at hmissed
  · intro hok i hdoomed
    by_cases hie : i = e.thread
    · subst hie
      rw [Function.update_self] at hdoomed
      exact hmoves.not_doomed (htidy _) hdoomed
    · rw [Function.update_of_ne hie] at hdoomed
      generalize hi : stage i = before at hdoomed
      cases hdoomed with
      | raised => exact htidy i (hi ▸ .raised)
      | inserting user hmem =>
        by_cases hold : token ∈ s.world.tokens
        · exact htidy i (hi ▸ .inserting user hold)
        · exact hie (hok hold hmem (i, token) ((h.absent i).2 (by rw [hi]; trivial)) rfl)

/-! ## One step -/

variable [DecidableEq Token]

instance (i : ℕ) (w w' : Blacklist Token) : Decidable (CommitsAlone token i w w') := by
  unfold CommitsAlone
  infer_instance

/-- The `SELECT` of a call. -/
theorem Tracks.step_selecting (h : Tracks token s stage) {i : ℕ} {user : User}
    (hi : stage i = selecting user) : (destroySystem token).step s (.run i ()) =
      if token ∈ s.world.tokens then
        some ⟨s.world, Function.update s.threads i (returned.thread token)⟩
      else some ⟨s.world.miss i token,
        Function.update s.threads i ((inserting user).thread token)⟩ := by
  have ht : s.threads i = some ⟨.call (.selectRevoked token) _, ()⟩ :=
    (h.threads i).trans (by rw [hi]; rfl)
  have hview := h.tokens_view (i := i) (by rw [hi]; rfl)
  rw [System.step_run_call ht]
  split_ifs with hmem
  · rw [← hview] at hmem
    obtain ⟨r, hr⟩ := Option.ne_none_iff_exists'.1
      (fun hnone => Blacklist.find?_eq_none_iff.1 hnone hmem)
    simp only [destroySystem, Blacklist.exec, hr, Option.map_some]
    rfl
  · rw [← hview] at hmem
    simp only [destroySystem, Blacklist.exec, Blacklist.find?_eq_none_iff.2 hmem,
      Option.map_some]
    rfl

/-- The `INSERT` of a call. -/
theorem Tracks.step_inserting (h : Tracks token s stage) {i : ℕ} {user : User}
    (hi : stage i = inserting user) : (destroySystem token).step s (.run i ()) =
      if token ∈ s.world.tokens then
        some ⟨s.world, Function.update s.threads i (raised.thread token)⟩
      else if hall : token ∈ s.world.allTokens then none
      else some ⟨s.world.insert i ⟨token, user.id⟩ hall,
        Function.update s.threads i ((committing user).thread token)⟩ := by
  have ht : s.threads i = some ⟨.call (.insertRevoked ⟨token, user.id⟩) _, ()⟩ :=
    (h.threads i).trans (by rw [hi]; rfl)
  have hview := h.tokens_view (i := i) (by rw [hi]; rfl)
  rw [System.step_run_call ht]
  simp only [destroySystem, Blacklist.exec, hview]
  by_cases hmem : token ∈ s.world.tokens
  · rw [if_pos hmem, if_pos hmem]
    rfl
  · rw [if_neg hmem, if_neg hmem]
    split_ifs <;> rfl

/-- The `COMMIT` of a call. -/
theorem Tracks.step_committing (h : Tracks token s stage) {i : ℕ} {user : User}
    (hi : stage i = committing user) : (destroySystem token).step s (.run i ()) =
      some ⟨s.world.commit i, Function.update s.threads i (returned.thread token)⟩ := by
  have ht : s.threads i = some ⟨.call .commit _, ()⟩ := (h.threads i).trans (by rw [hi]; rfl)
  rw [System.step_run_call ht]
  rfl

/-- The end of a call. -/
theorem Tracks.step_end (h : Tracks token s stage) {i : ℕ} (hi : (stage i).result.isSome = true) :
    (destroySystem token).step s (.run i ()) =
      some ⟨s.world.close i, Function.update s.threads i (idle.thread token)⟩ := by
  have ht := h.threads i
  cases hstage : stage i with
  | returned => simp only [System.step, ht, hstage, thread]; rfl
  | raised => simp only [System.step, ht, hstage, thread]; rfl
  | _ => simp [hstage, DestroyStage.result] at hi

/-- A step of a running call. -/
theorem Tracks.step_run (h : Tracks token s stage) {i : ℕ}
    (he : (destroySystem token).step s (.run i ()) = some s') :
    ∃ next, Moves token s.world.revokedTokens (.run i ()) (stage i) next s'.world.revokedTokens ∧
      Tracks token s' (Function.update stage i next) := by
  cases hi : stage i with
  | idle =>
    have ht := h.threads i
    simp [System.step, ht, hi, thread] at he
  | selecting user =>
    rw [h.step_selecting hi] at he
    split_ifs at he with hmem
    · obtain rfl := Option.some.inj he
      exact ⟨returned, .found i user hmem, h.move returned hi rfl Iff.rfl⟩
    · obtain rfl := Option.some.inj he
      refine ⟨inserting user, .missed i user hmem,
        h.update i (s.world.miss i token) (inserting user) ?_ (fun _ _ => rfl) ?_ ?_⟩
      · rw [Blacklist.own_miss, h.own i, hi]
        rfl
      · simp [Blacklist.miss, HasMissed]
      · intro j hj
        simp [Blacklist.miss, hj]
  | inserting user =>
    rw [h.step_inserting hi] at he
    split_ifs at he with hmem hall
    · obtain rfl := Option.some.inj he
      exact ⟨raised, .rejected i user hmem, h.move raised hi rfl Iff.rfl⟩
    · obtain rfl := Option.some.inj he
      refine ⟨committing user, .inserted i user hmem,
        h.update i (s.world.insert i ⟨token, user.id⟩ hall) (committing user)
          ?_ ?_ ?_ fun _ _ => Iff.rfl⟩
      · rw [Blacklist.own_insert_self, h.own i, hi]
        rfl
      · exact fun j hj => Blacklist.own_insert_of_ne hall hj
      · exact (h.absent i).trans (by rw [hi]; rfl)
  | committing user =>
    rw [h.step_committing hi, Option.some.injEq] at he
    subst he
    refine ⟨returned, ?_, h.close i (s.world.commit i) returned rfl rfl rfl id⟩
    change Moves token _ _ _ _ (s.world.view i)
    rw [h.view_eq hi]
    exact .committed i user (Blacklist.notMem_tokens_of_own (h.mem_own hi))
  | returned =>
    rw [h.step_end (by rw [hi]; rfl), Option.some.injEq] at he
    subst he
    exact ⟨idle, .returns i, h.close i (s.world.close i) idle rfl rfl rfl id⟩
  | raised =>
    rw [h.step_end (by rw [hi]; rfl), Option.some.injEq] at he
    subst he
    exact ⟨idle, .raises i, h.close i (s.world.close i) idle rfl rfl rfl id⟩

/-- **One step** of the calls. -/
theorem Tracks.step (h : Tracks token s stage)
    (he : (destroySystem token).step s e = some s') :
    ∃ next, Moves token s.world.revokedTokens e (stage e.thread) next s'.world.revokedTokens ∧
      Tracks token s' (Function.update stage e.thread next) := by
  cases e with
  | spawn i user =>
    have ht := h.threads i
    change ∃ next, Moves token _ _ (stage i) next _ ∧ Tracks token s' (Function.update stage i next)
    cases hi : stage i with
    | idle =>
      obtain rfl : _ = s' := by simpa [System.step, ht, hi, thread] using he
      exact ⟨selecting user, .spawn i user, h.move (selecting user) hi rfl Iff.rfl⟩
    | _ => simp [System.step, ht, hi, thread] at he
  | abort i =>
    cases ht : s.threads i with
    | none => simp [System.step, ht] at he
    | some t =>
      obtain rfl : _ = s' := by simpa [System.step, ht] using he
      exact ⟨idle, .aborts i _, h.close i (s.world.close i) idle rfl rfl rfl id⟩
  | run i env => exact h.step_run he

end PaySystem
