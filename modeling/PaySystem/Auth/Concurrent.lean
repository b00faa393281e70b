import PaySystem.Auth.Destroy
import PaySystem.Foundations.Atomic

/-!
# Concurrent reads and logouts

Requests read tokens while others destroy them. The blacklist is looked at, inserted into and
committed in statements of their own, which interleave in any way. Still every call takes effect at
one instant: the calls are linearizable, and the server that they make up is the one of `AuthDb`,
which handles one call after the other. So a token that a logout has destroyed is never accepted
again. A call may die at any point; one that the database fails is one of these, and has not ended.
-/

namespace PaySystem

open Prog (send)

variable {Token : Type}

/-! ## The calls -/

/-- `read_token`; `inherited` is what the inherited `read_token` finds, which does not look at the
blacklist. -/
def readToken (connected : Bool) (token : Token) (inherited : Option User) :
    Prog (TokenStmt Token) DestroyErr (Option User) :=
  if !connected then .throw (.runtime "Async session maker is not available")
  else do
    let revoked ← send (.selectRevoked token)
    match revoked with
    | some _ => pure none
    | none => pure inherited

/-- The calls of the strategies that work on the blacklist. -/
inductive TokenCall (Token : Type)
  | readToken (token : Token) (inherited : Option User)
  | destroyToken (token : Token) (user : User)

/-- What a call returns. -/
inductive TokenReply
  | user (user : Option User)
  | destroyed
  deriving DecidableEq

namespace TokenCall

def token : TokenCall Token → Token
  | readToken token _ => token
  | destroyToken token _ => token

def body : TokenCall Token → Prog (TokenStmt Token) DestroyErr TokenReply
  | readToken token inherited => do
    let user ← PaySystem.readToken true token inherited
    pure (.user user)
  | destroyToken token user => do
    PaySystem.destroyToken true token user
    pure .destroyed

variable [DecidableEq Token]

/-- **What it means to serve a call at one instant.** `destroy_token` may raise, if the token has
been destroyed already. -/
def Served : TokenCall Token → AuthDb Token → Except DestroyErr TokenReply → AuthDb Token → Prop
  | readToken token inherited, db, r, db' =>
    db' = db ∧ r = .ok (.user (if db.isRevoked token then none else inherited))
  | destroyToken token user, db, r, db' => db' = db.destroyToken token user ∧
    (r = .ok .destroyed ∨ r = .error .integrity ∧ db.isRevoked token = true)

/-- The server that handles each call at one instant, by the functions of `AuthDb`. -/
def server (Token : Type) [DecidableEq Token] : Server (TokenCall Token) DestroyErr TokenReply
    (Except DestroyErr TokenReply) (AuthDb Token) where
  serves := Served
  shows x r := r = x

/-- A read is served with the answer of `Strategy.readToken`. -/
theorem served_readToken {s : Strategy} {jwt : Jwt Token} {db db' : AuthDb Token} {now : DateTime}
    {token : Token} {r : Except DestroyErr TokenReply} :
    Served (.readToken token (s.superReadToken jwt db now token)) db r db' ↔
      db' = db ∧ r = .ok (.user (s.readToken jwt db now token)) :=
  Iff.rfl

end TokenCall

/-- The calls, in a connected application. -/
def tokenSystem (Token : Type) [DecidableEq Token] : System (TokenStmt Token) DestroyErr TokenReply
    (Blacklist Token) Unit Unit (TokenCall Token) where
  exec i _ w _ s := (w.exec i s).map fun x => (x.1, x.2, ())
  close := Blacklist.close
  body := TokenCall.body
  fresh := ()

/-- No call is running. -/
def tokenStart (rows : List (RevokedToken Token)) (h : (rows.map RevokedToken.token).Nodup) :
    Config (TokenStmt Token) DestroyErr TokenReply (Blacklist Token) Unit :=
  ⟨.atRest rows h, fun _ => none⟩

/-! ## The protocol of a call -/

/-- Where a call is: about to send the statement named, or at its end. -/
inductive TokenStage (Token : Type)
  | selecting (c : TokenCall Token)
  | inserting (token : Token) (user : User)
  | committing (token : Token) (user : User)
  | ended (c : TokenCall Token) (r : Except DestroyErr TokenReply)

namespace TokenStage

def Allows {β : Type} : TokenStage Token → TokenStmt Token β → Prop
  | selecting c, .selectRevoked token => token = c.token
  | inserting token user, .insertRevoked r => r = ⟨token, user.id⟩
  | committing _ _, .commit => True
  | _, _ => False

def next {β : Type} : TokenStage Token → TokenStmt Token β → Except DestroyErr β → TokenStage Token
  | selecting (.readToken token inherited), .selectRevoked _, .ok found =>
    ended (.readToken token inherited) (.ok (.user (if found.isSome then none else inherited)))
  | selecting (.destroyToken token user), .selectRevoked _, .ok (some _) =>
    ended (.destroyToken token user) (.ok .destroyed)
  | selecting (.destroyToken token user), .selectRevoked _, .ok none => inserting token user
  | inserting token user, .insertRevoked _, .ok _ => committing token user
  | inserting token user, .insertRevoked _, .error e => ended (.destroyToken token user) (.error e)
  | committing token user, .commit, .ok _ => ended (.destroyToken token user) (.ok .destroyed)
  | t, _, _ => t

/-- The uncommitted rows. -/
def rows : TokenStage Token → List (RevokedToken Token)
  | committing token user => [⟨token, user.id⟩]
  | _ => []

/-- The call and its answer, once it has been served. -/
def ticket : TokenStage Token → Ticket (TokenCall Token) (Except DestroyErr TokenReply)
  | selecting c => ⟨c, none⟩
  | inserting token user => ⟨.destroyToken token user, none⟩
  | committing token user => ⟨.destroyToken token user, none⟩
  | ended c r => ⟨c, some r⟩

end TokenStage

/-- The answers of the database: only an `INSERT` raises. -/
def TokenStmt.Answers {β : Type} : TokenStmt Token β → Except DestroyErr β → Prop
  | .insertRevoked _, r => r = .ok () ∨ r = .error .integrity
  | _, r => ∃ b, r = .ok b

def tokenUsage (Token : Type) :
    Usage (TokenStmt Token) DestroyErr TokenReply (TokenStage Token) (TokenCall Token) where
  allows := TokenStage.Allows
  answers := TokenStmt.Answers
  next := TokenStage.next
  init := .selecting
  ends t r := ∃ c, t = .ended c r

variable [DecidableEq Token] {w w' : Blacklist Token} {i : ℕ} {g g' : Marks (TokenStage Token)}
  {t : TokenStage Token} {β : Type} {s : TokenStmt Token β} {r : Except DestroyErr β}
  {token : Token} {user : User}

/-- Every call goes through its stages. -/
theorem obeys_tokenUsage : (tokenSystem Token).Obeys (tokenUsage Token) := by
  intro c
  cases c with
  | readToken token inherited =>
    refine ⟨rfl, ?_⟩
    rintro r ⟨found, rfl⟩
    cases found <;> exact ⟨_, rfl⟩
  | destroyToken token user =>
    refine ⟨rfl, ?_⟩
    rintro r ⟨found, rfl⟩
    cases found with
    | some r => exact ⟨_, rfl⟩
    | none =>
      refine ⟨rfl, ?_⟩
      rintro r (rfl | rfl)
      · refine ⟨trivial, ?_⟩
        rintro r ⟨b, rfl⟩
        exact ⟨_, rfl⟩
      · exact ⟨_, rfl⟩

theorem answers_of_tokenExec (h : w.exec i s = some (r, w')) : s.Answers r := by
  cases s with
  | selectRevoked token =>
    simp only [Blacklist.exec] at h
    split at h <;> cases h <;> exact ⟨_, rfl⟩
  | insertRevoked row =>
    simp only [Blacklist.exec] at h
    split_ifs at h <;> cases h
    · exact Or.inr rfl
    · exact Or.inl rfl
  | commit =>
    cases h
    exact ⟨_, rfl⟩

/-! ## The rows of the running calls -/

/-- The uncommitted rows are those of the calls that are about to commit. -/
def Blacklist.Belongs (w : Blacklist Token) (g : Marks (TokenStage Token)) : Prop :=
  ∀ i, w.own i = ((g i).map TokenStage.rows).getD []

omit [DecidableEq Token] in
theorem Blacklist.Belongs.own (h : w.Belongs g) (hi : g i = some t) : w.own i = t.rows := by
  rw [h i, hi, Option.map_some, Option.getD_some]

omit [DecidableEq Token] in
theorem Blacklist.Belongs.update (h : w.Belongs g) {m : Option (TokenStage Token)}
    (hself : w'.own i = (m.map TokenStage.rows).getD [])
    (hother : ∀ j, j ≠ i → w'.own j = w.own j) : w'.Belongs (Function.update g i m) := by
  intro j
  by_cases hj : j = i
  · subst hj
    rw [Function.update_self, hself]
  · rw [Function.update_of_ne hj, hother j hj, h j]

/-- What a statement does to the uncommitted rows. -/
theorem own_of_tokenExec (hallow : t.Allows s) (h : w.exec i s = some (r, w'))
    (hown : w.own i = t.rows) :
    w'.own i = (t.next s r).rows ∧ ∀ j, j ≠ i → w'.own j = w.own j := by
  cases t with
  | selecting c =>
    cases s with
    | selectRevoked token =>
      simp only [Blacklist.exec] at h
      split at h <;> cases h <;> cases c <;> exact ⟨hown, fun _ _ => rfl⟩
    | _ => exact hallow.elim
  | inserting token user =>
    cases s with
    | insertRevoked row =>
      obtain rfl : row = _ := hallow
      simp only [Blacklist.exec] at h
      split_ifs at h with hview hall <;> cases h
      · exact ⟨hown, fun _ _ => rfl⟩
      · refine ⟨?_, fun j hj => Blacklist.own_insert_of_ne hall hj⟩
        rw [Blacklist.own_insert_self, hown]
        rfl
    | _ => exact hallow.elim
  | committing token user =>
    cases s with
    | commit =>
      cases h
      exact ⟨Blacklist.own_close_self, fun j hj => Blacklist.own_close_of_ne hj⟩
    | _ => exact hallow.elim
  | ended c r => cases s <;> exact hallow.elim

theorem Blacklist.Belongs.move {c : Config (TokenStmt Token) DestroyErr TokenReply
      (Blacklist Token) Unit} {e : Event (TokenCall Token) Unit} (h : c.world.Belongs g)
    (hm : System.Move (tokenSystem Token) (tokenUsage Token) c e w' g g') : w'.Belongs g' := by
  cases hm with
  | spawn i call idle => exact h.update ((h i).trans (by rw [idle]; rfl)) fun _ _ => rfl
  | call i env mark st allowed exec answered sent =>
    obtain ⟨x, hx, heq⟩ := Option.map_eq_some_iff.1 exec
    cases heq
    obtain ⟨hself, hother⟩ := own_of_tokenExec allowed hx (h.own mark)
    exact h.update hself hother
  | finish e closing mark ends =>
    exact h.update Blacklist.own_close_self fun j hj => Blacklist.own_close_of_ne hj

/-! ## Linearizability -/

/-- The state of the atomic server. -/
def Blacklist.authDb (users : Table User) (w : Blacklist Token) : AuthDb Token :=
  ⟨users, w.revokedTokens⟩

theorem isRevoked_authDb {users : Table User} :
    (w.authDb users).isRevoked token = true ↔ token ∈ w.tokens := by
  simp [AuthDb.isRevoked, Blacklist.authDb, Blacklist.tokens]

/-- The `SELECT` finds a row exactly if the token is revoked. -/
theorem exec_selectRevoked (users : Table User)
    {r : Except DestroyErr (Option (RevokedToken Token))}
    (hview : w.view i = w.revokedTokens) (h : w.exec i (.selectRevoked token) = some (r, w')) :
    w'.authDb users = w.authDb users ∧
      ∃ found, r = .ok found ∧ found.isSome = (w.authDb users).isRevoked token := by
  have hfound : (w.revokedTokens.find? fun row => decide (row.token = token)).isSome =
      (w.authDb users).isRevoked token := List.isSome_find?
  simp only [Blacklist.exec, hview] at h
  split at h
  · rename_i row hfind
    cases h
    exact ⟨rfl, _, rfl, by rw [← hfound, hfind]⟩
  · rename_i hfind
    cases h
    exact ⟨rfl, _, rfl, by rw [← hfound, hfind]⟩

/-- A statement of a call serves it, or changes nothing for the server. -/
theorem served_of_exec (users : Table User) (hown : w.own i = t.rows) (hallow : t.Allows s)
    (h : w.exec i s = some (r, w')) :
    w'.authDb users = w.authDb users ∧ (t.next s r).ticket = t.ticket ∨
      ∃ c x, t.ticket = ⟨c, none⟩ ∧ (t.next s r).ticket = ⟨c, some x⟩ ∧
        c.Served (w.authDb users) x (w'.authDb users) := by
  have hview : t.rows = [] → w.view i = w.revokedTokens := by
    intro hrows
    rw [Blacklist.view, hown, hrows, List.append_nil]
  cases t with
  | selecting c =>
    cases s with
    | selectRevoked token =>
      obtain rfl : token = c.token := hallow
      obtain ⟨hdb, found, rfl, hfound⟩ := exec_selectRevoked users (hview rfl) h
      cases c with
      | readToken token inherited => exact Or.inr ⟨_, _, rfl, rfl, hdb, by rw [hfound]; rfl⟩
      | destroyToken token user =>
        cases found with
        | none => exact Or.inl ⟨hdb, rfl⟩
        | some row =>
          have hrevoked : (w.authDb users).isRevoked token = true := hfound.symm
          refine Or.inr ⟨_, _, rfl, rfl, ?_, Or.inl rfl⟩
          rw [AuthDb.destroyToken, if_pos hrevoked, hdb]
    | _ => exact hallow.elim
  | inserting token user =>
    cases s with
    | insertRevoked row =>
      obtain rfl : row = _ := hallow
      simp only [Blacklist.exec, hview rfl] at h
      split_ifs at h with hmem hall <;> cases h
      · have hrevoked : (w.authDb users).isRevoked token = true := isRevoked_authDb.2 hmem
        refine Or.inr ⟨_, _, rfl, rfl, ?_, Or.inr ⟨rfl, hrevoked⟩⟩
        rw [AuthDb.destroyToken, if_pos hrevoked]
      · exact Or.inl ⟨rfl, rfl⟩
    | _ => exact hallow.elim
  | committing token user =>
    cases s with
    | commit =>
      cases h
      -- The constraint has kept the token out of the committed rows.
      have hmem : (⟨token, user.id⟩ : RevokedToken Token) ∈ w.own i := by
        rw [hown]
        exact List.mem_singleton_self _
      have hrevoked : ¬ (w.authDb users).isRevoked token = true :=
        mt isRevoked_authDb.1 (Blacklist.notMem_tokens_of_own hmem)
      refine Or.inr ⟨_, _, rfl, rfl, ?_, Or.inl rfl⟩
      rw [AuthDb.destroyToken, if_neg hrevoked]
      change (⟨users, w.view i⟩ : AuthDb Token) = _
      rw [Blacklist.view, hown]
      rfl
    | _ => exact hallow.elim
  | ended c r => cases s <;> exact hallow.elim

theorem linearizes (users : Table User) : Linearizes (tokenSystem Token) (tokenUsage Token)
    (TokenCall.server Token) (Blacklist.authDb users) TokenStage.ticket
    fun c g => c.world.Belongs g where
  init _ := rfl
  ends t r h := by
    obtain ⟨c, rfl⟩ := h
    exact ⟨r, rfl, rfl⟩
  close _ _ := rfl
  call hbelongs mark allowed exec := by
    obtain ⟨x, hx, heq⟩ := Option.map_eq_some_iff.1 exec
    cases heq
    exact served_of_exec users (hbelongs.own mark) allowed hx
  keeps _ hm h := h.move hm

variable {c c' : Config (TokenStmt Token) DestroyErr TokenReply (Blacklist Token) Unit}
  {es : List (Event (TokenCall Token) Unit)}

/-- The calls of a configuration are at the stages `g`. -/
structure AtStages (c : Config (TokenStmt Token) DestroyErr TokenReply (Blacklist Token) Unit)
    (g : Marks (TokenStage Token)) : Prop where
  marked : System.Marked (tokenUsage Token) (fun _ => True) c g
  belongs : c.world.Belongs g

omit [DecidableEq Token] in
theorem atStages_tokenStart {rows : List (RevokedToken Token)}
    (h : (rows.map RevokedToken.token).Nodup) : AtStages (tokenStart rows h) fun _ => none where
  marked := System.marked_idle _
  belongs _ := rfl

theorem AtStages.run (h : AtStages c g) (users : Table User)
    (hs : (tokenSystem Token).run System.anyStep c es = some c') :
    ∃ g', AtStages c' g' ∧ ServesRun (TokenCall.server Token) es ((tokenSystem Token).results c es)
      (c.world.authDb users) (Marks.map TokenStage.ticket g) (c'.world.authDb users)
      (Marks.map TokenStage.ticket g') := by
  have hans : ∀ e, (tokenSystem Token).Answers (tokenUsage Token) (fun _ => True) e := by
    intro e
    cases e with
    | run i env =>
      intro β w w' σ σ' s r _ hexec
      obtain ⟨x, hx, heq⟩ := Option.map_eq_some_iff.1 hexec
      cases heq
      exact ⟨trivial, answers_of_tokenExec hx⟩
    | _ => trivial
  obtain ⟨g', hmarked, hbelongs, hserves⟩ := (linearizes users).serves_run obeys_tokenUsage trivial
    hans h.marked h.belongs hs
  exact ⟨g', ⟨hmarked, hbelongs⟩, hserves⟩

/-- **The strategies are linearizable**: every run of concurrent calls of `read_token` and
`destroy_token` is, event by event and with the same results, a run of the server that handles each
call at one instant between its start and its end by the functions of `AuthDb`. -/
theorem tokens_atomic (users : Table User) (rows : List (RevokedToken Token))
    (h : (rows.map RevokedToken.token).Nodup)
    (hs : (tokenSystem Token).run System.anyStep (tokenStart rows h) es = some c) :
    ∃ g, (∀ i, g i = none ↔ c.threads i = none) ∧
      ServesRun (TokenCall.server Token) es ((tokenSystem Token).results (tokenStart rows h) es)
        ⟨users, rows⟩ (fun _ => none) ⟨users, c.world.revokedTokens⟩ g := by
  obtain ⟨g, hg, hserves⟩ := (atStages_tokenStart h).run users hs
  exact ⟨Marks.map TokenStage.ticket g, fun _ => map_ticket_eq_none_iff hg.marked, hserves⟩

/-- Two racing calls that destroy a token, of which the second raises, and a read beside them, which
looks at the blacklist before the first one commits. -/
def racingTokenCalls : List (Event (TokenCall String) Unit) :=
  [.spawn 0 (.destroyToken "t" ⟨7, true⟩), .spawn 1 (.destroyToken "t" ⟨7, true⟩),
    .spawn 2 (.readToken "t" (some ⟨7, true⟩)), .run 0 (), .run 1 (), .run 0 (), .run 2 (),
    .run 0 (), .run 0 (), .run 1 (), .run 1 (), .run 2 ()]

theorem tokens_atomic_sample : ∃ c,
    (tokenSystem String).run System.anyStep (tokenStart [] List.nodup_nil) racingTokenCalls =
      some c ∧
    (tokenSystem String).results (tokenStart [] List.nodup_nil) racingTokenCalls =
      [.ok .destroyed, .error .integrity, .ok (.user (some ⟨7, true⟩))] ∧
    ∃ g, (∀ i, g i = none ↔ c.threads i = none) ∧
      ServesRun (TokenCall.server String) racingTokenCalls
        ((tokenSystem String).results (tokenStart [] List.nodup_nil) racingTokenCalls)
        ⟨Table.empty, []⟩ (fun _ => none) ⟨Table.empty, c.world.revokedTokens⟩ g := by
  have hsome : ((tokenSystem String).run System.anyStep (tokenStart [] List.nodup_nil)
      racingTokenCalls).isSome = true := by decide +kernel
  obtain ⟨c, hc⟩ := Option.isSome_iff_exists.1 hsome
  exact ⟨c, hc, by decide +kernel, tokens_atomic Table.empty [] List.nodup_nil hc⟩

/-! ## Destroyed tokens -/

section

variable {e : Event (TokenCall Token) Unit} {db db' : AuthDb Token}
  {q q' : Marks (Ticket (TokenCall Token) (Except DestroyErr TokenReply))}
  {x : Option (Except DestroyErr TokenReply)} {inherited : Option User}

/-- Tokens stay destroyed. -/
theorem Serves.isRevoked (h : Serves (TokenCall.server Token) e db q x db' q')
    (hrevoked : db.isRevoked token = true) : db'.isRevoked token = true := by
  cases h with
  | @serve _ _ _ i env c r waiting served =>
    cases c with
    | readToken => rwa [served.1]
    | destroyToken =>
      rw [served.1]
      exact isRevoked_destroyToken.2 (Or.inl hrevoked)
  | _ => exact hrevoked

/-- A call that destroys a token is waiting, or the token is destroyed. -/
theorem Serves.destroying (h : Serves (TokenCall.server Token) e db q x db' q')
    (hspawn : e.isSpawn i = false) (habort : e ≠ .abort i)
    (hq : q i = some ⟨.destroyToken token user, none⟩ ∨ db.isRevoked token = true) :
    q' i = some ⟨.destroyToken token user, none⟩ ∨ db'.isRevoked token = true := by
  rcases hq with hq | hrevoked
  · by_cases hi : i = e.thread
    · subst hi
      cases h with
      | accept i c idle => simp [Event.isSpawn, Event.thread] at hspawn
      | serve i env waiting served =>
        obtain ⟨rfl, -⟩ := Ticket.mk.inj (Option.some.inj (waiting.symm.trans hq))
        rw [served.1]
        exact Or.inr (isRevoked_destroyToken.2 (Or.inr rfl))
      | wait => exact Or.inl hq
      | reply a i env served => cases Option.some.inj (served.symm.trans hq)
      | crash => exact absurd rfl habort
    · exact Or.inl ((h.ticket_of_ne hi).trans hq)
  · exact Or.inr (h.isRevoked hrevoked)

/-- The ticket of a read that is waiting, or has been refused. -/
def Refusing (token : Token) (inherited : Option User)
    (k : Ticket (TokenCall Token) (Except DestroyErr TokenReply)) : Prop :=
  k = ⟨.readToken token inherited, none⟩ ∨
    k = ⟨.readToken token inherited, some (.ok (.user none))⟩

/-- A read of a destroyed token is refused. -/
theorem Serves.refusing (h : Serves (TokenCall.server Token) e db q x db' q')
    (hspawn : e.isSpawn i = false) (hrevoked : db.isRevoked token = true)
    (hq : ∀ k, q i = some k → Refusing token inherited k) :
    ∀ k, q' i = some k → Refusing token inherited k := by
  by_cases hi : i = e.thread
  · subst hi
    cases h with
    | accept i c idle => simp [Event.isSpawn, Event.thread] at hspawn
    | serve i env waiting served =>
      intro k hk
      obtain rfl := Option.some.inj ((Function.update_self i _ q).symm.trans hk)
      rcases hq _ waiting with heq | heq
      · obtain ⟨rfl, -⟩ := Ticket.mk.inj heq
        obtain ⟨-, rfl⟩ := served
        rw [if_pos hrevoked]
        exact Or.inr rfl
      · cases heq
    | wait => exact hq
    | reply a i env served =>
      intro k hk
      cases (Function.update_self i none q).symm.trans hk
    | crash a q i =>
      intro k hk
      cases (Function.update_self i none q).symm.trans hk
  · rwa [h.ticket_of_ne hi]

end

/-- The call of thread `i` begins in `c`, and it runs, with whatever runs beside it, up to `c'`. -/
def Runs (i : ℕ) (call : TokenCall Token)
    (c c' : Config (TokenStmt Token) DestroyErr TokenReply (Blacklist Token) Unit) : Prop :=
  ∃ c₁ es, (tokenSystem Token).step c (.spawn i call) = some c₁ ∧
    (tokenSystem Token).run System.anyStep c₁ es = some c' ∧
    ∀ e ∈ es, e.isSpawn i = false ∧ e ≠ .abort i

theorem Runs.run_eq {call : TokenCall Token} (h : Runs i call c c') :
    ∃ es, (tokenSystem Token).run System.anyStep c (.spawn i call :: es) = some c' ∧
      ∀ e ∈ es, e.isSpawn i = false ∧ e ≠ .abort i := by
  obtain ⟨c₁, es, he, hes, hall⟩ := h
  exact ⟨es, System.run_cons.2 ⟨c₁, he, trivial, hes⟩, hall⟩

theorem AtStages.of_runs (h : AtStages c g) (users : Table User) {call : TokenCall Token}
    (hruns : Runs i call c c') :
    ∃ (g' : Marks (TokenStage Token)) (es : List (Event (TokenCall Token) Unit))
      (rs : List (Except DestroyErr TokenReply)), AtStages c' g' ∧
      (∀ e ∈ es, e.isSpawn i = false ∧ e ≠ .abort i) ∧
      ServesRun (TokenCall.server Token) es rs (c.world.authDb users)
        (Function.update (Marks.map TokenStage.ticket g) i (some ⟨call, none⟩))
        (c'.world.authDb users) (Marks.map TokenStage.ticket g') := by
  obtain ⟨es, hes, hall⟩ := hruns.run_eq
  obtain ⟨g', hg', hserves⟩ := h.run users hes
  generalize (tokenSystem Token).results c (.spawn i call :: es) = rs at hserves
  cases hserves with
  | cons first rest =>
    cases first with
    | accept => exact ⟨g', es, _, hg', hall, rest⟩

/-- **A destroyed token is never accepted again**: once a call has destroyed a token and has ended,
normally or by the exception of the constraint, every read of the token that begins later finds no
user, whatever other calls run beside the two. -/
theorem revoked_rejected (rows : List (RevokedToken Token))
    (h : (rows.map RevokedToken.token).Nodup) {c₀ c₁ c₂ c₃ : Config (TokenStmt Token) DestroyErr
      TokenReply (Blacklist Token) Unit} {j : ℕ} {inherited : Option User}
    {x : Except DestroyErr TokenReply}
    (hstart : (tokenSystem Token).Reach System.anyStep (tokenStart rows h) c₀)
    (hlogout : Runs i (.destroyToken token user) c₀ c₁) (hended : c₁.threads i = none)
    (hlater : (tokenSystem Token).Reach System.anyStep c₁ c₂)
    (hread : Runs j (.readToken token inherited) c₂ c₃)
    (hx : System.ended c₃ (.run j () : Event (TokenCall Token) Unit) = some x) :
    x = .ok (.user none) := by
  let users : Table User := Table.empty
  obtain ⟨es, hstart⟩ := hstart.exists_run
  obtain ⟨es', hlater⟩ := hlater.exists_run
  obtain ⟨g₀, hg₀, -⟩ := (atStages_tokenStart h).run users hstart
  obtain ⟨g₁, events, rs, hg₁, hall, hserves⟩ := hg₀.of_runs users hlogout
  have hrevoked₁ : (c₁.world.authDb users).isRevoked token = true := by
    refine (hserves.induction hall (J := fun db q =>
      q i = some ⟨.destroyToken token user, none⟩ ∨ db.isRevoked token = true)
      (Or.inl (Function.update_self ..)) fun he hs => hs.destroying he.1 he.2).resolve_left ?_
    rw [Marks.map, hg₁.marked.idle i hended]
    exact fun h => absurd h.symm (Option.some_ne_none _)
  obtain ⟨g₂, hg₂, hserves₂⟩ := hg₁.run users hlater
  have hrevoked₂ : (c₂.world.authDb users).isRevoked token = true :=
    hserves₂.induction (P := fun _ => True) (fun _ _ => trivial)
      (J := fun db _ => db.isRevoked token = true) hrevoked₁ fun _ hs => hs.isRevoked
  obtain ⟨g₃, events₃, rs₃, hg₃, hall₃, hserves₃⟩ := hg₂.of_runs users hread
  have hrefusing := (hserves₃.induction hall₃ (J := fun db q => db.isRevoked token = true ∧
    ∀ k, q j = some k → Refusing token inherited k) ⟨hrevoked₂, fun k hk => ?_⟩
    fun he hs hJ => ⟨hs.isRevoked hJ.1, hs.refusing he.1 hJ.1 hJ.2⟩).2
  · obtain ⟨t, ht, call, rfl⟩ := hg₃.marked.ends_of_ended hx
    rcases hrefusing ⟨call, some x⟩ (by rw [Marks.map, ht]; rfl) with heq | heq
    · cases heq
    · exact Option.some.inj (Ticket.mk.inj heq).2
  · rw [Function.update_self] at hk
    exact Or.inl (Option.some.inj hk).symm

/-- A logout beside another one, and then a read of the token. -/
theorem revoked_rejected_sample : ∃ c c' : Config (TokenStmt String) DestroyErr TokenReply
      (Blacklist String) Unit,
    Runs 0 (.destroyToken "t" ⟨7, true⟩) (tokenStart [] List.nodup_nil) c ∧
    Runs 2 (.readToken "t" (some ⟨7, true⟩)) c c' ∧
    System.ended c' (.run 2 () : Event (TokenCall String) Unit) = some (.ok (.user none)) := by
  let logout : List (Event (TokenCall String) Unit) :=
    [.spawn 1 (.destroyToken "t" ⟨7, true⟩), .run 0 (), .run 1 (), .run 0 (), .run 0 (), .run 0 ()]
  let read : List (Event (TokenCall String) Unit) := [.run 1 (), .run 2 ()]
  have hany : ((tokenSystem String).run System.anyStep (tokenStart [] List.nodup_nil)
      (.spawn 0 (.destroyToken "t" ⟨7, true⟩) :: logout)).any (fun c => (c.threads 0).isNone &&
        ((tokenSystem String).run System.anyStep c
          (.spawn 2 (.readToken "t" (some ⟨7, true⟩)) :: read)).any fun c' =>
            (System.ended c' (.run 2 () : Event (TokenCall String) Unit)).isSome) = true := by
    decide +kernel
  obtain ⟨c, hc, htest⟩ := (Option.any_eq_true _ _).1 hany
  obtain ⟨hended, hany'⟩ := Bool.and_eq_true_iff.1 htest
  obtain ⟨c', hc', hsome⟩ := (Option.any_eq_true _ _).1 hany'
  obtain ⟨x, hx⟩ := Option.isSome_iff_exists.1 hsome
  have hlogout : Runs 0 (.destroyToken "t" ⟨7, true⟩) (tokenStart [] List.nodup_nil) c := by
    obtain ⟨c₁, he, -, hes⟩ := System.run_cons.1 hc
    exact ⟨c₁, logout, he, hes, by simp [logout, Event.isSpawn]⟩
  have hread : Runs 2 (.readToken "t" (some ⟨7, true⟩)) c c' := by
    obtain ⟨c₁, he, -, hes⟩ := System.run_cons.1 hc'
    exact ⟨c₁, read, he, hes, by simp [read, Event.isSpawn]⟩
  refine ⟨c, c', hlogout, hread, hx.trans (congrArg some ?_)⟩
  exact revoked_rejected [] List.nodup_nil .start hlogout
    (Option.isNone_iff_eq_none.1 hended) .start hread hx

end PaySystem
