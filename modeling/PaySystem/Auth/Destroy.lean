import PaySystem.Auth.Tokens
import PaySystem.Foundations.RelyGuarantee

/-!
# `destroy_token` as a program

`destroy_token` opens a session of its own, looks for the token in `revoked_tokens`, and adds a row
if there is none. Here it is the program of its statements, on a table that several transactions
work on. A transaction sees the committed rows and its own. The unique constraint on the token
covers the rows that are not committed yet: the `INSERT` of a committed token raises, and the one of
a token that another transaction has inserted waits for the end of that transaction.

Run alone, the program does to the table what `AuthDb.destroyToken` says.
-/

namespace PaySystem

open Prog (send)

variable {Token : Type}

/-- The table `revoked_tokens` in use. -/
structure Blacklist (Token : Type) where
  revokedTokens : List (RevokedToken Token)
  /-- The rows of running transactions. -/
  inserted : List (ℕ × RevokedToken Token)
  /-- History: which running transactions have found no row of which tokens. -/
  absent : List (ℕ × Token)
  /-- The unique constraint. -/
  unique : ((revokedTokens ++ inserted.map Prod.snd).map RevokedToken.token).Nodup

namespace Blacklist

/-- The committed tokens. -/
def tokens (w : Blacklist Token) : List Token := w.revokedTokens.map RevokedToken.token

/-- The tokens of all rows, committed or not. -/
def allTokens (w : Blacklist Token) : List Token :=
  (w.revokedTokens ++ w.inserted.map Prod.snd).map RevokedToken.token

/-- The uncommitted rows of transaction `i`. -/
def own (w : Blacklist Token) (i : ℕ) : List (RevokedToken Token) :=
  (w.inserted.filter fun x => decide (x.1 = i)).map Prod.snd

/-- What transaction `i` sees. -/
def view (w : Blacklist Token) (i : ℕ) : List (RevokedToken Token) := w.revokedTokens ++ w.own i

/-- Record that transaction `i` has found no row of the token. -/
def miss (w : Blacklist Token) (i : ℕ) (token : Token) : Blacklist Token :=
  { w with absent := w.absent ++ [(i, token)] }

/-- Add a row of transaction `i`. -/
def insert (w : Blacklist Token) (i : ℕ) (r : RevokedToken Token) (h : r.token ∉ w.allTokens) :
    Blacklist Token where
  revokedTokens := w.revokedTokens
  inserted := w.inserted ++ [(i, r)]
  absent := w.absent
  unique := by
    have hrows : w.revokedTokens ++ (w.inserted ++ [(i, r)]).map Prod.snd =
        w.revokedTokens ++ w.inserted.map Prod.snd ++ [r] := by simp
    rw [hrows, List.map_append]
    exact w.unique.append (List.nodup_singleton _) (List.disjoint_singleton.2 h)

/-- End transaction `i` without its rows: `ROLLBACK`, and the close of a session. -/
def close (i : ℕ) (w : Blacklist Token) : Blacklist Token where
  revokedTokens := w.revokedTokens
  inserted := w.inserted.filter fun x => !decide (x.1 = i)
  absent := w.absent.filter fun x => !decide (x.1 = i)
  unique := w.unique.sublist
    ((List.Sublist.append_left (List.filter_sublist.map _) _).map _)

/-- `COMMIT` of transaction `i`. -/
def commit (w : Blacklist Token) (i : ℕ) : Blacklist Token where
  revokedTokens := w.view i
  inserted := (w.close i).inserted
  absent := (w.close i).absent
  unique := by
    have hperm := (List.filter_append_perm (fun x => decide (x.1 = i)) w.inserted).map Prod.snd
    rw [List.map_append] at hperm
    rw [view, List.append_assoc]
    exact (((hperm.append_left _).map _).nodup_iff).2 w.unique

/-- A table that no transaction works on. -/
def atRest (rows : List (RevokedToken Token)) (h : (rows.map RevokedToken.token).Nodup) :
    Blacklist Token where
  revokedTokens := rows
  inserted := []
  absent := []
  unique := by simpa using h

variable {w : Blacklist Token} {i j : ℕ} {r : RevokedToken Token} {token : Token}

@[simp] theorem own_miss : (w.miss i token).own j = w.own j := rfl

theorem own_insert_self (h : r.token ∉ w.allTokens) : (w.insert i r h).own i = w.own i ++ [r] := by
  simp [own, insert]

theorem own_insert_of_ne (h : r.token ∉ w.allTokens) (hj : j ≠ i) :
    (w.insert i r h).own j = w.own j := by
  simp [own, insert, hj.symm]

theorem own_close_self : (w.close i).own i = [] := by
  simp [own, close]

theorem own_close_of_ne (hj : j ≠ i) : (w.close i).own j = w.own j := by
  have h : ∀ x : ℕ × RevokedToken Token,
      (decide (x.1 = j) && !decide (x.1 = i)) = decide (x.1 = j) := by
    intro x
    by_cases hx : x.1 = j
    · simp [hx, hj]
    · simp [hx]
  simp only [own, close, List.filter_filter, h]

theorem mem_absent_close : (j, token) ∈ (w.close i).absent ↔ (j, token) ∈ w.absent ∧ j ≠ i := by
  simp [close]

/-- A row that is not committed yet has a new token. -/
theorem notMem_tokens_of_own (h : r ∈ w.own i) : r.token ∉ w.tokens := by
  intro hmem
  obtain ⟨x, hx, rfl⟩ := List.mem_map.1 h
  have hdisjoint := w.unique
  rw [List.map_append] at hdisjoint
  exact List.disjoint_of_nodup_append hdisjoint hmem
    (List.mem_map_of_mem (List.mem_map_of_mem (List.mem_of_mem_filter hx)))

/-- Uncommitted rows of one token belong to one transaction. -/
theorem own_unique {r' : RevokedToken Token} (h : r ∈ w.own i) (h' : r' ∈ w.own j)
    (htoken : r.token = r'.token) : i = j := by
  obtain ⟨x, hx, rfl⟩ := List.mem_map.1 h
  obtain ⟨y, hy, rfl⟩ := List.mem_map.1 h'
  obtain ⟨hx, hxi⟩ := List.mem_filter.1 hx
  obtain ⟨hy, hyj⟩ := List.mem_filter.1 hy
  have hnodup := w.unique
  rw [List.map_append, List.map_map] at hnodup
  obtain rfl := List.inj_on_of_nodup_map (List.Nodup.of_append_right hnodup) hx hy htoken
  exact (of_decide_eq_true hxi).symm.trans (of_decide_eq_true hyj)

end Blacklist

/-! ## The program -/

/-- The statements of `destroy_token`, by the type of their answer. -/
inductive TokenStmt (Token : Type) : Type → Type
  /-- `select(RevokedToken).where(token)`; the constraint leaves at most one row. -/
  | selectRevoked (token : Token) : TokenStmt Token (Option (RevokedToken Token))
  /-- `INSERT INTO revoked_tokens`, sent by the flush of the commit. -/
  | insertRevoked (revoked : RevokedToken Token) : TokenStmt Token Unit
  | commit : TokenStmt Token Unit

/-- The exceptions of `destroy_token`. -/
inductive DestroyErr
  /-- `RuntimeError`. -/
  | runtime (msg : String)
  /-- `IntegrityError`. -/
  | integrity
  deriving DecidableEq

/-- `session.add(revoked)` and `session.commit()`. -/
def addRevoked (revoked : RevokedToken Token) : Prog (TokenStmt Token) DestroyErr Unit := do
  send (.insertRevoked revoked)
  send .commit

/-- `destroy_token`. There is a session maker once the provider is connected. -/
def destroyToken (connected : Bool) (token : Token) (user : User) :
    Prog (TokenStmt Token) DestroyErr Unit :=
  if !connected then .throw (.runtime "Async session maker is not available")
  else do
    let existing ← send (.selectRevoked token)
    match existing with
    | some _ => pure ()
    | none => addRevoked ⟨token, user.id⟩

variable [DecidableEq Token]

/-- The meaning of the statements. A failure of the database is no answer here: nobody catches its
exception, the transaction is rolled back, and so the call counts as one that dies. -/
def Blacklist.exec (i : ℕ) (w : Blacklist Token) {β : Type} :
    TokenStmt Token β → Option (Except DestroyErr β × Blacklist Token)
  | .selectRevoked token => match (w.view i).find? fun r => decide (r.token = token) with
    | some r => some (.ok (some r), w)
    | none => some (.ok none, w.miss i token)
  | .insertRevoked r =>
    if r.token ∈ (w.view i).map RevokedToken.token then some (.error .integrity, w)
    else if h : r.token ∈ w.allTokens then none
    else some (.ok (), w.insert i r h)
  | .commit => some (.ok (), w.commit i)

/-- The `SELECT` finds a row exactly if the token is in the view. -/
theorem Blacklist.find?_eq_none_iff {w : Blacklist Token} {i : ℕ} {token : Token} :
    (w.view i).find? (fun r => decide (r.token = token)) = none ↔
    token ∉ (w.view i).map RevokedToken.token := by
  simp [List.find?_eq_none]

/-- The calls of `destroy_token` for a token, by their users, in a connected application. -/
def destroySystem (token : Token) :
    System (TokenStmt Token) DestroyErr Unit (Blacklist Token) Unit Unit User where
  exec i _ w _ s := (w.exec i s).map fun x => (x.1, x.2, ())
  close := Blacklist.close
  body := destroyToken true token
  fresh := ()

/-- **A call that runs alone** does to the table what `AuthDb.destroyToken` says. -/
theorem eval_destroyToken (token : Token) (user : User) (users : Table User) (i : ℕ)
    (env : ℕ → Unit) {w : Blacklist Token} (hw : w.inserted = []) :
    ∃ x, (destroyToken true token user).eval (destroySystem token).toMachine i env w () = some x ∧
      x.result = .ok () ∧ x.world.revokedTokens =
        (AuthDb.destroyToken ⟨users, w.revokedTokens⟩ token user).revokedTokens := by
  have hview : w.view i = w.revokedTokens := by
    simp [Blacklist.view, Blacklist.own, hw]
  have hrev : AuthDb.isRevoked ⟨users, w.revokedTokens⟩ token = true ↔
      token ∈ (w.view i).map RevokedToken.token := by
    simp [AuthDb.isRevoked, hview]
  refine Machine.eval_of_alone (Q := fun r _ (w' : Blacklist Token) _ => r = .ok () ∧
    w'.revokedTokens = (AuthDb.destroyToken ⟨users, w.revokedTokens⟩ token user).revokedTokens)
    (Machine.alone_bind ?_)
  by_cases hmem : token ∈ (w.view i).map RevokedToken.token
  · obtain ⟨r, hr⟩ := Option.ne_none_iff_exists'.1
      (fun hnone => Blacklist.find?_eq_none_iff.1 hnone hmem)
    have hselect : (destroySystem token).exec i (env 0) w () (.selectRevoked token) =
        some (.ok (some r), w, ()) := by
      simp only [destroySystem, Blacklist.exec, hr, Option.map_some]
    refine Machine.alone_send hselect ⟨rfl, ?_⟩
    rw [AuthDb.destroyToken, if_pos (hrev.2 hmem)]
  · have hselect : (destroySystem token).exec i (env 0) w () (.selectRevoked token) =
        some (.ok none, w.miss i token, ()) := by
      simp only [destroySystem, Blacklist.exec, Blacklist.find?_eq_none_iff.2 hmem,
        Option.map_some]
    -- Nobody else has inserted a row, so the `INSERT` does not wait.
    have hall : token ∉ (w.miss i token).allTokens := by
      rw [hview] at hmem
      simpa [Blacklist.allTokens, Blacklist.miss, hw] using hmem
    have hinsert : (destroySystem token).exec i (env 1) (w.miss i token) ()
        (.insertRevoked ⟨token, user.id⟩) =
        some (.ok (), (w.miss i token).insert i ⟨token, user.id⟩ hall, ()) := by
      have hview' : token ∉ ((w.miss i token).view i).map RevokedToken.token := hmem
      simp only [destroySystem, Blacklist.exec, if_neg hview', dif_neg hall, Option.map_some]
    refine Machine.alone_send hselect (Machine.alone_bind (Machine.alone_send hinsert
      (Machine.alone_send rfl ⟨rfl, ?_⟩)))
    rw [AuthDb.destroyToken, if_neg (mt hrev.1 hmem)]
    simp [Blacklist.commit, Blacklist.view, Blacklist.own, Blacklist.insert, Blacklist.miss, hw]

end PaySystem
