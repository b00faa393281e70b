import PaySystem.Database.Models
import PaySystem.Foundations.History

/-!
# Tokens, and the requests that issue and revoke them

Login and refresh write signed tokens with an audience and an expiry in whole seconds. A logout
stores the token that it presents, and a stored token is not accepted any more. The encoding of the
tokens is a parameter (`Jwt`). Requests are handled one after the other.
-/

namespace PaySystem

/-- The settings of the token lifetimes. They are not 0: for a lifetime of 0 the inherited
`write_token` leaves the expiry out. -/
structure Settings where
  accessTokenExpireMinutes : ℤ := 30
  refreshTokenExpireDays : ℤ := 7
  access_ne_zero : accessTokenExpireMinutes ≠ 0 := by decide
  refresh_ne_zero : refreshTokenExpireDays ≠ 0 := by decide

/-- `UserORM`, as far as the strategies read it. -/
structure User where
  id : ℕ
  isActive : Bool
  deriving DecidableEq

instance : Keyed User := ⟨User.id⟩

/-- The payload of a token. -/
structure Claims where
  sub : ℕ
  aud : List String
  exp : ℤ
  deriving DecidableEq

/-- The signed encoding of tokens: `decode` finds no payload in a string that is not validly
signed. -/
structure Jwt (Token : Type) where
  encode : Claims → Token
  decode : Token → Option Claims
  decode_encode : ∀ c, decode (encode c) = some c

/-- `RevokedToken`. -/
structure RevokedToken (Token : Type) where
  token : Token
  userId : ℕ

/-- The tables that the strategies read and write. -/
structure AuthDb (Token : Type) where
  users : Table User
  revokedTokens : List (RevokedToken Token)

/-- The parameters of a `JWTStrategyWithBlacklist`. -/
structure Strategy where
  lifetimeSeconds : ℤ
  tokenAudience : List String

/-- `get_jwt_strategy`. -/
def getJwtStrategy (settings : Settings) : Strategy where
  lifetimeSeconds := settings.accessTokenExpireMinutes * 60
  tokenAudience := ["fastapi-users:auth"]

/-- `get_refresh_strategy`. -/
def getRefreshStrategy (settings : Settings) : Strategy where
  lifetimeSeconds := settings.refreshTokenExpireDays * 60 * 60 * 24
  tokenAudience := ["fastapi-users:refresh"]

/-- The payload is for the audience and has not expired. -/
def Claims.Accepted (c : Claims) (s : Strategy) (now : DateTime) : Prop :=
  (∃ a ∈ s.tokenAudience, a ∈ c.aud) ∧ now < c.exp * 10 ^ 6

instance (c : Claims) (s : Strategy) (now : DateTime) : Decidable (c.Accepted s now) :=
  inferInstanceAs (Decidable (_ ∧ _))

variable {Token : Type} [DecidableEq Token]

/-- The token is in the blacklist. -/
def AuthDb.isRevoked (db : AuthDb Token) (token : Token) : Bool :=
  db.revokedTokens.any fun r => r.token = token

namespace Strategy

omit [DecidableEq Token] in
/-- `write_token`, at the time `now`. -/
def writeToken (s : Strategy) (jwt : Jwt Token) (now : DateTime) (user : User) : Token :=
  jwt.encode ⟨user.id, s.tokenAudience, now / 10 ^ 6 + s.lifetimeSeconds⟩

/-- The inherited `read_token`. -/
def superReadToken (s : Strategy) (jwt : Jwt Token) (db : AuthDb Token) (now : DateTime)
    (token : Token) : Option User :=
  match jwt.decode token with
  | none => none
  | some c => if c.Accepted s now then db.users.find? c.sub else none

/-- `read_token`. -/
def readToken (s : Strategy) (jwt : Jwt Token) (db : AuthDb Token) (now : DateTime)
    (token : Token) : Option User :=
  if db.isRevoked token then none else s.superReadToken jwt db now token

/-- `current_user(active=True)` for a request that presents `token`. -/
def currentUser (s : Strategy) (jwt : Jwt Token) (db : AuthDb Token) (now : DateTime)
    (token : Token) : Option User :=
  (s.readToken jwt db now token).filter User.isActive

end Strategy

/-- `destroy_token`. -/
def AuthDb.destroyToken (db : AuthDb Token) (token : Token) (user : User) : AuthDb Token :=
  if db.isRevoked token then db
  else { db with revokedTokens := db.revokedTokens ++ [⟨token, user.id⟩] }

/-! ## Requests -/

/-- Two readings of the clock during a request. -/
structure Moment where
  first : DateTime
  second : DateTime

/-- The requests to the token endpoints. A login is made with the credentials of a user. -/
inductive Request (Token : Type)
  | login (userId : ℕ)
  | refresh (cookie : Token)
  | logout (bearer : Token)
  | logoutRefresh (cookie : Token)
  deriving DecidableEq

inductive Reply (Token : Type)
  | loggedIn (accessToken refreshToken : Token)
  | refreshed (accessToken : Token)
  | loggedOut
  | badCredentials
  | unauthorized
  deriving DecidableEq

/-- The endpoints. `logout_refresh` destroys the token of the cookie through the access strategy;
all strategies share the blacklist. -/
def AuthDb.handle (jwt : Jwt Token) (settings : Settings) (db : AuthDb Token) (m : Moment) :
    Request Token → Reply Token × AuthDb Token
  | .login userId => match (db.users.find? userId).filter User.isActive with
    | none => (.badCredentials, db)
    | some user => (.loggedIn ((getJwtStrategy settings).writeToken jwt m.first user)
        ((getRefreshStrategy settings).writeToken jwt m.second user), db)
  | .refresh cookie => match (getRefreshStrategy settings).currentUser jwt db m.first cookie with
    | none => (.unauthorized, db)
    | some user => (.refreshed ((getJwtStrategy settings).writeToken jwt m.second user), db)
  | .logout bearer => match (getJwtStrategy settings).currentUser jwt db m.first bearer with
    | none => (.unauthorized, db)
    | some user => (.loggedOut, db.destroyToken bearer user)
  | .logoutRefresh cookie =>
    match (getRefreshStrategy settings).currentUser jwt db m.first cookie with
    | none => (.unauthorized, db)
    | some user => (.loggedOut, db.destroyToken cookie user)

/-- What happens in a run: a request is handled, or the user table changes in some way. -/
inductive AuthEvent (Token : Type)
  | request (m : Moment) (r : Request Token)
  | users (users : Table User)

/-- The effect of an event. -/
def AuthDb.next (jwt : Jwt Token) (settings : Settings) (db : AuthDb Token) :
    AuthEvent Token → AuthDb Token
  | .request m r => (db.handle jwt settings m r).2
  | .users users => { db with users := users }

/-- The database after a run that starts with an empty blacklist. -/
def afterRun (jwt : Jwt Token) (settings : Settings) (users : Table User)
    (events : List (AuthEvent Token)) : AuthDb Token :=
  events.foldl (AuthDb.next jwt settings) ⟨users, []⟩

/-- The event is a logout that presents `token`, by either route, and it succeeds. -/
def AuthEvent.LogsOut (jwt : Jwt Token) (settings : Settings) (token : Token) (db : AuthDb Token) :
    AuthEvent Token → Prop
  | .request m r => (r = .logout token ∨ r = .logoutRefresh token) ∧
    (db.handle jwt settings m r).1 = .loggedOut
  | .users _ => False

/-- A logout that presented `token` has succeeded in the run. -/
def LoggedOut (jwt : Jwt Token) (settings : Settings) (users : Table User)
    (events : List (AuthEvent Token)) (token : Token) : Prop :=
  AddedIn (AuthDb.next jwt settings) (AuthEvent.LogsOut jwt settings token) ⟨users, []⟩ events

variable {jwt : Jwt Token} {settings : Settings} {db : AuthDb Token} {token token' : Token}
  {m : Moment} {r : Request Token} {users : Table User} {events : List (AuthEvent Token)}
  {s : Strategy} {now : DateTime} {user : User}

/-! ## The blacklist -/

theorem isRevoked_destroyToken : (db.destroyToken token' user).isRevoked token = true ↔
    db.isRevoked token = true ∨ token' = token := by
  unfold AuthDb.destroyToken
  split_ifs with h
  · constructor
    · exact Or.inl
    · rintro (h' | rfl)
      · exact h'
      · exact h
  · simp [AuthDb.isRevoked]

/-- A token is revoked by the successful logouts that present it, and by nothing else. -/
theorem isRevoked_next (token : Token) (db : AuthDb Token) (e : AuthEvent Token) :
    (db.next jwt settings e).isRevoked token = true ↔
      db.isRevoked token = true ∨ e.LogsOut jwt settings token db := by
  cases e with
  | users users => exact (or_iff_left id).symm
  | request m r =>
    simp only [AuthDb.next, AuthEvent.LogsOut]
    cases r with
    | login userId =>
      simp only [AuthDb.handle]
      cases (db.users.find? userId).filter User.isActive <;> simp
    | refresh cookie =>
      simp only [AuthDb.handle]
      cases (getRefreshStrategy settings).currentUser jwt db m.first cookie <;> simp
    | logout bearer =>
      simp only [AuthDb.handle]
      cases (getJwtStrategy settings).currentUser jwt db m.first bearer with
      | none => simp
      | some user => simp [isRevoked_destroyToken]
    | logoutRefresh cookie =>
      simp only [AuthDb.handle]
      cases (getRefreshStrategy settings).currentUser jwt db m.first cookie with
      | none => simp
      | some user => simp [isRevoked_destroyToken]

/-- **The blacklist is the history of the logouts.** -/
theorem isRevoked_afterRun : (afterRun jwt settings users events).isRevoked token = true ↔
    LoggedOut jwt settings users events token := by
  have hempty : ¬ AuthDb.isRevoked ⟨users, []⟩ token = true := by simp [AuthDb.isRevoked]
  exact (holds_foldl_iff (fun db : AuthDb Token => db.isRevoked token = true)
    (isRevoked_next token) ⟨users, []⟩ events).trans (or_iff_right hempty)

/-! ## Reading tokens -/

theorem readToken_of_revoked (h : db.isRevoked token = true) :
    s.readToken jwt db now token = none := by
  rw [Strategy.readToken, if_pos h]

theorem readToken_of_not_revoked (h : ¬ db.isRevoked token = true) :
    s.readToken jwt db now token = s.superReadToken jwt db now token := by
  rw [Strategy.readToken, if_neg h]

/-- Who is authenticated by a token that is not revoked. -/
theorem currentUser_eq_some_iff : s.currentUser jwt db now token = some user ↔
    db.isRevoked token = false ∧ (∃ c, jwt.decode token = some c ∧ c.Accepted s now ∧
      db.users.find? c.sub = some user) ∧ user.isActive = true := by
  unfold Strategy.currentUser
  rw [Option.filter_eq_some_iff]
  cases hrev : db.isRevoked token with
  | true => simp [readToken_of_revoked hrev]
  | false =>
    rw [readToken_of_not_revoked (by simp [hrev]), Strategy.superReadToken]
    cases jwt.decode token with
    | none => simp
    | some c =>
      by_cases hc : c.Accepted s now
      · simp [hc]
      · simp [hc]

end PaySystem
