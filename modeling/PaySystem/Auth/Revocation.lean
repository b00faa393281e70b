import PaySystem.Auth.Tokens

/-!
# Who is authenticated

After any run of requests, a token authenticates exactly if it is a valid token of the guard's
audience for an active user, and no logout that presented it has succeeded, by either route.
-/

namespace PaySystem

variable {Token : Type} [DecidableEq Token] {jwt : Jwt Token} {settings : Settings}
  {users : Table User} {events : List (AuthEvent Token)} {token : Token} {now : DateTime}

/-- The two kinds of tokens, and the endpoints that they are presented to: bearer tokens to those
guarded by `fastapi_users`, refresh cookies to those guarded by `fastapi_users_refresh`. -/
inductive TokenKind
  | access
  | refresh
  deriving DecidableEq

namespace TokenKind

/-- The strategy of the guard. -/
def strategy (settings : Settings) : TokenKind → Strategy
  | access => getJwtStrategy settings
  | refresh => getRefreshStrategy settings

/-- The audience of the guard. -/
def audience : TokenKind → String
  | access => "fastapi-users:auth"
  | refresh => "fastapi-users:refresh"

theorem tokenAudience_strategy (kind : TokenKind) :
    (kind.strategy settings).tokenAudience = [kind.audience] := by
  cases kind <;> rfl

theorem audience_injective : Function.Injective audience := by
  intro a b h
  cases a <;> cases b <;> first | rfl | exact absurd h (by decide)

theorem accepted_iff (kind : TokenKind) (c : Claims) :
    c.Accepted (kind.strategy settings) now ↔ kind.audience ∈ c.aud ∧ now < c.exp * 10 ^ 6 := by
  rw [Claims.Accepted, tokenAudience_strategy]
  simp

end TokenKind

/-- The token is a validly signed and unexpired token for the audience, of an active user. -/
def ValidFor (jwt : Jwt Token) (db : AuthDb Token) (kind : TokenKind) (now : DateTime)
    (token : Token) : Prop :=
  ∃ c user, jwt.decode token = some c ∧ kind.audience ∈ c.aud ∧ now < c.exp * 10 ^ 6 ∧
    db.users.find? c.sub = some user ∧ user.isActive = true

/-- The guard accepts the token. -/
theorem isSome_currentUser_iff (kind : TokenKind) (db : AuthDb Token) :
    ((kind.strategy settings).currentUser jwt db now token).isSome = true ↔
      ValidFor jwt db kind now token ∧ ¬ db.isRevoked token = true := by
  rw [Option.isSome_iff_exists]
  constructor
  · rintro ⟨user, h⟩
    obtain ⟨hrev, ⟨c, hdecode, hc, huser⟩, hactive⟩ := currentUser_eq_some_iff.1 h
    obtain ⟨haud, hexp⟩ := (kind.accepted_iff c).1 hc
    exact ⟨⟨c, user, hdecode, haud, hexp, huser, hactive⟩, by simp [hrev]⟩
  · rintro ⟨⟨c, user, hdecode, haud, hexp, huser, hactive⟩, hrev⟩
    refine ⟨user, currentUser_eq_some_iff.2 ⟨by simpa using hrev, ⟨c, hdecode, ?_, huser⟩, hactive⟩⟩
    exact (kind.accepted_iff c).2 ⟨haud, hexp⟩

theorem currentUser_eq_none_iff (kind : TokenKind) (db : AuthDb Token) :
    (kind.strategy settings).currentUser jwt db now token = none ↔
      ¬ (ValidFor jwt db kind now token ∧ ¬ db.isRevoked token = true) := by
  rw [← isSome_currentUser_iff, Bool.not_eq_true, Option.isSome_eq_false_iff,
    Option.isNone_iff_eq_none]

omit [DecidableEq Token] in
/-- A token is issued for one audience. -/
theorem not_validFor_writeToken {kind kind' : TokenKind} (h : kind ≠ kind') (db : AuthDb Token)
    (at' : DateTime) (user : User) :
    ¬ ValidFor jwt db kind' now ((kind.strategy settings).writeToken jwt at' user) := by
  rintro ⟨c, -, hdecode, haud, -⟩
  rw [Strategy.writeToken, jwt.decode_encode, Option.some.injEq] at hdecode
  subst hdecode
  rw [TokenKind.tokenAudience_strategy, List.mem_singleton] at haud
  exact h (TokenKind.audience_injective haud).symm

/-- **Authentication over whole runs.** A token is accepted by a guard exactly if it is valid for it
and no logout that presented it has succeeded. So, by either route, a logout blocks the token for
both guards, and ends its refreshes; and no token is accepted by the guard of the other kind. -/
theorem authenticated_after_run (jwt : Jwt Token) (settings : Settings) (users : Table User)
    (events : List (AuthEvent Token)) (token : Token) :
    (∀ kind now, ((TokenKind.strategy settings kind).currentUser jwt
        (afterRun jwt settings users events) now token).isSome = true ↔
      ValidFor jwt (afterRun jwt settings users events) kind now token ∧
        ¬ LoggedOut jwt settings users events token) ∧
    (LoggedOut jwt settings users events token →
      (∀ kind now, (TokenKind.strategy settings kind).currentUser jwt
        (afterRun jwt settings users events) now token = none) ∧
      ∀ m, ((afterRun jwt settings users events).handle jwt settings m (.refresh token)).1 =
        .unauthorized) ∧
    ∀ kind kind' at' user now, kind ≠ kind' →
      token = (TokenKind.strategy settings kind).writeToken jwt at' user →
      (TokenKind.strategy settings kind').currentUser jwt (afterRun jwt settings users events) now
        token = none := by
  have hblocked : LoggedOut jwt settings users events token → ∀ kind now,
      (TokenKind.strategy settings kind).currentUser jwt (afterRun jwt settings users events) now
        token = none := by
    intro h kind now
    rw [← isRevoked_afterRun] at h
    exact (currentUser_eq_none_iff kind _).2 fun hvalid => hvalid.2 h
  refine ⟨fun kind now => ?_, fun h => ⟨hblocked h, fun m => ?_⟩, ?_⟩
  · rw [isSome_currentUser_iff, isRevoked_afterRun]
  · have hnone := hblocked h .refresh m.first
    change (getRefreshStrategy settings).currentUser jwt _ m.first token = none at hnone
    simp only [AuthDb.handle, hnone]
  · rintro kind kind' at' user now hne rfl
    exact (currentUser_eq_none_iff kind' _).2 fun hvalid =>
      not_validFor_writeToken hne _ at' user hvalid.1

/-! ## A small instance -/

/-- Payloads as they are; `none` is not validly signed. -/
def Jwt.plain : Jwt (Option Claims) where
  encode := some
  decode := id
  decode_encode _ := rfl

/-- User 7. -/
def sampleUsers : Table User := Table.empty.insert ⟨7, true⟩

/-- User 7 logs in and out in the first second, and logs in again. -/
def sampleEvents : List (AuthEvent (Option Claims)) :=
  [.request ⟨100000, 100000⟩ (.login 7),
    .request ⟨500000, 500000⟩ (.logout (some ⟨7, ["fastapi-users:auth"], 1800⟩)),
    .request ⟨900000, 900000⟩ (.login 7)]

theorem authenticated_after_run_sample :
    (LoggedOut .plain {} sampleUsers sampleEvents (some ⟨7, ["fastapi-users:auth"], 1800⟩)) ∧
    ∀ m, ((afterRun .plain {} sampleUsers sampleEvents).handle .plain {} m
      (.refresh (some ⟨7, ["fastapi-users:auth"], 1800⟩))).1 = .unauthorized := by
  have hout : LoggedOut .plain {} sampleUsers sampleEvents
      (some ⟨7, ["fastapi-users:auth"], 1800⟩) :=
    isRevoked_afterRun.1 (by decide +kernel)
  exact ⟨hout, ((authenticated_after_run .plain {} sampleUsers sampleEvents _).2.1 hout).2⟩

end PaySystem
