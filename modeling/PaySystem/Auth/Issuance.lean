import PaySystem.Auth.Revocation

/-!
# What the tokens of different logins share

A token is nothing but its user, its audience and its second of expiry, and the blacklist stores
token strings. Sessions that were opened in the same second therefore share their tokens, and the
logout of one of them is the logout of all; apart from that, sessions are independent.
-/

namespace PaySystem

variable {Token : Type} [DecidableEq Token] {jwt : Jwt Token} {settings : Settings}
  {users : Table User} {db : AuthDb Token} {events : List (AuthEvent Token)} {token : Token}
  {now : DateTime} {m : Moment} {r : Request Token} {kind kind' : TokenKind} {userId : ℕ}

/-- The token of the given kind in a reply. -/
def Reply.issued : Reply Token → TokenKind → Option Token
  | .loggedIn accessToken _, .access => some accessToken
  | .loggedIn _ refreshToken, .refresh => some refreshToken
  | .refreshed accessToken, .access => some accessToken
  | _, _ => none

/-- The user whom a login or a refresh is for. -/
def Request.user (jwt : Jwt Token) (settings : Settings) (db : AuthDb Token) (m : Moment) :
    Request Token → Option ℕ
  | .login userId => some userId
  | .refresh cookie =>
    ((getRefreshStrategy settings).currentUser jwt db m.first cookie).map User.id
  | _ => none

/-- When a login or a refresh writes its token of the given kind. -/
def Request.issuedAt (m : Moment) : Request Token → TokenKind → DateTime
  | .login _, .access => m.first
  | _, _ => m.second

/-- The first second in which a token is not valid any more. -/
def TokenKind.expiry (settings : Settings) (kind : TokenKind) (at' : DateTime) : ℤ :=
  at' / 10 ^ 6 + (kind.strategy settings).lifetimeSeconds

/-- The payload of a token of the given kind. -/
def TokenKind.claims (settings : Settings) (kind : TokenKind) (userId : ℕ) (at' : DateTime) :
    Claims :=
  ⟨userId, [kind.audience], kind.expiry settings at'⟩

/-- A login or a refresh of the run, at the time `at'` and for the user `userId`, has returned
`token`. -/
def Issued (jwt : Jwt Token) (settings : Settings) (users : Table User)
    (events : List (AuthEvent Token)) (kind : TokenKind) (userId : ℕ) (at' : DateTime)
    (token : Token) : Prop :=
  ∃ pre m r post, events = pre ++ .request m r :: post ∧
    ((afterRun jwt settings users pre).handle jwt settings m r).1.issued kind = some token ∧
    r.user jwt settings (afterRun jwt settings users pre) m = some userId ∧
    r.issuedAt m kind = at'

omit [DecidableEq Token] in
theorem writeToken_eq (kind : TokenKind) (at' : DateTime) (user : User) :
    (kind.strategy settings).writeToken jwt at' user =
      jwt.encode (kind.claims settings user.id at') := by
  rw [Strategy.writeToken, TokenKind.tokenAudience_strategy]
  rfl

/-- The tokens that the endpoints return. -/
theorem token_of_handle (h : (db.handle jwt settings m r).1.issued kind = some token)
    (huser : r.user jwt settings db m = some userId) :
    token = jwt.encode (kind.claims settings userId (r.issuedAt m kind)) := by
  cases r with
  | login id =>
    obtain rfl : id = userId := Option.some.inj huser
    simp only [AuthDb.handle] at h
    cases hfind : (db.users.find? id).filter User.isActive with
    | none =>
      rw [hfind] at h
      cases kind <;> cases h
    | some user =>
      have hid : user.id = id := Table.key_of_find? (Option.filter_eq_some_iff.1 hfind).1
      rw [hfind] at h
      cases kind with
      | access =>
        obtain rfl := Option.some.inj h
        rw [← hid]
        exact writeToken_eq .access m.first user
      | refresh =>
        obtain rfl := Option.some.inj h
        rw [← hid]
        exact writeToken_eq .refresh m.second user
  | refresh cookie =>
    simp only [AuthDb.handle, Request.user] at h huser
    cases hcurrent : (getRefreshStrategy settings).currentUser jwt db m.first cookie with
    | none =>
      rw [hcurrent] at huser
      cases huser
    | some user =>
      rw [hcurrent] at h huser
      obtain rfl : user.id = userId := Option.some.inj huser
      cases kind with
      | access =>
        obtain rfl := Option.some.inj h
        exact writeToken_eq .access m.second user
      | refresh => cases h
  | logout bearer => cases huser
  | logoutRefresh cookie => cases huser

theorem Issued.eq {at' : DateTime} (h : Issued jwt settings users events kind userId at' token) :
    token = jwt.encode (kind.claims settings userId at') := by
  obtain ⟨pre, m, r, post, -, htoken, huser, rfl⟩ := h
  exact token_of_handle htoken huser

omit [DecidableEq Token] in
/-- **Tokens are equal** exactly if their users, kinds and seconds are. -/
theorem encode_claims_inj {userId' : ℕ} {at₁ at₂ : DateTime} :
    jwt.encode (kind.claims settings userId at₁) = jwt.encode (kind'.claims settings userId' at₂) ↔
      kind = kind' ∧ userId = userId' ∧ at₁ / 10 ^ 6 = at₂ / 10 ^ 6 := by
  constructor
  · intro h
    have hclaims := congrArg jwt.decode h
    rw [jwt.decode_encode, jwt.decode_encode, Option.some.injEq] at hclaims
    obtain ⟨huser, haud, hexp⟩ := Claims.mk.inj hclaims
    obtain rfl : kind = kind' := TokenKind.audience_injective (List.singleton_inj.1 haud)
    exact ⟨rfl, huser, add_right_cancel hexp⟩
  · rintro ⟨rfl, rfl, hsec⟩
    rw [TokenKind.claims, TokenKind.claims, TokenKind.expiry, TokenKind.expiry, hsec]

omit [DecidableEq Token] in
/-- Reading a token of the own kind before its expiry. -/
theorem superReadToken_encode {at' : DateTime}
    (hnow : now < kind.expiry settings at' * 10 ^ 6) :
    (kind.strategy settings).superReadToken jwt db now
      (jwt.encode (kind.claims settings userId at')) = db.users.find? userId := by
  have haccepted : (kind.claims settings userId at').Accepted (kind.strategy settings) now :=
    (kind.accepted_iff _).2 ⟨List.mem_singleton.2 rfl, hnow⟩
  rw [Strategy.superReadToken, jwt.decode_encode]
  exact if_pos haccepted

/-- A logout of another token changes nothing for a token. -/
theorem readToken_next_of_ne {s : Strategy} {token' : Token}
    (hr : r = .logout token' ∨ r = .logoutRefresh token') (hne : token' ≠ token) :
    s.readToken jwt (db.next jwt settings (.request m r)) now token =
      s.readToken jwt db now token := by
  have hrevoked : (db.next jwt settings (.request m r)).isRevoked token = db.isRevoked token := by
    rw [Bool.eq_iff_iff, isRevoked_next]
    refine or_iff_left ?_
    rintro ⟨hr', -⟩
    rcases hr with rfl | rfl <;> rcases hr' with hr' | hr' <;> cases hr'
    · exact hne rfl
    · exact hne rfl
  have husers : (db.next jwt settings (.request m r)).users = db.users := by
    have hdestroy : ∀ (token : Token) (user : User),
        (db.destroyToken token user).users = db.users := by
      intro token user
      unfold AuthDb.destroyToken
      split_ifs <;> rfl
    rcases hr with rfl | rfl
    · simp only [AuthDb.next, AuthDb.handle]
      cases (getJwtStrategy settings).currentUser jwt db m.first token' with
      | none => rfl
      | some user => exact hdestroy token' user
    · simp only [AuthDb.next, AuthDb.handle]
      cases (getRefreshStrategy settings).currentUser jwt db m.first token' with
      | none => rfl
      | some user => exact hdestroy token' user
  rw [Strategy.readToken, Strategy.readToken, hrevoked, Strategy.superReadToken,
    Strategy.superReadToken, husers]

/-- **Sessions are independent up to equal tokens.** A token that a login or a refresh returned is
accepted before its expiry, unless a logout that presented the same string has succeeded. Two events
return the same string exactly if they are for the same user and kind in the same second, and the
logout of one string does nothing to another. -/
theorem issued_tokens (jwt : Jwt Token) (settings : Settings) (users : Table User)
    (events : List (AuthEvent Token)) (kind : TokenKind) (userId : ℕ) (at' : DateTime)
    (token : Token) (h : Issued jwt settings users events kind userId at' token) :
    (∀ now, now < kind.expiry settings at' * 10 ^ 6 →
      (¬ LoggedOut jwt settings users events token →
        (kind.strategy settings).readToken jwt (afterRun jwt settings users events) now token =
          (afterRun jwt settings users events).users.find? userId) ∧
      (LoggedOut jwt settings users events token →
        (kind.strategy settings).readToken jwt (afterRun jwt settings users events) now token =
          none)) ∧
    ∀ kind' userId' at₂ token', Issued jwt settings users events kind' userId' at₂ token' →
      (token = token' ↔ kind = kind' ∧ userId = userId' ∧ at' / 10 ^ 6 = at₂ / 10 ^ 6) ∧
      (¬ (kind = kind' ∧ userId = userId' ∧ at' / 10 ^ 6 = at₂ / 10 ^ 6) →
        ∀ m r, r = .logout token' ∨ r = .logoutRefresh token' → ∀ (s : Strategy) now,
          s.readToken jwt (afterRun jwt settings users (events ++ [.request m r])) now token =
            s.readToken jwt (afterRun jwt settings users events) now token) := by
  refine ⟨fun now hnow => ⟨fun hout => ?_, fun hout => ?_⟩, fun kind' userId' at₂ token' h' => ?_⟩
  · rw [← isRevoked_afterRun] at hout
    rw [readToken_of_not_revoked hout, h.eq]
    exact superReadToken_encode hnow
  · exact readToken_of_revoked (isRevoked_afterRun.2 hout)
  · have hiff : token = token' ↔ kind = kind' ∧ userId = userId' ∧
        at' / 10 ^ 6 = at₂ / 10 ^ 6 := by
      rw [h.eq, h'.eq]
      exact encode_claims_inj
    refine ⟨hiff, fun hne m r hr s now => ?_⟩
    rw [afterRun, List.foldl_append]
    exact readToken_next_of_ne hr fun heq => hne (hiff.1 heq.symm)

theorem issued_tokens_sample :
    Issued .plain {} sampleUsers sampleEvents .refresh 7 900000
        (some ⟨7, ["fastapi-users:refresh"], 604800⟩) ∧
      ∀ now, now < TokenKind.refresh.expiry {} 900000 * 10 ^ 6 →
        (TokenKind.refresh.strategy {}).readToken .plain
            (afterRun .plain {} sampleUsers sampleEvents) now
            (some ⟨7, ["fastapi-users:refresh"], 604800⟩) =
          (afterRun .plain {} sampleUsers sampleEvents).users.find? 7 := by
  have hissued : Issued .plain {} sampleUsers sampleEvents .refresh 7 900000
      (some ⟨7, ["fastapi-users:refresh"], 604800⟩) :=
    ⟨sampleEvents.take 2, _, _, [], rfl, by decide +kernel, rfl, rfl⟩
  have hout : ¬ LoggedOut .plain {} sampleUsers sampleEvents
      (some ⟨7, ["fastapi-users:refresh"], 604800⟩) := by
    rw [← isRevoked_afterRun]
    decide +kernel
  exact ⟨hissued, fun now hnow => ((issued_tokens .plain {} sampleUsers sampleEvents .refresh 7
    900000 _ hissued).1 now hnow).1 hout⟩

/-- **Sessions of the same second are not independent.** The last event of the sample run is a
login, at 0.9 seconds. It returns a token that is not accepted at 1 second, because the session of
0.1 seconds has logged out. -/
theorem login_returns_revoked :
    sampleEvents = sampleEvents.take 2 ++ [.request ⟨900000, 900000⟩ (.login 7)] ∧
    ((afterRun .plain {} sampleUsers (sampleEvents.take 2)).handle .plain {} ⟨900000, 900000⟩
      (.login 7)).1.issued .access = some (some ⟨7, ["fastapi-users:auth"], 1800⟩) ∧
    (1000000 : DateTime) < TokenKind.access.expiry {} 900000 * 10 ^ 6 ∧
    (getJwtStrategy {}).readToken .plain (afterRun .plain {} sampleUsers sampleEvents) 1000000
      (some ⟨7, ["fastapi-users:auth"], 1800⟩) = none :=
  ⟨rfl, by decide +kernel, by decide +kernel, by decide +kernel⟩

end PaySystem
