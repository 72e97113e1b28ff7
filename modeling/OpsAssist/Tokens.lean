/-
# OpsAssist.Tokens -- sign-in tokens, and whom a request comes from

A token binds a user and the role they had at sign-in; everything else about the caller is
read from the users table at each request.  Signing is code outside: `PyJwt` is what the
program relies on.

`accepted_iff`: in every run of sign-ins and changes of the users table, a request with a
token nobody forged is accepted exactly when its token was issued to a user who is active
now and has the role they had then, and it comes with what the table says now.
-/
import Mathlib.Data.Rat.Floor
import OpsAssist.Db.Models
import OpsAssist.Theory.Run

namespace OpsAssist.Tokens

set_option autoImplicit false

open Theory

def ISSUER : String := "opsassist"

def AUDIENCE : String := "opsassist-api"

/-- The claims of a token. -/
structure Payload where
  sub : String
  role : String
  iss : String
  aud : String
  iat : Int
  exp : Int
deriving DecidableEq

/-- The library that signs and verifies tokens with a secret and a pinned algorithm. -/
structure PyJwt (τ : Type) where
  encode : Payload → String → τ
  /-- the claims of a token with a valid signature and all required claims -/
  verify : String → τ → Option Payload
  verify_encode : ∀ payload secret, verify secret (encode payload secret) = some payload

/-- `jwt.decode`: besides the signature it checks audience, issuer and the two times. -/
def PyJwt.decode {τ : Type} (jwt : PyJwt τ) (secret : String) (now : ℚ) (token : τ) :
    Option Payload :=
  match jwt.verify secret token with
  | none => none
  | some payload =>
      if now < payload.iat then none
      else if (payload.exp : ℚ) ≤ now then none
      else if payload.iss ≠ ISSUER then none
      else if payload.aud ≠ AUDIENCE then none
      else some payload

structure Settings where
  jwtSecret : String
  jwtTtlSeconds : Int

structure TokenClaims where
  userId : String
  role : String
deriving DecidableEq

section

variable {τ : Type} (jwt : PyJwt τ) (settings : Settings)

/-- `issued = int(now)` -/
def issuedAt (now : ℚ) : Int := ⌊now⌋

def issueToken (userId role : String) (now : ℚ) : τ :=
  jwt.encode
    { sub := userId, role, iss := ISSUER, aud := AUDIENCE, iat := issuedAt now,
      exp := issuedAt now + settings.jwtTtlSeconds } settings.jwtSecret

/-- The verified claims, or none for `jwt.InvalidTokenError`. -/
def decodeToken (token : τ) (now : ℚ) : Option TokenClaims :=
  (jwt.decode settings.jwtSecret now token).map fun claims =>
    { userId := claims.sub, role := claims.role }

/-! ## Principals -/

/-- The row of a user. -/
def userRow (users : List User) (userId : String) : Option User := users.find? fun u => u.id == userId

def principalOf (user : User) : Principal :=
  { userId := user.id, name := user.name, department := user.department, role := user.role,
    permissions := user.permissions }

def loadPrincipal (users : List User) (userId : String) : Option Principal :=
  match userRow users userId with
  | none => none
  | some user => if user.isActive then some (principalOf user) else none

/-- `credentials.scheme.lower() != "bearer"`, of an ASCII scheme -/
def isBearer (scheme : String) : Bool := scheme.toList.map Char.toLower == "bearer".toList

/-- The caller, or the detail of the 401. -/
def getPrincipal (users : List User) (credentials : Option (String × τ)) (now : ℚ) :
    Except String Principal :=
  match credentials with
  | none => .error "invalid or missing credentials"
  | some (scheme, token) =>
      if !isBearer scheme then .error "invalid or missing credentials"
      else
        match decodeToken jwt settings token now with
        | none => .error "invalid or missing credentials"
        | some claims =>
            match loadPrincipal users claims.userId with
            | none => .error "invalid or missing credentials"
            | some principal =>
                if principal.role ≠ claims.role then
                  .error "role changed since sign-in; request a new token"
                else .ok principal

/-! ## Runs -/

/-- A token that was handed out. -/
structure Issue where
  userId : String
  role : String
  now : ℚ

def Issue.token (i : Issue) : τ := issueToken jwt settings i.userId i.role i.now

structure Site where
  users : List User
  issued : List Issue := []

inductive Event (τ : Type) where
  /-- an operator changes the users table -/
  | administer (users : List User)
  /-- `dev_token` -/
  | signIn (userId : String) (now : ℚ)
  | request (credentials : Option (String × τ)) (now : ℚ)

/-- `dev_token` signs in an active user with the role they have. -/
def Site.step (s : Site) : Event τ → Site
  | .administer users => { s with users }
  | .signIn userId now =>
      match loadPrincipal s.users userId with
      | none => s
      | some principal =>
          { s with issued := s.issued ++ [{ userId := principal.userId, role := principal.role, now }] }
  | .request _ _ => s

/-- The token was handed out, if its signature is valid. -/
def Genuine (s : Site) (token : τ) : Prop :=
  (jwt.verify settings.jwtSecret token).isSome = true →
    ∃ issue ∈ s.issued, token = issue.token jwt settings

variable {jwt settings}

/-! ## What a token says -/

/-- An issued token is good from its issue to its end. -/
theorem decode_issued {userId role : String} {at_ now : ℚ} {claims : TokenClaims} :
    decodeToken jwt settings (issueToken jwt settings userId role at_) now = some claims ↔
      (issuedAt at_ : ℚ) ≤ now ∧ now < issuedAt at_ + settings.jwtTtlSeconds ∧
        claims = { userId, role } := by
  unfold decodeToken PyJwt.decode issueToken
  rw [jwt.verify_encode]
  dsimp only
  by_cases early : now < issuedAt at_
  · rw [if_pos early]
    simp only [Option.map_none, reduceCtorEq, false_iff]
    rintro ⟨late, -⟩
    exact absurd early (not_lt.mpr late)
  · rw [if_neg early]
    by_cases late : ((issuedAt at_ + settings.jwtTtlSeconds : ℤ) : ℚ) ≤ now
    · rw [if_pos late]
      simp only [Option.map_none, reduceCtorEq, false_iff]
      rintro ⟨-, before, -⟩
      push_cast at late
      exact absurd before (not_lt.mpr late)
    · rw [if_neg late]
      push_cast at late
      simp only [ne_eq, not_true_eq_false, if_false, Option.map_some, Option.some.injEq]
      exact ⟨fun same => ⟨not_lt.mp early, not_le.mp late, same.symm⟩, fun all => all.2.2.symm⟩

theorem userRow_id {users : List User} {userId : String} {user : User}
    (found : userRow users userId = some user) : user.id = userId := by
  simpa using List.find?_some found

theorem loadPrincipal_eq_some {users : List User} {userId : String} {p : Principal} :
    loadPrincipal users userId = some p ↔
      ∃ user, userRow users userId = some user ∧ user.isActive = true ∧ p = principalOf user := by
  unfold loadPrincipal
  cases userRow users userId with
  | none => simp
  | some user =>
      simp only [Option.some.injEq, exists_eq_left']
      by_cases active : user.isActive = true
      · rw [if_pos active, Option.some.injEq]
        exact ⟨fun same => ⟨active, same.symm⟩, fun both => both.2.symm⟩
      · rw [if_neg active]
        simp only [reduceCtorEq, false_iff]
        exact fun both => active both.1

theorem getPrincipal_ok {users : List User} {scheme : String} {token : τ} {now : ℚ}
    {p : Principal} :
    getPrincipal jwt settings users (some (scheme, token)) now = .ok p ↔
      isBearer scheme = true ∧ ∃ claims, decodeToken jwt settings token now = some claims ∧
        loadPrincipal users claims.userId = some p ∧ p.role = claims.role := by
  unfold getPrincipal
  dsimp only
  by_cases bearer : isBearer scheme = true
  · simp only [bearer, Bool.not_true, Bool.false_eq_true, if_false, true_and]
    cases decodeToken jwt settings token now with
    | none => simp
    | some claims =>
        simp only [Option.some.injEq, exists_eq_left']
        cases loadPrincipal users claims.userId with
        | none => simp
        | some principal =>
            simp only [Option.some.injEq]
            by_cases same : principal.role = claims.role
            · rw [if_neg (not_not.mpr same), Except.ok.injEq]
              constructor
              · rintro rfl
                exact ⟨rfl, same⟩
              · exact fun both => both.1
            · rw [if_pos same]
              simp only [reduceCtorEq, false_iff]
              rintro ⟨rfl, other⟩
              exact same other
  · simp [bearer]

/-! ## Where tokens come from -/

/-- A sign-in somewhere in a run of events from a state. -/
def SignedIn (s : Site) (events : List (Event τ)) (issue : Issue) : Prop :=
  ∃ front back mid p, events = front ++ .signIn issue.userId issue.now :: back ∧
    Run (StepOf Site.step) s front mid ∧ loadPrincipal mid.users issue.userId = some p ∧
      p.role = issue.role

theorem loadPrincipal_userId {users : List User} {userId : String} {p : Principal}
    (found : loadPrincipal users userId = some p) : p.userId = userId := by
  obtain ⟨user, row, -, rfl⟩ := loadPrincipal_eq_some.mp found
  exact userRow_id row

theorem issued_step {s : Site} {e : Event τ} {issue : Issue} :
    issue ∈ (s.step e).issued ↔ issue ∈ s.issued ∨
      ∃ p, e = .signIn issue.userId issue.now ∧ loadPrincipal s.users issue.userId = some p ∧
        p.role = issue.role := by
  cases e with
  | administer users => simp [Site.step]
  | request credentials now => simp [Site.step]
  | signIn userId now =>
      rw [Site.step]
      cases found : loadPrincipal s.users userId with
      | none =>
          simp only [Event.signIn.injEq]
          refine ⟨.inl, ?_⟩
          rintro (old | ⟨p, ⟨rfl, -⟩, other, -⟩)
          · exact old
          · cases found.symm.trans other
      | some p =>
          have own := loadPrincipal_userId found
          simp only [List.mem_append, List.mem_singleton, Event.signIn.injEq]
          refine or_congr_right ?_
          constructor
          · rintro rfl
            exact ⟨p, ⟨own.symm, rfl⟩, by rw [own]; exact found, rfl⟩
          · rintro ⟨q, ⟨rfl, rfl⟩, other, role⟩
            have same : p = q := Option.some.inj (found.symm.trans other)
            rw [own, same, role]

/-- **A token was handed out exactly when somebody signed in for it.** -/
theorem issued_iff {s s' : Site} {events : List (Event τ)}
    (run : Run (StepOf Site.step) s events s') {issue : Issue} :
    issue ∈ s'.issued ↔ issue ∈ s.issued ∨ SignedIn s events issue := by
  induction run with
  | nil s =>
      refine ⟨.inl, ?_⟩
      rintro (old | ⟨front, back, -, -, shape, -⟩)
      · exact old
      · simp at shape
  | @cons s mid s' e events here _ ih =>
      cases here
      rw [ih, issued_step, or_assoc]
      refine or_congr_right ?_
      constructor
      · rintro (⟨p, rfl, found, role⟩ | ⟨front, back, mid, p, rfl, before, found, role⟩)
        · exact ⟨[], events, s, p, rfl, .nil s, found, role⟩
        · exact ⟨e :: front, back, mid, p, rfl, .cons rfl before, found, role⟩
      · rintro ⟨front, back, mid, p, shape, before, found, role⟩
        cases front with
        | nil =>
            cases before
            obtain ⟨rfl, rfl⟩ := List.cons.inj shape
            exact .inl ⟨p, rfl, found, role⟩
        | cons first front =>
            obtain ⟨rfl, rfl⟩ := List.cons.inj shape
            cases before with
            | cons step rest =>
                cases step
                exact .inr ⟨front, back, mid, p, rfl, rest, found, role⟩

end

/-- **A request with a genuine token is accepted exactly when somebody active signed in for it
with the role they have now, not too long ago**, and it comes with what the users table says
now. -/
theorem accepted_iff {τ : Type} (jwt : PyJwt τ) (settings : Settings) {users : List User}
    {events : List (Event τ)} {s : Site} (run : Run (StepOf Site.step) { users } events s)
    {scheme : String} {token : τ} {now : ℚ} (genuine : Genuine jwt settings s token)
    (p : Principal) :
    getPrincipal jwt settings s.users (some (scheme, token)) now = .ok p ↔
      isBearer scheme = true ∧ ∃ user at_,
        SignedIn { users } events { userId := user.id, role := user.role, now := at_ } ∧
          token = issueToken jwt settings user.id user.role at_ ∧
          (issuedAt at_ : ℚ) ≤ now ∧ now < issuedAt at_ + settings.jwtTtlSeconds ∧
          userRow s.users user.id = some user ∧ user.isActive = true ∧ p = principalOf user := by
  rw [getPrincipal_ok]
  refine and_congr_right fun _ => ?_
  constructor
  · rintro ⟨claims, decoded, found, role⟩
    have valid : (jwt.verify settings.jwtSecret token).isSome = true := by
      unfold decodeToken PyJwt.decode at decoded
      cases verified : jwt.verify settings.jwtSecret token with
      | none => simp [verified] at decoded
      | some payload => rfl
    obtain ⟨issue, issued, rfl⟩ := genuine valid
    obtain ⟨from_, until_, rfl⟩ := decode_issued.mp decoded
    obtain ⟨user, row, active, rfl⟩ := loadPrincipal_eq_some.mp found
    have own : user.id = issue.userId := userRow_id row
    have role : user.role = issue.role := role
    obtain ⟨userId, was, at_⟩ := issue
    dsimp only at own role row from_ until_ issued
    subst own role
    refine ⟨user, at_, ((issued_iff run).mp issued).resolve_left List.not_mem_nil, rfl, from_,
      until_, row, active, rfl⟩
  · rintro ⟨user, at_, -, rfl, from_, until_, row, active, rfl⟩
    exact ⟨_, decode_issued.mpr ⟨from_, until_, rfl⟩,
      loadPrincipal_eq_some.mpr ⟨user, row, active, rfl⟩, rfl⟩

/-! ## Poles -/

/-- Tokens that carry their claims and the secret they were signed with. -/
def plainJwt : PyJwt (Payload × String) where
  encode payload secret := (payload, secret)
  verify secret token := if token.2 = secret then some token.1 else none
  verify_encode _ _ := if_pos rfl

def poleUser (role : String) (permissions : List String) : User :=
  { id := "U001", name := "Ada", department := "it", role, permissions, isActive := true }

def poleSettings : Settings := { jwtSecret := "secret", jwtTtlSeconds := 3600 }

/-- Ada signs in, and a permission is taken from her. -/
def poleEvents : List (Event (Payload × String)) :=
  [.signIn "U001" 1000, .administer [poleUser "engineer" []]]

def poleSite : Site := poleEvents.foldl Site.step { users := [poleUser "engineer" ["ticket:create"]] }

/-- Her token still works, without the permission. -/
theorem accepted_pole :
    getPrincipal plainJwt poleSettings poleSite.users
        (some ("Bearer", issueToken plainJwt poleSettings "U001" "engineer" 1000)) 2000 =
      .ok (principalOf (poleUser "engineer" [])) := by
  have run : Run (StepOf Site.step) { users := [poleUser "engineer" ["ticket:create"]] } poleEvents
      poleSite := Run.stepOf_iff.mpr rfl
  have genuine : Genuine plainJwt poleSettings poleSite
      (issueToken plainJwt poleSettings "U001" "engineer" 1000) :=
    fun _ => ⟨⟨"U001", "engineer", 1000⟩, List.mem_singleton.mpr rfl, rfl⟩
  refine (accepted_iff plainJwt poleSettings run genuine _).mpr ⟨by decide, poleUser "engineer" [],
    1000, ?_, rfl, ?_, ?_, rfl, rfl, rfl⟩
  · exact ⟨[], [_], _, _, rfl, .nil _, rfl, rfl⟩
  · simp [issuedAt]
    norm_num
  · simp [issuedAt, poleSettings]
    norm_num

end OpsAssist.Tokens
