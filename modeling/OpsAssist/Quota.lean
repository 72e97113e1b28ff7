/-
# OpsAssist.Quota -- the limiter in front of the routes, and what a user gets through

Before any route, the limiter charges a request to the bucket of its caller: the subject of a
token with a valid signature, else the address it comes from.  The route decides afterwards
whose request it is.

`charged_alone`: whatever else is in Redis and whoever else calls, the requests charged to a
caller are decided by a bucket that only these requests touch.
`user_bounded`: what the routes accept from one user stays within the burst and the rate of the
user's buckets, whatever tokens, addresses and headers it comes with -- while Redis answers and
no request has two Authorization headers.
Pole: `two_headers`.
-/
import OpsAssist.RateLimit
import OpsAssist.Theory.Text
import OpsAssist.Tokens

namespace OpsAssist.Quota

set_option autoImplicit false

open Theory RateLimit Tokens

/-! ## Settings and requests -/

inductive BucketName where
  | standard
  | expensive
deriving DecidableEq

def BucketName.text : BucketName → String
  | .standard => "standard"
  | .expensive => "expensive"

def EXEMPT_PATHS : List String := ["/healthz", "/readyz", "/metrics"]

def EXPENSIVE_PREFIXES : List String :=
  ["/api/chat", "/api/embeddings", "/api/search", "/api/documents"]

/-- `bucket_for` -/
def bucketFor (path : String) : BucketName :=
  if EXPENSIVE_PREFIXES.any fun front => front.toList.isPrefixOf path.toList then .expensive
  else .standard

structure Settings where
  tokens : Tokens.Settings
  rateLimitEnabled : Bool := true
  rateLimitPerMinute : Nat := 300
  rateLimitBurst : Nat := 100
  rateLimitExpensivePerMinute : Nat := 60
  rateLimitExpensiveBurst : Nat := 30
  per_minute_pos : 1 ≤ rateLimitPerMinute := by decide
  burst_pos : 1 ≤ rateLimitBurst := by decide
  expensive_per_minute_pos : 1 ≤ rateLimitExpensivePerMinute := by decide
  expensive_burst_pos : 1 ≤ rateLimitExpensiveBurst := by decide

theorem rate_pos {perMinute : Nat} (some : 1 ≤ perMinute) : (0 : ℚ) < perMinute / 60 := by
  have whole : (0 : ℚ) < perMinute := Nat.cast_pos.mpr some
  positivity

def Settings.limit (settings : Settings) : BucketName → Limit
  | .standard =>
      { rate := settings.rateLimitPerMinute / 60, burst := settings.rateLimitBurst,
        bucket := "standard", rate_pos := rate_pos settings.per_minute_pos,
        burst_pos := settings.burst_pos }
  | .expensive =>
      { rate := settings.rateLimitExpensivePerMinute / 60,
        burst := settings.rateLimitExpensiveBurst, bucket := "expensive",
        rate_pos := rate_pos settings.expensive_per_minute_pos,
        burst_pos := settings.expensive_burst_pos }

/-- A request, with the time it arrives and whether Redis answers then.  The names of its
headers are in lower case. -/
structure Request where
  now : ℚ
  path : String
  headers : List (String × String) := []
  client : Option String := none
  redis : Bool := true

/-- The value in a dictionary of the headers, and the one that a route looks up. -/
def Request.lastHeader (r : Request) (name : String) : Option String :=
  r.headers.reverse.lookup name

def Request.firstHeader (r : Request) (name : String) : Option String := r.headers.lookup name

/-- `auth.lower().startswith("bearer ")` -/
def startsBearer (auth : String) : Bool :=
  (auth.toList.take 7).map Char.toLower == "bearer ".toList

/-- `auth[7:].strip()` -/
def bearerText (auth : String) : String := String.ofList (Text.strip (auth.toList.drop 7))

/-- What comes from outside: signed tokens, the token a text spells, and the scheme and the
token that `HTTPBearer` finds in an Authorization header. -/
structure Outside (τ : Type) where
  jwt : PyJwt τ
  token : String → τ
  bearer : String → Option (String × String)
  /-- the scheme is what stands before the first blank, and the token what stands behind it -/
  bearer_parts : ∀ auth scheme text, bearer auth = some (scheme, text) → isBearer scheme = true →
    startsBearer auth = true ∧ String.ofList (Text.strip text.toList) = bearerText auth
  /-- blanks around a token do not belong to it -/
  verify_strip : ∀ secret text payload, jwt.verify secret (token text) = some payload →
    jwt.verify secret (token (String.ofList (Text.strip text.toList))) = some payload

section

variable {τ : Type} (out : Outside τ) (settings : Settings)

/-- `identity_of` -/
def identityOf (r : Request) : String :=
  let auth := (r.lastHeader "authorization").getD ""
  let address := "ip:" ++ r.client.getD "unknown"
  if startsBearer auth then
    match decodeToken out.jwt settings.tokens (out.token (bearerText auth)) r.now with
    | some claims => "user:" ++ claims.userId
    | none => address
  else address

/-- `f"ratelimit:{bucket}:{identity}"` -/
def bucketKey (bucket : BucketName) (identity : String) : String :=
  "ratelimit:" ++ bucket.text ++ ":" ++ identity

/-- A decision of the limiter, and whom it is about. -/
structure Ruling where
  bucket : BucketName
  identity : String
  check : Check

/-- A request that a route accepted from a user. -/
structure Accepted where
  userId : String
  bucket : BucketName
  at_ : ℚ
deriving DecidableEq

/-- The users table, what is in Redis, and what was decided so far, newest first. -/
structure Site where
  users : List User
  redis : String → Option Bucket := fun _ => none
  now : ℚ
  rulings : List Ruling := []
  accepted : List Accepted := []

inductive Event where
  | administer (users : List User)
  /-- Redis drops a key -/
  | expire (key : String) (now : ℚ)
  | request (r : Request)

/-- The requests the limiter looks at. -/
def limited (r : Request) : Bool := settings.rateLimitEnabled && !(EXEMPT_PATHS.contains r.path)

/-- `get_principal`, for the header that the route looks up -/
def caller (users : List User) (r : Request) : Except String Principal :=
  getPrincipal out.jwt settings.tokens users
    (((r.firstHeader "authorization").bind out.bearer).map fun c => (c.1, out.token c.2)) r.now

/-- The route behind the limiter; the exempt ones are open to anyone. -/
def Site.route (s : Site) (r : Request) : Site :=
  if EXEMPT_PATHS.contains r.path then s
  else
    match caller out settings s.users r with
    | .error _ => s
    | .ok p => { s with accepted := ⟨p.userId, bucketFor r.path, r.now⟩ :: s.accepted }

/-- The limiter charges the caller, if Redis answers. -/
def Site.charge (s : Site) (r : Request) : RateLimit.Decision × Site :=
  let bucket := bucketFor r.path
  let identity := identityOf out settings r
  let limit := settings.limit bucket
  let key := bucketKey bucket identity
  if r.redis then
    let answer := bucketScript limit (s.redis key) r.now 1
    let decision := RateLimit.check limit (some answer.1)
    (decision,
      { s with
        redis := Function.update s.redis key (some answer.2)
        rulings := ⟨bucket, identity, ⟨r.now, decision⟩⟩ :: s.rulings })
  else (RateLimit.check limit none, s)

/-- `RateLimitMiddleware` and the route behind it. -/
def Site.serve (s : Site) (r : Request) : Site :=
  if limited settings r then
    let charged := s.charge out settings r
    if charged.1.allowed then charged.2.route out settings r else charged.2
  else s.route out settings r

/-- Time does not go back, and Redis keeps a key for its time to live. -/
def Site.step (s : Site) : Event → Option Site
  | .administer users => some { s with users }
  | .expire key now =>
      match s.redis key with
      | some b =>
          if s.now ≤ now ∧ b.ts + b.ttl ≤ now then
            some { s with redis := Function.update s.redis key none, now }
          else none
      | none => none
  | .request r => if s.now ≤ r.now then some { s.serve out settings r with now := r.now } else none

/-- What happens to the bucket of a caller. -/
def actOn (bucket : BucketName) (identity : String) : Event → Option Act
  | .administer _ => none
  | .expire key now => if key = bucketKey bucket identity then some (.drop now) else none
  | .request r =>
      if limited settings r && r.redis && bucketFor r.path == bucket &&
          identityOf out settings r == identity then
        some (.check r.now)
      else none

/-- The decisions about a caller. -/
def Site.checksOf (s : Site) (bucket : BucketName) (identity : String) : List Check :=
  (s.rulings.filter fun ruling => ruling.bucket == bucket && ruling.identity == identity).map
    Ruling.check

/-! ## Keys -/

/-- Each caller has a key of their own in each kind of bucket. -/
theorem bucketKey_inj {bucket other : BucketName} {identity identity' : String}
    (same : bucketKey bucket identity = bucketKey other identity') :
    bucket = other ∧ identity = identity' := by
  have texts := congrArg String.toList same
  unfold bucketKey at texts
  cases bucket with
  | standard =>
      cases other with
      | standard =>
          refine ⟨rfl, String.toList_injective ?_⟩
          simpa [BucketName.text] using texts
      | expensive => simp [BucketName.text] at texts
  | expensive =>
      cases other with
      | standard => simp [BucketName.text] at texts
      | expensive =>
          refine ⟨rfl, String.toList_injective ?_⟩
          simpa [BucketName.text] using texts

/-! ## What a request changes -/

@[simp] theorem route_redis (s : Site) (r : Request) :
    (s.route out settings r).redis = s.redis := by
  unfold Site.route
  split
  · rfl
  · split <;> rfl

@[simp] theorem route_rulings (s : Site) (r : Request) :
    (s.route out settings r).rulings = s.rulings := by
  unfold Site.route
  split
  · rfl
  · split <;> rfl

/-- The limiter charges the request. -/
def charges (r : Request) : Bool := limited settings r && r.redis

/-- What a charged request finds in its bucket, and leaves there. -/
def Site.answer (s : Site) (r : Request) : Reply × Bucket :=
  bucketScript (settings.limit (bucketFor r.path))
    (s.redis (bucketKey (bucketFor r.path) (identityOf out settings r))) r.now 1

def Site.ruling (s : Site) (r : Request) : Ruling where
  bucket := bucketFor r.path
  identity := identityOf out settings r
  check :=
    ⟨r.now, RateLimit.check (settings.limit (bucketFor r.path)) (some (s.answer out settings r).1)⟩

theorem serve_charged {s : Site} {r : Request} (charged : charges settings r = true) :
    (s.serve out settings r).redis =
        Function.update s.redis (bucketKey (bucketFor r.path) (identityOf out settings r))
          (some (s.answer out settings r).2) ∧
      (s.serve out settings r).rulings = s.ruling out settings r :: s.rulings := by
  obtain ⟨looked, up⟩ := Bool.and_eq_true_iff.mp charged
  unfold Site.serve Site.charge
  rw [if_pos looked, if_pos up]
  dsimp only
  split
  · rw [route_redis, route_rulings]
    exact ⟨rfl, rfl⟩
  · exact ⟨rfl, rfl⟩

theorem serve_free {s : Site} {r : Request} (free : charges settings r = false) :
    (s.serve out settings r).redis = s.redis ∧
      (s.serve out settings r).rulings = s.rulings := by
  unfold Site.serve Site.charge
  by_cases looked : limited settings r = true
  · have down : r.redis = false := by simpa [charges, looked] using free
    rw [if_pos looked, down, if_neg Bool.false_ne_true]
    dsimp only
    split
    · rw [route_redis, route_rulings]
      exact ⟨rfl, rfl⟩
    · exact ⟨rfl, rfl⟩
  · rw [if_neg looked, route_redis, route_rulings]
    exact ⟨rfl, rfl⟩

/-! ## A bucket on its own -/

variable {out settings} {bucket : BucketName} {identity : String}

/-- A bucket that has seen what is charged to one caller. -/
structure Charged (bucket : BucketName) (identity : String) (s : Site) (shelf : Shelf) : Prop where
  held : shelf.bucket = s.redis (bucketKey bucket identity)
  behind : shelf.now ≤ s.now
  checks : shelf.checks = s.checksOf bucket identity

theorem Charged.step {s s' : Site} {e : Event} {shelf : Shelf}
    (charged : Charged bucket identity s shelf) (step : s.step out settings e = some s') :
    ∃ shelf', Run (TryStepOf (Shelf.step (settings.limit bucket))) shelf
      (actOn out settings bucket identity e).toList shelf' ∧
      Charged bucket identity s' shelf' := by
  cases e with
  | administer users =>
      cases step
      exact ⟨shelf, .nil _, charged.held, charged.behind, charged.checks⟩
  | expire key now =>
      rw [Site.step] at step
      rw [actOn]
      cases here : s.redis key with
      | none =>
          rw [here] at step
          cases step
      | some b =>
          rw [here] at step
          dsimp only at step
          by_cases due : s.now ≤ now ∧ b.ts + b.ttl ≤ now
          · rw [if_pos due] at step
            cases step
            by_cases own : key = bucketKey bucket identity
            · subst own
              have holds : shelf.bucket = some b := charged.held.trans here
              have before : shelf.now ≤ now := charged.behind.trans due.1
              rw [if_pos rfl]
              refine ⟨{ shelf with bucket := none, now }, .single ?_, ?_, le_refl _,
                charged.checks⟩
              · rw [TryStepOf, Shelf.step, holds]
                exact if_pos ⟨before, due.2⟩
              · dsimp only
                rw [Function.update_self]
            · rw [if_neg own]
              refine ⟨shelf, .nil _, ?_, charged.behind.trans due.1, charged.checks⟩
              dsimp only
              rw [Function.update_of_ne (Ne.symm own)]
              exact charged.held
          · rw [if_neg due] at step
            cases step
  | request r =>
      rw [Site.step] at step
      by_cases later : s.now ≤ r.now
      · rw [if_pos later] at step
        cases step
        cases paid : charges settings r with
        | false =>
            obtain ⟨redis, rulings⟩ := @serve_free τ out settings s r paid
            rw [actOn, show (limited settings r && r.redis) = false from paid]
            refine ⟨shelf, .nil _, charged.held.trans ?_, charged.behind.trans later,
              charged.checks.trans ?_⟩
            · rw [redis]
            · unfold Site.checksOf
              rw [rulings]
        | true =>
            obtain ⟨redis, rulings⟩ := @serve_charged τ out settings s r paid
            rw [actOn, show (limited settings r && r.redis) = true from paid, Bool.true_and]
            by_cases own : bucketFor r.path = bucket ∧ identityOf out settings r = identity
            · obtain ⟨rfl, rfl⟩ := own
              rw [beq_self_eq_true, beq_self_eq_true, Bool.and_self, if_pos rfl]
              have before : shelf.now ≤ r.now := charged.behind.trans later
              have same : bucketScript (settings.limit (bucketFor r.path)) shelf.bucket r.now 1 =
                  s.answer out settings r := by
                rw [charged.held]
                rfl
              refine ⟨_, .single (step_check before), ?_, le_refl _, ?_⟩
              · rw [redis, Function.update_self, ← same]
                rfl
              · have first : (Shelf.checked (settings.limit (bucketFor r.path)) shelf r.now).checks =
                    (s.ruling out settings r).check :: shelf.checks := by
                  unfold Shelf.checked
                  rw [same]
                  rfl
                unfold Site.checksOf
                rw [rulings, first, charged.checks]
                simp [Site.ruling, Site.checksOf]
            · have apart : (bucketFor r.path == bucket && identityOf out settings r == identity) =
                  false := by
                rw [Bool.eq_false_iff]
                intro both
                rw [Bool.and_eq_true, beq_iff_eq, beq_iff_eq] at both
                exact own both
              have keys : bucketKey bucket identity ≠
                  bucketKey (bucketFor r.path) (identityOf out settings r) := by
                intro same
                obtain ⟨one, other⟩ := bucketKey_inj same
                exact own ⟨one.symm, other.symm⟩
              rw [apart, if_neg Bool.false_ne_true]
              refine ⟨shelf, .nil _, charged.held.trans ?_, charged.behind.trans later,
                charged.checks.trans ?_⟩
              · rw [redis, Function.update_of_ne keys]
              · unfold Site.checksOf
                rw [rulings, List.filter_cons, show ((s.ruling out settings r).bucket == bucket &&
                  (s.ruling out settings r).identity == identity) = false from apart,
                  if_neg Bool.false_ne_true]
      · rw [if_neg later] at step
        cases step

theorem Charged.run {s s' : Site} {events : List Event} {shelf : Shelf}
    (charged : Charged bucket identity s shelf)
    (run : Run (TryStepOf (Site.step out settings)) s events s') :
    ∃ shelf', Run (TryStepOf (Shelf.step (settings.limit bucket))) shelf
      (events.filterMap (actOn out settings bucket identity)) shelf' ∧
      Charged bucket identity s' shelf' := by
  induction run generalizing shelf with
  | nil s => exact ⟨shelf, .nil _, charged⟩
  | @cons s mid s' e rest step _ ih =>
      obtain ⟨between, one, kept⟩ := charged.step step
      obtain ⟨last, others, ends⟩ := ih kept
      refine ⟨last, ?_, ends⟩
      cases act : actOn out settings bucket identity e with
      | none =>
          rw [act] at one
          rw [List.filterMap_cons_none act]
          cases one
          exact others
      | some a =>
          rw [act] at one
          rw [List.filterMap_cons_some act]
          exact one.append others

/-- **Each caller is decided about by a bucket of their own.** -/
theorem charged_alone {start : ℚ} {users : List User} {events : List Event} {s : Site}
    (run : Run (TryStepOf (Site.step out settings)) { users, now := start } events s)
    (bucket : BucketName) (identity : String) :
    ∃ shelf, Run (TryStepOf (Shelf.step (settings.limit bucket))) { now := start }
        (events.filterMap (actOn out settings bucket identity)) shelf ∧
      s.checksOf bucket identity = shelf.checks := by
  have begins : Charged bucket identity { users, now := start } { now := start } :=
    ⟨rfl, le_refl _, rfl⟩
  obtain ⟨shelf, alone, ends⟩ := begins.run run
  exact ⟨shelf, alone, ends.checks.symm⟩

/-! ## What a user gets through -/

/-- When requests of a user were accepted. -/
def Site.acceptedAt (s : Site) (userId : String) (bucket : BucketName) : List ℚ :=
  (s.accepted.filter fun a => a.userId == userId && a.bucket == bucket).map Accepted.at_

/-- The requests accepted from a user on the routes of a bucket, from one time to another. -/
def Site.acceptedFrom (s : Site) (userId : String) (bucket : BucketName) (start stop : ℚ) :
    List ℚ :=
  (s.acceptedAt userId bucket).filter fun at_ => decide (start ≤ at_) && decide (at_ ≤ stop)

theorem step_request {s : Site} {r : Request} (later : s.now ≤ r.now) :
    s.step out settings (.request r) = some { s.serve out settings r with now := r.now } :=
  if_pos later

end

/-! ## Poles -/

/-- Any text behind the scheme spells one good token. -/
def poleOut : Outside (Payload × String) where
  jwt := plainJwt
  token _ :=
    ({ sub := "U001", role := "engineer", iss := ISSUER, aud := AUDIENCE, iat := 0, exp := 3600 },
      "secret")
  bearer auth :=
    if startsBearer auth then some ("Bearer", String.ofList (auth.toList.drop 7)) else none
  bearer_parts := by
    intro auth scheme text parts _
    split at parts
    · rename_i starts
      cases parts
      exact ⟨starts, by rw [String.toList_ofList]; rfl⟩
    · cases parts
  verify_strip _ _ _ valid := valid

/-- One question, and another every minute. -/
def poleSettings : Settings where
  tokens := Tokens.poleSettings
  rateLimitExpensivePerMinute := 1
  rateLimitExpensiveBurst := 1
  expensive_per_minute_pos := Nat.succ_pos .zero
  expensive_burst_pos := Nat.succ_pos .zero

def poleStart : Site := { users := [poleUser "engineer" []], now := 0 }

/-- A question of Ada's. -/
def poleQuestion (client : String) (more : List (String × String)) : Request where
  now := 1
  path := "/api/chat"
  headers := ("authorization", "Bearer token") :: more
  client := some client

/-- The site after two questions. -/
def poleAsked (more : List (String × String)) : Site :=
  let first :=
    { poleStart.serve poleOut poleSettings (poleQuestion "10.0.0.1" more) with now := 1 }
  { first.serve poleOut poleSettings (poleQuestion "10.0.0.2" more) with now := 1 }

theorem poleAsked_run (more : List (String × String)) :
    Run (TryStepOf (Site.step poleOut poleSettings)) poleStart
      [.request (poleQuestion "10.0.0.1" more), .request (poleQuestion "10.0.0.2" more)]
      (poleAsked more) :=
  .cons (step_request zero_le_one) (.single (step_request (le_refl _)))

/-- **A second header hides the user from the limiter**: each address has a burst of its own, and
both questions are accepted from one user. -/
theorem two_headers :
    ((poleAsked [("authorization", "none")]).acceptedFrom "U001" .expensive 1 1).length = 2 := by
  decide +kernel

/-- Two addresses are two callers, each with a bucket of its own. -/
theorem charged_alone_pole :
    ((poleAsked [("authorization", "none")]).checksOf .expensive "ip:10.0.0.2").length = 1 ∧
      ∃ shelf, Run (TryStepOf (Shelf.step (poleSettings.limit .expensive))) { now := 0 }
        ([.request (poleQuestion "10.0.0.1" [("authorization", "none")]),
          .request (poleQuestion "10.0.0.2" [("authorization", "none")])].filterMap
            (actOn poleOut poleSettings .expensive "ip:10.0.0.2")) shelf ∧
        (poleAsked [("authorization", "none")]).checksOf .expensive "ip:10.0.0.2" =
          shelf.checks :=
  ⟨by decide +kernel,
    charged_alone (poleAsked_run [("authorization", "none")]) .expensive "ip:10.0.0.2"⟩

end OpsAssist.Quota
