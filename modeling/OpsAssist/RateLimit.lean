/-
# OpsAssist.RateLimit -- a token bucket in Redis

One bucket as it is checked over time: the script that refills it and takes from it, and the key
that Redis drops when it has not been used for long enough.  Time and tokens are exact.

`bucket_bounds`: the tokens stay in the bucket, any time interval admits at most a burst and
what the rate brings meanwhile, dropping the key changes no decision, and whoever waits as long
as advertised is admitted.
-/
import Mathlib.Data.Rat.Floor
import OpsAssist.Theory.Refill
import OpsAssist.Theory.Run

namespace OpsAssist.RateLimit

set_option autoImplicit false

open Theory

/-! ## The script -/

/-- What a bucket is checked with. -/
structure Limit where
  /-- tokens per second -/
  rate : ℚ
  burst : Nat
  bucket : String := "standard"
  rate_pos : 0 < rate := by norm_num
  burst_pos : 1 ≤ burst := by decide

/-- The hash stored under the key, with the time to live that its last use set. -/
structure Bucket where
  tokens : ℚ
  ts : ℚ
  ttl : Int
deriving DecidableEq

structure Reply where
  allowed : Bool
  retry : ℚ
  tokens : ℚ

variable (l : Limit)

/-- What is in the bucket: a missing key is a full one. -/
def fill (bucket : Option Bucket) (now : ℚ) : ℚ :=
  match bucket with
  | none => refill l.rate l.burst l.burst (now - now)
  | some b => refill l.rate l.burst b.tokens (now - b.ts)

/-- `_BUCKET_SCRIPT` -/
def bucketScript (bucket : Option Bucket) (now cost : ℚ) : Reply × Bucket :=
  let tokens := fill l bucket now
  let ttl := ⌈(l.burst : ℚ) / l.rate⌉ + 60
  if cost ≤ tokens then (⟨true, 0, tokens - cost⟩, ⟨tokens - cost, now, ttl⟩)
  else (⟨false, (cost - tokens) / l.rate, tokens⟩, ⟨tokens, now, ttl⟩)

structure Decision where
  allowed : Bool
  retryAfter : Int
  remaining : Int
  bucket : String
deriving DecidableEq

/-- `int(x)`: towards zero. -/
def truncate (x : ℚ) : Int := x.num.tdiv x.den

/-- `RateLimiter.check`, with what the script replies; it fails open without Redis. -/
def check (reply : Option Reply) : Decision :=
  match reply with
  | none => ⟨true, 0, l.burst, l.bucket⟩
  | some r => ⟨r.allowed, max 1 ⌈r.retry⌉, max 0 (truncate r.tokens), l.bucket⟩

/-! ## One bucket over time -/

structure Check where
  at_ : ℚ
  decision : Decision
deriving DecidableEq

/-- The key, when it was last touched, and the checks made, newest first. -/
structure Shelf where
  bucket : Option Bucket := none
  now : ℚ
  checks : List Check := []

inductive Act where
  | check (now : ℚ)
  /-- Redis drops the key -/
  | drop (now : ℚ)

def Act.isCheck : Act → Bool
  | .check _ => true
  | .drop _ => false

/-- Time does not go back, and Redis keeps a key for its time to live. -/
def Shelf.step (s : Shelf) : Act → Option Shelf
  | .check now =>
      if s.now ≤ now then
        let answer := bucketScript l s.bucket now 1
        some
          { bucket := some answer.2, now
            checks := ⟨now, check l (some answer.1)⟩ :: s.checks }
      else none
  | .drop now =>
      match s.bucket with
      | some b =>
          if s.now ≤ now ∧ b.ts + b.ttl ≤ now then some { s with bucket := none, now } else none
      | none => none

/-- The requests admitted from one time to another. -/
def admitted (checks : List Check) (start stop : ℚ) : List Check :=
  checks.filter fun c => c.decision.allowed && decide (start ≤ c.at_) && decide (c.at_ ≤ stop)

variable {l}

/-! ## What a check does -/

theorem fill_le (bucket : Option Bucket) (now : ℚ) : fill l bucket now ≤ l.burst := by
  unfold fill
  cases bucket <;> exact refill_le

/-- A missing key is a full bucket. -/
theorem fill_none (now : ℚ) : fill l none now = l.burst := by
  apply refill_full
  rw [sub_self, zero_mul, add_zero]

/-- A bucket left alone for its time to live is full again. -/
theorem fill_expired {b : Bucket} {now : ℚ} (set : b.ttl = ⌈(l.burst : ℚ) / l.rate⌉ + 60)
    (some : 0 ≤ b.tokens) (late : b.ts + b.ttl ≤ now) : fill l (.some b) now = l.burst := by
  apply refill_full
  have whole : (l.burst : ℚ) / l.rate ≤ now - b.ts := by
    have ceiling := Int.le_ceil ((l.burst : ℚ) / l.rate)
    rw [set] at late
    push_cast at late
    linarith
  have gained := (div_le_iff₀ l.rate_pos).mp whole
  linarith

theorem bucketScript_allowed {bucket : Option Bucket} {now cost : ℚ}
    (enough : cost ≤ fill l bucket now) :
    bucketScript l bucket now cost = (⟨true, 0, fill l bucket now - cost⟩,
      ⟨fill l bucket now - cost, now, ⌈(l.burst : ℚ) / l.rate⌉ + 60⟩) := if_pos enough

theorem bucketScript_denied {bucket : Option Bucket} {now cost : ℚ}
    (short : ¬cost ≤ fill l bucket now) :
    bucketScript l bucket now cost =
      (⟨false, (cost - fill l bucket now) / l.rate, fill l bucket now⟩,
        ⟨fill l bucket now, now, ⌈(l.burst : ℚ) / l.rate⌉ + 60⟩) := if_neg short

/-- The bucket a check leaves. -/
structure Bucket.Fits (l : Limit) (b : Bucket) (now : ℚ) : Prop where
  some : 0 ≤ b.tokens
  room : b.tokens ≤ l.burst
  past : b.ts ≤ now
  ttl : b.ttl = ⌈(l.burst : ℚ) / l.rate⌉ + 60

theorem fill_nonneg {b : Bucket} {now later : ℚ} (fits : b.Fits l now) (ahead : now ≤ later) :
    0 ≤ fill l (some b) later := by
  apply refill_nonneg l.rate_pos.le (Nat.cast_nonneg _) fits.some
  have past := fits.past
  linarith

/-- No time brings more than its share. -/
theorem fill_add_le (bucket : Option Bucket) {now later : ℚ} (ahead : now ≤ later) :
    fill l bucket later ≤ fill l bucket now + (later - now) * l.rate := by
  have gap : 0 ≤ later - now := sub_nonneg.mpr ahead
  cases bucket with
  | none =>
      have gained : 0 ≤ (later - now) * l.rate := mul_nonneg gap l.rate_pos.le
      rw [fill_none, fill_none]
      linarith
  | some b =>
      have split : later - b.ts = now - b.ts + (later - now) := by ring
      unfold fill
      dsimp only
      rw [split]
      exact refill_add_le l.rate_pos.le gap

/-- **A check** takes a token if there is one, and advertises a wait if there is none. -/
theorem check_cases (l : Limit) (bucket : Option Bucket) (now : ℚ) :
    let answer := bucketScript l bucket now 1
    (1 ≤ fill l bucket now ∧ answer.1.allowed = true ∧
      answer.2 = ⟨fill l bucket now - 1, now, ⌈(l.burst : ℚ) / l.rate⌉ + 60⟩) ∨
    (fill l bucket now < 1 ∧ answer.1.allowed = false ∧
      answer.1.retry = (1 - fill l bucket now) / l.rate ∧
      answer.2 = ⟨fill l bucket now, now, ⌈(l.burst : ℚ) / l.rate⌉ + 60⟩) := by
  by_cases enough : 1 ≤ fill l bucket now
  · left
    rw [bucketScript_allowed enough]
    exact ⟨enough, rfl, rfl⟩
  · right
    rw [bucketScript_denied enough]
    exact ⟨not_le.mp enough, rfl, rfl, rfl⟩

/-- What is left right after a check. -/
theorem fill_now {tokens now : ℚ} {ttl : Int} (room : tokens ≤ l.burst) :
    fill l (some ⟨tokens, now, ttl⟩) now = tokens := by
  unfold fill refill
  dsimp only
  rw [sub_self, zero_mul, add_zero]
  exact min_eq_right room

/-! ## Every run -/

/-- What holds of a bucket whenever it is looked at. -/
structure Sound (l : Limit) (s : Shelf) : Prop where
  fits : ∀ b ∈ s.bucket, b.Fits l s.now
  past : ∀ c ∈ s.checks, c.at_ ≤ s.now
  /-- what was admitted since some time is paid for by the burst and the time since -/
  paid : ∀ start ≤ s.now, ((admitted s.checks start s.now).length : ℚ) + fill l s.bucket s.now ≤
    l.burst + l.rate * (s.now - start)
  bounded : ∀ start stop, start ≤ stop →
    ((admitted s.checks start stop).length : ℚ) ≤ l.burst + l.rate * (stop - start)

/-- Nothing is admitted in an empty interval, nor after the last check. -/
theorem admitted_after {checks : List Check} {start t : ℚ}
    (before : ∀ c ∈ checks, c.at_ < start) : admitted checks start t = [] := by
  apply List.filter_eq_nil_iff.mpr
  intro c mem
  have early := not_le.mpr (before c mem)
  simp [early]

/-- Only the checks made so far count. -/
theorem admitted_until {checks : List Check} {start stop stop' : ℚ}
    (all : ∀ c ∈ checks, c.at_ ≤ stop) (all' : ∀ c ∈ checks, c.at_ ≤ stop') :
    admitted checks start stop = admitted checks start stop' := by
  apply List.filter_congr
  intro c mem
  simp [all c mem, all' c mem]

theorem start_sound (l : Limit) (now : ℚ) : Sound l { now } where
  fits _ none := nomatch none
  past _ mem := absurd mem List.not_mem_nil
  paid start early := by
    have gained : 0 ≤ l.rate * (now - start) :=
      mul_nonneg l.rate_pos.le (sub_nonneg.mpr early)
    show ((0 : Nat) : ℚ) + fill l none now ≤ _
    rw [fill_none]
    push_cast
    linarith
  bounded start stop order := by
    have gained : 0 ≤ l.rate * (stop - start) :=
      mul_nonneg l.rate_pos.le (sub_nonneg.mpr order)
    show ((0 : Nat) : ℚ) ≤ _
    push_cast
    have room : (0 : ℚ) ≤ l.burst := Nat.cast_nonneg _
    linarith

/-- The state after a check. -/
def Shelf.checked (l : Limit) (s : Shelf) (now : ℚ) : Shelf :=
  let answer := bucketScript l s.bucket now 1
  { bucket := some answer.2, now, checks := ⟨now, check l (some answer.1)⟩ :: s.checks }

theorem step_check {s : Shelf} {now : ℚ} (later : s.now ≤ now) :
    s.step l (.check now) = some (s.checked l now) := if_pos later

theorem checked_fits {s : Shelf} (sound : Sound l s) {now : ℚ} (later : s.now ≤ now) :
    ∀ b ∈ (s.checked l now).bucket, b.Fits l now := by
  rintro b ⟨⟩
  have full := fill_le (l := l) s.bucket now
  rcases check_cases l s.bucket now with ⟨enough, -, left⟩ | ⟨short, -, -, left⟩
  · rw [left]
    refine ⟨?_, ?_, le_refl now, rfl⟩
    · exact sub_nonneg.mpr enough
    · show fill l s.bucket now - 1 ≤ _
      linarith
  · rw [left]
    refine ⟨?_, full, le_refl now, rfl⟩
    cases held : s.bucket with
    | none =>
        show 0 ≤ fill l none now
        rw [fill_none]
        exact Nat.cast_nonneg _
    | some b => exact fill_nonneg (sound.fits b held) later

/-- Waiting is paid for by the rate. -/
theorem paid_later {s : Shelf} (sound : Sound l s) {now : ℚ} (later : s.now ≤ now) (start : ℚ)
    (early : start ≤ now) :
    ((admitted s.checks start now).length : ℚ) + fill l s.bucket now ≤
      l.burst + l.rate * (now - start) := by
  by_cases old : start ≤ s.now
  · have paid := sound.paid start old
    have brought := fill_add_le (l := l) s.bucket later
    rw [admitted_until sound.past fun c mem => (sound.past c mem).trans later] at paid
    have sum : l.rate * (now - start) = l.rate * (s.now - start) + (now - s.now) * l.rate := by
      ring
    linarith
  · have none := admitted_after (t := now) fun c mem =>
      lt_of_le_of_lt (sound.past c mem) (not_le.mp old)
    have full := fill_le (l := l) s.bucket now
    have gained : 0 ≤ l.rate * (now - start) :=
      mul_nonneg l.rate_pos.le (sub_nonneg.mpr early)
    rw [none, List.length_nil]
    push_cast
    linarith

/-- **A check pays for what it admits.** -/
theorem checked_paid {s : Shelf} (sound : Sound l s) {now : ℚ} (later : s.now ≤ now) (start : ℚ)
    (early : start ≤ now) :
    ((admitted (s.checked l now).checks start now).length : ℚ) + fill l (s.checked l now).bucket now ≤
      l.burst + l.rate * (now - start) := by
  have full := fill_le (l := l) s.bucket now
  have before := paid_later sound later start early
  unfold Shelf.checked
  rcases check_cases l s.bucket now with ⟨enough, allowed, left⟩ | ⟨short, denied, -, left⟩
  · have one : (admitted (⟨now, check l (some (bucketScript l s.bucket now 1).1)⟩ :: s.checks)
        start now).length = (admitted s.checks start now).length + 1 := by
      simp [admitted, check, allowed, early]
    dsimp only
    rw [one, left, fill_now (by linarith)]
    push_cast
    linarith
  · have same : admitted (⟨now, check l (some (bucketScript l s.bucket now 1).1)⟩ :: s.checks)
        start now = admitted s.checks start now := by
      simp [admitted, check, denied]
    dsimp only
    rw [same, left, fill_now full]
    exact before

theorem checked_sound {s : Shelf} (sound : Sound l s) {now : ℚ} (later : s.now ≤ now) :
    Sound l (s.checked l now) where
  fits := checked_fits sound later
  past c mem := by
    rcases List.mem_cons.mp mem with rfl | old
    · exact le_refl _
    · exact (sound.past c old).trans later
  paid start early := checked_paid sound later start early
  bounded start stop order := by
    have upTo : ∀ c ∈ (s.checked l now).checks, c.at_ ≤ now := by
      intro c mem
      rcases List.mem_cons.mp mem with rfl | old
      · exact le_refl _
      · exact (sound.past c old).trans later
    by_cases inside : now ≤ stop
    · by_cases early : start ≤ now
      · have paid := checked_paid sound later start early
        have some := fill_nonneg (checked_fits sound later _ rfl) (le_refl now)
        rw [admitted_until upTo fun c mem => (upTo c mem).trans inside] at paid
        have wider : l.rate * (now - start) ≤ l.rate * (stop - start) :=
          mul_le_mul_of_nonneg_left (by linarith) l.rate_pos.le
        have held : 0 ≤ fill l (s.checked l now).bucket now := some
        linarith
      · have none := admitted_after (t := stop) fun c mem =>
          lt_of_le_of_lt (upTo c mem) (not_le.mp early)
        have gained : 0 ≤ l.rate * (stop - start) :=
          mul_nonneg l.rate_pos.le (sub_nonneg.mpr order)
        have room : (0 : ℚ) ≤ l.burst := Nat.cast_nonneg _
        rw [none, List.length_nil]
        push_cast
        linarith
    · have outside : admitted (s.checked l now).checks start stop = admitted s.checks start stop := by
        apply List.filter_cons_of_neg
        simp [inside]
      rw [outside]
      exact sound.bounded start stop order

/-- What Redis drops was full. -/
theorem dropped_sound {s : Shelf} (sound : Sound l s) {b : Bucket} (held : s.bucket = some b)
    {now : ℚ} (later : s.now ≤ now) (late : b.ts + b.ttl ≤ now) :
    Sound l { s with bucket := none, now } where
  fits _ none := nomatch none
  past c mem := (sound.past c mem).trans later
  paid start early := by
    have before := paid_later sound later start early
    have fits := sound.fits b held
    rw [held, fill_expired fits.ttl fits.some late] at before
    show ((admitted s.checks start now).length : ℚ) + fill l none now ≤ _
    rw [fill_none]
    exact before
  bounded := sound.bounded

theorem step_cases {s s' : Shelf} {act : Act} (step : s.step l act = some s') :
    (∃ now, act = .check now ∧ s.now ≤ now ∧ s' = s.checked l now) ∨
      (∃ now b, act = .drop now ∧ s.bucket = some b ∧ s.now ≤ now ∧ b.ts + b.ttl ≤ now ∧
        s' = { s with bucket := none, now }) := by
  cases act with
  | check now =>
      simp only [Shelf.step] at step
      split at step
      · rename_i later
        cases step
        exact .inl ⟨now, rfl, later, rfl⟩
      · cases step
  | drop now =>
      simp only [Shelf.step] at step
      split at step
      · rename_i b held
        split at step
        · rename_i late
          cases step
          exact .inr ⟨now, b, rfl, held, late.1, late.2, rfl⟩
        · cases step
      · cases step

theorem step_sound {s s' : Shelf} {act : Act} (step : s.step l act = some s')
    (sound : Sound l s) : Sound l s' := by
  rcases step_cases step with ⟨now, -, later, rfl⟩ | ⟨now, b, -, held, later, late, rfl⟩
  · exact checked_sound sound later
  · exact dropped_sound sound held later late

theorem run_sound {s s' : Shelf} {acts : List Act}
    (run : Run (TryStepOf (Shelf.step l)) s acts s') (sound : Sound l s) : Sound l s' :=
  run.invariant (fun _ _ _ step => step_sound step) sound

/-! ## Forgetting a key -/

/-- Two shelves that answer alike from now on. -/
structure Alike (l : Limit) (s s' : Shelf) : Prop where
  checks : s'.checks = s.checks
  behind : s'.now ≤ s.now
  fill : ∀ t, s.now ≤ t → RateLimit.fill l s'.bucket t = RateLimit.fill l s.bucket t

theorem checked_alike {s s' : Shelf} (alike : Alike l s s') {now : ℚ} (later : s.now ≤ now) :
    Alike l (s.checked l now) (s'.checked l now) := by
  have same : bucketScript l s'.bucket now 1 = bucketScript l s.bucket now 1 := by
    unfold bucketScript
    rw [alike.fill now later]
  refine ⟨?_, le_refl now, ?_⟩
  · show _ :: s'.checks = _ :: s.checks
    rw [same, alike.checks]
  · intro t _
    show RateLimit.fill l (some (bucketScript l s'.bucket now 1).2) t = _
    rw [same]
    rfl

/-- **The same checks without the drops are answered the same.** -/
theorem undropped {s s' t : Shelf} {acts : List Act}
    (run : Run (TryStepOf (Shelf.step l)) s acts s') (sound : Sound l s) (alike : Alike l s t) :
    ∃ t', Run (TryStepOf (Shelf.step l)) t (acts.filter Act.isCheck) t' ∧ Alike l s' t' := by
  induction run generalizing t with
  | nil s => exact ⟨t, .nil t, alike⟩
  | @cons s mid s' act acts step _ ih =>
      have next := step_sound step sound
      rcases step_cases step with ⟨now, rfl, later, rfl⟩ | ⟨now, b, rfl, held, later, late, rfl⟩
      · obtain ⟨t', rest, after⟩ := ih next (checked_alike alike later)
        refine ⟨t', ?_, after⟩
        exact .cons (step_check (alike.behind.trans later)) rest
      · have kept : Alike l { s with bucket := none, now } t := by
          refine ⟨alike.checks, alike.behind.trans later, ?_⟩
          intro u ahead
          have fits := sound.fits b held
          rw [alike.fill u (later.trans ahead), held, fill_none,
            fill_expired fits.ttl fits.some (late.trans ahead)]
        exact ih next kept

/-! ## Coming back -/

/-- The advertised wait is at least what is missing. -/
theorem le_retryAfter (l : Limit) (r : Reply) : r.retry ≤ (check l (some r)).retryAfter := by
  have ceiling := Int.le_ceil r.retry
  have rounded : ((⌈r.retry⌉ : Int) : ℚ) ≤ ((max 1 ⌈r.retry⌉ : Int) : ℚ) :=
    Int.cast_le.mpr (le_max_right _ _)
  exact ceiling.trans rounded

/-- Without a check the key is as it was, or gone. -/
theorem drops_cases {s s' : Shelf} {acts : List Act}
    (run : Run (TryStepOf (Shelf.step l)) s acts s') (drops : ∀ a ∈ acts, a.isCheck = false) :
    s'.bucket = s.bucket ∨ s'.bucket = none := by
  induction run with
  | nil => exact .inl rfl
  | @cons s mid s' act acts step _ ih =>
      rcases step_cases step with ⟨now, rfl, -, -⟩ | ⟨now, b, -, -, -, -, rfl⟩
      · cases drops _ List.mem_cons_self
      · rcases ih fun a mem => drops a (List.mem_cons_of_mem _ mem) with same | gone
        · exact .inr same
        · exact .inr gone

/-- After the advertised wait there is a token. -/
theorem waited {s s' : Shelf} {now t : ℚ} {drops : List Act}
    (denied : (bucketScript l s.bucket now 1).1.allowed = false)
    (run : Run (TryStepOf (Shelf.step l)) (s.checked l now) drops s')
    (none : ∀ a ∈ drops, a.isCheck = false)
    (wait : now + (check l (some (bucketScript l s.bucket now 1).1)).retryAfter ≤ t) :
    1 ≤ fill l s'.bucket t := by
  have room : (1 : ℚ) ≤ l.burst := Nat.one_le_cast.mpr l.burst_pos
  rcases drops_cases run none with same | gone
  · rw [same]
    rcases check_cases l s.bucket now with ⟨-, allowed, -⟩ | ⟨-, -, retry, left⟩
    · rw [denied] at allowed
      cases allowed
    · have advertised := le_retryAfter l (bucketScript l s.bucket now 1).1
      have elapsed : (1 - fill l s.bucket now) / l.rate ≤ t - now := by
        rw [retry] at advertised
        linarith
      show 1 ≤ fill l (some (bucketScript l s.bucket now 1).2) t
      rw [left]
      exact le_refill room ((div_le_iff₀ l.rate_pos).mp elapsed)
  · rw [gone, fill_none]
    exact room

/-! ## The bounds -/

/-- **Every run of checks and drops on one bucket is within its bounds.** -/
theorem bucket_bounds {l : Limit} {start : ℚ} {acts : List Act} {s : Shelf}
    (run : Run (TryStepOf (Shelf.step l)) { now := start } acts s) :
    (∀ b ∈ s.bucket, 0 ≤ b.tokens ∧ b.tokens ≤ l.burst) ∧
    (∀ t d : ℚ, 0 ≤ d → ((admitted s.checks t (t + d)).length : ℚ) ≤ l.burst + l.rate * d) ∧
    (∃ s', Run (TryStepOf (Shelf.step l)) { now := start } (acts.filter Act.isCheck) s' ∧
      s'.checks = s.checks) ∧
    ∀ (now t : ℚ) (c c' : Check) (drops : List Act) (denied waiting again : Shelf),
      s.step l (.check now) = some denied → denied.checks.head? = some c →
      c.decision.allowed = false → (∀ a ∈ drops, a.isCheck = false) →
      Run (TryStepOf (Shelf.step l)) denied drops waiting →
      now + c.decision.retryAfter ≤ t → waiting.step l (.check t) = some again →
      again.checks.head? = some c' → c'.decision.allowed = true := by
  have sound := run_sound run (start_sound l start)
  constructor
  · intro b held
    exact ⟨(sound.fits b held).some, (sound.fits b held).room⟩
  constructor
  · intro t d long
    have bounded := sound.bounded t (t + d) (by linarith)
    rwa [add_sub_cancel_left] at bounded
  constructor
  · obtain ⟨s', erased, alike⟩ := undropped run (start_sound l start)
      ⟨rfl, le_refl _, fun _ _ => rfl⟩
    exact ⟨s', erased, alike.checks⟩
  · intro now t c c' drops denied waiting again first isHead refused none rest wait second isHead'
    rcases step_cases first with ⟨now', same, -, rfl⟩ | ⟨_, _, same, -⟩
    · cases same
      cases isHead
      have there := waited refused rest none wait
      rcases step_cases second with ⟨t', same', -, rfl⟩ | ⟨_, _, same', -⟩
      · cases same'
        cases isHead'
        show (bucketScript l waiting.bucket t 1).1.allowed = true
        rw [bucketScript_allowed there]
      · cases same'
    · cases same

/-! ## Poles -/

/-- One token, and another every two seconds. -/
def poleLimit : Limit where
  rate := 1 / 2
  burst := 1

/-- The shelf after a first request. -/
def served : Shelf := ({ now := 0 } : Shelf).checked poleLimit 0

theorem served_run : Run (TryStepOf (Shelf.step poleLimit)) { now := 0 } [.check 0] served := by
  apply Run.single
  exact step_check (le_refl (0 : ℚ))

/-- The second request comes too early and is admitted when it comes back in time. -/
theorem bucket_bounds_pole : ((admitted served.checks 0 (0 + 1)).length : ℚ) ≤ 1 + 1 / 2 * 1 ∧
    ∀ c ∈ ((served.checked poleLimit 1).checked poleLimit 2).checks.head?,
      c.decision.allowed = true := by
  obtain ⟨-, bounded, -, back⟩ := bucket_bounds served_run
  constructor
  · have once := bounded 0 1 zero_le_one
    push_cast [poleLimit] at once ⊢
    exact once
  · intro c isHead
    have early : served.now ≤ 1 := zero_le_one
    have late : (served.checked poleLimit 1).now ≤ 2 := one_le_two
    exact back 1 2 _ c [] _ _ _ (step_check early) rfl (by decide +kernel)
      (fun _ mem => absurd mem List.not_mem_nil) (.nil _) (by decide +kernel) (step_check late)
      isHead

end OpsAssist.RateLimit
