/-
# OpsAssist.Gateway.Egress -- blocking for egress is removal

`stripped` forgets the targets outside and their skips.  A step of a call with the targets
outside blocked, stripped, is the step of the stripped call with nothing blocked; for
streams likewise.

`blocked_chat_stripped` and `blocked_stream_stripped` say so for whole runs;
`egress_blocking_removes` puts them together.
-/
import OpsAssist.Gateway.Calls
import OpsAssist.Gateway.StreamGrammar

namespace OpsAssist.Gateway

set_option autoImplicit false

/-- The provider of the target is on the box. -/
def LLMGateway.onBox (gateway : LLMGateway) (spec : ModelSpec) : Bool :=
  !(gateway.catalog.config spec).dataEgress

def NOT_PERMITTED : String := "egress_not_permitted"

/-- The record is not the skip of a blocked target. -/
def AttemptRecord.counts (a : AttemptRecord) : Bool :=
  !(a.outcome == .skipped && a.detail == some NOT_PERMITTED)

def Note.counts : Note → Bool
  | .skipped _ reason => reason != NOT_PERMITTED
  | _ => true

/-- The blocked ids are those of the targets outside. -/
def Separates (gateway : LLMGateway) (blocked : List String) (targets : List ModelSpec) : Prop :=
  ∀ spec ∈ targets, spec.id ∈ blocked ↔ gateway.onBox spec = false

/-- `_egress_blocked` blocks exactly the targets outside: ids are unique. -/
theorem egressBlocked_separates {gateway : LLMGateway} {name : Option String} {route : String}
    {targets : List ModelSpec}
    (resolved : gateway.catalog.resolve name .chat = some (route, targets)) :
    Separates gateway (gateway.egressBlocked targets false) targets := by
  intro spec mem
  unfold LLMGateway.egressBlocked LLMGateway.onBox
  rw [if_neg Bool.false_ne_true, List.mem_map, Bool.not_eq_false']
  constructor
  · rintro ⟨other, outside, same⟩
    obtain ⟨there, egress⟩ := List.mem_filter.mp outside
    rw [← Catalog.resolve_unique resolved there mem same]
    exact egress
  · intro egress
    exact ⟨spec, List.mem_filter.mpr ⟨mem, egress⟩, rfl⟩

/-! ## The walk -/

/-- What a walk with the targets outside blocked finds is what the walk over the others
finds; the skips it adds are one for each target outside it passes. -/
theorem nextTarget_stripped {gateway : LLMGateway} {blocked : List String}
    (provider : ModelSpec → Bool) (now : ℚ) (breakers : Breakers) :
    ∀ {targets : List ModelSpec}, Separates gateway blocked targets →
    let walk := nextTarget provider blocked now targets breakers
    nextTarget provider [] now (targets.filter gateway.onBox) breakers =
      { skips := walk.skips.filter fun s => s.2 != NOT_PERMITTED
        breakers := walk.breakers
        found := walk.found.map fun f => (f.1, f.2.filter gateway.onBox) } ∧
    (walk.skips.filter fun s => s.2 == NOT_PERMITTED) =
      ((walk.skips.map Prod.fst).filter fun t => !gateway.onBox t).map fun t => (t, NOT_PERMITTED)
  | [], _ => ⟨rfl, rfl⟩
  | spec :: rest, separates => by
      have later := nextTarget_stripped provider now breakers
        fun t mem => separates t (List.mem_cons_of_mem _ mem)
      have here := separates spec List.mem_cons_self
      dsimp only at later ⊢
      cases on : gateway.onBox spec with
      | false =>
          have kept := here.mpr on
          have skip : admitTarget spec (provider spec) blocked now breakers =
              (some NOT_PERMITTED, breakers) := if_pos kept
          rw [List.filter_cons_of_neg (by simp [on]), later.1, nextTarget, skip]
          dsimp only
          rw [List.filter_cons_of_neg (by simp), List.filter_cons_of_pos (by simp), later.2,
            List.map_cons, List.filter_cons_of_pos (by simp [on]), List.map_cons]
          exact ⟨rfl, rfl⟩
      | true =>
          have free : spec.id ∉ blocked := fun kept => by simp [here.mp kept] at on
          have same : admitTarget spec (provider spec) [] now breakers =
              admitTarget spec (provider spec) blocked now breakers := by
            unfold admitTarget
            rw [if_neg List.not_mem_nil, if_neg free]
          rw [List.filter_cons_of_pos on, nextTarget, nextTarget, same]
          rcases admit_cases provider blocked now spec breakers with
            ⟨-, asked⟩ | ⟨-, reason, asked, why⟩
          · rw [asked]
            exact ⟨rfl, rfl⟩
          · have other : reason ≠ NOT_PERMITTED := fun is => free (why.mp is)
            rw [asked]
            dsimp only
            rw [later.1, List.filter_cons_of_pos (by simp [other]),
              List.filter_cons_of_neg (by simp [other]), later.2, List.map_cons,
              List.filter_cons_of_neg (by simp [on])]
            exact ⟨rfl, rfl⟩

/-! ## Calls -/

variable {ρ : Type} {gateway : LLMGateway} {blocked : List String}

/-- The call without the targets outside and their skips. -/
def Call.stripped (gateway : LLMGateway) (call : Call ρ) : Call ρ :=
  { call with
    targets := call.targets.filter gateway.onBox
    attempts := call.attempts.filter AttemptRecord.counts }

/-- A segment with its call stripped. -/
def strippedSegment (gateway : LLMGateway) (segment : Segment (Call ρ) Note) :
    Segment (Call ρ) Note :=
  { state := segment.state.stripped gateway, breakers := segment.breakers,
    notes := segment.notes.filter Note.counts }

theorem exhausted_filter (attempts : List AttemptRecord) :
    exhausted (attempts.filter AttemptRecord.counts) = exhausted attempts := by
  have same : ((attempts.filter AttemptRecord.counts).all fun a => a.outcome == .skipped) =
      attempts.all fun a => a.outcome == .skipped := by
    rw [List.all_filter]
    congr 1
    funext a
    cases skipped : a.outcome == .skipped with
    | true => simp
    | false => simp [AttemptRecord.counts, skipped]
  unfold exhausted
  rw [same]

theorem attempt_stripped (call : Call ρ) (spec : ModelSpec) (n : Nat) (now : ℚ) :
    (call.stripped gateway).attempt gateway spec n now =
      ((call.attempt gateway spec n now).1.stripped gateway, (call.attempt gateway spec n now).2) := by
  unfold Call.attempt
  by_cases late : call.deadline - now ≤ 0
  · rw [if_pos late, if_pos (show (call.stripped gateway).deadline - now ≤ 0 from late)]
    rfl
  · rw [if_neg late, if_neg (show ¬(call.stripped gateway).deadline - now ≤ 0 from late)]
    rfl

theorem attempt_note_counts (call : Call ρ) (spec : ModelSpec) (n : Nat) (now : ℚ) :
    (call.attempt gateway spec n now).2.counts = true := by
  rcases Call.attempt_cases gateway call spec n now with ⟨-, attempted⟩ | ⟨-, attempted⟩ <;>
    rw [attempted] <;> rfl

theorem attempt_same (call : Call ρ) (spec : ModelSpec) (n : Nat) (now : ℚ) :
    (call.attempt gateway spec n now).1.targets = call.targets ∧
      (call.attempt gateway spec n now).1.attempts = call.attempts := by
  rcases Call.attempt_cases gateway call spec n now with ⟨-, attempted⟩ | ⟨-, attempted⟩ <;>
    rw [attempted] <;> exact ⟨rfl, rfl⟩

/-- The records of the skips, stripped. -/
theorem records_stripped (kind : ModelKind) (skips : List (ModelSpec × String)) :
    (skips.map fun s => skipRecord kind s.1 s.2).filter AttemptRecord.counts =
      (skips.filter fun s => s.2 != NOT_PERMITTED).map fun s => skipRecord kind s.1 s.2 := by
  rw [List.filter_map]
  congr 1

theorem skips_stripped (skips : List (ModelSpec × String)) :
    (skips.map fun s => Note.skipped s.1 s.2).filter Note.counts =
      (skips.filter fun s => s.2 != NOT_PERMITTED).map fun s => Note.skipped s.1 s.2 := by
  rw [List.filter_map]
  congr 1

theorem choose_stripped (kind : ModelKind) {call : Call ρ}
    (separates : Separates gateway blocked call.targets) (now : ℚ) (breakers : Breakers) :
    (call.stripped gateway).choose gateway kind [] now breakers =
      strippedSegment gateway (call.choose gateway kind blocked now breakers) := by
  have walk := (nextTarget_stripped gateway.isAvailable now breakers separates).1
  unfold Call.choose
  rw [show (call.stripped gateway).targets = call.targets.filter gateway.onBox from rfl, walk]
  generalize nextTarget gateway.isAvailable blocked now call.targets breakers = choice
  obtain ⟨skips, left, found⟩ := choice
  have attempts : (call.stripped gateway).attempts ++
      ((skips.filter fun s => s.2 != NOT_PERMITTED).map fun s => skipRecord kind s.1 s.2) =
      (call.attempts ++ skips.map fun s => skipRecord kind s.1 s.2).filter
        AttemptRecord.counts := by
    rw [List.filter_append, records_stripped]
    rfl
  cases found with
  | none =>
      dsimp only [Option.map]
      rw [attempts, exhausted_filter, ← skips_stripped]
      rfl
  | some f =>
      obtain ⟨spec, rest⟩ := f
      dsimp only [Option.map]
      rw [attempts, ← skips_stripped]
      generalize begun : ({ call with
        targets := rest
        attempts := call.attempts ++ skips.map fun s => skipRecord kind s.1 s.2 } : Call ρ) = next
      rw [show { call.stripped gateway with
          targets := rest.filter gateway.onBox
          attempts := (call.attempts ++ skips.map fun s => skipRecord kind s.1 s.2).filter
            AttemptRecord.counts } = next.stripped gateway by rw [← begun]; rfl,
        attempt_stripped]
      unfold strippedSegment
      dsimp only
      rw [List.filter_append, List.filter_cons_of_pos (attempt_note_counts next spec 1 now),
        List.filter_nil]

/-- An attempt of a call counts. -/
theorem failed_counts (kind : ModelKind) (spec : ModelSpec) (n : Nat) (started now : ℚ)
    (ttft : Option ℚ) (err : ProviderError) :
    (failedRecord kind spec n started now ttft err).counts = true := by
  unfold AttemptRecord.counts failedRecord
  dsimp only
  split <;> rfl

theorem filter_push {attempts : List AttemptRecord} {a : AttemptRecord} (counts : a.counts = true) :
    attempts.filter AttemptRecord.counts ++ [a] =
      (attempts ++ [a]).filter AttemptRecord.counts := by
  rw [List.filter_append, List.filter_cons_of_pos counts, List.filter_nil]

/-- **A segment of the stripped call is the stripped segment.** -/
theorem resume_stripped (kind : ModelKind) {call : Call ρ}
    (separates : Separates gateway blocked call.targets) (answer : Answer ρ) (now : ℚ)
    (breakers : Breakers) :
    (call.stripped gateway).resume gateway kind [] answer now breakers =
      strippedSegment gateway (call.resume gateway kind blocked answer now breakers) := by
  unfold Call.resume
  rw [show (call.stripped gateway).point = call.point from rfl]
  cases here : call.point with
  | choosing => exact choose_stripped kind separates now breakers
  | invoking spec n started timeout =>
      cases answer with
      | proceed outcome draw =>
          cases outcome with
          | result r =>
              dsimp only
              unfold Call.succeed
              rw [show (call.stripped gateway).attempts =
                call.attempts.filter AttemptRecord.counts from rfl, filter_push (by rfl)]
              rfl
          | error err =>
              dsimp only
              unfold Call.fail
              rw [show (call.stripped gateway).attempts =
                call.attempts.filter AttemptRecord.counts from rfl,
                filter_push (failed_counts ..)]
              rfl
      | raised => rfl
      | cancelled => rfl
  | reporting spec n err =>
      have settled : ∀ draw, (call.stripped gateway).settle gateway spec n err now draw breakers =
          strippedSegment gateway (call.settle gateway spec n err now draw breakers) := by
        intro draw
        unfold Call.settle
        rw [show (call.stripped gateway).deadline = call.deadline from rfl]
        split
        · rfl
        · split <;> rfl
      cases answer with
      | proceed outcome draw => exact settled draw
      | raised => exact settled 0
      | cancelled => rfl
  | sleeping spec n until_ =>
      cases answer with
      | proceed outcome draw =>
          dsimp only
          rw [attempt_stripped]
          unfold strippedSegment
          rw [List.filter_cons_of_pos (attempt_note_counts call spec (n + 1) now), List.filter_nil]
      | raised => rfl
      | cancelled => rfl
  | delivering spec r => cases answer <;> rfl
  | ended ending => rfl

/-- One call, stripped. -/
def Solo.stripped (gateway : LLMGateway) (s : Solo ρ) : Solo ρ :=
  { s with call := s.call.stripped gateway, trace := s.trace.filter Note.counts }

theorem step_stripped (kind : ModelKind) {s : Solo ρ}
    (separates : Separates gateway blocked s.call.targets) (e : Entry ρ) :
    (s.stripped gateway).step gateway kind [] e = (s.step gateway kind blocked e).stripped gateway := by
  have given : (s.stripped gateway).deliver e = s.deliver e := rfl
  unfold Solo.step
  rw [given]
  have resumed := resume_stripped kind separates (.proceed (s.deliver e).1 e.draw) (s.deliver e).2
    s.breakers
  dsimp only
  rw [show (s.stripped gateway).call = s.call.stripped gateway from rfl,
    show (s.stripped gateway).breakers = s.breakers from rfl,
    show (s.stripped gateway).trace = s.trace.filter Note.counts from rfl, resumed]
  unfold Solo.stripped strippedSegment
  rw [List.filter_append]

/-! ## The skips it adds -/

/-- The skips of the targets outside among these. -/
def outsideSkips (gateway : LLMGateway) (kind : ModelKind) (targets : List ModelSpec) :
    List AttemptRecord :=
  (targets.filter fun t => !gateway.onBox t).map fun t => skipRecord kind t NOT_PERMITTED

/-- The records of a call that do not count. -/
def uncounted (attempts : List AttemptRecord) : List AttemptRecord :=
  attempts.filter fun a => !a.counts

theorem uncounted_append (attempts more : List AttemptRecord) :
    uncounted (attempts ++ more) = uncounted attempts ++ uncounted more := List.filter_append ..

theorem outsideSkips_append (kind : ModelKind) (targets more : List ModelSpec) :
    outsideSkips gateway kind (targets ++ more) =
      outsideSkips gateway kind targets ++ outsideSkips gateway kind more := by
  unfold outsideSkips
  rw [List.filter_append, List.map_append]

theorem uncounted_skips (kind : ModelKind) (skips : List (ModelSpec × String)) :
    uncounted (skips.map fun s => skipRecord kind s.1 s.2) =
      (skips.filter fun s => s.2 == NOT_PERMITTED).map fun s => skipRecord kind s.1 s.2 := by
  unfold uncounted
  rw [List.filter_map]
  congr 1
  apply List.filter_congr
  intro s _
  simp [AttemptRecord.counts, skipRecord]

/-- A walk passes some targets, and adds the skips of those outside among them. -/
theorem walk_turned (kind : ModelKind) (provider : ModelSpec → Bool) (now : ℚ)
    (breakers : Breakers) {targets : List ModelSpec} (separates : Separates gateway blocked targets) :
    let walk := nextTarget provider blocked now targets breakers
    uncounted (walk.skips.map fun s => skipRecord kind s.1 s.2) =
        outsideSkips gateway kind (walk.skips.map Prod.fst) ∧
      (∀ spec rest, walk.found = some (spec, rest) →
        targets = walk.skips.map Prod.fst ++ spec :: rest ∧ gateway.onBox spec = true) ∧
      (walk.found = none → targets = walk.skips.map Prod.fst) := by
  intro walk
  refine ⟨?_, ?_, ?_⟩
  · rw [uncounted_skips, (nextTarget_stripped provider now breakers separates).2, List.map_map]
    rfl
  · intro spec rest found
    rcases nextTarget_cases provider blocked now targets breakers with
      ⟨before, t, after, shape, -, ready, here, passed, -⟩ | ⟨-, here, -, -⟩
    · obtain ⟨rfl, rfl⟩ := Prod.mk.inj (Option.some.inj (here.symm.trans found))
      refine ⟨by rw [shape, ← passed], ?_⟩
      by_contra off
      exact ready.1 ((separates t (by rw [shape]; simp)).mpr (Bool.eq_false_iff.mpr off))
    · cases here.symm.trans found
  · intro found
    rcases nextTarget_cases provider blocked now targets breakers with
      ⟨before, t, after, -, -, -, here, -, -⟩ | ⟨-, -, passed, -⟩
    · cases found.symm.trans here
    · exact passed.symm

/-- What a segment turns to, and the skips it adds. -/
theorem resume_turned (kind : ModelKind) {call : Call ρ}
    (separates : Separates gateway blocked call.targets) (answer : Answer ρ) (now : ℚ)
    (breakers : Breakers) :
    ∃ turned, call.targets = turned ++
        (call.resume gateway kind blocked answer now breakers).state.targets ∧
      uncounted (call.resume gateway kind blocked answer now breakers).state.attempts =
        uncounted call.attempts ++ outsideSkips gateway kind turned := by
  unfold Call.resume
  cases here : call.point with
  | choosing =>
      have walk := walk_turned kind gateway.isAvailable now breakers separates
      dsimp only at walk ⊢
      unfold Call.choose
      generalize nextTarget gateway.isAvailable blocked now call.targets breakers = choice at walk ⊢
      obtain ⟨skips, left, found⟩ := choice
      obtain ⟨skipped, some_, none_⟩ := walk
      cases found with
      | none =>
          refine ⟨call.targets, (List.append_nil _).symm, ?_⟩
          dsimp only
          rw [uncounted_append, skipped, none_ rfl]
      | some f =>
          obtain ⟨spec, rest⟩ := f
          obtain ⟨shape, on⟩ := some_ spec rest rfl
          refine ⟨skips.map Prod.fst ++ [spec], ?_, ?_⟩
          · dsimp only
            rw [(attempt_same _ spec 1 now).1, shape, List.append_assoc, List.singleton_append]
          · dsimp only
            rw [(attempt_same _ spec 1 now).2, uncounted_append, skipped, outsideSkips_append,
              show outsideSkips gateway kind [spec] = [] by simp [outsideSkips, on],
              List.append_nil]
  | invoking spec n started timeout =>
      cases answer with
      | proceed outcome draw =>
          cases outcome with
          | result r => exact ⟨[], rfl, uncounted_append _ _⟩
          | error err =>
              refine ⟨[], rfl, ?_⟩
              show uncounted (call.attempts ++ _) = _
              rw [uncounted_append]
              congr 1
              exact List.filter_cons_of_neg (by simp [failed_counts])
      | raised => exact ⟨[], rfl, (List.append_nil _).symm⟩
      | cancelled => exact ⟨[], rfl, (List.append_nil _).symm⟩
  | reporting spec n err =>
      have settled : ∀ draw, (call.settle gateway spec n err now draw breakers).state.targets =
            call.targets ∧
          (call.settle gateway spec n err now draw breakers).state.attempts = call.attempts := by
        intro draw
        unfold Call.settle
        split
        · exact ⟨rfl, rfl⟩
        · split <;> exact ⟨rfl, rfl⟩
      have still : ∀ draw, ∃ turned, call.targets = turned ++
            (call.settle gateway spec n err now draw breakers).state.targets ∧
          uncounted (call.settle gateway spec n err now draw breakers).state.attempts =
            uncounted call.attempts ++ outsideSkips gateway kind turned := by
        intro draw
        rw [(settled draw).1, (settled draw).2]
        exact ⟨[], rfl, (List.append_nil _).symm⟩
      cases answer with
      | proceed outcome draw => exact still draw
      | raised => exact still 0
      | cancelled => exact ⟨[], rfl, (List.append_nil _).symm⟩
  | sleeping spec n until_ =>
      cases answer with
      | proceed outcome draw =>
          dsimp only
          rw [(attempt_same call spec (n + 1) now).1, (attempt_same call spec (n + 1) now).2]
          exact ⟨[], rfl, (List.append_nil _).symm⟩
      | raised => exact ⟨[], rfl, (List.append_nil _).symm⟩
      | cancelled => exact ⟨[], rfl, (List.append_nil _).symm⟩
  | delivering spec r =>
      cases answer <;> exact ⟨[], rfl, (List.append_nil _).symm⟩
  | ended ending => exact ⟨[], rfl, (List.append_nil _).symm⟩

/-- Where a call with the targets outside blocked is in its targets, and the skips it added
on the way. -/
structure Turned (gateway : LLMGateway) (kind : ModelKind) (targets : List ModelSpec)
    (remaining : List ModelSpec) (attempts : List AttemptRecord) : Prop where
  /-- one skip for each target outside it turned to -/
  turned : ∃ turned, targets = turned ++ remaining ∧
    uncounted attempts = outsideSkips gateway kind turned

theorem Turned.separates {kind : ModelKind} {targets remaining : List ModelSpec}
    {attempts : List AttemptRecord} (turned : Turned gateway kind targets remaining attempts)
    (separates : Separates gateway blocked targets) : Separates gateway blocked remaining := by
  obtain ⟨passed, shape, -⟩ := turned.turned
  intro spec mem
  exact separates spec (by rw [shape]; exact List.mem_append_right _ mem)

theorem Turned.next {kind : ModelKind} {targets remaining rest : List ModelSpec}
    {attempts more : List AttemptRecord} (turned : Turned gateway kind targets remaining attempts)
    (step : ∃ turned, remaining = turned ++ rest ∧
      uncounted more = uncounted attempts ++ outsideSkips gateway kind turned) :
    Turned gateway kind targets rest more := by
  obtain ⟨passed, shape, skips⟩ := turned.turned
  obtain ⟨passing, here, added⟩ := step
  refine ⟨passed ++ passing, ?_, ?_⟩
  · rw [shape, here, List.append_assoc]
  · rw [added, skips, outsideSkips_append]

/-- **A call with the targets outside blocked, stripped, is the call on the others.** -/
theorem blocked_chat_stripped (kind : ModelKind) {targets : List ModelSpec}
    (separates : Separates gateway blocked targets) {deadlineS now : ℚ} {breakers : Breakers}
    (script : Nat → Entry ρ) : ∀ k,
    Turned gateway kind targets
        ((Solo.start targets deadlineS now breakers).after gateway kind blocked script k).call.targets
        ((Solo.start targets deadlineS now breakers).after gateway kind blocked script k).call.attempts ∧
      ((Solo.start targets deadlineS now breakers).after gateway kind blocked script k).stripped
          gateway =
        (Solo.start (targets.filter gateway.onBox) deadlineS now breakers).after gateway kind []
          script k
  | 0 => ⟨⟨[], rfl, rfl⟩, rfl⟩
  | k + 1 => by
      obtain ⟨turned, same⟩ := blocked_chat_stripped kind separates script k
      have remaining := turned.separates separates
      refine ⟨turned.next (resume_turned kind remaining _ _ _), ?_⟩
      rw [Solo.after, ← step_stripped kind remaining, same]
      rfl

/-! ## Streams -/

/-- The stream without the targets outside and their skips. -/
def Stream.stripped (gateway : LLMGateway) (stream : Stream) : Stream :=
  { stream with
    targets := stream.targets.filter gateway.onBox
    attempts := stream.attempts.filter AttemptRecord.counts }

/-- An event up to the fallback flag and the skips of targets outside. -/
def StreamEvent.observed : StreamEvent → StreamEvent
  | .started spec route _ => .started spec route false
  | .delta text => .delta text
  | .completed spec reason latency ttft attempts =>
      .completed spec reason latency ttft (attempts.filter AttemptRecord.counts)
  | .failed code message begun attempts =>
      .failed code message begun (attempts.filter AttemptRecord.counts)

def StreamNote.observed : StreamNote → Option StreamNote
  | .note inner => if inner.counts then some (.note inner) else none
  | .received spec n item => some (.received spec n item)
  | .event e => some (.event e.observed)

/-- What is observed of a log. -/
def observed (trace : List StreamNote) : List StreamNote := trace.filterMap StreamNote.observed

theorem observed_append (trace more : List StreamNote) :
    observed (trace ++ more) = observed trace ++ observed more := List.filterMap_append ..

theorem observed_skips (skips : List (ModelSpec × String)) :
    observed (skips.map fun s => StreamNote.note (.skipped s.1 s.2)) =
      (skips.filter fun s => s.2 != NOT_PERMITTED).map fun s =>
        StreamNote.note (.skipped s.1 s.2) := by
  induction skips with
  | nil => rfl
  | cons s skips ih =>
      unfold observed at ih ⊢
      rw [List.map_cons]
      cases counts : s.2 != NOT_PERMITTED with
      | true =>
          have here : StreamNote.observed (.note (.skipped s.1 s.2)) =
            some (.note (.skipped s.1 s.2)) := if_pos counts
          rw [List.filterMap_cons_some here, ih, List.filter_cons_of_pos (by exact counts),
            List.map_cons]
      | false =>
          have here : StreamNote.observed (.note (.skipped s.1 s.2)) = none :=
            if_neg (Bool.eq_false_iff.mp counts)
          rw [List.filterMap_cons_none here, ih,
            List.filter_cons_of_neg (by exact Bool.eq_false_iff.mp counts)]

theorem observed_free (skips : List (ModelSpec × String)) :
    observed ((skips.filter fun s => s.2 != NOT_PERMITTED).map fun s =>
        StreamNote.note (.skipped s.1 s.2)) =
      observed (skips.map fun s => StreamNote.note (.skipped s.1 s.2)) := by
  rw [observed_skips, observed_skips, List.filter_filter]
  congr 2
  funext s
  rw [Bool.and_self]

/-- The second segment is the first one without the targets outside. -/
structure Mirrors (gateway : LLMGateway) (segment other : Segment Stream StreamNote) : Prop where
  state : other.state = segment.state.stripped gateway
  breakers : other.breakers = segment.breakers
  notes : observed other.notes = observed segment.notes

theorem filter_counts_idem (attempts : List AttemptRecord) :
    (attempts.filter AttemptRecord.counts).filter AttemptRecord.counts =
      attempts.filter AttemptRecord.counts := by
  rw [List.filter_filter]
  congr 1
  funext a
  rw [Bool.and_self]

theorem stream_attempt_stripped (gateway : LLMGateway) (stream : Stream) (spec : ModelSpec) (n : Nat) (now : ℚ) :
    ((stream.stripped gateway).attempt gateway spec n now).1 =
        (stream.attempt gateway spec n now).1.stripped gateway ∧
      observed ((stream.stripped gateway).attempt gateway spec n now).2 =
        observed (stream.attempt gateway spec n now).2 := by
  unfold Stream.attempt
  rw [show (stream.stripped gateway).deadline = stream.deadline from rfl]
  split
  · refine ⟨rfl, ?_⟩
    simp only [Stream.close, observed, List.filterMap_cons, StreamNote.observed,
      StreamEvent.observed, Stream.stripped, filter_counts_idem]
  · exact ⟨rfl, rfl⟩

theorem stream_choose_stripped {stream : Stream}
    (separates : Separates gateway blocked stream.targets) (now : ℚ) (breakers : Breakers) :
    Mirrors gateway (stream.choose gateway blocked now breakers)
      ((stream.stripped gateway).choose gateway [] now breakers) := by
  have walk := (nextTarget_stripped gateway.chatProvider now breakers separates).1
  unfold Stream.choose
  rw [show (stream.stripped gateway).targets = stream.targets.filter gateway.onBox from rfl, walk]
  generalize nextTarget gateway.chatProvider blocked now stream.targets breakers = choice
  obtain ⟨skips, left, found⟩ := choice
  have attempts : (stream.stripped gateway).attempts ++
      ((skips.filter fun s => s.2 != NOT_PERMITTED).map fun s => skipRecord .chat s.1 s.2) =
      (stream.attempts ++ skips.map fun s => skipRecord .chat s.1 s.2).filter
        AttemptRecord.counts := by
    rw [List.filter_append, records_stripped]
    rfl
  cases found with
  | none =>
      dsimp only [Option.map]
      rw [attempts, exhausted_filter]
      refine ⟨rfl, rfl, ?_⟩
      dsimp only
      rw [observed_append, observed_append, observed_free]
      congr 1
      simp only [Stream.close, observed, List.filterMap_cons, StreamNote.observed,
        StreamEvent.observed, filter_counts_idem]
  | some f =>
      obtain ⟨spec, rest⟩ := f
      dsimp only [Option.map]
      rw [attempts]
      generalize begun : ({ stream with
        targets := rest
        attempts := stream.attempts ++ skips.map fun s => skipRecord .chat s.1 s.2 } : Stream) = next
      rw [show { stream.stripped gateway with
          targets := rest.filter gateway.onBox
          attempts := (stream.attempts ++ skips.map fun s => skipRecord .chat s.1 s.2).filter
            AttemptRecord.counts } = next.stripped gateway by rw [← begun]; rfl]
      have attempted := stream_attempt_stripped gateway next spec 1 now
      refine ⟨attempted.1, rfl, ?_⟩
      dsimp only
      rw [observed_append, observed_append, observed_free, attempted.2]

theorem fail_stripped (stream : Stream) (a : Attempt) (ttft : Option ℚ) (now : ℚ)
    (err : ProviderError) (emitted : Bool) (breakers : Breakers) :
    (stream.stripped gateway).fail a ttft now err emitted breakers =
      { stream.fail a ttft now err emitted breakers with
        state := (stream.fail a ttft now err emitted breakers).state.stripped gateway } := by
  unfold Stream.fail
  rw [show (stream.stripped gateway).attempts = stream.attempts.filter AttemptRecord.counts from rfl,
    filter_push (failed_counts ..)]
  rfl

theorem pass_stripped (stream : Stream) (a : Attempt) (ttft now : ℚ) (item : StreamItem)
    (breakers : Breakers) :
    (stream.stripped gateway).pass a ttft now item breakers =
      { stream.pass a ttft now item breakers with
        state := (stream.pass a ttft now item breakers).state.stripped gateway } := by
  cases item with
  | delta text => rfl
  | finish reason =>
      unfold Stream.pass
      rw [show (stream.stripped gateway).attempts =
        stream.attempts.filter AttemptRecord.counts from rfl, filter_push (by rfl)]
      rfl

/-- A segment that differs in its state only. -/
theorem Mirrors.of_eq {segment other : Segment Stream StreamNote}
    (same : other = { segment with state := segment.state.stripped gateway }) :
    Mirrors gateway segment other := by
  rw [same]
  exact ⟨rfl, rfl, rfl⟩

theorem settle_mirrors (stream : Stream) (a : Attempt) (err : ProviderError) (emitted : Bool)
    (now draw : ℚ) (breakers : Breakers) :
    Mirrors gateway (stream.settle gateway a err emitted now draw breakers)
      ((stream.stripped gateway).settle gateway a err emitted now draw breakers) := by
  have events : ∀ code message begun, observed [StreamNote.event
        (.failed code message begun (stream.stripped gateway).attempts)] =
      observed [StreamNote.event (.failed code message begun stream.attempts)] := by
    intro code message begun
    simp only [observed, List.filterMap_cons, StreamNote.observed, StreamEvent.observed,
      Stream.stripped, filter_counts_idem]
  unfold Stream.settle
  rw [show (stream.stripped gateway).deadline = stream.deadline from rfl]
  split
  · exact ⟨rfl, rfl, events ..⟩
  · split
    · exact ⟨rfl, rfl, events ..⟩
    · split <;> exact ⟨rfl, rfl, rfl⟩

/-- **A segment of the stripped stream mirrors the segment.** -/
theorem proceed_mirrors {stream : Stream} (separates : Separates gateway blocked stream.targets)
    (arrival : Arrival) (draw now : ℚ) (breakers : Breakers) :
    Mirrors gateway (stream.proceed gateway blocked arrival draw now breakers)
      ((stream.stripped gateway).proceed gateway [] arrival draw now breakers) := by
  unfold Stream.proceed
  rw [show (stream.stripped gateway).point = stream.point from rfl]
  cases here : stream.point with
  | choosing => exact stream_choose_stripped separates now breakers
  | opening a timeout =>
      cases arrival with
      | item item => exact ⟨rfl, rfl, rfl⟩
      | exhausted => exact .of_eq (fail_stripped ..)
      | error err => exact .of_eq (fail_stripped ..)
  | announced a ttft item => exact .of_eq (pass_stripped ..)
  | passing a ttft =>
      dsimp only
      rw [show (stream.stripped gateway).deadline = stream.deadline from rfl]
      split
      · exact .of_eq (fail_stripped ..)
      · exact ⟨rfl, rfl, rfl⟩
  | waiting a ttft since idle =>
      cases arrival with
      | item item =>
          dsimp only
          rw [pass_stripped]
          exact ⟨rfl, rfl, rfl⟩
      | exhausted => exact .of_eq (fail_stripped ..)
      | error err => exact .of_eq (fail_stripped ..)
  | completing a ttft reason =>
      refine ⟨rfl, rfl, ?_⟩
      simp only [Stream.close, observed, List.filterMap_cons, StreamNote.observed,
        StreamEvent.observed, Stream.stripped, filter_counts_idem]
  | reporting a err emitted => exact settle_mirrors ..
  | sleeping spec n until_ => exact ⟨rfl, rfl, rfl⟩
  | closing again =>
      cases again with
      | none => exact ⟨rfl, rfl, rfl⟩
      | some next =>
          have begun := stream_attempt_stripped gateway stream next.1 next.2 now
          exact ⟨begun.1, rfl, begun.2⟩
  | finished => exact ⟨rfl, rfl, rfl⟩
  | ended aborted => exact ⟨rfl, rfl, rfl⟩

theorem stream_attempt_same (gateway : LLMGateway) (stream : Stream) (spec : ModelSpec) (n : Nat) (now : ℚ) :
    (stream.attempt gateway spec n now).1.targets = stream.targets ∧
      (stream.attempt gateway spec n now).1.attempts = stream.attempts := by
  rcases Stream.attempt_cases gateway stream spec n now with
    ⟨-, attempted⟩ | ⟨-, timeout, attempted⟩ <;>
    rw [attempted] <;> exact ⟨rfl, rfl⟩

/-- The segment turns to no target and adds no skip. -/
theorem turned_none {kind : ModelKind} {targets rest : List ModelSpec}
    {attempts more : List AttemptRecord} (same : rest = targets)
    (records : uncounted more = uncounted attempts) :
    ∃ turned, targets = turned ++ rest ∧
      uncounted more = uncounted attempts ++ outsideSkips gateway kind turned :=
  ⟨[], same.symm, by rw [records]; exact (List.append_nil _).symm⟩

theorem uncounted_push {attempts : List AttemptRecord} {a : AttemptRecord}
    (counts : a.counts = true) : uncounted (attempts ++ [a]) = uncounted attempts := by
  rw [uncounted_append]
  show uncounted attempts ++ List.filter _ [a] = _
  rw [List.filter_cons_of_neg (by simp [counts]), List.filter_nil, List.append_nil]

/-- What a segment of a stream turns to, and the skips it adds. -/
theorem proceed_turned {stream : Stream} (separates : Separates gateway blocked stream.targets)
    (arrival : Arrival) (draw now : ℚ) (breakers : Breakers) :
    ∃ turned, stream.targets = turned ++
        (stream.proceed gateway blocked arrival draw now breakers).state.targets ∧
      uncounted (stream.proceed gateway blocked arrival draw now breakers).state.attempts =
        uncounted stream.attempts ++ outsideSkips gateway .chat turned := by
  have passed : ∀ a ttft item, uncounted (stream.pass a ttft now item breakers).state.attempts =
        uncounted stream.attempts ∧
      (stream.pass a ttft now item breakers).state.targets = stream.targets := by
    intro a ttft item
    cases item with
    | delta text => exact ⟨rfl, rfl⟩
    | finish reason => exact ⟨uncounted_push rfl, rfl⟩
  have failed : ∀ a ttft err emitted,
      uncounted (stream.fail a ttft now err emitted breakers).state.attempts =
        uncounted stream.attempts :=
    fun _ _ _ _ => uncounted_push (failed_counts ..)
  unfold Stream.proceed
  cases here : stream.point with
  | choosing =>
      have walk := walk_turned .chat gateway.chatProvider now breakers separates
      dsimp only at walk ⊢
      unfold Stream.choose
      generalize nextTarget gateway.chatProvider blocked now stream.targets breakers = choice
        at walk ⊢
      obtain ⟨skips, left, found⟩ := choice
      obtain ⟨skipped, some_, none_⟩ := walk
      cases found with
      | none =>
          refine ⟨stream.targets, (List.append_nil _).symm, ?_⟩
          dsimp only [Stream.close]
          rw [uncounted_append, skipped, none_ rfl]
      | some f =>
          obtain ⟨spec, rest⟩ := f
          obtain ⟨shape, on⟩ := some_ spec rest rfl
          refine ⟨skips.map Prod.fst ++ [spec], ?_, ?_⟩
          · dsimp only
            rw [(stream_attempt_same gateway _ spec 1 now).1, shape, List.append_assoc,
              List.singleton_append]
          · dsimp only
            rw [(stream_attempt_same gateway _ spec 1 now).2, uncounted_append, skipped,
              outsideSkips_append,
              show outsideSkips gateway .chat [spec] = [] by simp [outsideSkips, on],
              List.append_nil]
  | opening a timeout =>
      cases arrival with
      | item item => exact turned_none rfl rfl
      | exhausted => exact turned_none rfl (failed ..)
      | error err => exact turned_none rfl (failed ..)
  | announced a ttft item => exact turned_none (passed a ttft item).2 (passed a ttft item).1
  | passing a ttft =>
      dsimp only
      split
      · exact turned_none rfl (failed ..)
      · exact turned_none rfl rfl
  | waiting a ttft since idle =>
      cases arrival with
      | item item => exact turned_none (passed a ttft item).2 (passed a ttft item).1
      | exhausted => exact turned_none rfl (failed ..)
      | error err => exact turned_none rfl (failed ..)
  | completing a ttft reason => exact turned_none rfl rfl
  | reporting a err emitted =>
      dsimp only
      unfold Stream.settle
      split
      · exact turned_none rfl rfl
      · split
        · exact turned_none rfl rfl
        · split <;> exact turned_none rfl rfl
  | sleeping spec n until_ => exact turned_none rfl rfl
  | closing again =>
      cases again with
      | none => exact turned_none rfl rfl
      | some next =>
          have same := stream_attempt_same gateway stream next.1 next.2 now
          exact turned_none same.1 (by rw [show _ = stream.attempts from same.2])
  | finished => exact turned_none rfl rfl
  | ended aborted => exact turned_none rfl rfl

/-- The second stream is the first one without the targets outside. -/
structure Reflects (gateway : LLMGateway) (s t : StreamSolo) : Prop where
  stream : t.stream = s.stream.stripped gateway
  breakers : t.breakers = s.breakers
  now : t.now = s.now
  trace : observed t.trace = observed s.trace

theorem step_reflects {s t : StreamSolo} (separates : Separates gateway blocked s.stream.targets)
    (reflects : Reflects gateway s t) (e : StreamEntry) :
    Reflects gateway (s.step gateway blocked e) (t.step gateway [] e) := by
  have given : t.deliver e = s.deliver e := by
    unfold StreamSolo.deliver
    rw [reflects.now, show t.stream.point = s.stream.point by rw [reflects.stream]; rfl]
  have mirrors := proceed_mirrors separates (s.deliver e).1 e.draw (s.deliver e).2 s.breakers
  unfold StreamSolo.step
  rw [given, reflects.stream, reflects.breakers]
  refine ⟨mirrors.state, mirrors.breakers, rfl, ?_⟩
  dsimp only
  rw [observed_append, observed_append, reflects.trace, mirrors.notes]

/-- **A stream with the targets outside blocked reflects the stream on the others.** -/
theorem blocked_stream_stripped {targets : List ModelSpec}
    (separates : Separates gateway blocked targets) {route : String} {deadlineS now : ℚ}
    {breakers : Breakers} (script : Nat → StreamEntry) : ∀ k,
    Turned gateway .chat targets
        ((StreamSolo.start route targets deadlineS now breakers).after gateway blocked script
          k).stream.targets
        ((StreamSolo.start route targets deadlineS now breakers).after gateway blocked script
          k).stream.attempts ∧
      Reflects gateway
        ((StreamSolo.start route targets deadlineS now breakers).after gateway blocked script k)
        ((StreamSolo.start route (targets.filter gateway.onBox) deadlineS now breakers).after gateway
          [] script k)
  | 0 => ⟨⟨[], rfl, rfl⟩, rfl, rfl, rfl, rfl⟩
  | k + 1 => by
      obtain ⟨turned, reflects⟩ := blocked_stream_stripped separates script k
      have remaining := turned.separates separates
      exact ⟨turned.next (proceed_turned remaining _ _ _ _),
        step_reflects remaining reflects (script k)⟩

/-! ## Whole calls -/

/-- `chat` after so many steps, with the targets its route resolves to. -/
def LLMGateway.chat (gateway : LLMGateway) (targets : List ModelSpec) (allowEgress : Bool)
    (now : ℚ) (breakers : Breakers) (script : Nat → Entry ρ) (k : Nat) : Solo ρ :=
  (Solo.start targets gateway.config.requestDeadlineS now breakers).after gateway .chat
    (gateway.egressBlocked targets allowEgress) script k

/-- `stream_chat` after so many steps. -/
def LLMGateway.streamChat (gateway : LLMGateway) (route : String) (targets : List ModelSpec)
    (allowEgress : Bool) (now : ℚ) (breakers : Breakers) (script : Nat → StreamEntry) (k : Nat) :
    StreamSolo :=
  (StreamSolo.start route targets gateway.config.streamDeadlineS now breakers).after gateway
    (gateway.egressBlocked targets allowEgress) script k

/-- A call on targets some of which are outside is the call on the others: it never
invokes the targets outside, leaves their breakers alone, ends alike and has the same
attempts but for one skip for each target outside it turned to. -/
structure ChatRemoved (gateway : LLMGateway) (targets : List ModelSpec) (breakers : Breakers)
    (s t : Solo ρ) : Prop where
  inside : ∀ spec n now timeout, Note.started spec n now timeout ∈ s.trace →
    gateway.onBox spec = true
  untouched : ∀ spec ∈ targets, gateway.onBox spec = false → s.breakers spec.id = breakers spec.id
  point : s.call.point = t.call.point
  attempts : s.call.attempts.filter AttemptRecord.counts = t.call.attempts
  trace : s.trace.filter Note.counts = t.trace
  skips : Turned gateway .chat targets s.call.targets s.call.attempts

structure StreamRemoved (gateway : LLMGateway) (targets : List ModelSpec) (breakers : Breakers)
    (s t : StreamSolo) : Prop where
  inside : ∀ spec n now timeout, StreamNote.note (.started spec n now timeout) ∈ s.trace →
    gateway.onBox spec = true
  untouched : ∀ spec ∈ targets, gateway.onBox spec = false → s.breakers spec.id = breakers spec.id
  events : (events s.trace).map StreamEvent.observed = (events t.trace).map StreamEvent.observed
  point : s.stream.point = t.stream.point
  attempts : s.stream.attempts.filter AttemptRecord.counts = t.stream.attempts
  trace : observed s.trace = observed t.trace
  skips : Turned gateway .chat targets s.stream.targets s.stream.attempts

/-- The targets on the box, among those of the call. -/
theorem filter_onBox {targets : List ModelSpec} :
    ∀ t ∈ targets.filter gateway.onBox, t ∈ targets ∧ gateway.onBox t = true :=
  fun _ mem => List.mem_filter.mp mem

/-- A target outside shares its id with none on the box. -/
theorem outside_id {targets : List ModelSpec}
    (unique : ∀ spec ∈ targets, ∀ other ∈ targets, spec.id = other.id → spec = other)
    {spec : ModelSpec} (mem : spec ∈ targets) (off : gateway.onBox spec = false) :
    ∀ t, t ∈ targets ∧ gateway.onBox t = true → t.id ≠ spec.id := by
  rintro t ⟨there, on⟩ same
  rw [unique t there spec mem same, off] at on
  cases on

theorem chat_removed {name : Option String} {route : String} {targets : List ModelSpec}
    (resolved : gateway.catalog.resolve name .chat = some (route, targets)) (now : ℚ)
    (breakers : Breakers) (script : Nat → Entry ρ) (k : Nat) :
    ChatRemoved gateway targets breakers (gateway.chat targets false now breakers script k)
      (gateway.chat (targets.filter gateway.onBox) true now breakers script k) := by
  have run : Turned gateway .chat targets
        (gateway.chat targets false now breakers script k).call.targets
        (gateway.chat targets false now breakers script k).call.attempts ∧
      (gateway.chat targets false now breakers script k).stripped gateway =
        gateway.chat (targets.filter gateway.onBox) true now breakers script k :=
    blocked_chat_stripped .chat (egressBlocked_separates resolved) script k
  have confined : Confined (fun t => t ∈ targets ∧ gateway.onBox t = true) breakers
      (gateway.chat (targets.filter gateway.onBox) true now breakers script k).breakers
      ((gateway.chat (targets.filter gateway.onBox) true now breakers script k).trace.filterMap
        Note.invoked?) :=
    (Solo.after_confined filter_onBox script k).2
  generalize gateway.chat targets false now breakers script k = s at run ⊢
  obtain ⟨turned, same⟩ := run
  rw [← same] at confined ⊢
  refine ⟨?_, ?_, rfl, rfl, rfl, turned⟩
  · intro spec n at_ timeout mem
    have seen : Note.started spec n at_ timeout ∈ s.trace.filter Note.counts :=
      List.mem_filter.mpr ⟨mem, rfl⟩
    exact (confined.invoked spec
      (List.mem_filterMap.mpr ⟨.started spec n at_ timeout, seen, rfl⟩)).2
  · intro spec mem off
    exact confined.breakers spec.id
      (outside_id (fun _ here _ there => Catalog.resolve_unique resolved here there) mem off)

/-- What is observed of the events. -/
theorem events_observed (trace : List StreamNote) :
    events (observed trace) = (events trace).map StreamEvent.observed := by
  unfold events observed
  rw [List.filterMap_filterMap, List.map_filterMap]
  congr 1
  funext note
  cases note with
  | note inner =>
      unfold StreamNote.observed
      dsimp only
      split <;> rfl
  | received spec n item => rfl
  | event e => rfl

theorem stream_removed {name : Option String} {route : String} {targets : List ModelSpec}
    (resolved : gateway.catalog.resolve name .chat = some (route, targets)) (now : ℚ)
    (breakers : Breakers) (script : Nat → StreamEntry) (k : Nat) :
    StreamRemoved gateway targets breakers
      (gateway.streamChat route targets false now breakers script k)
      (gateway.streamChat route (targets.filter gateway.onBox) true now breakers script k) := by
  have run : Turned gateway .chat targets
        (gateway.streamChat route targets false now breakers script k).stream.targets
        (gateway.streamChat route targets false now breakers script k).stream.attempts ∧
      Reflects gateway (gateway.streamChat route targets false now breakers script k)
        (gateway.streamChat route (targets.filter gateway.onBox) true now breakers script k) :=
    blocked_stream_stripped (egressBlocked_separates resolved) script k
  have confined : Confined (fun t => t ∈ targets ∧ gateway.onBox t = true) breakers
      (gateway.streamChat route (targets.filter gateway.onBox) true now breakers script k).breakers
      ((gateway.streamChat route (targets.filter gateway.onBox) true now breakers script
        k).trace.filterMap StreamNote.target?) :=
    (StreamSolo.after_confined filter_onBox script k).2
  generalize gateway.streamChat route targets false now breakers script k = s at run ⊢
  generalize gateway.streamChat route (targets.filter gateway.onBox) true now breakers script k = t
    at run confined ⊢
  obtain ⟨turned, reflects⟩ := run
  refine ⟨?_, ?_, ?_, ?_, ?_, reflects.trace.symm, turned⟩
  · intro spec n at_ timeout mem
    have seen : StreamNote.note (.started spec n at_ timeout) ∈ observed s.trace :=
      List.mem_filterMap.mpr ⟨_, mem, rfl⟩
    rw [← reflects.trace] at seen
    obtain ⟨note, there, same⟩ := List.mem_filterMap.mp seen
    refine (confined.invoked spec (List.mem_filterMap.mpr ⟨note, there, ?_⟩)).2
    cases note with
    | note inner =>
        unfold StreamNote.observed at same
        dsimp only at same
        split at same
        · rw [Option.some.inj same]
          rfl
        · cases same
    | received spec n item => cases same
    | event e => cases same
  · intro spec mem off
    rw [← reflects.breakers]
    exact confined.breakers spec.id
      (outside_id (fun _ here _ there => Catalog.resolve_unique resolved here there) mem off)
  · rw [← events_observed, ← events_observed, reflects.trace]
  · rw [reflects.stream]
    rfl
  · rw [reflects.stream]
    rfl

/-! ## Nothing left -/

theorem after_ended {s : Solo ρ} (kind : ModelKind) {ending : Ending ρ}
    (stopped : s.call.point = .ended ending) (script : Nat → Entry ρ) : ∀ k,
    (s.after gateway kind blocked script k).call.point = .ended ending
  | 0 => stopped
  | k + 1 => by
      have before := after_ended kind stopped script k
      show (Call.resume gateway kind blocked _ _ _ _).state.point = _
      unfold Call.resume
      rw [before]
      exact before

/-- A call without targets finds no provider. -/
theorem chat_nothing (now : ℚ) (breakers : Breakers) (script : Nat → Entry ρ) : ∀ {k}, 0 < k →
    (gateway.chat [] true now breakers script k).call.point = .ended (.failed .noAvailableProvider)
  | 1, _ => rfl
  | k + 2, _ => by
      have before : (gateway.chat [] true now breakers script (k + 1)).call.point =
          .ended (.failed .noAvailableProvider) := chat_nothing now breakers script k.succ_pos
      exact after_ended .chat before (fun _ => script (k + 1)) 1

/-- A stream without targets hands on that it failed, and nothing more. -/
theorem stream_nothing (route : String) (now : ℚ) (breakers : Breakers)
    (script : Nat → StreamEntry) : ∀ {k}, 0 < k →
    events (gateway.streamChat route [] true now breakers script k).trace =
      [.failed .noAvailableProvider "no model provider could serve the request" false []] ∧
    ((gateway.streamChat route [] true now breakers script k).stream.point = .finished ∨
      (gateway.streamChat route [] true now breakers script k).stream.point = .ended false)
  | 1, _ => ⟨rfl, .inl rfl⟩
  | k + 2, _ => by
      obtain ⟨before, point⟩ := stream_nothing route now breakers script k.succ_pos
      generalize there : gateway.streamChat route [] true now breakers script (k + 1) = s
        at before point
      have next : gateway.streamChat route [] true now breakers script (k + 2) =
          s.step gateway (gateway.egressBlocked [] true) (script (k + 1)) := by
        rw [← there]
        rfl
      have quiet : ∀ {arrival draw now_}, (s.stream.proceed gateway
          (gateway.egressBlocked [] true) arrival draw now_ s.breakers).notes = [] ∧
          (s.stream.proceed gateway (gateway.egressBlocked [] true) arrival draw now_
            s.breakers).state.point = .ended false := by
        intro arrival draw now_
        unfold Stream.proceed
        rcases point with here | here
        · rw [here]
          exact ⟨rfl, rfl⟩
        · rw [here]
          exact ⟨rfl, here⟩
      rw [next]
      refine ⟨?_, .inr quiet.2⟩
      show events (s.trace ++ _) = _
      rw [quiet.1, List.append_nil, before]

/-- An event observed as a failure is one. -/
theorem observed_failed {e : StreamEvent} {code : GatewayErrorCode} {message : String}
    {begun : Bool} {attempts : List AttemptRecord}
    (seen : e.observed = .failed code message begun attempts) :
    ∃ all, e = .failed code message begun all := by
  cases e with
  | started spec route fallbackUsed => cases seen
  | delta text => cases seen
  | completed spec reason latency ttft all => cases seen
  | failed code' message' begun' all =>
      obtain ⟨rfl, rfl, rfl, -⟩ := StreamEvent.failed.inj seen
      exact ⟨all, rfl⟩

/-- **A chat or a stream that may not leave the box is the one on the targets on the box**;
with none of them, it finds no provider. -/
theorem egress_blocking_removes {name : Option String} {route : String} {targets : List ModelSpec}
    (resolved : gateway.catalog.resolve name .chat = some (route, targets)) (now : ℚ)
    (breakers : Breakers) (script : Nat → Entry ρ) (items : Nat → StreamEntry) (k : Nat) :
    ChatRemoved gateway targets breakers (gateway.chat targets false now breakers script k)
        (gateway.chat (targets.filter gateway.onBox) true now breakers script k) ∧
      StreamRemoved gateway targets breakers
        (gateway.streamChat route targets false now breakers items k)
        (gateway.streamChat route (targets.filter gateway.onBox) true now breakers items k) ∧
      ((∀ spec ∈ targets, gateway.onBox spec = false) → 0 < k →
        (gateway.chat targets false now breakers script k).call.point =
            .ended (.failed .noAvailableProvider) ∧
          ∃ attempts, events (gateway.streamChat route targets false now breakers items k).trace =
            [.failed .noAvailableProvider "no model provider could serve the request" false
              attempts]) := by
  have chat := chat_removed resolved now breakers script k
  have stream := stream_removed resolved now breakers items k
  refine ⟨chat, stream, ?_⟩
  intro outside begun
  have none : targets.filter gateway.onBox = [] :=
    List.filter_eq_nil_iff.mpr fun spec mem on => by
      rw [outside spec mem] at on
      cases on
  rw [none] at chat stream
  constructor
  · rw [chat.point]
    exact chat_nothing now breakers script begun
  · have seen := stream.events
    rw [(stream_nothing route now breakers items begun).1] at seen
    obtain ⟨e, one, same⟩ := List.map_eq_singleton_iff.mp seen
    obtain ⟨attempts, failed⟩ := observed_failed same
    exact ⟨attempts, by rw [one, failed]⟩

/-! ## Poles -/

theorem egress_blocking_removes_pole :
    poleGateway.onBox poleCloudModel = false ∧
      ChatRemoved poleGateway [poleCloudModel, poleLocal] poleBreakers
        (poleGateway.chat [poleCloudModel, poleLocal] false 0 poleBreakers
          (fun _ => { outcome := .result "Hello" }) 4)
        (poleGateway.chat ([poleCloudModel, poleLocal].filter poleGateway.onBox) true 0
          poleBreakers (fun _ => { outcome := .result "Hello" }) 4) :=
  ⟨rfl, (@egress_blocking_removes String poleGateway (some "both") "both" _ (by decide +kernel) 0
    poleBreakers _ (fun _ => { arrival := .exhausted }) 4).1⟩

end OpsAssist.Gateway
