/-
# OpsAssist.Theory.Run -- runs of labelled transition systems

`Run Step s labels s'` is a finite run of a labelled step relation, `Guarded` the
relation restricted to the steps that meet a condition.  A property every step
preserves holds along every run (`Run.invariant`); a property that does not hold at
first and holds at last was established by one of the steps (`Run.establish`),
which is how a fact about a final state is traced back to the step that caused it.
Where a step function decides, a run keeps to the right steps exactly when every state on
its way is right (`Run.guarded_iff`, and `Run.everywhere_iff` where the last state counts too).
`exists_done` is how a loop is shown to end.
-/
import Mathlib.Data.List.Basic
import Mathlib.Tactic.Push

namespace OpsAssist.Theory

set_option autoImplicit false

section

variable {σ ι : Type}

/-- A finite run of the step relation with its labels. -/
inductive Run (Step : σ → ι → σ → Prop) : σ → List ι → σ → Prop where
  | nil (s : σ) : Run Step s [] s
  | cons {s mid s' : σ} {a : ι} {labels : List ι} :
      Step s a mid → Run Step mid labels s' → Run Step s (a :: labels) s'

/-- The steps that meet a condition on the state and the label. -/
def Guarded (Guard : σ → ι → Prop) (Step : σ → ι → σ → Prop) : σ → ι → σ → Prop :=
  fun s a s' => Guard s a ∧ Step s a s'

/-- The step relation of a total step function. -/
def StepOf (step : σ → ι → σ) : σ → ι → σ → Prop := fun s a s' => step s a = s'

/-- A step function that checks a condition first. -/
def checked (guard : σ → ι → Bool) (step : σ → ι → Option σ) : σ → ι → Option σ :=
  fun s a => if guard s a then step s a else none

/-- The step relation of a step function that may refuse. -/
def TryStepOf (step : σ → ι → Option σ) : σ → ι → σ → Prop := fun s a s' => step s a = some s'

namespace Run

variable {Step Step' : σ → ι → σ → Prop}

theorem single {s s' : σ} {a : ι} (step : Step s a s') : Run Step s [a] s' :=
  .cons step (.nil s')

theorem append {s mid s' : σ} {front back : List ι} (first : Run Step s front mid)
    (second : Run Step mid back s') : Run Step s (front ++ back) s' := by
  induction first with
  | nil => exact second
  | cons step _ ih => exact .cons step (ih second)

theorem append_iff {s s' : σ} {front back : List ι} :
    Run Step s (front ++ back) s' ↔ ∃ mid, Run Step s front mid ∧ Run Step mid back s' := by
  constructor
  · intro run
    induction front generalizing s with
    | nil => exact ⟨s, .nil s, run⟩
    | cons a front ih =>
        cases run with
        | cons step rest =>
            obtain ⟨mid, first, second⟩ := ih rest
            exact ⟨mid, .cons step first, second⟩
  · rintro ⟨mid, first, second⟩
    exact first.append second

/-- **A property every step preserves holds along every run.** -/
theorem invariant {Inv : σ → Prop} (keeps : ∀ s a s', Step s a s' → Inv s → Inv s')
    {s s' : σ} {labels : List ι} (run : Run Step s labels s') (holds : Inv s) : Inv s' := by
  induction run with
  | nil => exact holds
  | cons step _ ih => exact ih (keeps _ _ _ step holds)

/-- A relation every step extends, transitively, relates the ends of every run. -/
theorem related {Rel : σ → σ → Prop} (refl : ∀ s, Rel s s)
    (trans : ∀ {s t u}, Rel s t → Rel t u → Rel s u)
    (extends_ : ∀ {s a s'}, Step s a s' → Rel s s') {s s' : σ} {labels : List ι}
    (run : Run Step s labels s') : Rel s s' := by
  induction run with
  | nil s => exact refl s
  | cons step _ ih => exact trans (extends_ step) ih

theorem mono (weaker : ∀ {s a s'}, Step s a s' → Step' s a s') {s s' : σ} {labels : List ι}
    (run : Run Step s labels s') : Run Step' s labels s' := by
  induction run with
  | nil s => exact .nil s
  | cons step _ ih => exact .cons (weaker step) ih

theorem unguarded {Guard : σ → ι → Prop} {s s' : σ} {labels : List ι}
    (run : Run (Guarded Guard Step) s labels s') : Run Step s labels s' :=
  run.mono And.right

/-- **A property that holds at the end and not at the start was established by one
of the steps.** -/
theorem establish {P : σ → Prop} {s s' : σ} {labels : List ι} (run : Run Step s labels s')
    (before : ¬P s) (after : P s') : ∃ front a back mid mid', labels = front ++ a :: back ∧
      Run Step s front mid ∧ Step mid a mid' ∧ ¬P mid ∧ P mid' ∧ Run Step mid' back s' := by
  induction run with
  | nil => exact absurd after before
  | @cons s mid s' a labels step rest ih =>
      by_cases now : P mid
      · exact ⟨[], a, labels, s, mid, rfl, .nil s, step, before, now, rest⟩
      · obtain ⟨front, b, back, t, t', shape, first, there, was, is, second⟩ := ih now after
        exact ⟨a :: front, b, back, t, t', by rw [shape, List.cons_append], .cons step first,
          there, was, is, second⟩

/-- Runs of a step function are its folds. -/
theorem stepOf_iff {step : σ → ι → σ} {s s' : σ} {labels : List ι} :
    Run (StepOf step) s labels s' ↔ labels.foldl step s = s' := by
  constructor
  · intro run
    induction run with
    | nil => rfl
    | cons here _ ih => rw [List.foldl_cons, here, ih]
  · intro fold
    induction labels generalizing s with
    | nil => rw [← fold]; exact .nil s
    | cons a labels ih => exact .cons rfl (ih fold)

/-- **A run ends well if and only if all its steps keep to the condition**, when a step that does
not goes wrong for good. -/
theorem ends_well_iff {Guard : σ → ι → Prop} {Inv Bad : σ → Prop}
    (keeps : ∀ s a s', Step s a s' → Guard s a → Inv s → Inv s')
    (spoils : ∀ s a s', Step s a s' → ¬Guard s a → Inv s → Bad s')
    (stays : ∀ s a s', Step s a s' → Bad s → Bad s') (apart : ∀ s, Inv s → ¬Bad s)
    {s s' : σ} {labels : List ι} (run : Run Step s labels s') (holds : Inv s) :
    ¬Bad s' ↔ Run (Guarded Guard Step) s labels s' := by
  constructor
  · intro well
    induction run with
    | nil s => exact .nil s
    | @cons s mid s' a labels here rest ih =>
        have met : Guard s a := by
          by_contra unmet
          exact well (rest.invariant stays (spoils s a mid here unmet holds))
        exact .cons ⟨met, here⟩ (ih (keeps s a mid here met holds) well)
  · intro guarded
    exact apart s' (guarded.invariant (fun s a s' step => keeps s a s' step.2 step.1) holds)

/-- The labels of a run of a step function decide where it ends. -/
theorem unique {step : σ → ι → Option σ} {s s' t : σ} {labels : List ι}
    (run : Run (TryStepOf step) s labels s') (other : Run (TryStepOf step) s labels t) : s' = t := by
  induction run with
  | nil s =>
      cases other
      rfl
  | @cons s mid s' a labels here _ ih =>
      cases other with
      | @cons _ mid' _ _ _ there rest =>
          have same : mid = mid' := Option.some.inj (here.symm.trans there)
          exact ih (same ▸ rest)

/-- **All states on the way are right if and only if all steps keep to the condition**, when a
step that does not leads to a wrong state. -/
theorem guarded_iff {step : σ → ι → Option σ} {Guard : σ → ι → Prop} {Inv Right : σ → Prop}
    (keeps : ∀ s a s', step s a = some s' → Guard s a → Inv s → Inv s')
    (right : ∀ s, Inv s → Right s)
    (wrong : ∀ s a s', step s a = some s' → ¬Guard s a → Inv s → ¬Right s')
    {s s' : σ} {labels : List ι} (run : Run (TryStepOf step) s labels s') (holds : Inv s) :
    (∀ front back mid, labels = front ++ back → Run (TryStepOf step) s front mid → Right mid) ↔
      Run (Guarded Guard (TryStepOf step)) s labels s' := by
  induction run with
  | nil s =>
      constructor
      · intro _
        exact .nil s
      · intro _ front back mid shape before
        have none : front = [] := (List.append_eq_nil_iff.mp shape.symm).1
        subst none
        cases before
        exact right s holds
  | @cons s mid s' a labels here rest ih =>
      constructor
      · intro all
        have met : Guard s a := by
          by_contra unmet
          exact wrong s a mid here unmet holds (all [a] labels mid rfl (single here))
        have next := keeps s a mid here met holds
        refine .cons ⟨met, here⟩ ((ih next).mp ?_)
        intro front back t shape before
        exact all (a :: front) back t (by rw [shape, List.cons_append]) (.cons here before)
      · intro guarded front back t shape before
        cases guarded with
        | @cons _ mid' _ _ _ step later =>
            have same : mid' = mid := Option.some.inj (step.2.symm.trans here)
            subst same
            have next := keeps s a mid' here step.1 holds
            cases front with
            | nil =>
                cases before
                exact right s holds
            | cons b front =>
                obtain ⟨rfl, tail⟩ := List.cons.inj shape
                cases before with
                | @cons _ mid'' _ _ _ there back' =>
                    have same : mid'' = mid' := Option.some.inj (there.symm.trans here)
                    exact (ih next).mpr later front back t tail (same ▸ back')

/-- **All states of a run are right if and only if all its steps keep to the condition and the
last state fits**, when a state is right where it fits and nothing was lost before it, and a
step loses nothing exactly when it is fine. -/
theorem everywhere_iff {step : σ → ι → σ} {Inv Fits Whole : σ → Prop} {Fine : σ → ι → Prop}
    (keeps : ∀ s a, Inv s → Inv (step s a))
    (whole_step : ∀ s a, Inv s → (Whole (step s a) ↔ Whole s ∧ Fine s a))
    {s s' : σ} {labels : List ι} (run : Run (StepOf step) s labels s') (holds : Inv s)
    (whole : Whole s) :
    (∀ front back mid, labels = front ++ back → Run (StepOf step) s front mid →
        Fits mid ∧ Whole mid) ↔
      Run (Guarded (fun s a => Fits s ∧ Fine s a) (StepOf step)) s labels s' ∧ Fits s' := by
  induction run with
  | nil s =>
      constructor
      · intro all
        exact ⟨.nil s, (all [] [] s rfl (.nil s)).1⟩
      · rintro ⟨_, fits⟩ front back mid shape before
        have none : front = [] := (List.append_eq_nil_iff.mp shape.symm).1
        subst none
        cases before
        exact ⟨fits, whole⟩
  | @cons s mid s' a labels here rest ih =>
      cases here
      have next := keeps s a holds
      constructor
      · intro all
        have now := all [] (a :: labels) s rfl (.nil s)
        have later := all [a] labels (step s a) rfl (single rfl)
        have fine := ((whole_step s a holds).mp later.2).2
        have behind : ∀ front back mid, labels = front ++ back →
            Run (StepOf step) (step s a) front mid → Fits mid ∧ Whole mid :=
          fun front back t shape before =>
            all (a :: front) back t (by rw [shape, List.cons_append]) (.cons rfl before)
        obtain ⟨guarded, fits⟩ := (ih next later.2).mp behind
        exact ⟨.cons ⟨⟨now.1, fine⟩, rfl⟩ guarded, fits⟩
      · rintro ⟨guarded, fits⟩ front back t shape before
        cases guarded with
        | @cons _ mid' _ _ _ first later =>
            obtain ⟨⟨now, fine⟩, same⟩ := first
            cases same
            have still := (whole_step s a holds).mpr ⟨whole, fine⟩
            cases front with
            | nil =>
                cases before
                exact ⟨now, whole⟩
            | cons b front =>
                obtain ⟨rfl, tail⟩ := List.cons.inj shape
                cases before with
                | cons there back' =>
                    cases there
                    exact (ih next still).mpr ⟨later, fits⟩ front back t tail back'

/-- Conditions that agree wherever an invariant holds are met along the same runs. -/
theorem guarded_congr {Guard Right : σ → ι → Prop} {Inv : σ → Prop}
    (keeps : ∀ s a s', Step s a s' → Inv s → Inv s')
    (agree : ∀ s a, Inv s → (Right s a ↔ Guard s a)) {s s' : σ} {labels : List ι}
    (holds : Inv s) :
    Run (Guarded Right Step) s labels s' ↔ Run (Guarded Guard Step) s labels s' := by
  constructor
  · intro run
    induction run with
    | nil s => exact .nil s
    | @cons s mid _ a _ here _ ih =>
        exact .cons ⟨(agree s a holds).mp here.1, here.2⟩ (ih (keeps s a mid here.2 holds))
  · intro run
    induction run with
    | nil s => exact .nil s
    | @cons s mid _ a _ here _ ih =>
        exact .cons ⟨(agree s a holds).mpr here.1, here.2⟩ (ih (keeps s a mid here.2 holds))

/-- The last step of a run meets the condition. -/
theorem last_guard {step : σ → ι → σ} {Guard : σ → ι → Prop} {front : List ι} {s s' : σ} {a : ι}
    (run : Run (Guarded Guard (StepOf step)) s (front ++ [a]) s') :
    Guard (front.foldl step s) a := by
  induction front generalizing s with
  | nil =>
      cases run with
      | cons here _ => exact here.1
  | cons b front ih =>
      cases run with
      | cons here rest =>
          cases here.2
          exact ih rest

/-- A fold of a step function that may refuse is a run. -/
theorem of_foldlM {step : σ → ι → Option σ} {s s' : σ} {labels : List ι}
    (fold : labels.foldlM step s = some s') : Run (TryStepOf step) s labels s' := by
  induction labels generalizing s with
  | nil =>
      rw [List.foldlM_nil] at fold
      rw [Option.some.inj fold]
      exact .nil s'
  | cons a labels ih =>
      rw [List.foldlM_cons] at fold
      obtain ⟨mid, here, rest⟩ := Option.bind_eq_some_iff.mp fold
      exact .cons here (ih rest)

/-- A fold with a condition checked before each step is a guarded run. -/
theorem guarded_of_foldlM {guard : σ → ι → Bool} {step : σ → ι → Option σ} {s s' : σ}
    {labels : List ι}
    (fold : labels.foldlM (checked guard step) s = some s') :
    Run (Guarded (fun s a => guard s a = true) (TryStepOf step)) s labels s' := by
  refine (of_foldlM fold).mono ?_
  intro s a s' here
  have tried : (if guard s a then step s a else none) = some s' := here
  split at tried
  · rename_i met
    exact ⟨met, tried⟩
  · cases tried

/-- Whether a condition holds before each step of a fold. -/
def keepsTo (Guard : σ → ι → Prop) [∀ s a, Decidable (Guard s a)] (step : σ → ι → σ) :
    σ → List ι → Bool
  | _, [] => true
  | s, a :: labels => decide (Guard s a) && keepsTo Guard step (step s a) labels

/-- A fold that keeps to a condition is a guarded run. -/
theorem guarded_of_keepsTo {Guard : σ → ι → Prop} [∀ s a, Decidable (Guard s a)]
    {step : σ → ι → σ} : ∀ {labels : List ι} {s : σ}, keepsTo Guard step s labels = true →
      Run (Guarded Guard (StepOf step)) s labels (labels.foldl step s)
  | [], s, _ => .nil s
  | a :: labels, s, keeps => by
      rw [keepsTo, Bool.and_eq_true] at keeps
      exact .cons ⟨of_decide_eq_true keeps.1, rfl⟩ (guarded_of_keepsTo keeps.2)

end Run

end

end OpsAssist.Theory
