/-
# OpsAssist.Theory.Reading -- a loop that hands on as it reads

A generator reads elements one after another.  Each one hands on some output and changes the
state, and may end the loop, by a `break` or by an exception.  What an element does is given
apart from the state, so a run is the elements that are passed and the one that ends it
(`readAll_append`, `readAll_ended`).
-/
import Mathlib.Data.List.TakeWhile

namespace OpsAssist.Theory

set_option autoImplicit false

variable {α δ σ ε : Type}

/-- What one element does. -/
inductive Reading (δ σ ε : Type) where
  | next (out : List δ) (change : σ → σ)
  | stop (out : List δ) (change : σ → σ)
  | raise (out : List δ) (exc : ε)

namespace Reading

def out : Reading δ σ ε → List δ
  | .next out _ | .stop out _ | .raise out _ => out

/-- The loop goes on. -/
def goesOn : Reading δ σ ε → Bool
  | .next _ _ => true
  | _ => false

/-- What the element does to the state. -/
def change : Reading δ σ ε → σ → σ
  | .next _ change | .stop _ change => change
  | .raise _ _ => id

/-- The same with another exception. -/
def mapExc {ε' : Type} (f : ε → ε') : Reading δ σ ε → Reading δ σ ε'
  | .next out change => .next out change
  | .stop out change => .stop out change
  | .raise out exc => .raise out (f exc)

@[simp] theorem mapExc_goesOn {ε' : Type} {f : ε → ε'} {r : Reading δ σ ε} :
    (r.mapExc f).goesOn = r.goesOn := by cases r <;> rfl

@[simp] theorem mapExc_change {ε' : Type} {f : ε → ε'} {r : Reading δ σ ε} :
    (r.mapExc f).change = r.change := by cases r <;> rfl

@[simp] theorem mapExc_out {ε' : Type} {f : ε → ε'} {r : Reading δ σ ε} :
    (r.mapExc f).out = r.out := by cases r <;> rfl

end Reading

/-- What is handed on, and how the loop ends: with an exception, or with a change of the state and
whether an element has ended it. -/
def readAll (reading : α → Reading δ σ ε) : List α → List δ × Except ε ((σ → σ) × Bool)
  | [] => ([], .ok (id, false))
  | a :: rest =>
      match reading a with
      | .next out change =>
          (out ++ (readAll reading rest).1,
            (readAll reading rest).2.map fun r => (r.1 ∘ change, r.2))
      | .stop out change => (out, .ok (change, true))
      | .raise out exc => (out, .error exc)

variable {reading : α → Reading δ σ ε}

/-- The changes of elements that are passed, one after another. -/
def changes (reading : α → Reading δ σ ε) (passed : List α) (s : σ) : σ :=
  passed.foldl (fun s a => (reading a).change s) s

/-- **Elements that are passed** hand on what each hands on, and change the state in turn. -/
theorem readAll_append (rest : List α) : ∀ {passed : List α},
    (∀ a ∈ passed, (reading a).goesOn = true) → readAll reading (passed ++ rest) =
      (passed.flatMap (fun a => (reading a).out) ++ (readAll reading rest).1,
        (readAll reading rest).2.map fun r => (r.1 ∘ changes reading passed, r.2))
  | [], _ => by
      cases shape : readAll reading rest with
      | mk out result => cases result <;> simp [changes, shape, Except.map, Function.comp_def]
  | a :: passed, all => by
      have ih := readAll_append rest fun b mem => all b (List.mem_cons_of_mem a mem)
      have here := all a List.mem_cons_self
      rw [List.cons_append, readAll, ih]
      cases kind : reading a with
      | next out change =>
          simp only [List.flatMap_cons, kind, Reading.out, List.append_assoc]
          cases (readAll reading rest).2 with
          | error e => rfl
          | ok r =>
              have same : changes reading (a :: passed) = changes reading passed ∘ change := by
                funext s
                simp [changes, kind, Reading.change]
              simp [Except.map, same, Function.comp_def]
      | stop out change => simp [kind, Reading.goesOn] at here
      | raise out exc => simp [kind, Reading.goesOn] at here

/-- All elements are passed. -/
theorem readAll_passed {passed : List α} (all : ∀ a ∈ passed, (reading a).goesOn = true) :
    readAll reading passed =
      (passed.flatMap fun a => (reading a).out, .ok (changes reading passed, false)) := by
  have whole := readAll_append [] all
  simpa [readAll, Except.map] using whole

/-- The loop ends at an element. -/
theorem readAll_ended {passed : List α} (all : ∀ a ∈ passed, (reading a).goesOn = true) {a : α}
    (ends : (reading a).goesOn = false) (rest : List α) :
    readAll reading (passed ++ a :: rest) =
      ((passed ++ [a]).flatMap fun b => (reading b).out,
        match reading a with
        | .raise _ exc => .error exc
        | _ => .ok (changes reading (passed ++ [a]), true)) := by
  have step : changes reading (passed ++ [a]) =
      (reading a).change ∘ changes reading passed := by
    funext s
    simp [changes]
  rw [readAll_append _ all, readAll, step]
  cases kind : reading a with
  | next out change => simp [kind, Reading.goesOn] at ends
  | stop out change => simp [kind, Reading.out, Except.map, Reading.change]
  | raise out exc => simp [kind, Reading.out, Except.map]

/-! ## Sound runs -/

/-- What is handed on is good, and an exception is allowed. -/
def Sound {ρ : Type} (good : δ → Prop) (allowed : ε → Prop) (run : List δ × Except ε ρ) : Prop :=
  (∀ d ∈ run.1, good d) ∧ ∀ e, run.2 = .error e → allowed e

/-- The same of one element. -/
def Reading.Fine (good : δ → Prop) (allowed : ε → Prop) (r : Reading δ σ ε) : Prop :=
  (∀ d ∈ r.out, good d) ∧ ∀ out e, r = .raise out e → allowed e

section

variable {good : δ → Prop} {allowed : ε → Prop} {a : α}

theorem fine_mapExc {ε' : Type} {f : ε → ε'} {allowed' : ε' → Prop} {r : Reading δ σ ε} :
    (r.mapExc f).Fine good allowed' ↔ r.Fine good fun e => allowed' (f e) := by
  cases r with
  | next out change => simp [Reading.mapExc, Reading.Fine, Reading.out]
  | stop out change => simp [Reading.mapExc, Reading.Fine, Reading.out]
  | raise out exc => simp [Reading.mapExc, Reading.Fine, Reading.out]

/-- An element that is passed leaves the rest to be sound. -/
theorem sound_passed {rest : List α} (here : (reading a).goesOn = true) :
    Sound good allowed (readAll reading (a :: rest)) ↔
      (reading a).Fine good allowed ∧ Sound good allowed (readAll reading rest) := by
  rw [readAll]
  cases kind : reading a with
  | next out change =>
      simp only [Sound, Reading.Fine, Reading.out, List.mem_append, or_imp, forall_and]
      cases (readAll reading rest).2 <;> simp [Except.map, and_assoc]
  | stop out change => simp [kind, Reading.goesOn] at here
  | raise out exc => simp [kind, Reading.goesOn] at here

/-- An element that ends the loop decides. -/
theorem sound_ended {rest : List α} (here : (reading a).goesOn = false) :
    Sound good allowed (readAll reading (a :: rest)) ↔ (reading a).Fine good allowed := by
  rw [readAll]
  cases kind : reading a with
  | next out change => simp [kind, Reading.goesOn] at here
  | stop out change => simp [Sound, Reading.Fine, Reading.out]
  | raise out exc => simp [Sound, Reading.Fine, Reading.out]

/-- **A run is sound when every element up to the end is fit**, where an element that ends the
loop as it should is fine, and another one is fine when it is fit, and then passed. -/
theorem readAll_sound_iff (ends : α → Bool) (fits : α → Prop)
    (ended : ∀ a, ends a = true → (reading a).goesOn = false ∧ (reading a).Fine good allowed)
    (taken : ∀ a, ends a = false → ((reading a).Fine good allowed ↔ fits a))
    (passed : ∀ a, ends a = false → fits a → (reading a).goesOn = true) : ∀ as : List α,
    Sound good allowed (readAll reading as) ↔ ∀ a ∈ as.takeWhile (fun a => !ends a), fits a
  | [] => by simp [readAll, Sound]
  | a :: as => by
      have ih := readAll_sound_iff ends fits ended taken passed as
      cases here : ends a with
      | true =>
          rw [sound_ended (ended a here).1]
          simpa [here] using (ended a here).2
      | false =>
          rw [List.takeWhile_cons_of_pos (by simp [here]), List.forall_mem_cons, ← ih]
          by_cases fit : fits a
          · rw [sound_passed (passed a here fit), taken a here]
          · have unfit : ¬(reading a).Fine good allowed := fun fine => fit ((taken a here).mp fine)
            cases kind : (reading a).goesOn with
            | true => rw [sound_passed kind]; simp [unfit, fit]
            | false => rw [sound_ended kind]; simp [unfit, fit]

end

/-! ## Up to the end -/

/-- The elements up to the first that ends the loop, this one with them. -/
def upTo (ends : α → Bool) : List α → List α
  | [] => []
  | a :: as => if ends a then [a] else a :: upTo ends as

theorem upTo_open {ends : α → Bool} : ∀ {as : List α}, (∀ a ∈ as, ends a = false) →
    upTo ends as = as
  | [], _ => rfl
  | a :: as, all => by
      rw [upTo, all a List.mem_cons_self, if_neg Bool.false_ne_true,
        upTo_open fun b mem => all b (List.mem_cons_of_mem a mem)]

theorem upTo_ended {ends : α → Bool} {a : α} (here : ends a = true) (back : List α) :
    ∀ {front : List α}, (∀ b ∈ front, ends b = false) →
      upTo ends (front ++ a :: back) = front ++ [a]
  | [], _ => by rw [List.nil_append, upTo, if_pos here, List.nil_append]
  | b :: front, before => by
      rw [List.cons_append, upTo, before b List.mem_cons_self, if_neg Bool.false_ne_true,
        upTo_ended here back fun c mem => before c (List.mem_cons_of_mem b mem), List.cons_append]

/-- The first element that ends the loop is the last of them. -/
theorem mem_upTo_of_find {ends : α → Bool} {as : List α} {a : α} (found : as.find? ends = some a) :
    a ∈ upTo ends as := by
  obtain ⟨here, front, back, rfl, before⟩ := List.find?_eq_some_iff_append.mp found
  rw [upTo_ended here back fun b mem => by simpa using before b mem]
  exact List.mem_append_right front List.mem_cons_self

theorem find_of_mem_upTo {ends : α → Bool} {a : α} (here : ends a = true) : ∀ {as : List α},
    a ∈ upTo ends as → as.find? ends = some a
  | b :: as, mem => by
      rw [upTo] at mem
      cases kind : ends b with
      | true =>
          rw [kind, if_pos rfl] at mem
          rw [List.find?_cons_of_pos kind, List.mem_singleton.mp mem]
      | false =>
          rw [kind, if_neg Bool.false_ne_true] at mem
          rw [List.find?_cons_of_neg (by simp [kind])]
          rcases List.mem_cons.mp mem with rfl | later
          · cases kind.symm.trans here
          · exact find_of_mem_upTo here later

section

variable {ends : α → Bool} (goes : ∀ a, (reading a).goesOn = !ends a)

include goes

/-- **What is handed on** is what the elements up to the end hand on. -/
theorem readAll_out : ∀ as : List α,
    (readAll reading as).1 = (upTo ends as).flatMap fun a => (reading a).out
  | [] => rfl
  | a :: as => by
      have here := goes a
      rw [readAll, upTo]
      cases kind : reading a with
      | next out change =>
          have passed : ends a = false := by simpa [kind, Reading.goesOn] using here
          simp [passed, kind, Reading.out, readAll_out as]
      | stop out change =>
          have ended : ends a = true := by simpa [kind, Reading.goesOn] using here
          simp [ended, kind, Reading.out]
      | raise out exc =>
          have ended : ends a = true := by simpa [kind, Reading.goesOn] using here
          simp [ended, kind, Reading.out]

/-- No element ends the loop. -/
theorem readAll_open {as : List α} (all : ∀ a ∈ as, ends a = false) :
    (readAll reading as).2 = .ok (changes reading as, false) := by
  rw [readAll_passed fun a mem => by rw [goes, all a mem]; rfl]

/-- The element that ends the loop raises. -/
theorem readAll_raised {as : List α} {a : α} {out : List δ} {e : ε}
    (found : as.find? ends = some a) (raises : reading a = .raise out e) :
    (readAll reading as).2 = .error e := by
  obtain ⟨here, front, back, rfl, before⟩ := List.find?_eq_some_iff_append.mp found
  rw [readAll_ended (fun b mem => by simpa [goes] using before b mem) (by rw [goes, here]; rfl),
    raises]

/-- The element that ends the loop stops it. -/
theorem readAll_stopped {as : List α} {a : α} {out : List δ} {change : σ → σ}
    (found : as.find? ends = some a) (stops : reading a = .stop out change) :
    ∃ passed, (∀ b ∈ passed, ends b = false) ∧
      (readAll reading as).2 = .ok (change ∘ changes reading passed, true) := by
  obtain ⟨here, front, back, rfl, before⟩ := List.find?_eq_some_iff_append.mp found
  refine ⟨front, fun b mem => by simpa using before b mem, ?_⟩
  have last : changes reading (front ++ [a]) = change ∘ changes reading front := by
    funext s
    simp [changes, stops, Reading.change]
  rw [readAll_ended (fun b mem => by simpa [goes] using before b mem) (by rw [goes, here]; rfl),
    stops, last]

/-- **A run is sound** when every element up to the end is fit. -/
theorem sound_upTo_iff {good : δ → Prop} {allowed : ε → Prop} {fits : α → Prop}
    (fine : ∀ a, (reading a).Fine good allowed ↔ fits a) : ∀ as : List α,
    Sound good allowed (readAll reading as) ↔ ∀ a ∈ upTo ends as, fits a
  | [] => by simp [readAll, Sound, upTo]
  | a :: as => by
      have here := goes a
      cases kind : ends a with
      | true => rw [sound_ended (by rw [here, kind]; rfl), fine]; simp [upTo, kind]
      | false =>
          rw [sound_passed (by rw [here, kind]; rfl), fine, sound_upTo_iff fine as]
          simp [upTo, kind]

end

/-- Elements up to the first with a property, that one, and the rest. -/
theorem split_first (p : α → Bool) (as : List α) :
    (∀ a ∈ as, p a = false) ∨ ∃ front a back, as = front ++ a :: back ∧
      (∀ b ∈ front, p b = false) ∧ p a = true := by
  cases found : as.find? p with
  | none => exact .inl fun a mem => Bool.eq_false_iff.mpr (List.find?_eq_none.mp found a mem)
  | some a =>
      obtain ⟨here, front, back, shape, before⟩ := List.find?_eq_some_iff_append.mp found
      exact .inr ⟨front, a, back, shape, fun b mem => by simpa using before b mem, here⟩

end OpsAssist.Theory
