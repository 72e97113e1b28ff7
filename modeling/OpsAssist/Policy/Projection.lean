/-
# OpsAssist.Policy.Projection -- redaction is a complete projection

A place in a tree is a path of items and members.  `redaction_projects` says what redaction does
at every place: nothing more when done again, a fixed text under a sensitive key, at most 501
characters anywhere, and above all sensitive keys what was there, long strings cut.
Pole: `nested_token_hidden`.
-/
import OpsAssist.Policy.Audit

namespace OpsAssist

set_option autoImplicit false

open Theory

/-! ## Places -/

namespace Theory.Json

variable {ν : Type}

/-- One level down: an item of an array, or a member of an object with its key. -/
inductive Step where
  | item (index : Nat)
  | member (index : Nat) (key : String)

def child : Step → Json ν → Option (Json ν)
  | .item index, .arr items => items[index]?
  | .member index key, .obj members =>
      members[index]?.bind fun m => if m.1 = key then some m.2 else none
  | _, _ => none

/-- What stands at a place. -/
def place (j : Json ν) : List Step → Option (Json ν)
  | [] => some j
  | step :: path => (child step j).bind fun v => place v path

/-- Nothing stands below a string. -/
theorem place_str (s : String) (step : Step) (path : List Step) :
    (Json.str s : Json ν).place (step :: path) = none := by
  cases step <;> rfl

end Theory.Json

open Theory.Json (Step)

/-! ## Redaction at a place -/

section

variable {ν : Type} {host : Host}

/-- The step goes under a sensitive key. -/
def hides (host : Host) : Step → Bool
  | .item _ => false
  | .member _ key => isSensitiveKey host key

theorem redactItems_eq_map (items : List (Json ν)) :
    redactItems host items = items.map (redact host) := by
  induction items with
  | nil => rfl
  | cons item items ih => rw [redactItems, ih, List.map_cons]

/-- One level down: the fixed text, or what is there, redacted. -/
theorem child_redact (step : Step) (j : Json ν) :
    (redact host j).child step = (j.child step).map fun v =>
      if hides host step then .str redacted else redact host v := by
  cases step with
  | item index =>
      cases j with
      | arr items => simp [redact, Json.child, redactItems_eq_map, hides]
      | _ => simp [redact, Json.child]
  | member index key =>
      cases j with
      | obj members =>
          simp only [redact, Json.child, redactMembers_eq_map, List.getElem?_map, hides]
          cases members[index]? with
          | none => rfl
          | some m =>
              by_cases here : m.1 = key
              · subst here
                simp
                rfl
              · simp [here]
      | _ => simp [redact, Json.child]

/-- Where no key hides it, what stands at a place is redacted as it stands. -/
theorem place_redact : ∀ {path : List Step}, (∀ step ∈ path, hides host step = false) →
    ∀ j : Json ν, (redact host j).place path = (j.place path).map (redact host)
  | [], _, _ => rfl
  | step :: path, open_, j => by
      rw [Json.place, Json.place, child_redact, open_ step List.mem_cons_self]
      cases j.child step with
      | none => rfl
      | some v => exact place_redact (fun s mem => open_ s (List.mem_cons_of_mem _ mem)) v

/-- Under a sensitive key stands the fixed text. -/
theorem place_sensitive {path : List Step} {step : Step} {j v : Json ν}
    (hidden : hides host step = true)
    (there : (redact host j).place (path ++ [step]) = some v) : v = .str redacted := by
  induction path generalizing j with
  | nil =>
      rw [List.nil_append, Json.place, child_redact, hidden] at there
      cases inner : j.child step with
      | none => simp [inner] at there
      | some w => simpa [inner, Json.place, eq_comm] using there
  | cons first path ih =>
      rw [List.cons_append, Json.place, child_redact] at there
      cases inner : j.child first with
      | none => simp [inner] at there
      | some w =>
          cases hidden : hides host first with
          | false => exact ih (by simpa [inner, hidden] using there)
          | true =>
              rw [inner, hidden] at there
              have nothing : Json.place (.str redacted : Json ν) (path ++ [step]) = none := by
                cases path with
                | nil => exact Json.place_str redacted step []
                | cons next path => exact Json.place_str redacted next (path ++ [step])
              have same : Json.place (.str redacted : Json ν) (path ++ [step]) = some v := there
              rw [nothing] at same
              cases same

theorem length_capString (s : String) : (capString s).toList.length ≤ redactLimit + 1 := by
  by_cases long : redactLimit < s.toList.length
  · exact (length_capString_long long).le
  · rw [capString_short (Nat.not_lt.mp long)]
    omega

/-- A string of a redacted tree is short. -/
theorem place_short : ∀ {path : List Step} {j : Json ν} {s : String},
    (redact host j).place path = some (.str s) → s.toList.length ≤ redactLimit + 1
  | [], j, s, there => by
      cases j with
      | str t =>
          have same : capString t = s := by simpa [redact, Json.place] using there
          exact same ▸ length_capString t
      | _ => simp [redact, Json.place] at there
  | step :: path, j, s, there => by
      rw [Json.place, child_redact] at there
      cases inner : j.child step with
      | none => simp [inner] at there
      | some v =>
          cases hidden : hides host step with
          | false => exact place_short (by simpa [inner, hidden] using there)
          | true =>
              have fixed : Json.place (.str redacted : Json ν) path = some (.str s) := by
                simpa [inner, hidden] using there
              cases path with
              | nil =>
                  have same : redacted = s := by simpa [Json.place] using fixed
                  exact same ▸ by decide
              | cons first path => simp [Json.place_str] at fixed

end

/-! ## What is kept of a node -/

/-- A scalar as it is, a long string cut, an array as long as it was, an object with its keys. -/
def Kept {ν : Type} : Json ν → Json ν → Prop
  | .null, .null => True
  | .bool b, .bool c => c = b
  | .num m, .num n => n = m
  | .str s, .str t => if s.toList.length ≤ 500 then t = s else
      t.toList = s.toList.take 500 ++ ['…']
  | .arr xs, .arr ys => ys.length = xs.length
  | .obj ms, .obj ns => ns.map Prod.fst = ms.map Prod.fst
  | _, _ => False

theorem kept_redact {ν : Type} {host : Host} (j : Json ν) : Kept j (redact host j) := by
  cases j with
  | null => trivial
  | bool b => rfl
  | num n => rfl
  | str s =>
      rw [redact, Kept]
      by_cases short : s.toList.length ≤ 500
      · rw [if_pos short]
        exact capString_short short
      · rw [if_neg short]
        exact toList_capString_long (Nat.not_le.mp short)
  | arr items => simp [redact, Kept, redactItems_eq_map]
  | obj members => simp [redact, Kept, redactMembers_eq_map, Function.comp_def]

/-- **Redaction is a complete projection.** -/
theorem redaction_projects (host : Host) (x : Value) :
    redact host (redact host x) = redact host x ∧
    (∀ path index key v, isSensitiveKey host key = true →
      (redact host x).place (path ++ [.member index key]) = some v → v = .str "[REDACTED]") ∧
    (∀ path s, (redact host x).place path = some (.str s) → s.toList.length ≤ 501) ∧
    ∀ path, (∀ step ∈ path, hides host step = false) →
      Option.Rel Kept (x.place path) ((redact host x).place path) := by
  refine ⟨redact_redact x, fun path index key v sensitive there => ?_,
    fun path s there => place_short there, fun path open_ => ?_⟩
  · exact @place_sensitive _ host path (.member index key) x v sensitive there
  · rw [place_redact open_ x]
    cases x.place path with
    | none => exact .none
    | some v => exact .some (kept_redact v)

/-! ## Poles -/

/-- A token inside an array of an object is hidden, and what is beside it is not. -/
theorem nested_token_hidden :
    redact Host.plain (.obj [("hits", .arr [.obj [("api_token", .str "s3cret"),
        ("count", .num (.int 2))]])] : Value) =
      .obj [("hits", .arr [.obj [("api_token", .str "[REDACTED]"), ("count", .num (.int 2))]])] ∧
    ((redact Host.plain (.obj [("hits", .arr [.obj [("api_token", .str "s3cret"),
        ("count", .num (.int 2))]])] : Value)).place
      [.member 0 "hits", .item 0, .member 1 "count"]).isSome = true := by
  have plain : isSensitiveKey Host.plain "hits" = false := by decide +kernel
  have token : isSensitiveKey Host.plain "api_token" = true := by decide +kernel
  have count : isSensitiveKey Host.plain "count" = false := by decide +kernel
  simp [redact, redactMembers, redactItems, plain, token, count, redacted, Json.place, Json.child]

end OpsAssist
