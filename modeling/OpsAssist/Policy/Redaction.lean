/-
# OpsAssist.Policy.Redaction -- what the audit log keeps of arguments and results

`redact` replaces the value under every sensitive key and caps long strings.  It
is idempotent, and it commutes with the canonical order of keys, so redacting
before storing and again after reading shows what redacting once shows, as far as
the numbers survive the store (`canon_redact_read_iff`).

What redaction hides from a reader is `Alike`: two trees are alike when they have
one shape, the same scalars, the same strings up to the cap, and anything at all
under a sensitive key.  `alike_iff` says that nothing else is hidden.
-/
import OpsAssist.LoggingSetup

namespace OpsAssist

set_option autoImplicit false

open Theory

/-- The longest string that is kept whole. -/
def redactLimit : Nat := 500

/-- A string longer than the cap, cut and marked with an ellipsis. -/
def capString (s : String) : String :=
  if s.toList.length > redactLimit then String.ofList (s.toList.take redactLimit ++ ['…']) else s

section

variable {ν : Type} (host : Host)

mutual

/-- Drop secret-looking values anywhere in the structure, and cap long strings. -/
def redact : Json ν → Json ν
  | .obj members => .obj (redactMembers members)
  | .arr items => .arr (redactItems items)
  | .str s => .str (capString s)
  | .null => .null
  | .bool b => .bool b
  | .num n => .num n

def redactItems : List (Json ν) → List (Json ν)
  | [] => []
  | item :: items => redact item :: redactItems items

def redactMembers : List (String × Json ν) → List (String × Json ν)
  | [] => []
  | (k, v) :: rest =>
      (k, if isSensitiveKey host k then .str redacted else redact v) :: redactMembers rest

end

end

section Laws

variable {ν : Type} {host : Host}

theorem capString_short {s : String} (short : s.toList.length ≤ redactLimit) : capString s = s := by
  rw [capString, if_neg (Nat.not_lt.mpr short)]

theorem toList_capString_long {s : String} (long : redactLimit < s.toList.length) :
    (capString s).toList = s.toList.take redactLimit ++ ['…'] := by
  rw [capString, if_pos long, String.toList_ofList]

theorem length_capString_long {s : String} (long : redactLimit < s.toList.length) :
    (capString s).toList.length = redactLimit + 1 := by
  rw [toList_capString_long long, List.length_append, List.length_take, List.length_singleton]
  omega

theorem capString_capString (s : String) : capString (capString s) = capString s := by
  by_cases long : redactLimit < s.toList.length
  · have still : redactLimit < (capString s).toList.length := by
      rw [length_capString_long long]; omega
    apply String.toList_injective
    rw [toList_capString_long still, toList_capString_long long,
      List.take_append_of_le_length (by rw [List.length_take]; omega), List.take_take, Nat.min_self]
  · have short := Nat.not_lt.mp long
    rw [capString_short short, capString_short short]

/-- Two strings are capped to one exactly when they are equal, or both too long
with the same beginning. -/
theorem capString_eq_iff {s t : String} : capString s = capString t ↔
    s = t ∨ (redactLimit < s.toList.length ∧ redactLimit < t.toList.length ∧
      s.toList.take redactLimit = t.toList.take redactLimit) := by
  by_cases longS : redactLimit < s.toList.length <;> by_cases longT : redactLimit < t.toList.length
  · constructor
    · intro same
      have chars := congrArg String.toList same
      rw [toList_capString_long longS, toList_capString_long longT] at chars
      exact .inr ⟨longS, longT, List.append_cancel_right chars⟩
    · rintro (rfl | ⟨-, -, beginnings⟩)
      · rfl
      · apply String.toList_injective
        rw [toList_capString_long longS, toList_capString_long longT, beginnings]
  · constructor
    · intro same
      rw [capString_short (Nat.not_lt.mp longT)] at same
      have length := length_capString_long longS
      rw [same] at length
      omega
    · rintro (rfl | ⟨-, absurdly, -⟩)
      · rfl
      · exact absurd absurdly longT
  · constructor
    · intro same
      rw [capString_short (Nat.not_lt.mp longS)] at same
      have length := length_capString_long longT
      rw [← same] at length
      omega
    · rintro (rfl | ⟨absurdly, -, -⟩)
      · rfl
      · exact absurd absurdly longS
  · rw [capString_short (Nat.not_lt.mp longS), capString_short (Nat.not_lt.mp longT)]
    constructor
    · exact .inl
    · rintro (same | ⟨absurdly, -, -⟩)
      · exact same
      · exact absurd absurdly longS

/-- `"[REDACTED]"` is shorter than the cap. -/
theorem capString_redacted : capString redacted = redacted := capString_short (by decide)

mutual

theorem redact_redact : ∀ j : Json ν, redact host (redact host j) = redact host j
  | .null | .bool _ | .num _ => by simp only [redact]
  | .str s => by simp only [redact, capString_capString]
  | .arr items => by simp only [redact, redactItems_redactItems items]
  | .obj members => by simp only [redact, redactMembers_redactMembers members]

theorem redactItems_redactItems : ∀ items : List (Json ν),
    redactItems host (redactItems host items) = redactItems host items
  | [] => rfl
  | item :: items => by
      rw [redactItems, redactItems, redact_redact item, redactItems_redactItems items]

theorem redactMembers_redactMembers : ∀ members : List (String × Json ν),
    redactMembers host (redactMembers host members) = redactMembers host members
  | [] => rfl
  | (k, v) :: rest => by
      rw [redactMembers, redactMembers, redactMembers_redactMembers rest]
      cases sensitive : isSensitiveKey host k with
      | true => rfl
      | false =>
          simp only [Bool.false_eq_true, if_false]
          rw [redact_redact v]

end

/-- Redaction of members is a change of the values that sees the key. -/
theorem redactMembers_eq_map : ∀ members : List (String × Json ν),
    redactMembers host members = members.map fun m =>
      (m.1, if isSensitiveKey host m.1 then .str redacted else redact host m.2)
  | [] => rfl
  | (k, v) :: rest => by rw [redactMembers, redactMembers_eq_map rest, List.map_cons]

mutual

theorem canon_redact : ∀ j : Json ν, (redact host j).canon = redact host j.canon
  | .null | .bool _ | .num _ | .str _ => by simp only [redact, Json.canon]
  | .arr items => by simp only [redact, Json.canon, canonItems_redactItems items]
  | .obj members => by simp only [redact, Json.canon, canonMembers_redactMembers members]

theorem canonItems_redactItems : ∀ items : List (Json ν),
    Json.canonItems (redactItems host items) = redactItems host (Json.canonItems items)
  | [] => rfl
  | item :: items => by
      rw [redactItems, Json.canonItems, Json.canonItems, redactItems, canon_redact item,
        canonItems_redactItems items]

theorem canonMembers_redactMembers : ∀ members : List (String × Json ν),
    Json.canonMembers (redactMembers host members) = redactMembers host (Json.canonMembers members)
  | [] => rfl
  | (k, v) :: rest => by
      rw [redactMembers, Json.canonMembers, Json.canonMembers, canonMembers_redactMembers rest,
        redactMembers_eq_map (Json.addMember _ _ _), redactMembers_eq_map,
        Json.map_addMember (fun key value =>
          if isSensitiveKey host key then .str redacted else redact host value)]
      cases sensitive : isSensitiveKey host k with
      | true => simp only [if_true, Json.canon]
      | false => simp only [Bool.false_eq_true, if_false, canon_redact v]

end

/-! ## Redaction leaves the numbers to a map over them -/

section

variable {μ : Type}

mutual

theorem redact_map (f : ν → μ) : ∀ j : Json ν, redact host (j.map f) = (redact host j).map f
  | .null | .bool _ | .num _ | .str _ => by simp only [redact, Json.map]
  | .arr items => by simp only [redact, Json.map, redactItems_mapItems f items]
  | .obj members => by simp only [redact, Json.map, redactMembers_mapMembers f members]

theorem redactItems_mapItems (f : ν → μ) : ∀ items : List (Json ν),
    redactItems host (Json.mapItems f items) = Json.mapItems f (redactItems host items)
  | [] => rfl
  | item :: items => by
      simp only [Json.mapItems, redactItems, redact_map f item, redactItems_mapItems f items]

theorem redactMembers_mapMembers (f : ν → μ) : ∀ members : List (String × Json ν),
    redactMembers host (Json.mapMembers f members) = Json.mapMembers f (redactMembers host members)
  | [] => rfl
  | (k, v) :: rest => by
      simp only [Json.mapMembers, redactMembers, redactMembers_mapMembers f rest]
      cases isSensitiveKey host k with
      | true => simp only [if_true, Json.map]
      | false => simp only [Bool.false_eq_true, if_false, redact_map f v]

end

mutual

theorem traverse_redact {f : ν → Option μ} : ∀ {j : Json ν} {t : Json μ},
    j.traverse f = some t → (redact host j).traverse f = some (redact host t)
  | .null, _, done | .bool _, _, done | .str _, _, done => by
      cases done; simp only [redact, Json.traverse]
  | .num n, _, done => by
      obtain ⟨m, there, rfl⟩ := Option.map_eq_some_iff.mp (by simpa only [Json.traverse] using done)
      simp only [redact, Json.traverse, there, Option.map_some]
  | .arr items, _, done => by
      obtain ⟨items', there, rfl⟩ :=
        Option.map_eq_some_iff.mp (by simpa only [Json.traverse] using done)
      simp only [redact, Json.traverse, traverseItems_redact there, Option.map_some]
  | .obj members, _, done => by
      obtain ⟨members', there, rfl⟩ :=
        Option.map_eq_some_iff.mp (by simpa only [Json.traverse] using done)
      simp only [redact, Json.traverse, traverseMembers_redact there, Option.map_some]

theorem traverseItems_redact {f : ν → Option μ} :
    ∀ {items : List (Json ν)} {items' : List (Json μ)}, Json.traverseItems f items = some items' →
      Json.traverseItems f (redactItems host items) = some (redactItems host items')
  | [], _, done => by cases done; rfl
  | item :: items, _, done => by
      rw [Json.traverseItems, Option.bind_eq_some_iff] at done
      obtain ⟨item', first, done⟩ := done
      obtain ⟨items', others, rfl⟩ := Option.map_eq_some_iff.mp done
      simp only [redactItems, Json.traverseItems, traverse_redact first,
        traverseItems_redact others, Option.bind_some, Option.map_some]

theorem traverseMembers_redact {f : ν → Option μ} :
    ∀ {members : List (String × Json ν)} {members' : List (String × Json μ)},
      Json.traverseMembers f members = some members' →
      Json.traverseMembers f (redactMembers host members) = some (redactMembers host members')
  | [], _, done => by cases done; rfl
  | (k, v) :: rest, _, done => by
      rw [Json.traverseMembers, Option.bind_eq_some_iff] at done
      obtain ⟨v', first, done⟩ := done
      obtain ⟨rest', others, rfl⟩ := Option.map_eq_some_iff.mp done
      simp only [redactMembers, Json.traverseMembers, traverseMembers_redact others]
      cases isSensitiveKey host k with
      | true => simp only [if_true, Json.traverse, Option.bind_some, Option.map_some]
      | false =>
          simp only [Bool.false_eq_true, if_false, traverse_redact first, Option.bind_some,
            Option.map_some]

end

end

/-- A stored redacted value reads back as a redacted value. -/
theorem redact_read_of_store {v : Json Number} {b : Jsonb}
    (stored : Jsonb.store (redact host v) = some b) : redact host b.read = b.read := by
  have tree := Jsonb.traverse_of_store stored
  have again : (redact host (redact host v).canon).traverse Number.store =
      some (redact host b.tree) := traverse_redact tree
  rw [← canon_redact, redact_redact, tree] at again
  rw [Jsonb.read, redact_map, ← Option.some.inj again]

/-- **A stored redacted value shows what it was stored from exactly when its numbers
survive.** -/
theorem canon_redact_read_iff {v : Json Number} {b : Jsonb}
    (stored : Jsonb.store (redact host v) = some b) :
    (redact host b.read).canon = (redact host v).canon ↔
      ∀ n ∈ (redact host v).canon.numbers, n.Survives := by
  rw [redact_read_of_store stored, Jsonb.canon_read]
  exact Jsonb.read_store_iff stored

/-! ## What redaction hides -/

/-- Equal, or both beyond the cap with the same beginning. -/
def AlikeStrings (s t : String) : Prop :=
  s = t ∨ (redactLimit < s.toList.length ∧ redactLimit < t.toList.length ∧
    s.toList.take redactLimit = t.toList.take redactLimit)

section

variable (host : Host)

mutual

/-- Equal up to what redaction hides. -/
def Alike : Json ν → Json ν → Prop
  | .null, .null => True
  | .bool b, .bool c => b = c
  | .num m, .num n => m = n
  | .str s, .str t => AlikeStrings s t
  | .arr xs, .arr ys => AlikeItems xs ys
  | .obj xs, .obj ys => AlikeMembers xs ys
  | _, _ => False

def AlikeItems : List (Json ν) → List (Json ν) → Prop
  | [], [] => True
  | x :: xs, y :: ys => Alike x y ∧ AlikeItems xs ys
  | _, _ => False

def AlikeMembers : List (String × Json ν) → List (String × Json ν) → Prop
  | [], [] => True
  | (k, x) :: xs, (l, y) :: ys =>
      k = l ∧ (isSensitiveKey host k = true ∨ Alike x y) ∧ AlikeMembers xs ys
  | _, _ => False

end

end

mutual

/-- **Redaction hides exactly what `Alike` forgets.** -/
theorem alike_iff : ∀ a b : Json ν, Alike host a b ↔ redact host a = redact host b
  | .null, b => by cases b <;> simp [Alike, redact]
  | .bool _, b => by cases b <;> simp [Alike, redact]
  | .num _, b => by cases b <;> simp [Alike, redact]
  | .str s, b => by
      cases b with
      | str t => simp only [Alike, redact, Json.str.injEq, capString_eq_iff, AlikeStrings]
      | _ => simp [Alike, redact]
  | .arr xs, b => by
      cases b with
      | arr ys => simp only [Alike, redact, Json.arr.injEq, alikeItems_iff xs ys]
      | _ => simp [Alike, redact]
  | .obj xs, b => by
      cases b with
      | obj ys => simp only [Alike, redact, Json.obj.injEq, alikeMembers_iff xs ys]
      | _ => simp [Alike, redact]

theorem alikeItems_iff : ∀ xs ys : List (Json ν),
    AlikeItems host xs ys ↔ redactItems host xs = redactItems host ys
  | [], [] => by simp [AlikeItems]
  | [], _ :: _ => by simp [AlikeItems, redactItems]
  | _ :: _, [] => by simp [AlikeItems, redactItems]
  | x :: xs, y :: ys => by
      simp only [AlikeItems, redactItems, List.cons.injEq, alike_iff x y, alikeItems_iff xs ys]

theorem alikeMembers_iff : ∀ xs ys : List (String × Json ν),
    AlikeMembers host xs ys ↔ redactMembers host xs = redactMembers host ys
  | [], [] => by simp [AlikeMembers]
  | [], (_, _) :: _ => by simp [AlikeMembers, redactMembers]
  | (_, _) :: _, [] => by simp [AlikeMembers, redactMembers]
  | (k, x) :: xs, (l, y) :: ys => by
      simp only [AlikeMembers, redactMembers, List.cons.injEq, Prod.mk.injEq, alike_iff x y,
        alikeMembers_iff xs ys, and_assoc]
      refine and_congr_right fun key => and_congr_left fun _ => ?_
      subst key
      cases isSensitiveKey host k <;> simp

end

end Laws
end OpsAssist
