/-
# OpsAssist.Theory.Dynamic -- untyped values, and the exceptions of reaching into them

A program that takes a decoded document as it comes reaches into values of any kind; each way
of doing so has its own exceptions.  The lemmas say of each which values it succeeds on, so that
what a chain of them needs is a shape of the value.

`convert` is a `try` that turns some exceptions into one of the program's own.
-/
import OpsAssist.Theory.Jsonb
import OpsAssist.Theory.Pattern
import OpsAssist.Theory.Sorting

namespace OpsAssist.Theory.Dynamic

set_option autoImplicit false

/-- The exceptions of the language. -/
inductive Fault where
  | key
  | index
  | type
  | attribute
  | value
  /-- `JSONDecodeError`, a `ValueError` -/
  | decode
  | overflow
  | recursion
deriving DecidableEq

/-- `ValueError` -/
def Fault.isValue : Fault → Bool
  | .value | .decode => true
  | _ => false

abbrev Object := Json Number

/-! ## Reaching into values -/

/-- `value[key]` -/
def item (key : String) : Object → Except Fault Object
  | .obj members =>
      match members.lookup key with
      | some v => .ok v
      | none => .error .key
  | _ => .error .type

/-- `value[0]` -/
def first : Object → Except Fault Object
  | .arr [] => .error .index
  | .arr (v :: _) => .ok v
  | .str s =>
      match s.toList with
      | [] => .error .index
      | c :: _ => .ok (.str (String.ofList [c]))
  | .obj _ => .error .key
  | _ => .error .type

/-- `value.get(key)` -/
def getKey (key : String) : Object → Except Fault Object
  | .obj members => .ok ((members.lookup key).getD .null)
  | _ => .error .attribute

/-- `key in value` -/
def holds (key : String) : Object → Except Fault Bool
  | .obj members => .ok (members.lookup key).isSome
  | .arr items => .ok (items.any fun v =>
      match v with
      | .str s => s == key
      | _ => false)
  | .str s => .ok (Text.contains key.toList s.toList)
  | _ => .error .type

/-- Iterating over a value. -/
def items : Object → Except Fault (List Object)
  | .arr items => .ok items
  | .obj members => .ok (members.map fun m => .str m.1)
  | .str s => .ok (s.toList.map fun c => .str (String.ofList [c]))
  | _ => .error .type

/-- `bool(value)` -/
def truthy : Object → Bool
  | .null => false
  | .bool b => b
  | .num (.int z) => z ≠ 0
  | .num (.float (.finite x)) => x.mantissa ≠ 0
  | .num (.float _) => true
  | .str s => s ≠ ""
  | .arr items => items ≠ []
  | .obj members => members ≠ []

/-- `value or other` -/
def orElse (v other : Object) : Object := if truthy v then v else other

/-! ## Numbers -/

/-- The longest run of digits that is read. -/
def MAX_DIGITS : Nat := 4300

/-- `int(text)`: blanks around, a sign, and digits with single underscores between. -/
def intOfText (text : List Char) : Option Int :=
  let stripped := Text.strip text
  let (negative, rest) :=
    match stripped with
    | '-' :: rest => (true, rest)
    | '+' :: rest => (false, rest)
    | rest => (false, rest)
  let groups := Text.splitOn '_' rest
  let digits := groups.flatten
  if (groups.all fun g => g ≠ [] ∧ g.all isDecimal) ∧ digits.length ≤ MAX_DIGITS then
    some (if negative then -(intOf digits : Int) else intOf digits)
  else none

/-- A float without its fraction. -/
def truncate (x : Binary64) : Int :=
  let whole : Nat := x.mantissa * 2 ^ x.exponent / 2 ^ bias
  if x.negative then -whole else whole

/-- `int(value)` -/
def toInt : Object → Except Fault Int
  | .num (.int z) => .ok z
  | .num (.float (.finite x)) => .ok (truncate x)
  | .num (.float (.infinity _)) => .error .overflow
  | .num (.float .nan) => .error .value
  | .bool b => .ok (if b then 1 else 0)
  | .str s =>
      match intOfText s.toList with
      | some z => .ok z
      | none => .error .value
  | _ => .error .type

def orOverflow : Option Binary64 → Except Fault Float64
  | some x => .ok (.finite x)
  | none => .error .overflow

/-- `float` of an integer -/
def floatOfInt (z : Int) : Except Fault Float64 :=
  orOverflow (Binary64.nearest (z < 0) z.natAbs 1)

/-- `float(value)`; the floats of texts are given. -/
def toFloat (ofText : String → Option Float64) : Object → Except Fault Float64
  | .num (.int z) => floatOfInt z
  | .num (.float x) => .ok x
  | .bool b => floatOfInt (if b then 1 else 0)
  | .str s =>
      match ofText s with
      | some x => .ok x
      | none => .error .value
  | _ => .error .type

/-! ## Comparing -/

/-- A number as it is compared: on the finest spacing of floats, or none of it. -/
inductive Magnitude where
  | finite (units : Int)
  | infinite (negative : Bool)
  | nan
deriving DecidableEq

/-- The integer `z` in units of the spacing. -/
def unitsOf (z : Int) : Int := z * (2 : Int) ^ bias

def magnitude : Object → Option Magnitude
  | .bool b => some (.finite (unitsOf (if b then 1 else 0)))
  | .num (.int z) => some (.finite (unitsOf z))
  | .num (.float (.finite x)) =>
      let units : Int := x.mantissa * 2 ^ x.exponent
      some (.finite (if x.negative then -units else units))
  | .num (.float (.infinity negative)) => some (.infinite negative)
  | .num (.float .nan) => some .nan
  | _ => none

def Magnitude.less : Magnitude → Magnitude → Bool
  | .finite a, .finite b => a < b
  | .infinite negative, .finite _ => negative
  | .finite _, .infinite negative => !negative
  | .infinite a, .infinite b => a && !b
  | _, _ => false

mutual

/-- `a is b or a == b`; a decoder has one `nan`. -/
def same : Object → Object → Bool
  | .null, .null => true
  | .str s, .str t => s = t
  | .arr as, .arr bs => sameItems as bs
  | .obj ms, .obj ns => ms.length = ns.length && sameMembers ms ns
  | a, b =>
      match magnitude a, magnitude b with
      | some x, some y => x = y
      | _, _ => false

def sameItems : List Object → List Object → Bool
  | [], [] => true
  | a :: as, b :: bs => same a b && sameItems as bs
  | _, _ => false

def sameMembers : List (String × Object) → List (String × Object) → Bool
  | [], _ => true
  | (key, v) :: ms, ns =>
      match ns.lookup key with
      | some w => same v w && sameMembers ms ns
      | none => false

end

mutual

/-- `a < b` -/
def lessThan : Object → Object → Except Fault Bool
  | .str s, .str t => .ok (s < t)
  | .arr as, .arr bs => lessItems as bs
  | a, b =>
      match magnitude a, magnitude b with
      | some x, some y => .ok (x.less y)
      | _, _ => .error .type

/-- The first items that differ decide. -/
def lessItems : List Object → List Object → Except Fault Bool
  | _, [] => .ok false
  | [], _ :: _ => .ok true
  | a :: as, b :: bs => if same a b then lessItems as bs else lessThan a b

end

/-- `sorted` by the first components. -/
def sortByKey (keyed : List (Object × Object)) : Except Fault (List (Object × Object)) :=
  sortBy (fun a b => lessThan a.1 b.1) keyed

/-! ## Shapes -/

section

variable {key : String} {v w : Object}

@[simp] theorem item_ok : item key v = .ok w ↔ ∃ members, v = .obj members ∧
    members.lookup key = some w := by
  cases v with
  | obj members =>
      cases there : members.lookup key <;> simp [item, there]
  | _ => simp [item]

theorem item_fault {f : Fault} (raised : item key v = .error f) : f = .key ∨ f = .type := by
  cases v with
  | obj members =>
      rw [item] at raised
      cases there : members.lookup key <;> simp_all
  | _ => simp_all [item]

theorem first_fault {f : Fault} (raised : first v = .error f) :
    f = .index ∨ f = .key ∨ f = .type := by
  unfold first at raised
  split at raised
  case h_3 => split at raised <;> simp_all
  all_goals simp_all

theorem getKey_ok : getKey key v = .ok w ↔ ∃ members, v = .obj members ∧
    (members.lookup key).getD .null = w := by
  cases v with
  | obj members => simp [getKey]
  | _ => simp [getKey]

theorem getKey_fault {f : Fault} (raised : getKey key v = .error f) : f = .attribute := by
  cases v <;> simp_all [getKey]

@[simp] theorem getKey_obj {members : List (String × Object)} :
    getKey key (.obj members) = .ok ((members.lookup key).getD .null) := rfl

theorem items_fault {f : Fault} (raised : items v = .error f) : f = .type := by
  cases v <;> simp_all [items]

mutual

theorem lessThan_fault {a b : Object} {f : Fault} (raised : lessThan a b = .error f) :
    f = .type := by
  unfold lessThan at raised
  split at raised
  · cases raised
  · exact lessItems_fault raised
  · split at raised <;> simp_all

theorem lessItems_fault : ∀ {as bs : List Object} {f : Fault},
    lessItems as bs = .error f → f = .type
  | [], [], _, raised => by cases raised
  | _ :: _, [], _, raised => by cases raised
  | [], _ :: _, _, raised => by cases raised
  | a :: as, b :: bs, f, raised => by
      unfold lessItems at raised
      split at raised
      · exact lessItems_fault raised
      · exact lessThan_fault raised

end

/-- Finite numbers are compared exactly. -/
theorem lessThan_finite {a b : Object} {x y : Int} (left : magnitude a = some (.finite x))
    (right : magnitude b = some (.finite y)) : lessThan a b = .ok (decide (x < y)) := by
  unfold lessThan
  split
  · simp [magnitude] at left
  · simp [magnitude] at left
  · rw [left, right]
    rfl

theorem sortByKey_fault {keyed : List (Object × Object)} {f : Fault}
    (raised : sortByKey keyed = .error f) : f = .type := by
  obtain ⟨a, b, compared⟩ := sortBy_raised raised
  exact lessThan_fault compared

/-- Finite numbers come out in their order. -/
theorem sortByKey_sorted {keyed : List (Object × Object)} {units : Object × Object → Int}
    (finite : ∀ a ∈ keyed, magnitude a.1 = some (.finite (units a))) :
    ∃ sorted, sortByKey keyed = .ok sorted ∧ sorted.Pairwise (units · ≤ units ·) := by
  have compares : ∀ a b : Object × Object, magnitude a.1 = some (.finite (units a)) →
      magnitude b.1 = some (.finite (units b)) →
        lessThan a.1 b.1 = .ok (decide (units a < units b)) :=
    fun _ _ left right => lessThan_finite left right
  exact sortBy_sorted compares finite

theorem unitsOf_lt {y z : Int} (less : y < z) : unitsOf y < unitsOf z :=
  Int.mul_lt_mul_of_pos_right less (Int.pow_pos (by decide))

@[simp] theorem truthy_null : truthy .null = false := rfl

end

/-! ## Exceptions turned into others -/

section

variable {ε α β : Type}

/-- `except` of these exceptions, raising another one instead. -/
def convert (caught : Fault → Bool) (instead : ε) (other : Fault → ε) :
    Except Fault α → Except ε α
  | .ok a => .ok a
  | .error f => .error (if caught f then instead else other f)

theorem convert_ok {caught : Fault → Bool} {instead : ε} {other : Fault → ε} {a : α}
    {r : Except Fault α} : convert caught instead other r = .ok a ↔ r = .ok a := by
  cases r <;> simp [convert]

theorem bind_ok_iff {x : Except ε α} {f : α → Except ε β} {b : β} :
    x >>= f = .ok b ↔ ∃ a, x = .ok a ∧ f a = .ok b := by
  cases x <;> simp [bind, Except.bind]

theorem bind_error_iff {x : Except ε α} {f : α → Except ε β} {e : ε} :
    x >>= f = .error e ↔ x = .error e ∨ ∃ a, x = .ok a ∧ f a = .error e := by
  cases x <;> simp [bind, Except.bind]

end

end OpsAssist.Theory.Dynamic
