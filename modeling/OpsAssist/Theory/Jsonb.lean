/-
# OpsAssist.Theory.Jsonb -- program values, a binary JSON store and what survives it

A program's JSON value has two kinds of number, unbounded integers and binary64
floats; the store has one, the exact decimal with the number of fractional digits
it was written with.  `Number.store` writes a number's text into a decimal and
`Numeric.read` reads the decimal's text back: without a point it is an integer,
with one a float.  So a number keeps its value and its kind exactly when
`Number.Survives` holds: an integer always, a float unless its text carries an
exponent that uses up the whole fraction, or it is the negative zero.

`Jsonb` values carry the proof that their keys are sorted; storing refuses the
NUL character and numbers no decimal represents.  `read_store_iff` is the round
trip of a whole tree.
-/
import OpsAssist.Theory.JsonText
import OpsAssist.Theory.Binary64
import OpsAssist.Theory.Letters

namespace OpsAssist.Theory

set_option autoImplicit false

open Numeral Letters

/-- A binary64 value, the infinities and NaN included. -/
inductive Float64 where
  | finite (x : Binary64)
  | infinity (negative : Bool)
  | nan
deriving DecidableEq

/-- A number of a program that keeps integers and floats apart. -/
inductive Number where
  | int (z : Int)
  | float (x : Float64)
deriving DecidableEq

namespace Number

/-- The text of a number in a JSON dump. -/
def text : Number → List Char
  | .int z => signed z
  | .float (.finite x) => x.text
  | .float (.infinity false) => ['I', 'n', 'f', 'i', 'n', 'i', 't', 'y']
  | .float (.infinity true) => ['-', 'I', 'n', 'f', 'i', 'n', 'i', 't', 'y']
  | .float .nan => ['N', 'a', 'N']

end Number

/-! ## The text of a number determines it -/

theorem Numeral.mem_signed {z : Int} {c : Char} (mem : c ∈ signed z) :
    c.isDigit = true ∨ c = '-' := by
  cases z with
  | ofNat n => exact .inl (isDigit_of_mem_decimal mem)
  | negSucc n =>
      rcases List.mem_cons.mp mem with rfl | digit
      · exact .inr rfl
      · exact .inl (isDigit_of_mem_decimal digit)

namespace Notation

/-- The characters of a notation. -/
def isNotationChar (c : Char) : Bool :=
  c.isDigit || c == '-' || c == '.' || c == 'e' || c == '+'

theorem isNotationChar_of_digit {c : Char} (digit : c.isDigit = true) :
    isNotationChar c = true := by
  simp [isNotationChar, digit]

theorem mem_exponentText {c : Char} : ∀ {e : Option Int}, c ∈ exponentText e →
    isNotationChar c = true
  | none, mem => by simp [exponentText] at mem
  | some (.ofNat _), mem => by
      simp only [exponentText, List.mem_cons] at mem
      rcases mem with rfl | rfl | digit
      · decide
      · decide
      · exact isNotationChar_of_digit (isDigit_of_mem_zeroPad digit)
  | some (.negSucc _), mem => by
      simp only [exponentText, List.mem_cons] at mem
      rcases mem with rfl | rfl | digit
      · decide
      · decide
      · exact isNotationChar_of_digit (isDigit_of_mem_zeroPad digit)

theorem Fractional.mem_text {n : Notation} (good : n.Fractional) {c : Char}
    (mem : c ∈ n.text) : isNotationChar c = true := by
  simp only [text, List.mem_append] at mem
  rcases mem with sign | whole | fraction | exponent
  · unfold signText at sign
    split at sign
    · rw [List.mem_singleton.mp sign]; decide
    · cases sign
  · exact isNotationChar_of_digit (good.whole_digits c whole)
  · cases shape : n.fraction with
    | nil => rw [shape] at fraction; cases fraction
    | cons d ds =>
        rw [shape] at fraction
        rcases List.mem_cons.mp fraction with rfl | digit
        · decide
        · exact isNotationChar_of_digit (good.fraction_digits c (shape ▸ digit))
  · exact mem_exponentText exponent

/-- A fractional notation shows a point or an exponent. -/
theorem Fractional.mark_mem {n : Notation} (good : n.Fractional) :
    '.' ∈ n.text ∨ 'e' ∈ n.text := by
  rcases good.marked with fraction | exponent
  · refine .inl ?_
    cases shape : n.fraction with
    | nil => exact absurd shape fraction
    | cons d ds => simp [text, shape, fractionText]
  · refine .inr ?_
    cases shape : n.exponent with
    | none => rw [shape] at exponent; cases exponent
    | some e => cases e <;> simp [text, shape, exponentText]

/-- A fractional notation begins with its sign or a digit. -/
theorem Fractional.opens {n : Notation} (good : n.Fractional) :
    ∃ c cs, n.text = c :: cs ∧ (c = '-' ∧ n.negative = true ∨ c.isDigit = true) := by
  obtain ⟨c, cs, head, digit⟩ := good.head_isDigit (fractionText n.fraction ++
    exponentText n.exponent)
  unfold text
  cases n.negative with
  | true => exact ⟨'-', _, rfl, .inl ⟨rfl, rfl⟩⟩
  | false => exact ⟨c, cs, by simpa [signText] using head, .inr digit⟩

end Notation

namespace Number

theorem signed_ne_text (z : Int) (x : Binary64) : signed z ≠ x.text := by
  intro same
  have marked : '.' ∈ signed z ∨ 'e' ∈ signed z := by
    rw [same]; exact x.rendering_fractional.mark_mem
  rcases marked with mem | mem <;> rcases mem_signed mem with digit | minus
  · exact absurd digit (by decide)
  · exact absurd minus (by decide)
  · exact absurd digit (by decide)
  · exact absurd minus (by decide)

/-- The values without a numeral: the infinities and NaN. -/
def isSpecial : Number → Bool
  | .int _ | .float (.finite _) => false
  | .float (.infinity _) | .float .nan => true

theorem text_of_plain : ∀ {n : Number}, n.isSpecial = false →
    ∀ c ∈ n.text, Notation.isNotationChar c = true
  | .int z, _, c, mem => by
      rcases mem_signed (by simpa only [text] using mem) with digit | rfl
      · exact Notation.isNotationChar_of_digit digit
      · decide
  | .float (.finite x), _, c, mem => x.rendering_fractional.mem_text mem

theorem text_of_special : ∀ {n : Number}, n.isSpecial = true →
    ∃ c ∈ n.text, Notation.isNotationChar c = false
  | .float (.infinity false), _ | .float (.infinity true), _ => ⟨'I', by decide, by decide⟩
  | .float .nan, _ => ⟨'N', by decide, by decide⟩

theorem isSpecial_congr {m n : Number} (same : m.text = n.text) :
    m.isSpecial = n.isSpecial := by
  cases left : m.isSpecial <;> cases right : n.isSpecial
  · rfl
  · obtain ⟨c, mem, letter⟩ := text_of_special right
    rw [text_of_plain left c (same ▸ mem)] at letter
    cases letter
  · obtain ⟨c, mem, letter⟩ := text_of_special left
    rw [text_of_plain right c (same ▸ mem)] at letter
    cases letter
  · rfl

theorem text_injective (m n : Number) (same : m.text = n.text) : m = n := by
  have kinds := isSpecial_congr same
  match m, n with
  | .int x, .int y =>
      simp only [text] at same
      rw [signed_injective same]
  | .float (.finite x), .float (.finite y) =>
      simp only [text] at same
      rw [Binary64.text_injective same]
  | .int z, .float (.finite x) =>
      exact absurd (by simpa only [text] using same) (signed_ne_text z x)
  | .float (.finite x), .int z =>
      exact absurd (by simpa only [text] using same.symm) (signed_ne_text z x)
  | .float (.infinity false), .float (.infinity false)
  | .float (.infinity true), .float (.infinity true) | .float .nan, .float .nan => rfl
  | .float (.infinity false), .float (.infinity true)
  | .float (.infinity true), .float (.infinity false)
  | .float (.infinity false), .float .nan | .float (.infinity true), .float .nan
  | .float .nan, .float (.infinity false) | .float .nan, .float (.infinity true) =>
      simp [text] at same

/-- The text of a number is fit to stand in the text of a tree. -/
theorem numberText : Json.NumberText text where
  injective := text_injective
  word n c mem := by
    cases special : n.isSpecial with
    | false =>
        have inside := text_of_plain special c mem
        simp only [Notation.isNotationChar, Bool.or_eq_true, beq_iff_eq] at inside
        rcases inside with (((digit | rfl) | rfl) | rfl) | rfl
        · simp [Json.isWordChar, Char.isAlphanum, digit]
        · decide
        · decide
        · decide
        · decide
    | true =>
        cases n with
        | int z => cases special
        | float x =>
            revert c
            cases x with
            | finite x => cases special
            | infinity negative =>
                cases negative <;> exact List.all_eq_true.mp (by decide)
            | nan => exact List.all_eq_true.mp (by decide)
  opens n := by
    cases n with
    | int z =>
        cases z with
        | ofNat k =>
            cases shape : decimal k with
            | nil => exact absurd shape (decimal_ne_nil k)
            | cons c cs => exact ⟨c, cs, shape, digit_not_lower (head_decimal_isDigit shape)⟩
        | negSucc k => exact ⟨'-', _, rfl, by decide⟩
    | float x =>
        cases x with
        | finite x =>
            obtain ⟨c, cs, shape, ⟨rfl, -⟩ | digit⟩ := x.rendering_fractional.opens
            · exact ⟨'-', cs, shape, by decide⟩
            · exact ⟨c, cs, shape, digit_not_lower digit⟩
        | infinity negative => cases negative <;> exact ⟨_, _, rfl, by decide⟩
        | nan => exact ⟨_, _, rfl, by decide⟩

end Number

/-- `json.dumps(value, sort_keys=True, separators=(",", ":"))` -/
def Json.dumps (j : Json Number) : String := String.ofList (j.canon.text Number.text)

/-- **A dump determines the canonical tree.** -/
theorem Json.dumps_eq_iff {a b : Json Number} : a.dumps = b.dumps ↔ a.canon = b.canon := by
  constructor
  · intro same
    exact Json.text_injective Number.numberText (String.ofList_injective same)
  · intro same
    rw [Json.dumps, Json.dumps, same]

/-! ## Exact decimals -/

/-- An exact decimal: `coefficient / 10^scale`, written with `scale` digits after the point. -/
structure Numeric where
  coefficient : Int
  scale : Nat
deriving DecidableEq

namespace Numeric

/-- The decimal a notation denotes, with the fractional digits the notation and
its exponent leave. -/
def ofNotation (n : Notation) : Numeric :=
  let signed (magnitude : Nat) : Int := if n.negative then -magnitude else magnitude
  match n.power with
  | .ofNat k => ⟨signed (n.coefficient * 10 ^ k), 0⟩
  | .negSucc k => ⟨signed n.coefficient, k + 1⟩

/-- The float a decimal text rounds to, an infinity when it overflows. -/
def toFloat (negative : Bool) : Option Binary64 → Number
  | some x => .float (.finite x)
  | none => .float (.infinity negative)

/-- What a program reads from the decimal's text: an integer when no point is
written, otherwise the nearest float. -/
def read (d : Numeric) : Number :=
  match d.scale with
  | 0 => .int d.coefficient
  | s + 1 => toFloat (d.coefficient < 0)
      (Binary64.ofDecimal (d.coefficient < 0) d.coefficient.natAbs (.negSucc s))

@[simp] theorem read_whole (c : Int) : read ⟨c, 0⟩ = .int c := rfl

/-- A fraction keeps the sign of its coefficient; zero is read as positive. -/
theorem read_fraction (negative : Bool) (m s : Nat) :
    read ⟨if negative then -(m : Int) else m, s + 1⟩ =
      toFloat (negative && m != 0) (Binary64.ofDecimal (negative && m != 0) m (.negSucc s)) := by
  have sign : decide ((if negative then -(m : Int) else m) < 0) = (negative && m != 0) := by
    cases negative
    · simp
    · cases m with
      | zero => simp
      | succ m => simp; omega
  have magnitude : (if negative then -(m : Int) else m).natAbs = m := by
    cases negative <;> simp
  simp only [read, sign, magnitude]

end Numeric

namespace Binary64

/-- The float `-0.0` or `0.0`. -/
def zero (negative : Bool) : Binary64 := ⟨negative, 0, 0, by decide, .inl rfl, by decide⟩

theorem eq_zero_of_mantissa {x : Binary64} (none : x.mantissa = 0) : x = zero x.negative := by
  obtain ⟨-, normal, -⟩ := x.canonical
  rw [none] at normal
  rcases normal with exponent | impossible
  · exact Binary64.ext rfl none exponent
  · exact absurd impossible (by decide)

theorem ofDecimal_zero (negative : Bool) : ∀ e : Int,
    ofDecimal negative 0 e = some (zero negative)
  | .ofNat _ => nearest_exact (zero negative) (by decide) (by simp [zero])
  | .negSucc _ => nearest_exact (zero negative) (Nat.pow_pos (by decide)) (by simp [zero])

theorem coefficient_eq_zero_iff (x : Binary64) : x.rendering.coefficient = 0 ↔ x.mantissa = 0 := by
  constructor
  · intro none
    have back := x.read_rendering
    rw [Notation.read, none, ofDecimal_zero] at back
    rw [← Option.some.inj back]
    rfl
  · intro none
    have digits : x.rendering = Notation.layout x.negative ['0'] 1 := by
      simp [rendering, shortest, none, decimal, Nat.toDigits_zero]
    rw [digits]
    cases x.negative <;> decide

end Binary64

namespace Number

/-- The decimal a number is stored as; the infinities and NaN have none. -/
def store : Number → Option Numeric
  | .int z => some ⟨z, 0⟩
  | .float (.finite x) => some (.ofNotation x.rendering)
  | .float (.infinity _) => none
  | .float .nan => none

/-- A number that comes back as it was stored: an integer, or a float whose text
keeps a digit after the point once its exponent is applied and which is not the
negative zero. -/
def Survives : Number → Prop
  | .int _ => True
  | .float (.finite x) => x.rendering.power < 0 ∧ ¬(x.negative = true ∧ x.mantissa = 0)
  | .float (.infinity _) => False
  | .float .nan => False

instance : DecidablePred Survives
  | .int _ => .isTrue trivial
  | .float (.finite x) =>
      inferInstanceAs (Decidable (x.rendering.power < 0 ∧ ¬(x.negative = true ∧ x.mantissa = 0)))
  | .float (.infinity _) => .isFalse id
  | .float .nan => .isFalse id

/-- What a notation of `x` is stored as reads back as `x` unless it is an integer
or the negative zero. -/
theorem read_ofNotation {n : Notation} {x : Binary64} (back : n.read = some x)
    (sign : n.negative = x.negative) (zero : n.coefficient = 0 ↔ x.mantissa = 0) :
    (Numeric.ofNotation n).read = .float (.finite x) ↔
      n.power < 0 ∧ ¬(x.negative = true ∧ x.mantissa = 0) := by
  rw [Notation.read, sign] at back
  rw [Numeric.ofNotation, sign, ← zero]
  cases power : n.power with
  | ofNat k =>
      simp only [Numeric.read_whole, reduceCtorEq, false_iff, not_and]
      intro negative
      exact absurd negative (by simp)
  | negSucc k =>
      rw [power] at back
      simp only [Numeric.read_fraction, Int.negSucc_lt_zero, true_and]
      cases negative : x.negative with
      | false =>
          rw [negative] at back
          rw [Bool.false_and, back]
          simp [Numeric.toFloat]
      | true =>
          rw [negative] at back
          by_cases none : n.coefficient = 0
          · rw [none, Binary64.ofDecimal_zero]
            simp only [bne_self_eq_false, Bool.and_false, Numeric.toFloat, Number.float.injEq,
              Float64.finite.injEq, and_self, not_true, iff_false]
            intro same
            rw [← same] at negative
            cases negative
          · have nonzero : (n.coefficient != 0) = true := by simp [none]
            rw [nonzero, Bool.true_and, back]
            simp [Numeric.toFloat, none]

/-- **A stored number reads back as itself exactly when it survives.** -/
theorem read_store_iff {n : Number} {d : Numeric} (stored : n.store = some d) :
    d.read = n ↔ n.Survives := by
  match n with
  | .int z =>
      obtain rfl := Option.some.inj stored
      simp [Numeric.read, Survives]
  | .float (.finite x) =>
      obtain rfl := Option.some.inj stored
      exact read_ofNotation x.read_rendering x.negative_rendering x.coefficient_eq_zero_iff
  | .float (.infinity _) | .float .nan => cases stored

end Number

/-! ## Stored trees -/

/-- A stored tree: exact decimals, and keys in order. -/
structure Jsonb where
  tree : Json Numeric
  sorted : tree.Sorted

namespace Jsonb

/-- A string the store accepts. -/
def noNul (s : String) : Bool := s.toList.all (· ≠ '\x00')

/-- The stored form of a program's value; `none` when it holds a NUL character or
a number without a decimal. -/
def store (j : Json Number) : Option Jsonb :=
  if j.allStrings noNul then
    match stored : j.canon.traverse Number.store with
    | some t => some ⟨t, Json.sorted_traverse stored (Json.sorted_canon j)⟩
    | none => none
  else none

/-- The value a program reads. -/
def read (b : Jsonb) : Json Number := b.tree.map Numeric.read

theorem traverse_of_store {j : Json Number} {b : Jsonb} (stored : store j = some b) :
    j.canon.traverse Number.store = some b.tree := by
  unfold store at stored
  split at stored
  · split at stored
    · rename_i t there
      cases stored
      exact there
    · cases stored
  · cases stored

@[simp] theorem canon_read (b : Jsonb) : b.read.canon = b.read :=
  Json.canon_of_sorted (Json.sorted_map _ b.sorted)

/-- **A stored tree reads back as its canonical form exactly when each of its
numbers survives.** -/
theorem read_store_iff {j : Json Number} {b : Jsonb} (stored : store j = some b) :
    b.read = j.canon ↔ ∀ n ∈ j.canon.numbers, n.Survives := by
  have tree := traverse_of_store stored
  rw [read, Json.map_traverse_iff tree]
  refine forall₂_congr fun n mem => ?_
  cases decimal : n.store with
  | some d => rw [Option.map_some, Option.some.injEq, Number.read_store_iff decimal]
  | none =>
      match n with
      | .int _ | .float (.finite _) => cases decimal
      | .float (.infinity _) | .float .nan => simp [Number.Survives]

end Jsonb
end OpsAssist.Theory
