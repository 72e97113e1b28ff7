/-
# OpsAssist.Theory.Binary64 -- binary64 numbers and their shortest decimal text

A finite binary64 number is a sign, a mantissa below `2^53` and an exponent on
the grid that starts at `2^-1074`; `Binary64.canonical` is the field that makes
the representation unique, so equality of numbers (with `0.0` and `-0.0` apart)
is equality of fields.

`nearest` rounds a ratio to the grid, ties to even.  `Binary64.rendering` is the
shortest decimal notation that reads back, in the two layouts of a scripting
language's `repr`: positional while the decimal point falls within sixteen
digits, otherwise one digit, a fraction and an exponent of at least two digits.
A notation that does not read back is never returned: the search certifies each
candidate, and its last resort is the exact decimal value.  Hence
`read_rendering`: reading the text of a number gives the number.
-/
import OpsAssist.Theory.Numeral
import Mathlib.Tactic.Ring
import Mathlib.Tactic.Positivity

namespace OpsAssist.Theory

set_option autoImplicit false

open Numeral

/-- The finest spacing of the format is `2^-bias`. -/
def bias : Nat := 1074

/-- A finite binary64 number: `± mantissa * 2^exponent / 2^bias`. -/
@[ext] structure Binary64 where
  negative : Bool
  mantissa : Nat
  exponent : Nat
  canonical : mantissa < 2 ^ 53 ∧ (exponent = 0 ∨ 2 ^ 52 ≤ mantissa) ∧ exponent ≤ 2045
deriving DecidableEq

namespace Binary64

/-! ## Rounding a ratio to the grid -/

/-- `p / q` rounded to the nearest natural number, ties to even. -/
def halfEven (p q : Nat) : Nat :=
  if 2 * (p % q) < q ∨ (2 * (p % q) = q ∧ p / q % 2 = 0) then p / q else p / q + 1

/-- The exponent at which `p / q`, counted in units of `2^-bias`, has 53 bits. -/
def gridExponent (p q : Nat) : Nat := Nat.log2 (p / q) - 52

/-- The number with these fields; a carry out of 53 bits moves to the next
exponent, and `none` is an exponent beyond the format. -/
def pack (negative : Bool) (mantissa exponent : Nat) : Option Binary64 :=
  if h : mantissa < 2 ^ 53 ∧ (exponent = 0 ∨ 2 ^ 52 ≤ mantissa) ∧ exponent ≤ 2045 then
    some ⟨negative, mantissa, exponent, h⟩
  else if h : mantissa = 2 ^ 53 ∧ exponent + 1 ≤ 2045 then
    some ⟨negative, 2 ^ 52, exponent + 1, by decide, .inr (Nat.le_refl _), h.2⟩
  else none

/-- The binary64 number nearest to `± p / q`; `none` when it overflows. -/
def nearest (negative : Bool) (p q : Nat) : Option Binary64 :=
  let units := p * 2 ^ bias
  let exponent := gridExponent units q
  pack negative (halfEven units (q * 2 ^ exponent)) exponent

/-- The binary64 number nearest to `± coefficient * 10^exponent`. -/
def ofDecimal (negative : Bool) (coefficient : Nat) : Int → Option Binary64
  | .ofNat k => nearest negative (coefficient * 10 ^ k) 1
  | .negSucc k => nearest negative coefficient (10 ^ (k + 1))

theorem halfEven_scale (p q : Nat) {c : Nat} (pos : 0 < c) :
    halfEven (p * c) (q * c) = halfEven p q := by
  have quotient : p * c / (q * c) = p / q := Nat.mul_div_mul_right p q pos
  have remainder : p * c % (q * c) = p % q * c := Nat.mul_mod_mul_right c p q
  have less : 2 * (p % q * c) < q * c ↔ 2 * (p % q) < q := by
    rw [← Nat.mul_assoc]; exact Nat.mul_lt_mul_right pos
  have tie : 2 * (p % q * c) = q * c ↔ 2 * (p % q) = q := by
    rw [← Nat.mul_assoc]; exact Nat.mul_left_inj (Nat.pos_iff_ne_zero.mp pos)
  simp only [halfEven, quotient, remainder, less, tie]

theorem halfEven_exact (m : Nat) {q : Nat} (pos : 0 < q) : halfEven (m * q) q = m := by
  simp [halfEven, Nat.mul_div_cancel m pos, pos]

/-- Rounding depends on the ratio only. -/
theorem nearest_scale (negative : Bool) (p q : Nat) {c : Nat} (pos : 0 < c) :
    nearest negative (p * c) (q * c) = nearest negative p q := by
  have units : p * c * 2 ^ bias = p * 2 ^ bias * c := Nat.mul_right_comm _ _ _
  have grid : gridExponent (p * 2 ^ bias * c) (q * c) = gridExponent (p * 2 ^ bias) q := by
    unfold gridExponent
    rw [Nat.mul_div_mul_right _ _ pos]
  have spacing (e : Nat) : q * c * 2 ^ e = q * 2 ^ e * c := Nat.mul_right_comm _ _ _
  simp only [nearest, units, grid, spacing, halfEven_scale _ _ pos]

theorem log2_mul_two_pow {m : Nat} (nonzero : m ≠ 0) :
    ∀ e : Nat, Nat.log2 (m * 2 ^ e) = Nat.log2 m + e
  | 0 => by simp
  | e + 1 => by
      have double : m * 2 ^ (e + 1) = 2 * (m * 2 ^ e) := by ring
      rw [double, Nat.log2_two_mul (Nat.mul_ne_zero nonzero (Nat.two_pow_pos e).ne'),
        log2_mul_two_pow nonzero e]
      rfl

theorem gridExponent_exact (x : Binary64) :
    Nat.log2 (x.mantissa * 2 ^ x.exponent) - 52 = x.exponent := by
  obtain ⟨below, normal, -⟩ := x.canonical
  rcases Nat.eq_zero_or_pos x.mantissa with zero | pos
  · rcases normal with h | h
    · simp [zero, h]
    · omega
  · have shift := log2_mul_two_pow (Nat.pos_iff_ne_zero.mp pos) x.exponent
    have upper : Nat.log2 x.mantissa < 53 :=
      (Nat.log2_lt (Nat.pos_iff_ne_zero.mp pos)).mpr below
    rcases normal with h | h
    · omega
    · have lower : 52 ≤ Nat.log2 x.mantissa :=
        (Nat.le_log2 (Nat.pos_iff_ne_zero.mp pos)).mpr h
      omega

/-- A ratio that is a binary64 number rounds to it. -/
theorem nearest_exact (x : Binary64) {p q : Nat} (pos : 0 < q)
    (exact : p * 2 ^ bias = x.mantissa * 2 ^ x.exponent * q) :
    nearest x.negative p q = some x := by
  have grid : gridExponent (p * 2 ^ bias) q = x.exponent := by
    rw [exact, gridExponent, Nat.mul_div_cancel _ pos]
    exact gridExponent_exact x
  have rounded : halfEven (p * 2 ^ bias) (q * 2 ^ x.exponent) = x.mantissa := by
    rw [exact, Nat.mul_assoc, Nat.mul_comm (2 ^ x.exponent) q]
    exact halfEven_exact _ (Nat.mul_pos pos (Nat.two_pow_pos _))
  simp only [nearest, grid, rounded, pack, x.canonical, and_self, dite_true]

theorem ofDecimal_neg (negative : Bool) (coefficient : Nat) :
    ∀ k : Nat, ofDecimal negative coefficient (-k) = nearest negative coefficient (10 ^ k)
  | 0 => by
      change nearest negative (coefficient * 10 ^ 0) 1 = nearest negative coefficient (10 ^ 0)
      rw [Nat.pow_zero, Nat.mul_one]
  | _ + 1 => rfl

theorem ofDecimal_shift (negative : Bool) (coefficient j : Nat) (e : Int) :
    ofDecimal negative (coefficient * 10 ^ j) (e - j) = ofDecimal negative coefficient e := by
  rcases e with k | k
  · rcases Nat.lt_or_ge k j with less | le
    · obtain ⟨d, rfl⟩ : ∃ d, j = k + (d + 1) := ⟨j - k - 1, by omega⟩
      have below : Int.ofNat k - ((k + (d + 1) : Nat) : Int) = .negSucc d := by
        rw [Int.negSucc_eq]; simp only [Int.ofNat_eq_natCast]; omega
      have split : coefficient * 10 ^ (k + (d + 1)) = coefficient * 10 ^ k * 10 ^ (d + 1) := by
        rw [Nat.pow_add, Nat.mul_assoc]
      rw [below, ofDecimal, ofDecimal, split,
        ← nearest_scale negative (coefficient * 10 ^ k) 1 (c := 10 ^ (d + 1)) (by positivity)]
      simp
    · have above : Int.ofNat k - (j : Int) = .ofNat (k - j) := by
        simp only [Int.ofNat_eq_natCast]; omega
      rw [above, ofDecimal, ofDecimal, Nat.mul_assoc, ← Nat.pow_add,
        Nat.add_sub_cancel' le]
  · have below : Int.negSucc k - (j : Int) = .negSucc (k + j) := by
      rw [Int.negSucc_eq, Int.negSucc_eq]; omega
    have split : 10 ^ (k + j + 1) = 10 ^ (k + 1) * 10 ^ j := by rw [← Nat.pow_add]; congr 1; omega
    rw [below, ofDecimal, ofDecimal, split, nearest_scale _ _ _ (by positivity)]

end Binary64

/-! ## Decimal notation -/

/-- A decimal numeral as it is written: the digits before and after the point and
the exponent, when there is one. -/
structure Notation where
  negative : Bool
  whole : List Char
  fraction : List Char
  exponent : Option Int
deriving DecidableEq

namespace Notation

/-- The exponent of a notation, with its sign and at least two digits. -/
def exponentText : Option Int → List Char
  | none => []
  | some (.ofNat k) => 'e' :: '+' :: zeroPad 2 k
  | some (.negSucc k) => 'e' :: '-' :: zeroPad 2 (k + 1)

def signText (negative : Bool) : List Char := if negative then ['-'] else []

def fractionText : List Char → List Char
  | [] => []
  | digits => '.' :: digits

/-- The characters of the notation. -/
def text (n : Notation) : List Char :=
  signText n.negative ++ (n.whole ++ (fractionText n.fraction ++ exponentText n.exponent))

/-- All digits as one number: the value is `± coefficient * 10^power`. -/
def coefficient (n : Notation) : Nat := value (n.whole ++ n.fraction)

def power (n : Notation) : Int := n.exponent.getD 0 - n.fraction.length

/-- The binary64 number nearest to the value the notation denotes. -/
def read (n : Notation) : Option Binary64 := Binary64.ofDecimal n.negative n.coefficient n.power

/-- `digits` with the decimal point after the first `point` of them: positional
for a point within sixteen digits, otherwise with an exponent. -/
def layout (negative : Bool) (digits : List Char) (point : Int) : Notation :=
  if -4 < point ∧ point ≤ 16 then
    if point ≤ 0 then
      ⟨negative, ['0'], List.replicate (-point).toNat '0' ++ digits, none⟩
    else if point < digits.length then
      ⟨negative, digits.take point.toNat, digits.drop point.toNat, none⟩
    else
      ⟨negative, digits ++ List.replicate (point.toNat - digits.length) '0', ['0'], none⟩
  else
    ⟨negative, digits.take 1, digits.drop 1, some (point - 1)⟩

theorem read_layout (negative : Bool) {digits : List Char} (point : Int) (some : digits ≠ []) :
    (layout negative digits point).read =
      Binary64.ofDecimal negative (value digits) (point - digits.length) := by
  have long : 1 ≤ digits.length := List.length_pos_of_ne_nil some
  unfold layout
  split
  · split
    · have power : (0 : Int) - ((List.replicate (-point).toNat '0' ++ digits).length : Nat) =
          point - digits.length := by simp; omega
      have digit : value ['0'] = 0 := by decide
      simp only [read, Notation.power, coefficient, Option.getD_none, power,
        value_append, value_replicate_zero, digit, Nat.mul_zero, Nat.zero_add]
    · split
      · have power : (0 : Int) - ((digits.drop point.toNat).length : Nat) =
            point - digits.length := by rw [List.length_drop]; omega
        simp only [read, Notation.power, coefficient, Option.getD_none, power,
          List.take_append_drop]
      · have digit : value ['0'] = 0 := by decide
        have count : point - (digits.length : Int) = (point.toNat - digits.length : Nat) := by
          omega
        have zeros := Binary64.ofDecimal_shift negative (value digits)
          (point.toNat - digits.length + 1) (point - digits.length)
        rw [← zeros, count]
        simp only [read, Notation.power, coefficient, Option.getD_none, value_append,
          value_replicate_zero, digit, Nat.add_zero, List.length_replicate, List.length_singleton]
        congr 1
        · ring
        · omega
  · have power : point - 1 - ((digits.drop 1).length : Nat) = point - digits.length := by
      rw [List.length_drop]; omega
    simp only [read, Notation.power, coefficient, Option.getD_some, power, List.take_append_drop]

@[simp] theorem negative_layout (negative : Bool) (digits : List Char) (point : Int) :
    (layout negative digits point).negative = negative := by
  unfold layout
  split_ifs <;> rfl

/-- Only digits, at least one before the point, and a fraction or an exponent:
a notation that no integer numeral has. -/
structure Fractional (n : Notation) : Prop where
  whole_ne_nil : n.whole ≠ []
  whole_digits : ∀ c ∈ n.whole, c.isDigit = true
  fraction_digits : ∀ c ∈ n.fraction, c.isDigit = true
  marked : n.fraction ≠ [] ∨ n.exponent.isSome = true

theorem layout_fractional (negative : Bool) {digits : List Char} (point : Int)
    (some : digits ≠ []) (decimals : ∀ c ∈ digits, c.isDigit = true) :
    (layout negative digits point).Fractional := by
  have long : 1 ≤ digits.length := List.length_pos_of_ne_nil some
  have zero : ∀ k, ∀ c ∈ List.replicate k '0', c.isDigit = true := by
    intro k c mem; rw [List.eq_of_mem_replicate mem]; decide
  have both : ∀ {xs ys : List Char}, (∀ c ∈ xs, c.isDigit = true) →
      (∀ c ∈ ys, c.isDigit = true) → ∀ c ∈ xs ++ ys, c.isDigit = true := by
    intro xs ys left right c mem
    rcases List.mem_append.mp mem with h | h
    · exact left c h
    · exact right c h
  unfold layout
  split
  · split
    · exact ⟨by simp, zero 1, both (zero _) decimals, .inl (by simp [some])⟩
    · split
      · refine ⟨?_, fun c mem => decimals c (List.mem_of_mem_take mem),
          fun c mem => decimals c (List.mem_of_mem_drop mem), .inl ?_⟩
        · intro nil
          have := congrArg List.length nil
          simp only [List.length_take, List.length_nil] at this
          omega
        · intro nil
          have := congrArg List.length nil
          simp only [List.length_drop, List.length_nil] at this
          omega
      · exact ⟨by simp [some], both decimals (zero _), zero 1, .inl (by simp)⟩
  · refine ⟨?_, fun c mem => decimals c (List.mem_of_mem_take mem),
      fun c mem => decimals c (List.mem_of_mem_drop mem), .inr rfl⟩
    intro nil
    have := congrArg List.length nil
    simp only [List.length_take, List.length_nil] at this
    omega

theorem noDigit_exponentText : ∀ e : Option Int, NoDigit (exponentText e)
  | none => trivial
  | some (.ofNat _) => by simp only [exponentText, Stops]; decide
  | some (.negSucc _) => by simp only [exponentText, Stops]; decide

theorem noDigit_fractionText (digits : List Char) (e : Option Int) :
    NoDigit (fractionText digits ++ exponentText e) := by
  cases digits with
  | nil => exact noDigit_exponentText e
  | cons c rest => simp only [fractionText, List.cons_append, Stops]; decide

theorem exponentText_injective : ∀ {d e : Option Int}, exponentText d = exponentText e → d = e
  | none, none, _ => rfl
  | none, some (.ofNat _), same => by simp [exponentText] at same
  | none, some (.negSucc _), same => by simp [exponentText] at same
  | some (.ofNat _), none, same => by simp [exponentText] at same
  | some (.negSucc _), none, same => by simp [exponentText] at same
  | some (.ofNat j), some (.ofNat k), same => by
      simp only [exponentText, List.cons.injEq, true_and] at same
      rw [zeroPad_injective same]
  | some (.ofNat _), some (.negSucc _), same => by
      simp only [exponentText, List.cons.injEq, true_and] at same
      exact absurd same.1 (by decide)
  | some (.negSucc _), some (.ofNat _), same => by
      simp only [exponentText, List.cons.injEq, true_and] at same
      exact absurd same.1 (by decide)
  | some (.negSucc j), some (.negSucc k), same => by
      simp only [exponentText, List.cons.injEq, true_and] at same
      have numbers := zeroPad_injective same
      have : j = k := by omega
      rw [this]

/-- The fraction and the exponent are read off the text that follows the whole part. -/
theorem tail_injective {f g : List Char} {d e : Option Int}
    (digits : ∀ c ∈ f, c.isDigit = true) (digits' : ∀ c ∈ g, c.isDigit = true)
    (same : fractionText f ++ exponentText d = fractionText g ++ exponentText e) :
    f = g ∧ d = e := by
  have noPoint : ∀ (k : Option Int) (rest : List Char), exponentText k ≠ '.' :: rest := by
    intro k rest
    rcases k with _ | (_ | _) <;> simp [exponentText]
  cases f with
  | nil =>
      cases g with
      | nil => exact ⟨rfl, exponentText_injective same⟩
      | cons c rest => exact absurd same (noPoint d _)
  | cons c rest =>
      cases g with
      | nil => exact absurd same.symm (noPoint e _)
      | cons c' rest' =>
          simp only [fractionText, List.cons_append, List.cons.injEq, true_and] at same
          have ⟨runs, exponents⟩ := run_cut digits digits' (noDigit_exponentText d)
            (noDigit_exponentText e) (by simpa using same)
          exact ⟨runs, exponentText_injective exponents⟩

theorem Fractional.head_isDigit {n : Notation} (good : n.Fractional) (rest : List Char) :
    ∃ c cs, n.whole ++ rest = c :: cs ∧ c.isDigit = true := by
  have digits := good.whole_digits
  cases shape : n.whole with
  | nil => exact absurd shape good.whole_ne_nil
  | cons c cs => exact ⟨c, cs ++ rest, rfl, digits c (by simp [shape])⟩

/-- **The text of a fractional notation determines it.** -/
theorem text_injective {m n : Notation} (goodₘ : m.Fractional) (goodₙ : n.Fractional)
    (same : m.text = n.text) : m = n := by
  obtain ⟨c, cs, headₘ, digitₘ⟩ := goodₘ.head_isDigit (fractionText m.fraction ++
    exponentText m.exponent)
  obtain ⟨d, ds, headₙ, digitₙ⟩ := goodₙ.head_isDigit (fractionText n.fraction ++
    exponentText n.exponent)
  have signs : m.negative = n.negative ∧ m.whole ++ (fractionText m.fraction ++
      exponentText m.exponent) = n.whole ++ (fractionText n.fraction ++
      exponentText n.exponent) := by
    unfold text at same
    rw [headₘ, headₙ] at same ⊢
    cases hm : m.negative <;> cases hn : n.negative <;>
      simp only [hm, hn, signText, Bool.false_eq_true, if_true, if_false, List.nil_append,
        List.cons_append, List.cons.injEq, true_and] at same ⊢
    · exact same
    · rw [same.1] at digitₘ; exact absurd digitₘ (by decide)
    · rw [← same.1] at digitₙ; exact absurd digitₙ (by decide)
    · exact same
  have ⟨wholes, tails⟩ := run_cut goodₘ.whole_digits goodₙ.whole_digits
    (noDigit_fractionText _ _) (noDigit_fractionText _ _) signs.2
  have ⟨fractions, exponents⟩ := tail_injective goodₘ.fraction_digits goodₙ.fraction_digits tails
  cases m; cases n
  simp only [Notation.mk.injEq]
  exact ⟨signs.1, wholes, fractions, exponents⟩

end Notation

/-! ## The shortest notation that reads back -/

namespace Binary64

/-- The magnitude of `x` in units of `10^-bias`: a natural number. -/
def scaled (x : Binary64) : Nat := x.mantissa * 2 ^ x.exponent * 5 ^ bias

/-- The two `n`-digit decimals next to `x`, the nearer one first.  Rounding up to
`10^n` leaves one significant digit. -/
def candidates (x : Binary64) (n : Nat) : List (Nat × Int) :=
  let dropped := (decimal x.scaled).length - n
  let near := halfEven x.scaled (10 ^ dropped)
  let far := if near = x.scaled / 10 ^ dropped then near + 1 else near - 1
  [near, far].map fun c =>
    if c = 10 ^ n then (1, dropped + n - bias) else (c, dropped - bias)

/-- The shortest decimal that rounds to `x`, as a coefficient and a power of ten. -/
def shortest (x : Binary64) : Nat × Int :=
  if x.mantissa = 0 then (0, 0)
  else (((List.range 17).flatMap fun n => candidates x (n + 1)).find? fun d =>
    ofDecimal x.negative d.1 d.2 = some x).getD (x.scaled, -bias)

/-- The notation `repr` writes for `x`. -/
def rendering (x : Binary64) : Notation :=
  let digits := decimal x.shortest.1
  .layout x.negative digits (digits.length + x.shortest.2)

/-- The characters `repr` writes for `x`. -/
def text (x : Binary64) : List Char := x.rendering.text

theorem ofDecimal_scaled (x : Binary64) : ofDecimal x.negative x.scaled (-bias) = some x := by
  have tens : (10 : Nat) ^ bias = 5 ^ bias * 2 ^ bias := by rw [← Nat.mul_pow]
  rw [ofDecimal_neg]
  refine nearest_exact x (Nat.pow_pos (by decide)) ?_
  rw [tens, scaled, Nat.mul_assoc]

theorem ofDecimal_shortest (x : Binary64) :
    ofDecimal x.negative x.shortest.1 x.shortest.2 = some x := by
  unfold shortest
  split
  · rename_i zero
    exact nearest_exact x (p := 0) (q := 1) (by decide) (by simp [zero])
  · cases found : ((List.range 17).flatMap fun n => candidates x (n + 1)).find? fun d =>
        ofDecimal x.negative d.1 d.2 = some x with
    | none => exact ofDecimal_scaled x
    | some d => simpa using List.find?_some found

@[simp] theorem negative_rendering (x : Binary64) : x.rendering.negative = x.negative :=
  Notation.negative_layout _ _ _

theorem rendering_fractional (x : Binary64) : x.rendering.Fractional :=
  Notation.layout_fractional _ _ (decimal_ne_nil _) fun _ mem => isDigit_of_mem_decimal mem

/-- **Reading the text of a number gives the number.** -/
theorem read_rendering (x : Binary64) : x.rendering.read = some x := by
  rw [rendering, Notation.read_layout _ _ (decimal_ne_nil _), value_decimal,
    Int.add_comm, Int.add_sub_cancel]
  exact ofDecimal_shortest x

theorem text_injective {x y : Binary64} (same : x.text = y.text) : x = y := by
  have notations := Notation.text_injective x.rendering_fractional y.rendering_fractional same
  have reads := congrArg Notation.read notations
  rw [read_rendering, read_rendering] at reads
  exact Option.some.inj reads

-- Both are run by evaluation only; proofs use `nearest_exact` and `read_rendering`.
attribute [irreducible] nearest shortest

end Binary64
end OpsAssist.Theory
