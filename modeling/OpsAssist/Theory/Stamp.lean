/-
# OpsAssist.Theory.Stamp -- timestamps and UUIDs as text

`Datetime` is a civil date and time with its offset from UTC, `isoformat` its
ISO 8601 text; every numeral in it ends at a character that is no digit, so the
text determines the fields (`isoformat_injective`).  `Datetime.ofInstant` is the
civil date and time of a count of microseconds.  `Uuid` is a 128-bit number,
`Uuid.text` its eight groups of four hexadecimal digits with the usual hyphens.
-/
import OpsAssist.Theory.Numeral
import Mathlib.Data.String.Basic
import Mathlib.Tactic.NormNum

namespace OpsAssist.Theory

set_option autoImplicit false

open Numeral

/-! ## Timestamps -/

/-- A civil date and time; the offset from UTC is in seconds, eastward. -/
structure Datetime where
  year : Nat
  month : Nat
  day : Nat
  hour : Nat
  minute : Nat
  second : Nat
  microsecond : Nat
  offset : Int
deriving DecidableEq

namespace Datetime

/-- The fraction of a second, left out when it is zero. -/
def fractionText (microsecond : Nat) : List Char :=
  if microsecond = 0 then [] else '.' :: zeroPad 6 microsecond

def secondsText (seconds : Nat) : List Char :=
  if seconds = 0 then [] else ':' :: zeroPad 2 seconds

/-- `+HH:MM`, with the seconds when there are any. -/
def offsetText (offset : Int) : List Char :=
  (if offset < 0 then '-' else '+') :: (zeroPad 2 (offset.natAbs / 3600) ++
    ':' :: (zeroPad 2 (offset.natAbs / 60 % 60) ++ secondsText (offset.natAbs % 60)))

/-- The characters of `datetime.isoformat`. -/
def isoText (d : Datetime) : List Char :=
  zeroPad 4 d.year ++ '-' :: (zeroPad 2 d.month ++ '-' :: (zeroPad 2 d.day ++
    'T' :: (zeroPad 2 d.hour ++ ':' :: (zeroPad 2 d.minute ++ ':' :: (zeroPad 2 d.second ++
      (fractionText d.microsecond ++ offsetText d.offset))))))

def isoformat (d : Datetime) : String := String.ofList d.isoText

/-- Two padded numerals, each before a character that is no digit. -/
theorem zeroPad_cut {width m n : Nat} {s t : List Char} (stopS : NoDigit s) (stopT : NoDigit t)
    (same : zeroPad width m ++ s = zeroPad width n ++ t) : m = n ∧ s = t := by
  obtain ⟨numerals, rests⟩ := run_cut (fun _ mem => isDigit_of_mem_zeroPad mem)
    (fun _ mem => isDigit_of_mem_zeroPad mem) stopS stopT same
  exact ⟨zeroPad_injective numerals, rests⟩

theorem secondsText_injective {m n : Nat} (same : secondsText m = secondsText n) : m = n := by
  unfold secondsText at same
  split_ifs at same with hm hn hn
  · omega
  · simp only [List.cons.injEq, true_and] at same
    exact zeroPad_injective same

theorem noDigit_secondsText (n : Nat) : NoDigit (secondsText n) := by
  unfold secondsText
  split_ifs
  · trivial
  · simp only [Stops]; decide

theorem offsetText_injective {x y : Int} (same : offsetText x = offsetText y) : x = y := by
  simp only [offsetText, List.cons.injEq] at same
  obtain ⟨signs, rest⟩ := same
  obtain ⟨hours, rest⟩ := zeroPad_cut (by simp only [Stops]; decide)
    (by simp only [Stops]; decide) rest
  simp only [List.cons.injEq, true_and] at rest
  obtain ⟨minutes, rest⟩ := zeroPad_cut (noDigit_secondsText _) (noDigit_secondsText _) rest
  have seconds := secondsText_injective rest
  have negative : x < 0 ↔ y < 0 := by
    by_cases hx : x < 0 <;> by_cases hy : y < 0 <;> simp [hx, hy] at signs ⊢
  omega

theorem noDigit_offsetText (x : Int) : NoDigit (offsetText x) := by
  simp only [offsetText, Stops]
  split <;> decide

theorem noDigit_fractionText (n : Nat) (x : Int) :
    NoDigit (fractionText n ++ offsetText x) := by
  unfold fractionText
  split_ifs
  · exact noDigit_offsetText x
  · simp only [List.cons_append, Stops]; decide

theorem fraction_cut {m n : Nat} {x y : Int}
    (same : fractionText m ++ offsetText x = fractionText n ++ offsetText y) :
    m = n ∧ offsetText x = offsetText y := by
  have noPoint : ∀ (z : Int) (rest : List Char), offsetText z ≠ '.' :: rest := by
    intro z rest
    unfold offsetText
    split <;> simp
  unfold fractionText at same
  split_ifs at same with hm hn hn
  · exact ⟨by omega, same⟩
  · exact absurd same (noPoint x _)
  · exact absurd same.symm (noPoint y _)
  · simp only [List.cons_append, List.cons.injEq, true_and] at same
    exact zeroPad_cut (noDigit_offsetText x) (noDigit_offsetText y) same

/-- **The ISO text of a timestamp determines its fields.** -/
theorem isoText_injective {c d : Datetime} (same : c.isoText = d.isoText) : c = d := by
  have hyphen : ∀ rest, NoDigit ('-' :: rest) := fun _ => by simp only [Stops]; decide
  have colon : ∀ rest, NoDigit (':' :: rest) := fun _ => by simp only [Stops]; decide
  have letter : ∀ rest, NoDigit ('T' :: rest) := fun _ => by simp only [Stops]; decide
  unfold isoText at same
  obtain ⟨years, rest⟩ := zeroPad_cut (hyphen _) (hyphen _) same
  obtain ⟨months, rest⟩ := zeroPad_cut (hyphen _) (hyphen _) (List.cons.inj rest).2
  obtain ⟨days, rest⟩ := zeroPad_cut (letter _) (letter _) (List.cons.inj rest).2
  obtain ⟨hours, rest⟩ := zeroPad_cut (colon _) (colon _) (List.cons.inj rest).2
  obtain ⟨minutes, rest⟩ := zeroPad_cut (colon _) (colon _) (List.cons.inj rest).2
  obtain ⟨seconds, rest⟩ := zeroPad_cut (noDigit_fractionText _ _) (noDigit_fractionText _ _)
    (List.cons.inj rest).2
  obtain ⟨micros, rest⟩ := fraction_cut rest
  have offsets := offsetText_injective rest
  cases c; cases d
  simp only [Datetime.mk.injEq]
  exact ⟨years, months, days, hours, minutes, seconds, micros, offsets⟩

theorem isoformat_injective {c d : Datetime} (same : c.isoformat = d.isoformat) : c = d :=
  isoText_injective (String.ofList_injective same)

/-- The civil date of a number of days since 1970-01-01, by eras of 400 years. -/
def civilOfDays (days : Int) : Int × Nat × Nat :=
  let z := days + 719468
  let era := z.fdiv 146097
  let doe := (z - era * 146097).toNat
  let yoe := (doe - doe / 1460 + doe / 36524 - doe / 146096) / 365
  let doy := doe - (365 * yoe + yoe / 4 - yoe / 100)
  let mp := (5 * doy + 2) / 153
  let month := if mp < 10 then mp + 3 else mp - 9
  (yoe + era * 400 + (if month ≤ 2 then 1 else 0), month, doy - (153 * mp + 2) / 5 + 1)

/-- The timestamp of an instant, in microseconds since 1970-01-01 UTC, at an offset. -/
def ofInstant (instant : Int) (offset : Int) : Datetime :=
  let moment := instant + offset * 1000000
  let day := moment.fdiv 86400000000
  let clock := (moment - day * 86400000000).toNat
  let civil := civilOfDays day
  { year := civil.1.toNat, month := civil.2.1, day := civil.2.2,
    hour := clock / 3600000000, minute := clock / 60000000 % 60,
    second := clock / 1000000 % 60, microsecond := clock % 1000000, offset }

example : (ofInstant 1790000000000001 0).isoformat = "2026-09-21T14:13:20.000001+00:00" := by
  decide

end Datetime

/-! ## UUIDs -/

/-- A 128-bit identifier. -/
abbrev Uuid := Fin (2 ^ 128)

instance uuidNeZero : NeZero (2 ^ 128) := ⟨by decide⟩

namespace Uuid

/-- The `i`-th group of sixteen bits, counted from the least significant. -/
def group (u : Uuid) (i : Nat) : List Char := hexQuad (u.val / 65536 ^ i % 65536)

/-- The characters of `str(uuid)`: 8-4-4-4-12 hexadecimal digits. -/
def chars (u : Uuid) : List Char :=
  group u 7 ++ (group u 6 ++ '-' :: (group u 5 ++ '-' :: (group u 4 ++ '-' :: (group u 3 ++
    '-' :: (group u 2 ++ (group u 1 ++ group u 0))))))

def text (u : Uuid) : String := String.ofList u.chars

theorem chars_injective {u v : Uuid} (same : u.chars = v.chars) : u = v := by
  have cut : ∀ {m n : Nat} {s t : List Char},
      hexQuad (m % 65536) ++ s = hexQuad (n % 65536) ++ t → m % 65536 = n % 65536 ∧ s = t := by
    intro m n s t same
    obtain ⟨heads, tails⟩ := List.append_inj same (by simp)
    exact ⟨hexQuad_injective (Nat.mod_lt _ (by decide)) (Nat.mod_lt _ (by decide)) heads, tails⟩
  unfold chars group at same
  obtain ⟨g7, rest⟩ := cut same
  obtain ⟨g6, rest⟩ := cut rest
  obtain ⟨g5, rest⟩ := cut (List.cons.inj rest).2
  obtain ⟨g4, rest⟩ := cut (List.cons.inj rest).2
  obtain ⟨g3, rest⟩ := cut (List.cons.inj rest).2
  obtain ⟨g2, rest⟩ := cut (List.cons.inj rest).2
  obtain ⟨g1, rest⟩ := cut rest
  have g0 := hexQuad_injective (Nat.mod_lt _ (by decide)) (Nat.mod_lt _ (by decide)) rest
  have boundU := u.isLt
  have boundV := v.isLt
  apply Fin.ext
  norm_num at g0 g1 g2 g3 g4 g5 g6 g7 boundU boundV
  omega

theorem text_injective {u v : Uuid} (same : u.text = v.text) : u = v :=
  chars_injective (String.ofList_injective same)

end Uuid
end OpsAssist.Theory
