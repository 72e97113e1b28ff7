/-
# OpsAssist.Host -- what the program takes from its surroundings

The digest function, the Unicode case mappings, the database's own `lower` and the
wording and integer coercion of the validation library are code outside the
repository.  `Host` collects them; every definition of the model that needs one
takes a `Host`, and every theorem holds for all of them unless it names what it
assumes of one.
-/
import OpsAssist.Theory.Jsonb

namespace OpsAssist

set_option autoImplicit false

open Theory

/-- A JSON value as the program holds it; `null` is `None`. -/
abbrev Value := Json Number

def optionalValue : Option String → Value
  | none => .null
  | some s => .str s

/-- The ways a field fails validation, with what the message is made from. -/
inductive ErrorKind where
  | missing
  | extraForbidden
  | stringType
  | stringTooShort (min : Nat)
  | stringTooLong (max : Nat)
  | stringPatternMismatch (pattern : String)
  | literalError (allowed : List String)
  | intType
  | greaterThanEqual (bound : Int)
  | lessThanEqual (bound : Int)
  | dictType
  | valueError (text : String)
deriving DecidableEq

structure Host where
  /-- `hashlib.sha256(text.encode()).hexdigest()` -/
  sha256 : String → String
  /-- `str.lower` -/
  lower : List Char → List Char
  /-- `str.upper` -/
  upper : List Char → List Char
  /-- `repr` of a text -/
  repr : String → String
  /-- the `lower` of the database -/
  sqlLower : List Char → List Char
  /-- the UTC offset of the database session's time zone at an instant, in seconds -/
  zone : Int → Int
  /-- the integer a lax integer field takes from a value -/
  laxInt : Value → Option Int
  /-- the message of a validation error -/
  errorText : ErrorKind → String

/-! ## A plain host

Case mappings of ASCII text, integers taken as they are, the validation library's
English messages, and a digest that is the text itself behind a letter. -/

def plainErrorText : ErrorKind → String
  | .missing => "Field required"
  | .extraForbidden => "Extra inputs are not permitted"
  | .stringType => "Input should be a valid string"
  | .stringTooShort min => "String should have at least " ++ toString min ++ " characters"
  | .stringTooLong max => "String should have at most " ++ toString max ++ " characters"
  | .stringPatternMismatch pattern => "String should match pattern '" ++ pattern ++ "'"
  | .literalError allowed => "Input should be " ++ String.intercalate " or " allowed
  | .intType => "Input should be a valid integer"
  | .greaterThanEqual bound => "Input should be greater than or equal to " ++ toString bound
  | .lessThanEqual bound => "Input should be less than or equal to " ++ toString bound
  | .dictType => "Input should be a valid dictionary"
  | .valueError text => "Value error, " ++ text

def Host.plain : Host where
  sha256 text := "h" ++ text
  lower := List.map Char.toLower
  upper := List.map Char.toUpper
  repr text := "'" ++ text ++ "'"
  sqlLower := List.map Char.toLower
  zone _ := 0
  laxInt
    | .num (.int z) => some z
    | _ => none
  errorText := plainErrorText

end OpsAssist
