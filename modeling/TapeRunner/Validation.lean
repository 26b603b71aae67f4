import TapeRunner.Number.Decimal
import TapeRunner.Text.Blank
import TapeRunner.Value

/-!
# Validation

Reading values that arrive from outside into flags, whole numbers and texts. Reading is lenient in
fixed ways, and a value that cannot be read is answered by a defect. All fields of a record are
read, so that every defect is found, in the order in which the fields are declared.
-/

set_option autoImplicit false
set_option relaxedAutoImplicit false

namespace TapeRunner

/-- What is wrong with a value. -/
inductive Defect
  | flagText
  | flagType
  | wholeText
  | wholeFraction
  | wholeSize
  | notFinite
  | wholeType
  | notAbove (bound : Int)
  | notAtLeast (bound : Int)
  | notAtMost (bound : Int)
  | textType
  | tooShort
  | tooLong
  | notManual
  | notEnvironment
  | missing
  | notRecord
deriving DecidableEq

namespace Defect

/-- The word for a kind of defect. -/
def kind : Defect → String
  | .flagText => "bool_parsing"
  | .flagType => "bool_type"
  | .wholeText => "int_parsing"
  | .wholeFraction => "int_from_float"
  | .wholeSize => "int_parsing_size"
  | .notFinite => "finite_number"
  | .wholeType => "int_type"
  | .notAbove _ => "greater_than"
  | .notAtLeast _ => "greater_than_equal"
  | .notAtMost _ => "less_than_equal"
  | .textType => "string_type"
  | .tooShort => "string_too_short"
  | .tooLong => "string_too_long"
  | .notManual => "value_error"
  | .notEnvironment => "literal_error"
  | .missing => "missing"
  | .notRecord => "model_attributes_type"

/-- The text of a defect. -/
def message : Defect → String
  | .flagText => "Input should be a valid boolean, unable to interpret input"
  | .flagType => "Input should be a valid boolean"
  | .wholeText => "Input should be a valid integer, unable to parse string as an integer"
  | .wholeFraction => "Input should be a valid integer, got a number with a fractional part"
  | .wholeSize => "Unable to parse input string as an integer, exceeded maximum size"
  | .notFinite => "Input should be a finite number"
  | .wholeType => "Input should be a valid integer"
  | .notAbove bound => "Input should be greater than " ++ toString bound
  | .notAtLeast bound => "Input should be greater than or equal to " ++ toString bound
  | .notAtMost bound => "Input should be less than or equal to " ++ toString bound
  | .textType => "Input should be a valid string"
  | .tooShort => "String should have at least 1 character"
  | .tooLong => "String should have at most 1 character"
  | .notManual => "Value error, instruction must be one of '<>-+.'"
  | .notEnvironment => "Input should be 'local', 'staging' or 'prod'"
  | .missing => "Field required"
  | .notRecord => "Input should be a valid dictionary or object to extract fields from"

end Defect

/-- A defect and the names that lead to it. -/
structure Finding where
  location : List String
  defect : Defect
deriving DecidableEq

/-- A result, or all that was found wrong. -/
abbrev Checked := Except (List Finding)

/-- Two results, or the findings of both. -/
def Checked.both {First Second : Type} :
    Checked First → Checked Second → Checked (First × Second)
  | .ok first, .ok second => .ok (first, second)
  | .error findings, .ok _ => .error findings
  | .ok _, .error findings => .error findings
  | .error first, .error second => .error (first ++ second)

/-- Two results come about exactly if each of them does. -/
theorem Checked.both_eq_ok_iff {First Second : Type} (left : Checked First)
    (right : Checked Second) (first : First) (second : Second) :
    left.both right = .ok (first, second) ↔ left = .ok first ∧ right = .ok second := by
  cases left <;> cases right <;> simp [Checked.both]

/-- How a value is read. -/
abbrev Reader (Result : Type) := Value → Except Defect Result

namespace Reader

variable {Result : Type}

/-- The texts that mean no. -/
def noTexts : List String := ["0", "off", "f", "false", "n", "no"]

/-- The texts that mean yes. -/
def yesTexts : List String := ["1", "on", "t", "true", "y", "yes"]

/-- A whole number has 64 bits with a sign. -/
def isWord (number : Int) : Bool :=
  decide (-9223372036854775808 ≤ number ∧ number ≤ 9223372036854775807)

/-- A whole number as a flag: zero or one. -/
def flagOfWhole (number : Int) : Except Defect Bool :=
  if number = 0 then .ok false
  else if number = 1 then .ok true
  else .error (if isWord number then .flagText else .flagType)

/-- A double without a fraction as a whole number. Its magnitude has to stay below two to the power
of 63. -/
def wholeOfReal (number : Float) : Except Defect Int :=
  match Number.read number with
  | .finite parts =>
    let unit := Nat.pow 2 (-parts.exponent).toNat
    let size : Int := parts.digits * Nat.pow 2 parts.exponent.toNat / unit
    if parts.digits % unit ≠ 0 then .error .wholeFraction
    else if Nat.pow 2 63 ≤ size then .error .wholeSize
    else .ok (if parts.negative then -size else size)
  | _ => .error .notFinite

/-- A flag, a number equal to zero or one, or one of the texts, in any case of its letters. -/
def flag : Reader Bool
  | .flag value => .ok value
  | .whole number => flagOfWhole number
  | .real number =>
    match wholeOfReal number with
    | .ok whole => flagOfWhole whole
    | .error _ => .error .flagType
  | .text content =>
    let word := content.map Char.toLower
    if word ∈ noTexts then .ok false else if word ∈ yesTexts then .ok true else .error .flagText
  | _ => .error .flagType

/-! ### Whole numbers as text -/

/-- What is left of a number behind a zero or an underscore that counts for nothing. A minus sign
may still come. Before a point, and at the end, the last character passed over is kept. -/
def dropZeros (last : Char) : List Char → Option (List Char)
  | [] => some [last]
  | character :: rest =>
    if character = '0' || character = '_' then dropZeros character rest
    else if character = '.' then some (last :: character :: rest)
    else if character = '-' || character.isDigit then some (character :: rest)
    else none

/-- Drops the zeros that lead a number; it has to begin with a digit. -/
def dropLeadingZeros : List Char → Option (List Char)
  | [] => none
  | first :: rest =>
    if first = '0' then dropZeros first rest
    else if first.isDigit then some (first :: rest)
    else none

/-- Drops a point with nothing but zeros, at least one, behind it. -/
def dropFraction (characters : List Char) : List Char :=
  match characters.dropWhile (· ≠ '.') with
  | _ :: zero :: zeros =>
    if (zero :: zeros).all (· = '0') then characters.takeWhile (· ≠ '.') else characters
  | _ => characters

/-- Underscores stand alone and between other characters. -/
def isSpaced : List Char → Bool
  | [] => true
  | '_' :: _ => false
  | _ :: '_' :: rest => !rest.isEmpty && isSpaced rest
  | _ :: rest => isSpaced rest

/-- The most characters of a number, with its minus sign and without leading zeros. -/
def mostDigits : Nat := 4300

/-- Digits as a number; only a zero alone begins with zero. -/
def wholeOfDigits (negative : Bool) (digits : List Char) : Except Defect Int :=
  if digits.isEmpty || !digits.all Char.isDigit ||
      (digits.head? = some '0' && 1 < digits.length) then .error .wholeText
  else if mostDigits < digits.length + (if negative then 1 else 0) then .error .wholeSize
  else
    let size : Int := digits.foldl (fun total digit ↦ 10 * total + (digit.toNat - 48)) 0
    .ok (if negative then -size else size)

/-- A whole number as text: white space around it, a sign, zeros and underscores that lead it, a
point with zeros behind it, and single underscores between digits are all allowed. -/
def wholeOfText (content : String) : Except Defect Int :=
  let characters := Text.trim Text.isBlank content.toList
  let (negative, characters) := match characters with
    | '-' :: rest => (true, rest)
    | '+' :: rest => (false, rest)
    | rest => (false, rest)
  match (dropLeadingZeros characters).map dropFraction with
  | none => .error .wholeText
  | some number =>
    if !isSpaced number then .error .wholeText
    else match negative, number.filter (· ≠ '_') with
      | false, '-' :: digits => wholeOfDigits true digits
      | negative, digits => wholeOfDigits negative digits

/-- A whole number, a flag as zero or one, a double without a fraction, or a number as text. -/
def whole : Reader Int
  | .whole number => .ok number
  | .flag value => .ok (if value then 1 else 0)
  | .real number => wholeOfReal number
  | .text content => wholeOfText content
  | _ => .error .wholeType

/-- A text. -/
def text : Reader String
  | .text content => .ok content
  | _ => .error .textType

/-- Reads, and then checks what was read. -/
def checked (reader : Reader Result) (check : Result → Option Defect) : Reader Result :=
  fun value ↦ do
    let result ← reader value
    match check result with
    | some defect => .error defect
    | none => .ok result

/-- Reads nothing from null, and everything else as the reader does. -/
def optional (reader : Reader Result) : Reader (Option Result)
  | .null => .ok none
  | value => (reader value).map some

/-- Reads the value of a field, or answers for its absence. -/
def field (reader : Reader Result) (location : List String) (absent : Except Defect Result) :
    Option Value → Checked Result
  | some value => (reader value).mapError fun defect ↦ [⟨location, defect⟩]
  | none => absent.mapError fun defect ↦ [⟨location, defect⟩]

end Reader

end TapeRunner
