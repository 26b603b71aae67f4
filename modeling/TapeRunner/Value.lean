/-!
Values whose shape is known only when they arrive: the fields of a log line, the members of a
request, the answers to it.
-/

set_option autoImplicit false
set_option relaxedAutoImplicit false

namespace TapeRunner

/-- A value of any shape. A record keeps its fields in the order in which they came. -/
inductive Value
  | null
  | flag (value : Bool)
  | whole (number : Int)
  | real (number : Float)
  | text (text : String)
  | list (items : List Value)
  | record (fields : List (String × Value))
deriving Inhabited

/-- Values with their names. -/
abbrev Fields := List (String × Value)

namespace Fields

/-- The value of a name; the last one counts. -/
def get? (fields : Fields) (name : String) : Option Value :=
  (fields.reverse.find? fun field ↦ field.1 = name).map (·.2)

/-- Sets the value of a name, in its old place if the name is there. -/
def put (fields : Fields) (name : String) (value : Value) : Fields :=
  if fields.any (·.1 = name) then
    fields.map fun field ↦ if field.1 = name then (name, value) else field
  else fields ++ [(name, value)]

/-- Sets every value of a second list, which wins over the first. -/
def join (fields later : Fields) : Fields :=
  later.foldl (fun fields field ↦ fields.put field.1 field.2) fields

/-- Adds those of a second list whose names are not there. -/
def fill (fields further : Fields) : Fields :=
  fields ++ further.filter fun field ↦ !fields.any (·.1 = field.1)

/-- Leaves out the fields of the names listed. -/
def without (fields : Fields) (names : List String) : Fields :=
  fields.filter fun field ↦ field.1 ∉ names

end Fields

namespace Value

/-- A text, or nothing. -/
def ofText? : Option String → Value
  | some content => .text content
  | none => .null

/-- A natural number. -/
def ofNat (number : Nat) : Value := .whole number

/-- A natural number, or nothing. -/
def ofNat? : Option Nat → Value
  | some number => .whole number
  | none => .null

mutual

/-- No number in a value is infinite or undefined. -/
def isFinite : Value → Bool
  | .real number => number.isFinite
  | .list items => allFinite items
  | .record fields => fieldsFinite fields
  | _ => true

/-- Every item is finite. -/
def allFinite : List Value → Bool
  | [] => true
  | item :: items => item.isFinite && allFinite items

/-- Every field is finite. -/
def fieldsFinite : List (String × Value) → Bool
  | [] => true
  | (_, item) :: fields => item.isFinite && fieldsFinite fields

end

mutual

/-- A value in which null stands for every number that is not finite. -/
def plain : Value → Value
  | .real number => if number.isFinite then .real number else .null
  | .list items => .list (plainItems items)
  | .record fields => .record (plainFields fields)
  | value => value

/-- The items of a list, each of them plain. -/
def plainItems : List Value → List Value
  | [] => []
  | item :: items => item.plain :: plainItems items

/-- The fields of a record, each of them plain. -/
def plainFields : List (String × Value) → List (String × Value)
  | [] => []
  | (name, item) :: fields => (name, item.plain) :: plainFields fields

end

/-- The word for the kind of a value. -/
def kind : Value → String
  | .null => "NoneType"
  | .flag _ => "bool"
  | .whole _ => "int"
  | .real _ => "float"
  | .text _ => "str"
  | .list _ => "list"
  | .record _ => "dict"

end Value

end TapeRunner
