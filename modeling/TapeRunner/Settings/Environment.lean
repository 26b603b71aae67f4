import TapeRunner.Value

/-!
# Environments

The variables that surround the program. Every value has to be a text, and names and values have to
be such as a system can hold.
-/

set_option autoImplicit false
set_option relaxedAutoImplicit false

namespace TapeRunner

/-- Why a variable cannot be set. -/
inductive EnvironmentFault
  | notText (kind : String)
  | nullCharacter
  | equalsSign
  | noName
deriving DecidableEq

/-- The text of an environment's fault. -/
def EnvironmentFault.message : EnvironmentFault → String
  | .notText kind => "str expected, not " ++ kind
  | .nullCharacter => "embedded null byte"
  | .equalsSign => "illegal environment variable name"
  | .noName => "[Errno 22] Invalid argument"

namespace Environment

/-- The first reason for which a name and a text cannot be a variable. -/
def flaw? (name content : String) : Option EnvironmentFault :=
  if '\x00' ∈ name.toList ++ content.toList then some .nullCharacter
  else if '=' ∈ name.toList then some .equalsSign
  else if name = "" then some .noName
  else none

/-- One variable with its value. -/
def readVariable (name : String) (value : Value) : Except EnvironmentFault (String × String) :=
  match value with
  | .text content =>
    match flaw? name content with
    | some fault => .error fault
    | none => .ok (name, content)
  | other => .error (.notText other.kind)

/-- The variables in their order, or the first fault among them. -/
def ofFields (fields : Fields) : Except EnvironmentFault (List (String × String)) :=
  fields.mapM fun (name, value) ↦ readVariable name value

end Environment

end TapeRunner
