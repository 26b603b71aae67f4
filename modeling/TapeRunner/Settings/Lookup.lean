import TapeRunner.Settings.Variables
import TapeRunner.Validation

/-!
# How variables are looked up

The name of a variable is an opening and the name of the setting, usually in any case of its
letters. Fields with an underscore in front can change that, and can leave out the file of
variables, variables with an empty value, or read one text as no value at all.
-/

set_option autoImplicit false
set_option relaxedAutoImplicit false

namespace TapeRunner

/-- How a setting is looked up among variables. `nullText` is the text that stands for null. -/
structure Lookup where
  opening : String
  exact : Bool
  readsFile : Bool
  skipsEmpty : Bool
  nullText : Option String
deriving DecidableEq

namespace Lookup

/-- What holds where no field says otherwise. -/
def usual : Lookup := ⟨"BFSTEP_", false, true, false, none⟩

/-- The names of the file of variables. -/
def fileNames : List String := [".env", "./.env"]

/-- A value that names the file of variables, alone or among others. -/
def namesFile : Value → Bool
  | .text content => content ∈ fileNames
  | .list items => items.any fun
    | .text content => content ∈ fileNames
    | _ => false
  | _ => false

/-- Reads how to look up from fields. Null changes nothing, save for the file, which it leaves
out. -/
def ofFields (fields : Fields) : Lookup where
  opening := match fields.get? "_env_prefix" with
    | some (.text content) => content
    | _ => usual.opening
  exact := match (fields.get? "_case_sensitive").map Reader.flag with
    | some (.ok value) => value
    | _ => usual.exact
  readsFile := ((fields.get? "_env_file").map namesFile).getD usual.readsFile
  skipsEmpty := match (fields.get? "_env_ignore_empty").map Reader.flag with
    | some (.ok value) => value
    | _ => usual.skipsEmpty
  nullText := match fields.get? "_env_parse_none_str" with
    | some (.text content) => some content
    | _ => usual.nullText

/-- A name as it is compared with others. -/
def spelling (lookup : Lookup) (name : String) : String :=
  if lookup.exact then name else name.map Char.toLower

/-- The value of a setting among variables; of several that answer to its name the last one counts,
also if it has no value. -/
def find? (lookup : Lookup) (bindings : List Variables.Binding) (setting : String) :
    Option Value := do
  let kept := bindings.filter fun binding ↦ !(lookup.skipsEmpty && binding.2 = some "")
  let (_, content) ← kept.reverse.find? fun binding ↦
    lookup.spelling binding.1 = lookup.spelling (lookup.opening ++ setting)
  let content ← content
  return if lookup.nullText = some content then .null else .text content

end Lookup

end TapeRunner
