import TapeRunner.Journal
import TapeRunner.Number.Shortest
import TapeRunner.Text.Quoted

/-!
# Lines on the console

A line as text: the time stamp, the level in brackets, the event, and the fields sorted by name.
The event is filled up to a column where fields follow. Two fields name the source of the line and
stand in brackets before the others; two more are attachments and stand below the line.
-/

set_option autoImplicit false
set_option relaxedAutoImplicit false

namespace TapeRunner

mutual

/-- A value inside a line. -/
def Value.spelled : Value → String
  | .null => "None"
  | .flag value => if value then "True" else "False"
  | .whole number => toString number
  | .real number => Number.shortest number
  | .text content => Text.quote content
  | .list items => "[" ++ String.intercalate ", " (Value.spelledItems items) ++ "]"
  | .record fields => "\x7b" ++ String.intercalate ", " (Value.spelledFields fields) ++ "\x7d"

/-- The items of a list. -/
def Value.spelledItems : List Value → List String
  | [] => []
  | item :: items => item.spelled :: Value.spelledItems items

/-- The fields of a record, each with its name. -/
def Value.spelledFields : List (String × Value) → List String
  | [] => []
  | (name, item) :: fields =>
    (Text.quote name ++ ": " ++ item.spelled) :: Value.spelledFields fields

end

namespace Line

/-- The characters for which a text is quoted. -/
def needsQuotes (character : Char) : Bool :=
  character = ' ' || character = '\t' || character = '=' || character = '\r' ||
    character = '\n' || character = Text.doubleMark || character = Text.singleMark

/-- The value of a field; a plain text stands as it is. -/
def fieldText : Value → String
  | .text content => if content.toList.any needsQuotes then Text.quote content else content
  | value => value.spelled

/-- Fills a text with spaces on the right. -/
def filled (width : Nat) (content : String) : String :=
  content ++ String.ofList (List.replicate (width - content.length) ' ')

/-- The width of the level. -/
def levelWidth : Nat := 9

/-- The width of the event where something follows. -/
def eventWidth : Nat := 30

/-- Drops the spaces at the end of a text. -/
def withoutSpacesBehind (content : String) : String :=
  String.ofList (content.toList.reverse.dropWhile (· = ' ')).reverse

/-- The fields that stand in front of all others, in brackets and without their names. -/
def sourceNames : List String := ["logger", "logger_name"]

/-- The value of a field in brackets: a text as it is, any other value as inside a line. -/
def bracketed : Value → String
  | .text content => "[" ++ content ++ "]"
  | value => "[" ++ value.spelled ++ "]"

/-- The text of the line itself. -/
def head (line : Line) (stamp : String) : String :=
  let sources := sourceNames.filterMap fun name ↦ (line.fields.get? name).map bracketed
  let own := line.fields.without
    (["timestamp", "level", "event"] ++ sourceNames ++ attachmentNames)
  let named := (own.mergeSort fun first second ↦ decide (first.1 ≤ second.1)).map fun field ↦
    field.1 ++ "=" ++ fieldText field.2
  withoutSpacesBehind (String.intercalate " "
    ([stamp, "[" ++ filled levelWidth line.level.name ++ "]", filled eventWidth line.event] ++
      sources ++ named))

/-- An attachment, if it is a text. -/
def attachment? (line : Line) (name : String) : Option String :=
  match line.fields.get? name with
  | some (.text content) => some content
  | _ => none

/-- The width of the rule between the two attachments. -/
def ruleWidth : Nat := 79

/-- What stands below the line: the stack, a rule if both are there, and the exception. -/
def tail (line : Line) : String :=
  let rule := "\n\n" ++ String.ofList (List.replicate ruleWidth '=') ++ "\n"
  match line.attachment? "stack", line.attachment? "exception" with
  | some stack, some exception => "\n" ++ stack ++ rule ++ "\n" ++ exception
  | some stack, none => "\n" ++ stack
  | none, some exception => "\n" ++ exception
  | none, none => ""

/-- The rows that a line takes on the console. Empty rows are passed over. -/
def rows (line : Line) (stamp : String) : List String :=
  ((line.head stamp ++ line.tail).splitOn "\n").filter (· ≠ "")

end Line

end TapeRunner
