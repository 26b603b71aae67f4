import TapeRunner.Text.Blank
import TapeRunner.Text.Quoted

/-!
# Files of variables

A file of lines `NAME=value`. A value may stand in quotes, and then go over several lines; without
quotes it ends at the end of the line or before a comment. A line that does not keep to the form
is passed over. A value may refer to other variables by `$` and the name in braces, with a text
after `:-` that stands for a variable without a value. A name that is bound again keeps its place
and takes the new value.
-/

set_option autoImplicit false
set_option relaxedAutoImplicit false

namespace TapeRunner.Variables

open Text (singleMark doubleMark)

/-- A name with its value; a name without an equals sign has none. -/
abbrev Binding := String × Option String

/-! ### Parts of a line -/

/-- A character that ends a line. -/
def isLineEnd (character : Char) : Bool := character = '\n' || character = '\r'

/-- A blank inside a line. -/
def isGapInLine (character : Char) : Bool := Text.isGap character && !isLineEnd character

/-- Lines end with one character, however they ended before. -/
def joinLineEnds : List Char → List Char
  | '\r' :: '\n' :: rest => '\n' :: joinLineEnds rest
  | '\r' :: rest => '\n' :: joinLineEnds rest
  | character :: rest => character :: joinLineEnds rest
  | [] => []

/-- Drops the mark that a file may begin with to tell how its characters are coded. -/
def dropCodingMark : List Char → List Char
  | '\ufeff' :: rest => rest
  | characters => characters

/-- Drops the word `export` and the blanks behind it. -/
def dropExport (characters : List Char) : List Char :=
  match characters with
  | 'e' :: 'x' :: 'p' :: 'o' :: 'r' :: 't' :: rest =>
    if (rest.head?.map isGapInLine).getD false then rest.dropWhile isGapInLine else characters
  | _ => characters

/-- Reads a name: in single quotes, or up to a blank, an equals sign or a comment. -/
def readName (characters : List Char) : Option (String × List Char) :=
  match characters with
  | [] => none
  | first :: rest =>
    if first = singleMark then
      match rest.takeWhile (· ≠ singleMark), rest.dropWhile (· ≠ singleMark) with
      | [], _ => none
      | _, [] => none
      | name, _ :: later => some (String.ofList name, later)
    else
      let stops (character : Char) : Bool :=
        character = '=' || character = '#' || Text.isGap character
      match characters.takeWhile (!stops ·) with
      | [] => none
      | name => some (String.ofList name, characters.dropWhile (!stops ·))

/-- Reads up to a closing mark. A character behind a backslash does not close. -/
def readQuoted (mark : Char) : List Char → Option (List Char × List Char)
  | [] => none
  | ['\\'] => none
  | '\\' :: character :: rest =>
    (readQuoted mark rest).map fun (content, later) ↦ ('\\' :: character :: content, later)
  | character :: rest =>
    if character = mark then some ([], rest)
    else (readQuoted mark rest).map fun (content, later) ↦ (character :: content, later)

/-- What a character means behind a backslash between single marks. -/
def singleEscape (character : Char) : Option Char :=
  if character = '\\' || character = singleMark then some character else none

/-- What a character means behind a backslash between double marks. -/
def doubleEscape (character : Char) : Option Char :=
  if character = '\\' || character = singleMark || character = doubleMark then some character
  else match character with
    | 'a' => some '\x07'
    | 'b' => some '\x08'
    | 'f' => some '\x0c'
    | 'n' => some '\n'
    | 'r' => some '\r'
    | 't' => some '\t'
    | 'v' => some '\x0b'
    | _ => none

/-- Replaces what stands behind backslashes. -/
def unescape (meaning : Char → Option Char) : List Char → List Char
  | '\\' :: character :: rest =>
    match meaning character with
    | some replaced => replaced :: unescape meaning rest
    | none => '\\' :: unescape meaning (character :: rest)
  | character :: rest => character :: unescape meaning rest
  | [] => []

/-- Cuts a comment that stands behind a blank. -/
def dropComment : List Char → List Char
  | [] => []
  | character :: rest =>
    if Text.isGap character && ((character :: rest).dropWhile Text.isGap).head? = some '#' then []
    else character :: dropComment rest

/-- Reads a value behind the equals sign, with the blanks around it. -/
def readContent (characters : List Char) : Option (String × List Char) :=
  match characters.dropWhile isGapInLine with
  | [] => some ("", [])
  | first :: rest =>
    if first = singleMark then
      (readQuoted singleMark rest).map fun (content, later) ↦
        (String.ofList (unescape singleEscape content), later)
    else if first = doubleMark then
      (readQuoted doubleMark rest).map fun (content, later) ↦
        (String.ofList (unescape doubleEscape content), later)
    else
      let line := characters.takeWhile (!isLineEnd ·)
      some (String.ofList (Text.trim Text.isGap (dropComment line)),
        characters.dropWhile (!isLineEnd ·))

/-- Reads a comment and the end of the line; nothing else may stand there. -/
def readLineEnd (characters : List Char) : Option (List Char) :=
  let behind := characters.dropWhile isGapInLine
  let behind := match behind with
    | '#' :: rest => rest.dropWhile (!isLineEnd ·)
    | rest => rest
  match behind with
  | [] => some []
  | character :: rest => if isLineEnd character then some rest else none

/-- The rest behind the end of the line. -/
def nextLine (characters : List Char) : List Char :=
  (characters.dropWhile (!isLineEnd ·)).drop 1

/-! ### Lines -/

/-- Reads one binding, and answers what is left; a comment or a line without the form gives none. -/
def readBinding (characters : List Char) : Option Binding × List Char :=
  let start := dropExport characters
  match start with
  | '#' :: _ =>
    match readLineEnd start with
    | some rest => (none, rest)
    | none => (none, nextLine start)
  | _ =>
    match readName start with
    | none => (none, nextLine start)
    | some (name, rest) =>
      match rest.dropWhile isGapInLine with
      | '=' :: behind =>
        match readContent behind with
        | none => (none, nextLine behind)
        | some (content, after) =>
          match readLineEnd after with
          | some later => (some (name, some content), later)
          | none => (none, nextLine after)
      | behind =>
        match readLineEnd behind with
        | some later => (some (name, none), later)
        | none => (none, nextLine behind)

/-- Reads the bindings of a text. Every line takes at least one character, so that the number of
characters bounds the number of lines. -/
def readAll : Nat → List Char → List Binding
  | 0, _ => []
  | bound + 1, characters =>
    match characters.dropWhile Text.isGap with
    | [] => []
    | start =>
      match readBinding start with
      | (some binding, rest) => binding :: readAll bound rest
      | (none, rest) => readAll bound rest

/-! ### References -/

/-- A reference at the beginning of a text, behind `$` and the opening brace: the name, what stands
for it, and the rest. -/
def readReference (characters : List Char) : Option (String × String × List Char) :=
  let stops (character : Char) : Bool := character = ':' || character = '\x7d'
  let name := String.ofList (characters.takeWhile (!stops ·))
  match characters.dropWhile (!stops ·) with
  | '\x7d' :: rest => some (name, "", rest)
  | ':' :: '-' :: rest =>
    match rest.dropWhile (· ≠ '\x7d') with
    | _ :: later => some (name, String.ofList (rest.takeWhile (· ≠ '\x7d')), later)
    | [] => none
  | _ => none

/-- Replaces the references in a value; the number of characters bounds their number. -/
def resolve (find : String → Option String) : Nat → List Char → String
  | 0, _ => ""
  | _ + 1, [] => ""
  | bound + 1, '$' :: '\x7b' :: rest =>
    match readReference rest with
    | some (name, instead, later) => (find name).getD instead ++ resolve find bound later
    | none => "$" ++ resolve find bound ('\x7b' :: rest)
  | bound + 1, character :: rest => String.singleton character ++ resolve find bound rest

/-- Binds a name, in its old place if it is bound. -/
def bind (bindings : List Binding) (name : String) (value : Option String) : List Binding :=
  if bindings.any (·.1 = name) then
    bindings.map fun binding ↦ if binding.1 = name then (name, value) else binding
  else bindings ++ [(name, value)]

/-- Replaces the references of every value. A value sees the variables bound before it, and those of
the environment that are not among them. -/
def resolveAll (environment : List (String × String)) (done : List Binding) :
    List Binding → List Binding
  | [] => done
  | (name, value) :: rest =>
    let find (wanted : String) : Option String :=
      match done.lookup wanted with
      | some found => some (found.getD "")
      | none => (environment.reverse.find? (·.1 = wanted)).map (·.2)
    let value := value.map fun content ↦
      resolve find (content.length + 1) content.toList
    resolveAll environment (bind done name value) rest

/-- The bindings of a file, in the order in which their names first came. -/
def read (environment : List (String × String)) (file : String) : List Binding :=
  let characters := joinLineEnds (dropCodingMark file.toList)
  resolveAll environment [] (readAll (characters.length + 1) characters)

end TapeRunner.Variables
