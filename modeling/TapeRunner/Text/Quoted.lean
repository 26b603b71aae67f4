import TapeRunner.Text.Printable

/-!
Quoted text: a text between two equal quote marks, with the mark, the backslash and every
invisible character escaped, so that the quoted form stays on one line and can be read back.
-/

set_option autoImplicit false
set_option relaxedAutoImplicit false

namespace TapeRunner.Text

/-- The single quote mark. -/
def singleMark : Char := '\x27'

/-- The double quote mark. -/
def doubleMark : Char := '\x22'

/-- The double mark is used only where it saves an escape: the text holds the single mark and
not the double one. -/
def chooseMark (characters : List Char) : Char :=
  if characters.contains singleMark && !characters.contains doubleMark then doubleMark
  else singleMark

/-- A number in lower-case hexadecimal, filled with zeros on the left. -/
def hexadecimal (width number : Nat) : List Char :=
  let digits := Nat.toDigits 16 number
  List.replicate (width - digits.length) '0' ++ digits

/-- The number of an invisible character, in the shortest of the three widths. -/
def escapeNumber (number : Nat) : List Char :=
  if number < 0x100 then '\\' :: 'x' :: hexadecimal 2 number
  else if number < 0x10000 then '\\' :: 'u' :: hexadecimal 4 number
  else '\\' :: 'U' :: hexadecimal 8 number

/-- One character between the marks. -/
def escapeCharacter (mark character : Char) : List Char :=
  if character = mark || character = '\\' then ['\\', character]
  else if character = '\n' then ['\\', 'n']
  else if character = '\r' then ['\\', 'r']
  else if character = '\t' then ['\\', 't']
  else if isPrintable character then [character]
  else escapeNumber character.toNat

/-- The quoted form of a text. -/
def quote (text : String) : String :=
  let characters := text.toList
  let mark := chooseMark characters
  String.ofList (mark :: characters.flatMap (escapeCharacter mark) ++ [mark])

end TapeRunner.Text
