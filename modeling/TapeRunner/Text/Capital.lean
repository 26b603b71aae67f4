/-!
Texts in capital letters, as far as words of ASCII capitals can come from them: the small letters of
ASCII, and the few letters beyond it whose capitals lie in ASCII.
-/

set_option autoImplicit false
set_option relaxedAutoImplicit false

namespace TapeRunner.Text

/-- The letters beyond ASCII that become letters of ASCII: the sharp s, the small i without a dot,
the long s, and the ligatures. -/
def distantCapitals : List (Char × String) :=
  [('\u00df', "SS"), ('\u0131', "I"), ('\u017f', "S"), ('\ufb00', "FF"), ('\ufb01', "FI"),
    ('\ufb02', "FL"), ('\ufb03', "FFI"), ('\ufb04', "FFL"), ('\ufb05', "ST"), ('\ufb06', "ST")]

/-- The capital form of a character, which may be several letters. -/
def capital (character : Char) : List Char :=
  match distantCapitals.lookup character with
  | some letters => letters.toList
  | none => [character.toUpper]

/-- A text in capital letters. -/
def capitals (text : String) : String := String.ofList (text.toList.flatMap capital)

end TapeRunner.Text
