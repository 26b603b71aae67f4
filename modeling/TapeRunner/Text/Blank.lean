/-!
Blank characters: the space, its wider and narrower kin, and the characters that end a line, as the
standard's property of white space lists them, and beside it the four separators among the controls.
-/

set_option autoImplicit false
set_option relaxedAutoImplicit false

namespace TapeRunner.Text

/-- Code points with the property of white space, as ascending closed ranges. -/
def blankRanges : List (Nat × Nat) :=
  [(0x09, 0x0d), (0x20, 0x20), (0x85, 0x85), (0xa0, 0xa0), (0x1680, 0x1680), (0x2000, 0x200a),
    (0x2028, 0x2029), (0x202f, 0x202f), (0x205f, 0x205f), (0x3000, 0x3000)]

/-- A character of white space. -/
def isBlank (character : Char) : Bool :=
  blankRanges.any fun range ↦ range.1 ≤ character.toNat && character.toNat ≤ range.2

/-- A character of white space or a separator among the controls. -/
def isGap (character : Char) : Bool :=
  isBlank character || (0x1c ≤ character.toNat && character.toNat ≤ 0x1f)

/-- Drops the characters of a kind from both ends. -/
def trim (kind : Char → Bool) (characters : List Char) : List Char :=
  ((characters.dropWhile kind).reverse.dropWhile kind).reverse

end TapeRunner.Text
