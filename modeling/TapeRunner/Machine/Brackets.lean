/-!
Which bracket of a program belongs to which. One pass from left to right leaves a mark at every
position: the position of the partner, the lack of one, or nothing for a character that is no
bracket. An unmatched bracket is no error here; it matters only to a program that reaches it.
-/

set_option autoImplicit false
set_option relaxedAutoImplicit false

namespace TapeRunner

/-- What the bracket table says about one position of a program. -/
inductive Mark
  | plain
  | partner (position : Nat)
  | unmatched
deriving DecidableEq

/-- The table of a program read so far. `opened` lists the positions that still wait for their
partner, the innermost first; the next position to be read is `marks.size`. -/
structure BracketScan where
  opened : List Nat
  marks : Array Mark
deriving DecidableEq

namespace BracketScan

/-- Nothing has been read. -/
def empty : BracketScan := ⟨[], #[]⟩

/-- Reads one more character. An opening bracket counts as unmatched until its partner comes. -/
def read (scan : BracketScan) (character : Char) : BracketScan :=
  if character = '[' then
    ⟨scan.marks.size :: scan.opened, scan.marks.push .unmatched⟩
  else if character = ']' then
    match scan.opened with
    | [] => ⟨[], scan.marks.push .unmatched⟩
    | start :: outer =>
      let stop := scan.marks.size
      ⟨outer, (scan.marks.setIfInBounds start (.partner stop)).push (.partner start)⟩
  else
    ⟨scan.opened, scan.marks.push .plain⟩

@[simp] theorem size_marks_read (scan : BracketScan) (character : Char) :
    (scan.read character).marks.size = scan.marks.size + 1 := by
  unfold read
  split
  · simp
  · split
    · split <;> simp
    · simp

end BracketScan

/-- The mark of every position of a program. -/
def bracketMarks (code : List Char) : Array Mark :=
  (code.foldl BracketScan.read .empty).marks

/-- Every position of a program has a mark. -/
theorem size_bracketMarks (code : List Char) : (bracketMarks code).size = code.length := by
  have grown (scan : BracketScan) : (code.foldl BracketScan.read scan).marks.size =
      scan.marks.size + code.length := by
    induction code generalizing scan with
    | nil => rfl
    | cons character rest ih =>
      rw [List.foldl_cons, ih, BracketScan.size_marks_read, List.length_cons]
      omega
  simpa [bracketMarks, BracketScan.empty] using grown .empty

/-- The matched positions, each with its partner, in ascending order. -/
def partnerPairs (marks : Array Mark) : List (Nat × Nat) :=
  marks.toList.zipIdx.filterMap fun
    | (.partner target, position) => some (position, target)
    | _ => none

/-- The positions of the brackets without a partner, in ascending order. -/
def unmatchedPositions (marks : Array Mark) : List Nat :=
  marks.toList.zipIdx.filterMap fun
    | (.unmatched, position) => some position
    | _ => none

end TapeRunner
