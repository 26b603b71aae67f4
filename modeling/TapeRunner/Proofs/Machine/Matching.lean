import TapeRunner.Machine.Brackets
import TapeRunner.Proofs.Machine.Program

/-!
# The bracket table of a nested program

`Program.marks` writes down the table of a program from its nesting alone: a loop's two brackets
are each other's partners. `bracketMarks` computes the same table in one pass with a stack
(`bracketMarks_text`). The reason is that a program in the middle of a text leaves the stack of
waiting brackets as it found it (`foldl_read_text`).

A text has an unmatched bracket exactly if it is not the text of a program
(`unmatchedPositions_eq_nil_iff`). Once a position no longer waits for its partner, its mark stays
(`getElem?_marks_foldl_read`).
-/

set_option autoImplicit false
set_option relaxedAutoImplicit false

namespace TapeRunner

namespace BracketScan

variable (scan : BracketScan)

/-! ### Reading one character -/

theorem read_open :
    scan.read '[' = ⟨scan.marks.size :: scan.opened, scan.marks.push .unmatched⟩ := rfl

theorem read_close_of_nil (hopened : scan.opened = []) :
    scan.read ']' = ⟨[], scan.marks.push .unmatched⟩ := by
  simp [read, hopened]

theorem read_close_of_cons {start : Nat} {outer : List Nat}
    (hopened : scan.opened = start :: outer) :
    scan.read ']' = ⟨outer,
      (scan.marks.setIfInBounds start (.partner scan.marks.size)).push (.partner start)⟩ := by
  simp [read, hopened]

theorem read_plain {character : Char} (plain : ¬ IsBracket character) :
    scan.read character = ⟨scan.opened, scan.marks.push .plain⟩ := by
  rw [read, if_neg fun h ↦ plain (.inl h), if_neg fun h ↦ plain (.inr h)]

/-- A position that has been read and does not wait keeps its mark, and goes on not waiting. -/
theorem getElem?_marks_read (character : Char) {position : Nat}
    (hread : position < scan.marks.size) (hsettled : position ∉ scan.opened) :
    (scan.read character).marks[position]? = scan.marks[position]? ∧
      position ∉ (scan.read character).opened := by
  have hpush (marks : Array Mark) (mark : Mark) (hin : position < marks.size) :
      (marks.push mark)[position]? = marks[position]? := by
    rw [Array.getElem?_push, if_neg (by omega)]
  by_cases hopen : character = '['
  · subst hopen
    rw [read_open]
    exact ⟨hpush _ _ hread, by simp only [List.mem_cons, not_or]; exact ⟨by omega, hsettled⟩⟩
  by_cases hclose : character = ']'
  · subst hclose
    cases hopened : scan.opened with
    | nil =>
      rw [read_close_of_nil scan hopened]
      exact ⟨hpush _ _ hread, List.not_mem_nil⟩
    | cons start outer =>
      rw [hopened, List.mem_cons, not_or] at hsettled
      rw [read_close_of_cons scan hopened]
      refine ⟨?_, hsettled.2⟩
      rw [hpush _ _ (by simpa using hread), Array.getElem?_setIfInBounds,
        if_neg (Ne.symm hsettled.1)]
  · rw [read_plain scan (not_or.mpr ⟨hopen, hclose⟩)]
    exact ⟨hpush _ _ hread, hsettled⟩

/-- Reading on leaves the marks of the settled positions alone. -/
theorem getElem?_marks_foldl_read (text : List Char) {position : Nat}
    (hread : position < scan.marks.size) (hsettled : position ∉ scan.opened) :
    (text.foldl read scan).marks[position]? = scan.marks[position]? := by
  induction text generalizing scan with
  | nil => rfl
  | cons character later ih =>
    obtain ⟨hsame, hstill⟩ := getElem?_marks_read scan character hread hsettled
    rw [List.foldl_cons, ih _ (by rw [size_marks_read]; omega) hstill, hsame]

end BracketScan

namespace Program

/-! ### The table by nesting -/

/-- The marks of a program that begins at a position. -/
def marks : Program → Nat → List Mark
  | done, _ => []
  | symbol _ _ rest, start => .plain :: rest.marks (start + 1)
  | loop body rest, start =>
    let stop := start + 1 + body.length
    .partner stop :: (body.marks (start + 1) ++ .partner start :: rest.marks (stop + 1))

@[simp] theorem length_marks (program : Program) (start : Nat) :
    (program.marks start).length = program.length := by
  induction program generalizing start with
  | done => rfl
  | symbol character plain rest ih => simp [marks, ih]
  | loop body rest ihBody ihRest =>
    simp only [marks, List.length_cons, List.length_append, ihBody, ihRest, length_loop]
    omega

theorem unmatched_not_mem_marks (program : Program) (start : Nat) :
    Mark.unmatched ∉ program.marks start := by
  induction program generalizing start with
  | done => exact List.not_mem_nil
  | symbol character plain rest ih => simpa [marks] using ih (start + 1)
  | loop body rest ihBody ihRest =>
    simpa [marks] using ⟨ihBody (start + 1), ihRest (start + 1 + body.length + 1)⟩

/-- Reading a program appends its marks. The brackets that wait before it wait after it, whichever
they are. -/
theorem foldl_read_text (program : Program) (scan : BracketScan) :
    program.text.foldl BracketScan.read scan =
      ⟨scan.opened, scan.marks ++ (program.marks scan.marks.size).toArray⟩ := by
  induction program generalizing scan with
  | done => simp [text, marks]
  | symbol character plain rest ih =>
    rw [text, List.foldl_cons, BracketScan.read_plain scan plain, ih, Array.size_push]
    simp [marks]
  | loop body rest ihBody ihRest =>
    have hclosed : (']' :: rest.text).foldl BracketScan.read
        ⟨scan.marks.size :: scan.opened,
          scan.marks.push .unmatched ++ (body.marks (scan.marks.size + 1)).toArray⟩ =
        ⟨scan.opened, scan.marks ++ ((loop body rest).marks scan.marks.size).toArray⟩ := by
      rw [List.foldl_cons, BracketScan.read_close_of_cons _ rfl, ihRest]
      congr 1
      apply Array.ext'
      simp [marks, Nat.add_assoc, Nat.add_comm, Nat.add_left_comm]
    rw [text, List.foldl_cons, List.foldl_append, BracketScan.read_open, ihBody, Array.size_push,
      hclosed]

/-- The table computed in one pass is the one read off the nesting. -/
theorem bracketMarks_text (program : Program) :
    bracketMarks program.text = (program.marks 0).toArray := by
  rw [bracketMarks, foldl_read_text]
  simp [BracketScan.empty]

end Program

/-! ### Unmatched brackets -/

theorem mem_unmatchedPositions_iff (marks : Array Mark) (position : Nat) :
    position ∈ unmatchedPositions marks ↔ marks[position]? = some .unmatched := by
  simp only [unmatchedPositions, List.mem_filterMap, Prod.exists]
  constructor
  · rintro ⟨mark, index, hmem, hfound⟩
    have hget := List.mem_zipIdx_iff_getElem?.mp hmem
    cases mark <;> simp_all
  · intro hget
    exact ⟨.unmatched, position, List.mem_zipIdx_iff_getElem?.mpr (by simpa using hget), rfl⟩

/-- An opening bracket with nothing but a program behind it stays alone. -/
theorem unmatchedPositions_of_unclosed (before : List Char) (program : Program) :
    before.length ∈ unmatchedPositions (bracketMarks (before ++ '[' :: program.text)) := by
  rw [mem_unmatchedPositions_iff, bracketMarks, List.foldl_append, List.foldl_cons,
    BracketScan.read_open, Program.foldl_read_text]
  have hsize : (before.foldl BracketScan.read .empty).marks.size = before.length :=
    size_bracketMarks before
  simp [hsize]

/-- A closing bracket with nothing but a program before it stays alone. -/
theorem unmatchedPositions_of_unopened (program : Program) (later : List Char) :
    program.length ∈ unmatchedPositions (bracketMarks (program.text ++ ']' :: later)) := by
  rw [mem_unmatchedPositions_iff, bracketMarks, List.foldl_append, List.foldl_cons,
    Program.foldl_read_text, BracketScan.read_close_of_nil _ rfl,
    BracketScan.getElem?_marks_foldl_read _ _ (by simp [BracketScan.empty]) List.not_mem_nil]
  simp [BracketScan.empty]

/-- The texts without an unmatched bracket are those of the programs. -/
theorem unmatchedPositions_eq_nil_iff (written : List Char) :
    unmatchedPositions (bracketMarks written) = [] ↔
      ∃ program : Program, program.text = written := by
  constructor
  · intro hnone
    cases hscan : Program.scan? written with
    | none =>
      obtain ⟨before, program, rfl⟩ := Program.exists_unclosed_of_scan?_eq_none hscan
      have hmem := unmatchedPositions_of_unclosed before program
      rw [hnone] at hmem
      cases hmem
    | some reading =>
      obtain ⟨program, outer⟩ := reading
      have hwritten := Program.text_of_scan?_eq_some hscan
      cases outer with
      | nil => exact ⟨program, by simp [hwritten, Program.Reading.text]⟩
      | cons after outer =>
        have hmem := unmatchedPositions_of_unopened program
          (after.text ++ outer.flatMap fun next ↦ ']' :: next.text)
        rw [show program.text ++ ']' :: (after.text ++ outer.flatMap fun next ↦ ']' :: next.text) =
          written by simp [hwritten, Program.Reading.text], hnone] at hmem
        cases hmem
  · rintro ⟨program, rfl⟩
    rw [List.eq_nil_iff_forall_not_mem]
    intro position hmem
    rw [mem_unmatchedPositions_iff, Program.bracketMarks_text, List.getElem?_toArray] at hmem
    exact Program.unmatched_not_mem_marks program 0 (List.mem_of_getElem? hmem)

end TapeRunner
