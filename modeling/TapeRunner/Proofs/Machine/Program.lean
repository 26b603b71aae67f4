/-!
# Programs as nested loops

A text in which every bracket has its partner is a sequence of single characters and of loops
around such texts. `Program` is that reading of a text and `Program.text` its spelling;
`Program.parse?` finds the reading by one pass from the last character to the first, holding what
follows each closing bracket whose partner is still to come. A text has a reading exactly if it is
the spelling of one, and then of that one alone (`parse?_eq_some_iff`). A text without a reading
has a bracket that stays alone, and the pass finds it (`exists_unclosed_of_scan?_eq_none`,
`text_of_scan?_eq_some`).
-/

set_option autoImplicit false
set_option relaxedAutoImplicit false

namespace TapeRunner

/-- A character that begins or ends a loop. -/
abbrev IsBracket (character : Char) : Prop := character = '[' ∨ character = ']'

/-- A sequence of characters and loops. -/
inductive Program
  | done
  | symbol (character : Char) (plain : ¬ IsBracket character) (rest : Program)
  | loop (body rest : Program)

namespace Program

/-- How a program is spelled. -/
def text : Program → List Char
  | done => []
  | symbol character _ rest => character :: rest.text
  | loop body rest => '[' :: (body.text ++ ']' :: rest.text)

/-- The number of characters of a program. -/
def length (program : Program) : Nat := program.text.length

@[simp] theorem length_text (program : Program) : program.text.length = program.length := rfl

@[simp] theorem length_done : length done = 0 := rfl

@[simp] theorem length_symbol (character : Char) (plain : ¬ IsBracket character)
    (rest : Program) : (symbol character plain rest).length = rest.length + 1 := rfl

@[simp] theorem length_loop (body rest : Program) :
    (loop body rest).length = body.length + rest.length + 2 := by
  rw [length, text, List.length_cons, List.length_append, List.length_cons]
  simp only [length]
  omega

/-- One program after another. -/
def followedBy : Program → Program → Program
  | done, next => next
  | symbol character plain rest, next => symbol character plain (rest.followedBy next)
  | loop body rest, next => loop body (rest.followedBy next)

@[simp] theorem followedBy_done (program : Program) : program.followedBy done = program := by
  induction program with
  | done => rfl
  | symbol character plain rest ih => rw [followedBy, ih]
  | loop body rest _ ih => rw [followedBy, ih]

/-! ### Reading a text backwards -/

/-- A text read from its end: the program at its front and, the innermost first, what follows each
of the closing brackets that have no partner yet. -/
abbrev Reading := Program × List Program

/-- The text that was read. -/
def Reading.text (reading : Reading) : List Char :=
  reading.1.text ++ reading.2.flatMap fun after ↦ ']' :: after.text

/-- Reads one more character in front; an opening bracket needs a closing one behind it. -/
def prepend? (character : Char) (reading : Reading) : Option Reading :=
  if hclose : character = ']' then some (done, reading.1 :: reading.2)
  else if hopen : character = '[' then
    match reading.2 with
    | [] => none
    | after :: outer => some (loop reading.1 after, outer)
  else some (symbol character (fun h ↦ h.elim hopen hclose) reading.1, reading.2)

/-- Reads a text from its last character to its first. -/
def scan? : List Char → Option Reading
  | [] => some (done, [])
  | character :: later => (scan? later).bind (prepend? character)

/-- The program that a text spells. -/
def parse? (text : List Char) : Option Program :=
  match scan? text with
  | some (program, []) => some program
  | _ => none

/-- The text of a reading is what was read. -/
theorem text_prepend? {character : Char} {reading next : Reading}
    (hread : prepend? character reading = some next) : next.text = character :: reading.text := by
  obtain ⟨current, outer⟩ := reading
  unfold prepend? at hread
  split at hread
  · next hclose =>
    cases hread
    subst hclose
    simp [Reading.text, text]
  · split at hread
    · next hopen =>
      subst hopen
      cases outer with
      | nil => cases hread
      | cons after outer =>
        cases hread
        simp [Reading.text, text]
    · cases hread
      simp [Reading.text, text]

/-- A text that can be read to its front is the text of its reading. -/
theorem text_of_scan?_eq_some {written : List Char} {reading : Reading}
    (hscan : scan? written = some reading) : written = reading.text := by
  induction written generalizing reading with
  | nil =>
    cases hscan
    rfl
  | cons character later ih =>
    obtain ⟨behind, hbehind, hread⟩ := Option.bind_eq_some_iff.mp hscan
    rw [text_prepend? hread, ih hbehind]

/-- A text that cannot be read to its front has an opening bracket that is followed by a program
and nothing else, so that nothing closes it. -/
theorem exists_unclosed_of_scan?_eq_none {written : List Char} (hscan : scan? written = none) :
    ∃ before program, written = before ++ '[' :: text program := by
  induction written with
  | nil => cases hscan
  | cons character later ih =>
    cases hlater : scan? later with
    | none =>
      obtain ⟨before, program, rfl⟩ := ih hlater
      exact ⟨character :: before, program, rfl⟩
    | some reading =>
      obtain ⟨current, outer⟩ := reading
      rw [scan?, hlater, Option.bind_some] at hscan
      unfold prepend? at hscan
      split at hscan
      · cases hscan
      · split at hscan
        · next hopen =>
          cases outer with
          | nil =>
            refine ⟨[], current, ?_⟩
            rw [text_of_scan?_eq_some hlater, hopen]
            simp [Reading.text]
          | cons after outer => cases hscan
        · cases hscan

/-- A program in front of a text is read in one go. -/
theorem scan?_text_append (program : Program) {later : List Char} {next : Program}
    {outer : List Program} (hlater : scan? later = some (next, outer)) :
    scan? (program.text ++ later) = some (program.followedBy next, outer) := by
  induction program generalizing later next outer with
  | done => exact hlater
  | symbol character plain rest ih =>
    rw [text, List.cons_append, scan?, ih hlater, Option.bind_some, prepend?,
      dif_neg fun h ↦ plain (.inr h), dif_neg fun h ↦ plain (.inl h)]
    rfl
  | loop body rest ihBody ihRest =>
    have hclosed : scan? (']' :: (rest.text ++ later)) =
        some (done, rest.followedBy next :: outer) := by
      rw [scan?, ihRest hlater, Option.bind_some, prepend?, dif_pos rfl]
    rw [text, List.cons_append, List.append_assoc, List.cons_append, scan?, ihBody hclosed,
      Option.bind_some, prepend?, dif_neg (by decide), dif_pos rfl, followedBy_done]
    rfl

/-- A text spells the program that is read from it, and no other. -/
theorem parse?_eq_some_iff (written : List Char) (program : Program) :
    parse? written = some program ↔ program.text = written := by
  constructor
  · intro hparse
    unfold parse? at hparse
    split at hparse
    · next found hscan =>
      cases hparse
      rw [text_of_scan?_eq_some hscan]
      simp [Reading.text]
    · cases hparse
  · rintro rfl
    have hscan := scan?_text_append program (rfl : scan? [] = some (done, []))
    rw [List.append_nil, followedBy_done] at hscan
    rw [parse?, hscan]

example : (parse? "+[-]".toList).map text = some "+[-]".toList := by decide

end Program

end TapeRunner
