import Mathlib.Order.Nat
import TapeRunner.Proofs.Machine.Matching

/-!
# Bracket matching by counting

The depth of a text at a position is the number of opening brackets before it, less the number of
closing ones. It changes by one at a bracket and nowhere else, so it cannot get from one side of a
level to the other without being there (`lt_depth_iff_of_ne`). A loop ends where the depth is first
back at what it was before (`IsLoop`). The end of a loop is therefore the nearest position up to
which the brackets come out even, and its start the nearest one when counted backwards
(`isLoop_iff_isLeast`, `isLoop_iff_isGreatest`).

The pass over a text finds the loops and nothing else: its stack holds the positions above whose
depth it still is (`Waits`), and a closing bracket ends the loop of the innermost of them
(`Scanned.read`). So the table is the matching of brackets by counting (`matches_bracketMarks`).
-/

set_option autoImplicit false
set_option relaxedAutoImplicit false

namespace TapeRunner

/-! ### Depth -/

/-- The opening brackets of a text before a position, less the closing ones. -/
def depth (code : List Char) (position : Nat) : Int :=
  (code.take position).count '[' - (code.take position).count ']'

/-- As many opening brackets as closing ones. -/
def IsBalanced (text : List Char) : Prop := text.count '[' = text.count ']'

variable {code : List Char} {first behind position start stop : Nat}

@[simp] theorem depth_zero (code : List Char) : depth code 0 = 0 := by
  simp [depth]

/-- The depth goes up at an opening bracket, down at a closing one, and stays elsewhere. -/
theorem depth_succ_cases (code : List Char) (position : Nat) :
    (code[position]? = some '[' ∧ depth code (position + 1) = depth code position + 1) ∨
      (code[position]? = some ']' ∧ depth code (position + 1) = depth code position - 1) ∨
      (code[position]? ≠ some '[' ∧ code[position]? ≠ some ']' ∧
        depth code (position + 1) = depth code position) := by
  have hone : depth code (position + 1) = depth code position +
      (code[position]?.toList.count '[' - code[position]?.toList.count ']') := by
    simp only [depth, List.take_add_one, List.count_append, Int.natCast_add]
    omega
  rw [hone]
  cases code[position]? with
  | none => exact .inr (.inr ⟨nofun, nofun, by simp⟩)
  | some character =>
    by_cases hopen : character = '['
    · exact .inl ⟨congrArg some hopen, by simp [hopen]⟩
    · by_cases hclose : character = ']'
      · exact .inr (.inl ⟨congrArg some hclose, by simp [hclose]; omega⟩)
      · exact .inr (.inr ⟨by simpa using hopen, by simpa using hclose, by simp [hopen, hclose]⟩)

theorem depth_succ_of_open (hopen : code[position]? = some '[') :
    depth code (position + 1) = depth code position + 1 := by
  rcases depth_succ_cases code position with ⟨-, hup⟩ | ⟨hclose, -⟩ | ⟨hplain, -⟩
  · exact hup
  · simp [hopen] at hclose
  · exact absurd hopen hplain

theorem depth_succ_of_close (hclose : code[position]? = some ']') :
    depth code (position + 1) = depth code position - 1 := by
  rcases depth_succ_cases code position with ⟨hopen, -⟩ | ⟨-, hdown⟩ | ⟨-, hplain, -⟩
  · simp [hclose] at hopen
  · exact hdown
  · exact absurd hclose hplain

/-- A level that the depth is never at is on the same side of it everywhere. -/
theorem lt_depth_iff_of_ne {level : Int} (hle : first ≤ behind)
    (hne : ∀ position, first ≤ position → position ≤ behind → depth code position ≠ level) :
    level < depth code first ↔ level < depth code behind := by
  induction behind, hle using Nat.le_induction with
  | base => exact Iff.rfl
  | succ behind hle ih =>
    rw [ih fun position hfirst hlast ↦ hne position hfirst (by omega)]
    -- Neither end of the step is at the level, and a step of one cannot pass over it.
    have hbefore := hne behind hle (by omega)
    have hafter := hne (behind + 1) (by omega) (Nat.le_refl _)
    rcases depth_succ_cases code behind with ⟨-, hstep⟩ | ⟨-, hstep⟩ | ⟨-, -, hstep⟩ <;> omega

/-- A depth that is not above a level, after one that is, has been at the level. -/
theorem exists_depth_eq {level : Int} (hle : first ≤ behind)
    (hsides : ¬ (level < depth code first ↔ level < depth code behind)) :
    ∃ position, first ≤ position ∧ position ≤ behind ∧ depth code position = level := by
  by_contra hnone
  exact hsides (lt_depth_iff_of_ne hle fun position hfirst hlast hlevel ↦
    hnone ⟨position, hfirst, hlast, hlevel⟩)

/-- What a part of a text adds to the depth is counted in the part. -/
theorem depth_extract (hinside : first + position ≤ behind) :
    depth (code.extract first behind) position = depth code (first + position) -
      depth code first := by
  have hprefix : (code.extract first behind).take position = (code.drop first).take position := by
    rw [List.extract_eq_take_drop, List.take_take, Nat.min_eq_left (by omega)]
  simp only [depth, hprefix, List.take_add, List.count_append, Int.natCast_add]
  omega

theorem isBalanced_extract_iff (hle : first ≤ behind) :
    IsBalanced (code.extract first behind) ↔ depth code behind = depth code first := by
  obtain ⟨length, rfl⟩ : ∃ length, behind = first + length := ⟨behind - first, by omega⟩
  have hwhole : (code.extract first (first + length)).take length =
      code.extract first (first + length) := by
    rw [List.extract_eq_take_drop, List.take_take, Nat.min_eq_right (by omega)]
  have hdepth : depth (code.extract first (first + length)) length =
      depth code (first + length) - depth code first := depth_extract (Nat.le_refl _)
  rw [depth, hwhole] at hdepth
  rw [IsBalanced]
  omega

/-! ### Loops -/

/-- A loop from one position to another: behind it the depth is what it was before, and within it
the depth is greater. -/
structure IsLoop (code : List Char) (start stop : Nat) : Prop where
  start_lt : start < stop
  stop_lt : stop < code.length
  level : depth code (stop + 1) = depth code start
  above : ∀ position, start < position → position ≤ stop → depth code start < depth code position

namespace IsLoop

theorem opening (hloop : IsLoop code start stop) : code[start]? = some '[' := by
  have habove := hloop.above (start + 1) (Nat.lt_succ_self start) hloop.start_lt
  rcases depth_succ_cases code start with ⟨hopen, -⟩ | ⟨-, hdown⟩ | ⟨-, -, hlevel⟩
  · exact hopen
  · omega
  · omega

theorem closing (hloop : IsLoop code start stop) : code[stop]? = some ']' := by
  have habove := hloop.above stop hloop.start_lt (Nat.le_refl stop)
  have hlevel := hloop.level
  rcases depth_succ_cases code stop with ⟨-, hup⟩ | ⟨hclose, -⟩ | ⟨-, -, hsame⟩
  · omega
  · exact hclose
  · omega

/-- Loops do not cross: one that starts within another one ends within it. -/
theorem stop_lt_of_start_lt {inner other : Nat} (hloop : IsLoop code start stop)
    (hinner : IsLoop code inner other) (hlow : start < inner) (hhigh : inner < stop) :
    other < stop := by
  by_contra hcrosses
  have habove := hloop.above inner hlow (Nat.le_of_lt hhigh)
  have hlevel := hloop.level
  rcases Nat.eq_or_lt_of_le (Nat.not_lt.mp hcrosses) with rfl | hbeyond
  · have hback := hinner.level
    omega
  · have hstill := hinner.above (stop + 1) (by omega) hbeyond
    omega

theorem stop_unique {other : Nat} (hloop : IsLoop code start stop)
    (hother : IsLoop code start other) : other = stop := by
  have hnot {first second : Nat} (hfirst : IsLoop code start first)
      (hsecond : IsLoop code start second) : ¬ first < second := fun hlt ↦ by
    have habove := hsecond.above (first + 1) (Nat.lt_succ_of_lt hfirst.start_lt) hlt
    have hlevel := hfirst.level
    omega
  exact Nat.le_antisymm (Nat.not_lt.mp (hnot hloop hother)) (Nat.not_lt.mp (hnot hother hloop))

theorem start_unique {other : Nat} (hloop : IsLoop code start stop)
    (hother : IsLoop code other stop) : other = start := by
  have hnot {first second : Nat} (hfirst : IsLoop code first stop)
      (hsecond : IsLoop code second stop) : ¬ first < second := fun hlt ↦ by
    have habove := hfirst.above second hlt (Nat.le_of_lt hsecond.start_lt)
    have hfirstLevel := hfirst.level
    have hsecondLevel := hsecond.level
    omega
  exact Nat.le_antisymm (Nat.not_lt.mp (hnot hloop hother)) (Nat.not_lt.mp (hnot hother hloop))

end IsLoop

/-- The positions behind one up to which the brackets come out even. -/
def evenStops (code : List Char) (start : Nat) : Set Nat :=
  {stop | start < stop ∧ stop < code.length ∧ IsBalanced (code.extract start (stop + 1))}

/-- The positions before one from which on the brackets come out even. -/
def evenStarts (code : List Char) (stop : Nat) : Set Nat :=
  {start | start < stop ∧ IsBalanced (code.extract start (stop + 1))}

/-- The loop that an opening bracket starts ends at the first position up to which the brackets come
out even. -/
theorem isLoop_iff_isLeast (hopen : code[start]? = some '[') :
    IsLoop code start stop ↔ IsLeast (evenStops code start) stop := by
  have hup := depth_succ_of_open hopen
  constructor
  · intro hloop
    have heven := (isBalanced_extract_iff (by have := hloop.start_lt; omega)).mpr hloop.level
    refine ⟨⟨hloop.start_lt, hloop.stop_lt, heven⟩, ?_⟩
    rintro other ⟨hbehind, -, hother⟩
    by_contra hearlier
    have habove := hloop.above (other + 1) (by omega) (by omega)
    rw [isBalanced_extract_iff (by omega)] at hother
    omega
  · rintro ⟨⟨hbehind, hinside, heven⟩, hleast⟩
    rw [isBalanced_extract_iff (by omega)] at heven
    refine ⟨hbehind, hinside, heven, fun position hlow hhigh ↦ ?_⟩
    have hbegin : start + 1 ≤ position := hlow
    refine (lt_depth_iff_of_ne hbegin fun between hafter hbefore hlevel ↦ ?_).mp (by omega)
    obtain ⟨other, rfl⟩ : ∃ other, between = other + 1 := ⟨between - 1, by omega⟩
    by_cases hfirst : other = start
    · rw [hfirst] at hlevel
      omega
    · have hother : stop ≤ other :=
        hleast ⟨by omega, by omega, (isBalanced_extract_iff (by omega)).mpr hlevel⟩
      omega

/-- The loop that a closing bracket ends starts at the last position from which on the brackets come
out even. -/
theorem isLoop_iff_isGreatest (hclose : code[stop]? = some ']') :
    IsLoop code start stop ↔ IsGreatest (evenStarts code stop) start := by
  have hdown := depth_succ_of_close hclose
  constructor
  · intro hloop
    have heven := (isBalanced_extract_iff (by have := hloop.start_lt; omega)).mpr hloop.level
    refine ⟨⟨hloop.start_lt, heven⟩, ?_⟩
    rintro other ⟨hbefore, hother⟩
    by_contra hlater
    have habove := hloop.above other (by omega) (by omega)
    rw [isBalanced_extract_iff (by omega)] at hother
    have hlevel := hloop.level
    omega
  · rintro ⟨⟨hbefore, heven⟩, hgreatest⟩
    rw [isBalanced_extract_iff (by omega)] at heven
    have hinside := (List.getElem?_eq_some_iff.mp hclose).1
    refine ⟨hbefore, hinside, heven, fun position hlow hhigh ↦ ?_⟩
    refine (lt_depth_iff_of_ne hhigh fun between hafter hlast hlevel ↦ ?_).mpr (by omega)
    by_cases hend : between = stop
    · rw [hend] at hlevel
      omega
    · have hother : between ≤ start :=
        hgreatest ⟨by omega, (isBalanced_extract_iff (by omega)).mpr (by omega)⟩
      omega

/-- An opening bracket starts a loop if the brackets ever come out even behind it. -/
theorem exists_isLoop_iff_of_open (hopen : code[start]? = some '[') :
    (∃ stop, IsLoop code start stop) ↔ (evenStops code start).Nonempty := by
  classical
  constructor
  · rintro ⟨stop, hloop⟩
    exact ⟨stop, ((isLoop_iff_isLeast hopen).mp hloop).1⟩
  · rintro ⟨stop, heven⟩
    have hfirst : ∃ stop, stop ∈ evenStops code start := ⟨stop, heven⟩
    exact ⟨_, (isLoop_iff_isLeast hopen).mpr (Nat.isLeast_find hfirst)⟩

/-- A closing bracket ends a loop if the brackets ever come out even before it. -/
theorem exists_isLoop_iff_of_close (hclose : code[stop]? = some ']') :
    (∃ start, IsLoop code start stop) ↔ (evenStarts code stop).Nonempty := by
  classical
  constructor
  · rintro ⟨start, hloop⟩
    exact ⟨start, ((isLoop_iff_isGreatest hclose).mp hloop).1⟩
  · rintro ⟨start, heven⟩
    have hlast := Nat.findGreatest_spec (P := (· ∈ evenStarts code stop))
      (Nat.le_of_lt heven.1) heven
    refine ⟨_, (isLoop_iff_isGreatest hclose).mpr ⟨hlast, fun other hother ↦ ?_⟩⟩
    exact Nat.le_findGreatest (Nat.le_of_lt hother.1) hother

/-- An opening bracket starts a loop if the depth at the end of the text is no greater than before
it. -/
theorem exists_isLoop_of_open (hopen : code[start]? = some '[')
    (hend : depth code code.length ≤ depth code start) : ∃ stop, IsLoop code start stop := by
  have hup := depth_succ_of_open hopen
  have hinside := (List.getElem?_eq_some_iff.mp hopen).1
  obtain ⟨back, hfirst, hlast, hback⟩ : ∃ back, start + 1 ≤ back ∧ back ≤ code.length ∧
      depth code back = depth code start := exists_depth_eq hinside (by omega)
  obtain ⟨stop, rfl⟩ : ∃ stop, back = stop + 1 := ⟨back - 1, by omega⟩
  have hother : stop ≠ start := by
    rintro rfl
    omega
  have heven := (isBalanced_extract_iff (by omega)).mpr hback
  exact (exists_isLoop_iff_of_open hopen).mpr ⟨stop, by omega, by omega, heven⟩

/-- A closing bracket ends a loop if the depth after it is not below the start of the text. -/
theorem exists_isLoop_of_close (hclose : code[stop]? = some ']')
    (hlow : 0 ≤ depth code (stop + 1)) : ∃ start, IsLoop code start stop := by
  have hdown := depth_succ_of_close hclose
  have hzero := depth_zero code
  obtain ⟨start, -, hlast, hstart⟩ : ∃ start, 0 ≤ start ∧ start ≤ stop ∧
      depth code start = depth code (stop + 1) := exists_depth_eq (Nat.zero_le stop) (by omega)
  have hother : start ≠ stop := by
    rintro rfl
    omega
  have heven := (isBalanced_extract_iff (by omega)).mpr hstart.symm
  exact (exists_isLoop_iff_of_close hclose).mpr ⟨start, by omega, heven⟩

/-! ### The pass -/

/-- The brackets that are open in a text read up to a position, the innermost first. The depth has
been above each of them since, is one above the innermost, and has never been lower than now if
there is none. -/
def Waits (code : List Char) : Nat → List Nat → Prop
  | position, [] => ∀ earlier ≤ position, depth code position ≤ depth code earlier
  | position, start :: outer =>
    start < position ∧ depth code position = depth code start + 1 ∧
      (∀ between, start < between → between ≤ position →
        depth code start < depth code between) ∧ Waits code start outer

/-- The same brackets are open at a later position of the same depth, if the depth has not been
lower on the way. -/
theorem Waits.later {opened : List Nat} {later : Nat} (hwaits : Waits code position opened)
    (hle : position ≤ later) (hlevel : depth code later = depth code position)
    (hnever : ∀ between, position < between → between ≤ later →
      depth code position ≤ depth code between) : Waits code later opened := by
  cases opened with
  | nil =>
    intro earlier hearlier
    rcases Nat.lt_or_ge position earlier with hafter | hbefore
    · exact hlevel ▸ hnever earlier hafter hearlier
    · exact hlevel ▸ hwaits earlier hbefore
  | cons start outer =>
    obtain ⟨hstart, hone, habove, houter⟩ := hwaits
    refine ⟨by omega, hlevel.trans hone, fun between hlow hhigh ↦ ?_, houter⟩
    rcases Nat.lt_or_ge position between with hafter | hbefore
    · have hbetween := hnever between hafter hhigh
      omega
    · exact habove between hlow hbefore

/-- The two brackets of a loop, both before a position. -/
def Partners (code : List Char) (position place partner : Nat) : Prop :=
  place < position ∧ partner < position ∧ (IsLoop code place partner ∨ IsLoop code partner place)

/-- Where no loop ends, no more brackets have a partner than before. -/
theorem partners_succ_iff (hnone : ∀ start, ¬ IsLoop code start position) (place partner : Nat) :
    Partners code (position + 1) place partner ↔ Partners code position place partner := by
  have hlower {first last : Nat} (hloop : IsLoop code first last) (hlast : last < position + 1) :
      last < position := by
    refine Nat.lt_of_le_of_ne (Nat.le_of_lt_succ hlast) ?_
    rintro rfl
    exact hnone first hloop
  constructor
  · rintro ⟨hplace, hpartner, hloop | hloop⟩
    · have hbefore := hlower hloop hpartner
      exact ⟨Nat.lt_trans hloop.start_lt hbefore, hbefore, .inl hloop⟩
    · have hbefore := hlower hloop hplace
      exact ⟨hbefore, Nat.lt_trans hloop.start_lt hbefore, .inr hloop⟩
  · rintro ⟨hplace, hpartner, hloop⟩
    exact ⟨Nat.lt_succ_of_lt hplace, Nat.lt_succ_of_lt hpartner, hloop⟩

/-- Where a loop ends, its two brackets are partners besides. -/
theorem partners_succ_iff_of_isLoop (hloop : IsLoop code start position) (place partner : Nat) :
    Partners code (position + 1) place partner ↔ Partners code position place partner ∨
      (place = start ∧ partner = position) ∨ (place = position ∧ partner = start) := by
  have hstart := hloop.start_lt
  constructor
  · rintro ⟨hplace, hpartner, hfound | hfound⟩
    · rcases Nat.lt_or_eq_of_le (Nat.le_of_lt_succ hpartner) with hbefore | rfl
      · exact .inl ⟨Nat.lt_trans hfound.start_lt hbefore, hbefore, .inl hfound⟩
      · exact .inr (.inl ⟨hloop.start_unique hfound, rfl⟩)
    · rcases Nat.lt_or_eq_of_le (Nat.le_of_lt_succ hplace) with hbefore | rfl
      · exact .inl ⟨hbefore, Nat.lt_trans hfound.start_lt hbefore, .inr hfound⟩
      · exact .inr (.inr ⟨rfl, hloop.start_unique hfound⟩)
  · rintro (⟨hplace, hpartner, hfound⟩ | ⟨rfl, rfl⟩ | ⟨rfl, rfl⟩)
    · exact ⟨Nat.lt_succ_of_lt hplace, Nat.lt_succ_of_lt hpartner, hfound⟩
    · exact ⟨Nat.lt_succ_of_lt hstart, Nat.lt_succ_self _, .inl hloop⟩
    · exact ⟨Nat.lt_succ_self _, Nat.lt_succ_of_lt hstart, .inr hloop⟩

/-- What the pass knows of a text that it has read up to a position: which brackets are open, which
are partners, and which characters are no brackets. -/
structure Scanned (code : List Char) (position : Nat) (scan : BracketScan) : Prop where
  size_eq : scan.marks.size = position
  waits : Waits code position scan.opened
  partner_iff : ∀ place partner, scan.marks[place]? = some (.partner partner) ↔
    Partners code position place partner
  plain_iff : ∀ place, scan.marks[place]? = some .plain ↔
    place < position ∧ ∃ character, code[place]? = some character ∧ ¬ IsBracket character

namespace Scanned

variable {scan : BracketScan} {opened : List Nat} {mark : Mark}

/-- Where no loop ends, the next mark names no partner. -/
theorem pushed (hscanned : Scanned code position scan)
    (hnone : ∀ start, ¬ IsLoop code start position) (hpartner : ∀ partner, mark ≠ .partner partner)
    (hplain : mark = .plain ↔ ∃ character, code[position]? = some character ∧ ¬ IsBracket character)
    (hwaits : Waits code (position + 1) opened) :
    Scanned code (position + 1) ⟨opened, scan.marks.push mark⟩ where
  size_eq := by simp [hscanned.size_eq]
  waits := hwaits
  partner_iff := by
    intro place partner
    rw [partners_succ_iff hnone, ← hscanned.partner_iff, Array.getElem?_push]
    split
    · next hend =>
      rw [hend, Array.getElem?_eq_none (Nat.le_refl _)]
      simpa using hpartner partner
    · exact Iff.rfl
  plain_iff := by
    intro place
    rw [Array.getElem?_push, hscanned.size_eq]
    split
    · next hend =>
      rw [hend, Option.some.injEq, hplain]
      exact (and_iff_right (Nat.lt_succ_self position)).symm
    · next hother =>
      rw [hscanned.plain_iff, Nat.lt_succ_iff_lt_or_eq, or_iff_left hother]

/-- The innermost open bracket starts the loop that a closing bracket ends. -/
theorem isLoop_of_waits {outer : List Nat} (hwaits : Waits code position (start :: outer))
    (hclose : code[position]? = some ']') : IsLoop code start position := by
  obtain ⟨hstart, hone, habove, -⟩ := hwaits
  have hdown := depth_succ_of_close hclose
  exact ⟨hstart, (List.getElem?_eq_some_iff.mp hclose).1, by omega, habove⟩

/-- The innermost open bracket and the closing one get each other as partners. -/
theorem paired {outer : List Nat} (hscanned : Scanned code position scan)
    (hopened : scan.opened = start :: outer) (hclose : code[position]? = some ']') :
    Scanned code (position + 1)
      ⟨outer, (scan.marks.setIfInBounds start (.partner position)).push (.partner start)⟩ := by
  have hwaits := hscanned.waits
  rw [hopened] at hwaits
  have hloop := isLoop_of_waits hwaits hclose
  obtain ⟨hstart, hone, habove, houter⟩ := hwaits
  have hdown := depth_succ_of_close hclose
  have hmark (place : Nat) :
      ((scan.marks.setIfInBounds start (.partner position)).push (.partner start))[place]? =
        if place = position then some (.partner start)
        else if place = start then some (.partner position) else scan.marks[place]? := by
    rw [Array.getElem?_push, Array.size_setIfInBounds, hscanned.size_eq,
      Array.getElem?_setIfInBounds]
    split
    · rfl
    · simp only [hscanned.size_eq, if_pos hstart, eq_comm]
  refine ⟨by simp [hscanned.size_eq], ?_, fun place partner ↦ ?_, fun place ↦ ?_⟩
  · refine houter.later (by omega) hloop.level fun between hlow hhigh ↦ ?_
    rcases Nat.eq_or_lt_of_le hhigh with rfl | hbefore
    · exact Int.le_of_eq hloop.level.symm
    · exact Int.le_of_lt (habove between hlow (Nat.le_of_lt_succ hbefore))
  · rw [partners_succ_iff_of_isLoop hloop, ← hscanned.partner_iff, hmark]
    have hlast : scan.marks[position]? = none :=
      Array.getElem?_eq_none (Nat.le_of_eq hscanned.size_eq)
    -- The opening bracket cannot have a partner yet, as its only loop ends here.
    have hfirst : ¬ scan.marks[start]? = some (.partner partner) := by
      rw [hscanned.partner_iff]
      rintro ⟨-, hpartner, hfound | hfound⟩
      · exact Nat.ne_of_lt hpartner (hloop.stop_unique hfound)
      · have hother := hfound.closing
        simp [hloop.opening] at hother
    by_cases hend : place = position
    · simp [hend, hlast, Nat.ne_of_gt hstart, eq_comm]
    · by_cases hbegin : place = start
      · simp [hbegin, hfirst, Nat.ne_of_lt hstart, eq_comm]
      · simp [hend, hbegin]
  · rw [hmark]
    by_cases hend : place = position
    · simp [hend, hclose]
    · by_cases hbegin : place = start
      · simp [hbegin, hloop.opening, Nat.ne_of_lt hstart]
      · simp only [if_neg hend, if_neg hbegin, hscanned.plain_iff, Nat.lt_succ_iff_lt_or_eq,
          or_iff_left hend]

/-- The pass over one more character. -/
theorem read (hscanned : Scanned code position scan) {character : Char}
    (hfound : code[position]? = some character) :
    Scanned code (position + 1) (scan.read character) := by
  have hunended (hother : character ≠ ']') (start : Nat) : ¬ IsLoop code start position := by
    intro hloop
    exact hother (Option.some.inj (hfound.symm.trans hloop.closing))
  by_cases hopen : character = '['
  · subst hopen
    have hup := depth_succ_of_open hfound
    rw [BracketScan.read_open, hscanned.size_eq]
    refine hscanned.pushed (hunended (by decide)) nofun (by simp [hfound]) ?_
    refine ⟨Nat.lt_succ_self position, hup, fun between hlow hhigh ↦ ?_, hscanned.waits⟩
    obtain rfl : between = position + 1 := Nat.le_antisymm hhigh hlow
    omega
  by_cases hclose : character = ']'
  · subst hclose
    have hdown := depth_succ_of_close hfound
    cases hopened : scan.opened with
    | nil =>
      have hlowest := hscanned.waits
      rw [hopened] at hlowest
      rw [BracketScan.read_close_of_nil scan hopened]
      refine hscanned.pushed (fun start hloop ↦ ?_) nofun (by simp [hfound])
        fun earlier hearlier ↦ ?_
      · have hlow := hlowest start (Nat.le_of_lt hloop.start_lt)
        have hlevel := hloop.level
        omega
      · rcases Nat.eq_or_lt_of_le hearlier with rfl | hbefore
        · exact Int.le_refl _
        · have hlow := hlowest earlier (Nat.le_of_lt_succ hbefore)
          omega
    | cons start outer =>
      rw [BracketScan.read_close_of_cons scan hopened, hscanned.size_eq]
      exact hscanned.paired hopened hfound
  · have hplain : ¬ IsBracket character := not_or.mpr ⟨hopen, hclose⟩
    have hsame : depth code (position + 1) = depth code position := by
      rcases depth_succ_cases code position with ⟨hfirst, -⟩ | ⟨hlast, -⟩ | ⟨-, -, hsame⟩
      · exact absurd (Option.some.inj (hfound.symm.trans hfirst)) hopen
      · exact absurd (Option.some.inj (hfound.symm.trans hlast)) hclose
      · exact hsame
    rw [BracketScan.read_plain scan hplain]
    refine hscanned.pushed (hunended hclose) nofun (by simpa [hfound] using hplain) ?_
    refine hscanned.waits.later (Nat.le_succ position) hsame fun between hlow hhigh ↦ ?_
    obtain rfl : between = position + 1 := Nat.le_antisymm hhigh hlow
    exact Int.le_of_eq hsame.symm

end Scanned

/-- The pass over a text as a whole. -/
theorem scanned_foldl_read (code : List Char) :
    Scanned code code.length (code.foldl BracketScan.read .empty) := by
  have hprefix (position : Nat) (hinside : position ≤ code.length) :
      Scanned code position ((code.take position).foldl BracketScan.read .empty) := by
    -- By how much has been read, and not by the text: the depth counts from its start.
    induction position with
    | zero =>
      refine ⟨rfl, fun earlier hearlier ↦ ?_, fun place partner ↦ ?_, fun place ↦ ?_⟩
      · obtain rfl := Nat.le_zero.mp hearlier
        exact Int.le_refl _
      · simp [BracketScan.empty, Partners]
      · simp [BracketScan.empty]
    | succ position ih =>
      have hfound := List.getElem?_eq_getElem hinside
      rw [List.take_add_one, hfound, List.foldl_append]
      exact (ih (Nat.le_of_succ_le hinside)).read hfound
  simpa using hprefix code.length (Nat.le_refl _)

/-! ### The table -/

theorem getElem?_bracketMarks_eq_partner_iff (code : List Char) (place partner : Nat) :
    (bracketMarks code)[place]? = some (.partner partner) ↔
      IsLoop code place partner ∨ IsLoop code partner place := by
  rw [bracketMarks, (scanned_foldl_read code).partner_iff]
  refine ⟨fun hpartners ↦ hpartners.2.2, fun hloop ↦ ⟨?_, ?_, hloop⟩⟩
  · rcases hloop with hloop | hloop
    · exact Nat.lt_trans hloop.start_lt hloop.stop_lt
    · exact hloop.stop_lt
  · rcases hloop with hloop | hloop
    · exact hloop.stop_lt
    · exact Nat.lt_trans hloop.start_lt hloop.stop_lt

theorem getElem?_bracketMarks_eq_plain_iff (code : List Char) (place : Nat) :
    (bracketMarks code)[place]? = some .plain ↔
      ∃ character, code[place]? = some character ∧ ¬ IsBracket character := by
  rw [bracketMarks, (scanned_foldl_read code).plain_iff]
  refine and_iff_right_of_imp ?_
  rintro ⟨character, hfound, -⟩
  exact (List.getElem?_eq_some_iff.mp hfound).1

theorem getElem?_bracketMarks_eq_unmatched_iff (code : List Char) (place : Nat) :
    (bracketMarks code)[place]? = some .unmatched ↔
      (∃ bracket, code[place]? = some bracket ∧ IsBracket bracket) ∧
        ∀ partner, ¬ (IsLoop code place partner ∨ IsLoop code partner place) := by
  constructor
  · intro hmark
    have hinside := (Array.getElem?_eq_some_iff.mp hmark).1
    rw [size_bracketMarks] at hinside
    have hfound := List.getElem?_eq_getElem hinside
    refine ⟨⟨_, hfound, ?_⟩, fun partner hloop ↦ ?_⟩
    · by_contra hplain
      have hother := (getElem?_bracketMarks_eq_plain_iff code place).mpr ⟨_, hfound, hplain⟩
      cases hmark.symm.trans hother
    · have hother := (getElem?_bracketMarks_eq_partner_iff code place partner).mpr hloop
      cases hmark.symm.trans hother
  · rintro ⟨⟨bracket, hfound, hbracket⟩, halone⟩
    have hinside : place < (bracketMarks code).size := by
      rw [size_bracketMarks]
      exact (List.getElem?_eq_some_iff.mp hfound).1
    have hmark := Array.getElem?_eq_getElem hinside
    cases hkind : (bracketMarks code)[place] with
    | unmatched => rw [hmark, hkind]
    | partner partner =>
      rw [hkind, getElem?_bracketMarks_eq_partner_iff] at hmark
      exact absurd hmark (halone partner)
    | plain =>
      rw [hkind, getElem?_bracketMarks_eq_plain_iff] at hmark
      obtain ⟨character, hsame, hplain⟩ := hmark
      exact absurd (Option.some.inj (hfound.symm.trans hsame) ▸ hbracket) hplain

theorem mem_partnerPairs_iff (marks : Array Mark) (place partner : Nat) :
    (place, partner) ∈ partnerPairs marks ↔ marks[place]? = some (.partner partner) := by
  simp only [partnerPairs, List.mem_filterMap, Prod.exists]
  constructor
  · rintro ⟨mark, index, hmem, hfound⟩
    have hget := List.mem_zipIdx_iff_getElem?.mp hmem
    cases mark <;> simp_all
  · intro hget
    exact ⟨.partner partner, place, List.mem_zipIdx_iff_getElem?.mpr (by simpa using hget), rfl⟩

/-- The pairs of the table are the loops, each of them both ways. -/
theorem mem_pairs_iff (code : List Char) (place partner : Nat) :
    (place, partner) ∈ partnerPairs (bracketMarks code) ↔
      IsLoop code place partner ∨ IsLoop code partner place := by
  rw [mem_partnerPairs_iff, getElem?_bracketMarks_eq_partner_iff]

theorem mem_pairs_iff_of_open (hopen : code[start]? = some '[') :
    (start, stop) ∈ partnerPairs (bracketMarks code) ↔ IsLoop code start stop := by
  rw [mem_pairs_iff]
  refine or_iff_left fun hloop ↦ ?_
  have hclose := hloop.closing
  simp [hopen] at hclose

theorem mem_pairs_iff_of_close (hclose : code[stop]? = some ']') :
    (stop, start) ∈ partnerPairs (bracketMarks code) ↔ IsLoop code start stop := by
  rw [mem_pairs_iff]
  refine or_iff_right fun hloop ↦ ?_
  have hopen := hloop.opening
  simp [hclose] at hopen

theorem isLoop_of_mem_pairs (hpair : (start, stop) ∈ partnerPairs (bracketMarks code))
    (hlt : start < stop) : IsLoop code start stop :=
  ((mem_pairs_iff code start stop).mp hpair).resolve_right fun hback ↦
    Nat.lt_asymm hlt hback.start_lt

/-! ### Matching -/

/-- A text of which no beginning has more closing brackets than opening ones, and which has as many
of both as a whole, is the text of a program. -/
theorem exists_program_of_depth (hlow : ∀ position ≤ code.length, 0 ≤ depth code position)
    (hend : depth code code.length = 0) : ∃ program : Program, program.text = code := by
  rw [← unmatchedPositions_eq_nil_iff, List.eq_nil_iff_forall_not_mem]
  intro position hmem
  rw [mem_unmatchedPositions_iff, getElem?_bracketMarks_eq_unmatched_iff] at hmem
  obtain ⟨⟨bracket, hfound, hbracket⟩, halone⟩ := hmem
  have hinside := (List.getElem?_eq_some_iff.mp hfound).1
  rcases hbracket with rfl | rfl
  · have hhere := hlow position (Nat.le_of_lt hinside)
    obtain ⟨stop, hloop⟩ := exists_isLoop_of_open hfound (hend ▸ hhere)
    exact halone stop (.inl hloop)
  · obtain ⟨start, hloop⟩ := exists_isLoop_of_close hfound (hlow (position + 1) hinside)
    exact halone start (.inr hloop)

/-- What stands within a loop is the text of a program. -/
theorem IsLoop.exists_program (hloop : IsLoop code start stop) :
    ∃ program : Program, program.text = code.extract (start + 1) stop := by
  have hup := depth_succ_of_open hloop.opening
  have hdown := depth_succ_of_close hloop.closing
  have hafter := hloop.start_lt
  have hinside := hloop.stop_lt
  have hlength : (code.extract (start + 1) stop).length = stop - (start + 1) := by
    simp only [List.extract_eq_take_drop, List.length_take, List.length_drop]
    omega
  apply exists_program_of_depth
  · intro position hposition
    have habove := hloop.above (start + 1 + position) (by omega) (by omega)
    rw [depth_extract (by omega)]
    omega
  · have hlevel := hloop.level
    rw [hlength, depth_extract (by omega), show start + 1 + (stop - (start + 1)) = stop by omega]
    omega

/-- A table of pairs of positions and a list of positions left over match the brackets of a text by
counting: what is first even from an opening bracket on, or last even up to a closing one, is a
pair, and the other brackets are left over. Pairs go both ways, enclose programs and do not
cross. -/
structure MatchesByCounting (code : List Char) (table : List (Nat × Nat)) (leftover : List Nat) :
    Prop where
  opening : ∀ start, code[start]? = some '[' →
    ((∃ stop, (start, stop) ∈ table) ↔ (evenStops code start).Nonempty) ∧
      ∀ stop, (start, stop) ∈ table ↔ IsLeast (evenStops code start) stop
  closing : ∀ stop, code[stop]? = some ']' →
    ((∃ start, (stop, start) ∈ table) ↔ (evenStarts code stop).Nonempty) ∧
      ∀ start, (stop, start) ∈ table ↔ IsGreatest (evenStarts code stop) start
  leftover : ∀ position, position ∈ leftover ↔
    (∃ bracket, code[position]? = some bracket ∧ IsBracket bracket) ∧
      ∀ partner, (position, partner) ∉ table
  ends : ∀ place partner, (place, partner) ∈ table →
    (place < partner ∧ code[place]? = some '[' ∧ code[partner]? = some ']') ∨
      (partner < place ∧ code[place]? = some ']' ∧ code[partner]? = some '[')
  unique : ∀ place partner other, (place, partner) ∈ table → (place, other) ∈ table →
    other = partner
  symm : ∀ place partner, (place, partner) ∈ table → (partner, place) ∈ table
  enclosed : ∀ start stop, (start, stop) ∈ table → start < stop →
    IsBalanced (code.extract (start + 1) stop) ∧
      ∃ program : Program, program.text = code.extract (start + 1) stop
  apart : ∀ start stop inner other, (start, stop) ∈ table → (inner, other) ∈ table →
    start < inner → inner < stop → inner < other → other < stop

/-- The table of a text and the brackets without a partner in it match its brackets by counting. -/
theorem matches_bracketMarks (code : List Char) :
    MatchesByCounting code (partnerPairs (bracketMarks code))
      (unmatchedPositions (bracketMarks code)) := by
  refine
    { opening := fun start hopen ↦ ⟨?_, fun stop ↦ ?_⟩
      closing := fun stop hclose ↦ ⟨?_, fun start ↦ ?_⟩
      leftover := fun position ↦ ?_
      ends := fun place partner hpair ↦ ?_
      unique := fun place partner other hpair hother ↦ ?_
      symm := fun place partner hpair ↦ ?_
      enclosed := fun start stop hpair hlt ↦ ?_
      apart := fun start stop inner other hpair hinner hlow hhigh hlt ↦ ?_ }
  · simp only [mem_pairs_iff_of_open hopen]
    exact exists_isLoop_iff_of_open hopen
  · rw [mem_pairs_iff_of_open hopen, isLoop_iff_isLeast hopen]
  · simp only [mem_pairs_iff_of_close hclose]
    exact exists_isLoop_iff_of_close hclose
  · rw [mem_pairs_iff_of_close hclose, isLoop_iff_isGreatest hclose]
  · simp only [mem_unmatchedPositions_iff, getElem?_bracketMarks_eq_unmatched_iff,
      mem_pairs_iff]
  · rcases (mem_pairs_iff _ _ _).mp hpair with hloop | hloop
    · exact .inl ⟨hloop.start_lt, hloop.opening, hloop.closing⟩
    · exact .inr ⟨hloop.start_lt, hloop.closing, hloop.opening⟩
  · rw [mem_partnerPairs_iff] at hpair hother
    exact Mark.partner.inj (Option.some.inj (hother.symm.trans hpair))
  · exact (mem_pairs_iff _ _ _).mpr ((mem_pairs_iff _ _ _).mp hpair).symm
  · have hloop := isLoop_of_mem_pairs hpair hlt
    have hup := depth_succ_of_open hloop.opening
    have hdown := depth_succ_of_close hloop.closing
    have hlevel := hloop.level
    have hsame : depth code stop = depth code (start + 1) := by omega
    exact ⟨(isBalanced_extract_iff hlt).mpr hsame, hloop.exists_program⟩
  · have houter := isLoop_of_mem_pairs hpair (Nat.lt_trans hlow hhigh)
    exact houter.stop_lt_of_start_lt (isLoop_of_mem_pairs hinner hlt) hlow hhigh

example : partnerPairs (bracketMarks "][[.]".toList) = [(2, 4), (4, 2)] ∧
    unmatchedPositions (bracketMarks "][[.]".toList) = [0, 1] := by decide

end TapeRunner
