import TapeRunner.Proofs.Machine.Depth
import TapeRunner.Proofs.Machine.Simulation
import TapeRunner.Proofs.Machine.Soundness

/-!
# Comments

A comment takes a step and does nothing else. The text without its comments therefore does what the
text does, with fewer steps (`Rig.halts_iff_withoutComments`).

A position of the text corresponds to the number of characters before it that are no comments
(`rank`). The two texts have the same depth at corresponding positions (`depth_withoutComments`), so
their loops correspond (`isLoop_withoutComments_iff`) and with them their bracket tables. A step at
a comment is answered by no step at all (`Store.step_onText_of_comment`), every other step by one
step to the corresponding position (`Store.corresponds_of_instruction`).
-/

set_option autoImplicit false
set_option relaxedAutoImplicit false

namespace TapeRunner

/-! ### Positions without comments -/

/-- The characters that are no comments. -/
def instructionCharacters : List Char := ['>', '<', '+', '-', '.', ',', '[', ']']

/-- A text with every comment removed. -/
def withoutComments (code : List Char) : List Char :=
  code.filter fun character ↦ character ∈ instructionCharacters

/-- Where the character at a position of a text is in the text without its comments: behind as many
characters as come before it and are no comments. -/
def rank (code : List Char) (position : Nat) : Nat := (withoutComments (code.take position)).length

variable {code : List Char} {position start stop : Nat} {character : Char}

theorem ofChar?_eq_none_of_comment (hcomment : character ∉ instructionCharacters) :
    Command.ofChar? character = none := by
  unfold Command.ofChar?
  split
  all_goals first | rfl | exact absurd (by decide) hcomment

theorem mem_instructionCharacters_of_isBracket (hbracket : IsBracket character) :
    character ∈ instructionCharacters := by
  rcases hbracket with rfl | rfl <;> decide

@[simp] theorem rank_zero (code : List Char) : rank code 0 = 0 := by
  simp [rank, withoutComments]

theorem rank_succ (hfound : code[position]? = some character) :
    rank code (position + 1) =
      rank code position + if character ∈ instructionCharacters then 1 else 0 := by
  rw [rank, rank, List.take_add_one, hfound]
  simp only [withoutComments, List.filter_append, List.length_append, Option.toList_some,
    List.filter_cons, List.filter_nil, decide_eq_true_eq]
  split <;> rfl

theorem rank_succ_of_instruction (hfound : code[position]? = some character)
    (hkept : character ∈ instructionCharacters) :
    rank code (position + 1) = rank code position + 1 := by
  rw [rank_succ hfound, if_pos hkept]

theorem rank_mono (code : List Char) {position later : Nat} (hle : position ≤ later) :
    rank code position ≤ rank code later :=
  ((List.take_prefix_take_left hle).filter _).length_le

/-- Behind a character that is no comment the rank is greater. -/
theorem rank_lt (hfound : code[position]? = some character)
    (hkept : character ∈ instructionCharacters) {later : Nat} (hlt : position < later) :
    rank code position < rank code later := by
  have hnext := rank_succ_of_instruction hfound hkept
  have hlater := rank_mono code (show position + 1 ≤ later from hlt)
  omega

theorem rank_of_length_le (hend : code.length ≤ position) :
    rank code position = (withoutComments code).length := by
  rw [rank, List.take_of_length_le hend]

theorem rank_le (code : List Char) (position : Nat) :
    rank code position ≤ (withoutComments code).length :=
  ((List.take_prefix position code).filter _).length_le

/-- Up to corresponding positions the two texts differ in comments only. -/
theorem take_rank (code : List Char) (position : Nat) :
    (withoutComments code).take (rank code position) = withoutComments (code.take position) :=
  (List.prefix_iff_eq_take.mp ((List.take_prefix position code).filter _)).symm

/-- A character that is no comment is at the corresponding position of the other text. -/
theorem getElem?_rank (hfound : code[position]? = some character)
    (hkept : character ∈ instructionCharacters) :
    (withoutComments code)[rank code position]? = some character := by
  have hsplit : (withoutComments code).take (rank code position + 1) =
      (withoutComments code).take (rank code position) ++ [character] := by
    rw [← rank_succ_of_instruction hfound hkept, take_rank, take_rank, List.take_add_one, hfound]
    simp [withoutComments, List.filter_append, hkept]
  rw [List.take_add_one] at hsplit
  have hsame := List.append_cancel_left hsplit
  cases hrank : (withoutComments code)[rank code position]? with
  | none => simp [hrank] at hsame
  | some found => simpa [hrank] using hsame

/-- Every position of the other text corresponds to one of the text. -/
theorem exists_rank_eq {place : Nat} (hplace : place < (withoutComments code).length) :
    ∃ position character, code[position]? = some character ∧
      character ∈ instructionCharacters ∧ rank code position = place := by
  -- The first position of a greater rank is behind the one looked for.
  have hpassed : ∃ later, place < rank code later :=
    ⟨code.length, (rank_of_length_le (Nat.le_refl _)).symm ▸ hplace⟩
  obtain ⟨later, hlater, hleast⟩ := Nat.findX hpassed
  cases later with
  | zero => simp at hlater
  | succ position =>
    have hbefore := hleast position (Nat.lt_succ_self position)
    cases hfound : code[position]? with
    | none =>
      have hend := List.getElem?_eq_none_iff.mp hfound
      rw [rank_of_length_le (Nat.le_succ_of_le hend), ← rank_of_length_le hend] at hlater
      exact absurd hlater hbefore
    | some character =>
      rw [rank_succ hfound] at hlater
      by_cases hkept : character ∈ instructionCharacters
      · rw [if_pos hkept] at hlater
        exact ⟨position, character, hfound, hkept, by omega⟩
      · rw [if_neg hkept] at hlater
        exact absurd hlater hbefore

/-! ### Loops without comments -/

/-- Comments do not change the depth. -/
theorem depth_withoutComments (code : List Char) (position : Nat) :
    depth (withoutComments code) (rank code position) = depth code position := by
  have hcount {bracket : Char} (hkept : bracket ∈ instructionCharacters) (text : List Char) :
      (withoutComments text).count bracket = text.count bracket :=
    List.count_filter (decide_eq_true hkept)
  rw [depth, depth, take_rank, hcount (by decide), hcount (by decide)]

/-- The loops of the two texts correspond. -/
theorem isLoop_withoutComments_iff {first last : Char} (hstart : code[start]? = some first)
    (hfirst : first ∈ instructionCharacters) (hstop : code[stop]? = some last)
    (hlast : last ∈ instructionCharacters) :
    IsLoop (withoutComments code) (rank code start) (rank code stop) ↔ IsLoop code start stop := by
  have hbehind := rank_succ_of_instruction hstop hlast
  constructor
  · intro hloop
    have hinside := (List.getElem?_eq_some_iff.mp hstop).1
    refine ⟨?_, hinside, ?_, fun place hlow hhigh ↦ ?_⟩
    · by_contra hnot
      have hback := rank_mono code (Nat.not_lt.mp hnot)
      have hforth := hloop.start_lt
      omega
    · have hlevel := hloop.level
      rwa [← hbehind, depth_withoutComments, depth_withoutComments] at hlevel
    · have habove := hloop.above (rank code place) (rank_lt hstart hfirst hlow)
        (rank_mono code hhigh)
      rwa [depth_withoutComments, depth_withoutComments] at habove
  · intro hloop
    refine ⟨rank_lt hstart hfirst hloop.start_lt, ?_, ?_, fun place hlow hhigh ↦ ?_⟩
    · have hle := rank_le code (stop + 1)
      omega
    · rw [← hbehind, depth_withoutComments, depth_withoutComments, hloop.level]
    · have hinside : place < (withoutComments code).length := by
        have hle := rank_le code (stop + 1)
        omega
      obtain ⟨middle, found, hfound, hkept, rfl⟩ := exists_rank_eq hinside
      have hstart' : start < middle := by
        by_contra hnot
        have hback := rank_mono code (Nat.not_lt.mp hnot)
        omega
      have hstop' : middle ≤ stop := by
        by_contra hnot
        have hforth := rank_lt hstop hlast (Nat.not_le.mp hnot)
        omega
      rw [depth_withoutComments, depth_withoutComments]
      exact hloop.above middle hstart' hstop'

/-- A bracket and its partner have corresponding partners in the other text. -/
theorem getElem?_bracketMarks_rank_partner {target : Nat}
    (hmark : (bracketMarks code)[position]? = some (.partner target)) :
    (bracketMarks (withoutComments code))[rank code position]? =
        some (.partner (rank code target)) ∧
      rank code (target + 1) = rank code target + 1 := by
  rw [getElem?_bracketMarks_eq_partner_iff] at hmark ⊢
  rcases hmark with hloop | hloop
  · have hcorresponds := isLoop_withoutComments_iff hloop.opening (by decide) hloop.closing
      (by decide)
    exact ⟨.inl (hcorresponds.mpr hloop), rank_succ_of_instruction hloop.closing (by decide)⟩
  · have hcorresponds := isLoop_withoutComments_iff hloop.opening (by decide) hloop.closing
      (by decide)
    exact ⟨.inr (hcorresponds.mpr hloop), rank_succ_of_instruction hloop.opening (by decide)⟩

/-- A bracket without a partner has none in the other text. -/
theorem getElem?_bracketMarks_rank_unmatched
    (hmark : (bracketMarks code)[position]? = some .unmatched) :
    (bracketMarks (withoutComments code))[rank code position]? = some .unmatched := by
  rw [getElem?_bracketMarks_eq_unmatched_iff] at hmark ⊢
  obtain ⟨⟨bracket, hfound, hbracket⟩, halone⟩ := hmark
  have hkept := mem_instructionCharacters_of_isBracket hbracket
  refine ⟨⟨bracket, getElem?_rank hfound hkept, hbracket⟩, fun place hloop ↦ ?_⟩
  have hinside : place < (withoutComments code).length := by
    rcases hloop with hloop | hloop
    · exact hloop.stop_lt
    · exact Nat.lt_trans hloop.start_lt hloop.stop_lt
  obtain ⟨partner, found, hpartner, hfoundKept, rfl⟩ := exists_rank_eq hinside
  refine halone partner ?_
  rcases hloop with hloop | hloop
  · exact .inl ((isLoop_withoutComments_iff hfound hkept hpartner hfoundKept).mp hloop)
  · exact .inr ((isLoop_withoutComments_iff hpartner hfoundKept hfound hkept).mp hloop)

/-! ### Steps without comments -/

/-- Faults for the same reason, the second one on the text without comments. A bracket without a
partner is named at corresponding positions, where it stands in both texts; any other fault is the
same. -/
inductive SameReason (code : List Char) : Fault → Fault → Prop
  | unmatched {bracket : Char} {position : Nat} (hfound : code[position]? = some bracket)
      (hfound' : (withoutComments code)[rank code position]? = some bracket) :
      SameReason code (.unmatched bracket position) (.unmatched bracket (rank code position))
  | other {fault : Fault} (hother : ∀ bracket position, fault ≠ .unmatched bracket position) :
      SameReason code fault fault

/-- The character under the counter is a comment. -/
def Rig.atComment (rig : Rig) : Bool :=
  rig.machine.code[rig.machine.counter]?.any (· ∉ instructionCharacters)

/-- How many of a number of steps carry out a comment. -/
def Rig.commentSteps : Nat → Rig → Nat
  | 0, _ => 0
  | count + 1, rig =>
    match rig.step with
    | .ok next => (if rig.atComment then 1 else 0) + commentSteps count next
    | .error _ => 0

/-- The first of the steps counts by its character. -/
theorem Rig.commentSteps_succ {rig next : Rig} (hstep : rig.step = .ok next) (count : Nat) :
    rig.commentSteps (count + 1) =
      (if rig.atComment then 1 else 0) + next.commentSteps count := by
  rw [commentSteps, hstep]

namespace Store

variable {store : Store} {fault : Fault}

/-- A machine at a position of a text. -/
def onText (store : Store) (code : List Char) (position : Nat) : Rig :=
  store.rig code.toArray (bracketMarks code) position

theorem atEnd_onText (store : Store) (code : List Char) (position : Nat) :
    (store.onText code position).machine.atEnd = decide (code.length ≤ position) := by
  simp [onText, rig, Machine.atEnd]

/-- Only a bracket can be unmatched. -/
theorem ne_unmatched_of_act (hact : store.act character = .error fault) (bracket : Char)
    (position : Nat) : fault ≠ .unmatched bracket position := by
  rintro rfl
  unfold act at hact
  split at hact <;> first | cases hact | (split at hact <;> cases hact)

/-- A bracket without a partner is a fault. -/
theorem step_onText_of_unmatched (hfound : code[position]? = some character)
    (hbracket : IsBracket character)
    (hmark : (bracketMarks code)[position]? = some .unmatched) :
    (store.onText code position).step = .error (.fault (.unmatched character position)) := by
  have hfound' : (store.onText code position).machine.code[position]? = some character := by
    simpa [onText, rig] using hfound
  have hbranch (leaves : UInt8 → Bool) :
      (store.onText code position).machine.branch character leaves =
        .error (.fault (.unmatched character position)) := by
    rw [Machine.branch, show (store.onText code position).machine.marks[
      (store.onText code position).machine.counter]? = _ from hmark]
    rfl
  rw [Rig.step_eq_map, Machine.advance_of_found _ _ hfound']
  rcases hbracket with rfl | rfl
  · simp only [show Symbol.ofChar '[' = .loopStart from rfl, hbranch]
    rfl
  · simp only [show Symbol.ofChar ']' = .loopEnd from rfl, hbranch]
    rfl

/-- A comment takes a step. -/
theorem step_onText_of_comment (hfound : code[position]? = some character)
    (hcomment : character ∉ instructionCharacters) (hinside : store.Inside) :
    (store.onText code position).step = .ok (store.onText code (position + 1)) := by
  have hplain : ¬ IsBracket character := fun hbracket ↦
    hcomment (mem_instructionCharacters_of_isBracket hbracket)
  rw [onText, step_rig_plain (by simpa using hfound) hplain hinside,
    act_of_ofChar?_eq_none store (ofChar?_eq_none_of_comment hcomment)]
  rfl

/-- What the machines on the two texts do at corresponding positions. Both are at the end of their
text; or the first one passes over a comment, and the second one is where it has to be; or both make
a step to corresponding positions; or both are at fault for the same reason. -/
inductive Corresponds (store : Store) (code : List Char) (position : Nat) : Prop
  | ended (hend : code.length ≤ position)
  | comment (hinside : position < code.length)
      (hcomment : (store.onText code position).atComment = true)
      (hstep : (store.onText code position).step = .ok (store.onText code (position + 1)))
      (hrank : rank code (position + 1) = rank code position)
  | step {next : Store} {place : Nat} (hkept : (store.onText code position).atComment = false)
      (hnext : next.Inside)
      (hstep : (store.onText code position).step = .ok (next.onText code place))
      (hstep' : (store.onText (withoutComments code) (rank code position)).step =
        .ok (next.onText (withoutComments code) (rank code place)))
  | fault {fault fault' : Fault} (hinside : position < code.length)
      (hinside' : rank code position < (withoutComments code).length)
      (hfault : (store.onText code position).step = .error (.fault fault))
      (hfault' : (store.onText (withoutComments code) (rank code position)).step =
        .error (.fault fault'))
      (hreason : SameReason code fault fault')

/-- At a character that is no comment the machines on the two texts do the same. -/
theorem corresponds_of_instruction (hfound : code[position]? = some character)
    (hkept : character ∈ instructionCharacters) (hinside : store.Inside) :
    store.Corresponds code position := by
  have hfound' := getElem?_rank hfound hkept
  have hsucc := rank_succ_of_instruction hfound hkept
  have hposition := (List.getElem?_eq_some_iff.mp hfound).1
  have hposition' := (List.getElem?_eq_some_iff.mp hfound').1
  have hcomment : (store.onText code position).atComment = false := by
    simp [Rig.atComment, onText, rig, hfound, hkept]
  by_cases hbracket : IsBracket character
  · obtain ⟨mark, hmark, hplain⟩ := exists_mark_of_bracket code hfound hbracket
    cases mark with
    | plain => exact absurd rfl hplain
    | unmatched =>
      exact .fault hposition hposition' (step_onText_of_unmatched hfound hbracket hmark)
        (step_onText_of_unmatched hfound' hbracket (getElem?_bracketMarks_rank_unmatched hmark))
        (.unmatched hfound hfound')
    | partner target =>
      obtain ⟨hmark', htarget⟩ := getElem?_bracketMarks_rank_partner hmark
      rcases hbracket with rfl | rfl
      · refine .step hcomment hinside (step_rig_open (by simpa using hfound) hmark hinside) ?_
        refine (step_rig_open (by simpa using hfound') hmark' hinside).trans ?_
        rw [apply_ite (rank code), hsucc, htarget]
        rfl
      · refine .step hcomment hinside (step_rig_close (by simpa using hfound) hmark hinside) ?_
        refine (step_rig_close (by simpa using hfound') hmark' hinside).trans ?_
        rw [apply_ite (rank code), hsucc, htarget]
        rfl
  · have hstep : (store.onText code position).step = _ :=
      step_rig_plain (by simpa using hfound) hbracket hinside
    have hstep' : (store.onText (withoutComments code) (rank code position)).step = _ :=
      step_rig_plain (by simpa using hfound') hbracket hinside
    cases hact : store.act character with
    | ok next =>
      rw [hact] at hstep hstep'
      rw [← hsucc] at hstep'
      exact .step hcomment (hinside.act hact) hstep hstep'
    | error fault =>
      rw [hact] at hstep hstep'
      exact .fault hposition hposition' hstep hstep' (.other (ne_unmatched_of_act hact))

/-- The machines on the two texts correspond wherever the first one is. -/
theorem corresponds (hinside : store.Inside) (code : List Char) (position : Nat) :
    store.Corresponds code position := by
  cases hfound : code[position]? with
  | none => exact .ended (List.getElem?_eq_none_iff.mp hfound)
  | some character =>
    by_cases hkept : character ∈ instructionCharacters
    · exact corresponds_of_instruction hfound hkept hinside
    · refine .comment (List.getElem?_eq_some_iff.mp hfound).1 ?_
        (step_onText_of_comment hfound hkept hinside) ?_
      · simp [Rig.atComment, onText, rig, hfound, hkept]
      · rw [rank_succ hfound, if_neg hkept]
        rfl

end Store

/-! ### Halting without comments -/

/-- Two halts, the second one on the text without comments: for the same reason if for any, with the
same tape, head, output and pending input, at corresponding positions. -/
structure SameHalt (code : List Char) (fault? fault'? : Option Fault) (last last' : Rig) :
    Prop where
  reason : Option.Rel (SameReason code) fault? fault'?
  cells_eq : last'.machine.cells = last.machine.cells
  head_eq : last'.machine.head = last.machine.head
  output_eq : last'.output = last.output
  supply_eq : last'.supply = last.supply
  counter_eq : last'.machine.counter = rank code last.machine.counter

namespace Store

variable {store : Store} {fault? fault'? : Option Fault} {last last' : Rig} {count fewer : Nat}

/-- Where the machine on a text halts, the one on the text without comments halts as well, earlier
by the comments carried out. -/
theorem halts_withoutComments (hinside : store.Inside)
    (hhalts : (store.onText code position).Halts count fault? last) :
    ∃ fewer fault'? last',
      (store.onText (withoutComments code) (rank code position)).Halts fewer fault'? last' ∧
        SameHalt code fault? fault'? last last' ∧
        count = fewer + (store.onText code position).commentSteps count := by
  induction count generalizing store position with
  | zero =>
    obtain ⟨hnow, hhow⟩ := hhalts
    obtain rfl : store.onText code position = last := congrArg Prod.snd hnow
    have hsame {fault'? : Option Fault} (hreason : Option.Rel (SameReason code) fault? fault'?) :
        SameHalt code fault? fault'? (store.onText code position)
          (store.onText (withoutComments code) (rank code position)) :=
      ⟨hreason, rfl, rfl, rfl, rfl, rfl⟩
    cases fault? with
    | none =>
      rw [atEnd_onText, decide_eq_true_eq] at hhow
      refine ⟨0, none, _, ⟨rfl, ?_⟩, hsame .none, rfl⟩
      rw [atEnd_onText, decide_eq_true_eq, rank_of_length_le hhow]
    | some fault =>
      obtain ⟨hbefore, hrefused⟩ := hhow
      rw [atEnd_onText, decide_eq_false_iff_not] at hbefore
      cases store.corresponds hinside code position with
      | ended hend => exact absurd hend hbefore
      | comment _ _ hstep _ => cases hstep.symm.trans hrefused
      | step _ _ hstep _ => cases hstep.symm.trans hrefused
      | fault _ hposition' hfault hfault' hreason =>
        cases hfault.symm.trans hrefused
        refine ⟨0, some _, _, ⟨rfl, ?_, hfault'⟩, hsame (.some hreason), rfl⟩
        rw [atEnd_onText, decide_eq_false_iff_not]
        exact Nat.not_le.mpr hposition'
  | succ count ih =>
    obtain ⟨next, hmade, hlater⟩ := hhalts.exists_step
    rw [Rig.commentSteps_succ hmade]
    cases store.corresponds hinside code position with
    | ended hend =>
      have hrefused := Rig.step_of_atEnd (by
        rw [atEnd_onText, decide_eq_true_eq]
        exact hend : (store.onText code position).machine.atEnd = true)
      cases hrefused.symm.trans hmade
    | comment _ hcomment hstep hrank =>
      obtain rfl := Except.ok.inj (hstep.symm.trans hmade)
      obtain ⟨fewer, fault'?, last', hhalts', hsame, hcount⟩ := ih hinside hlater
      rw [hrank] at hhalts'
      refine ⟨fewer, fault'?, last', hhalts', hsame, ?_⟩
      rw [if_pos hcomment]
      omega
    | step hkept hnext hstep hstep' =>
      obtain rfl := Except.ok.inj (hstep.symm.trans hmade)
      obtain ⟨fewer, fault'?, last', hhalts', hsame, hcount⟩ := ih hnext hlater
      refine ⟨fewer + 1, fault'?, last', hhalts'.of_step hstep', hsame, ?_⟩
      rw [hkept, if_neg Bool.false_ne_true]
      omega
    | fault _ _ hfault _ _ => cases hfault.symm.trans hmade

/-- Where the machine on the text without comments halts, the one on the text halts as well: between
two steps that count it passes over no more comments than are left before the end of the text. -/
theorem exists_halts_of_withoutComments {store : Store} {position fewer : Nat}
    (hinside : store.Inside)
    (hhalts' : (store.onText (withoutComments code) (rank code position)).Halts fewer fault'?
      last') :
    ∃ count fault? last, (store.onText code position).Halts count fault? last := by
  cases store.corresponds hinside code position with
  | ended hend =>
    refine ⟨0, none, _, rfl, ?_⟩
    rw [atEnd_onText, decide_eq_true_eq]
    exact hend
  | comment hposition _ hstep hrank =>
    rw [← hrank] at hhalts'
    obtain ⟨count, fault?, last, hhalts⟩ := exists_halts_of_withoutComments hinside hhalts'
    exact ⟨count + 1, fault?, last, hhalts.of_step hstep⟩
  | step _ hnext hstep hstep' =>
    cases fewer with
    | zero =>
      obtain ⟨_, hstop⟩ := hhalts'.exists_fault
      obtain ⟨hnow, -⟩ := hhalts'
      obtain rfl := congrArg Prod.snd hnow
      cases hstep'.symm.trans hstop
    | succ fewer =>
      obtain ⟨_, hmade, hlater⟩ := hhalts'.exists_step
      obtain rfl := Except.ok.inj (hstep'.symm.trans hmade)
      obtain ⟨count, fault?, last, hhalts⟩ := exists_halts_of_withoutComments hnext hlater
      exact ⟨count + 1, fault?, last, hhalts.of_step hstep⟩
  | fault hposition _ hfault _ _ =>
    refine ⟨0, some _, _, rfl, ?_, hfault⟩
    rw [atEnd_onText, decide_eq_false_iff_not]
    exact Nat.not_le.mpr hposition
termination_by (fewer, code.length - position)

end Store

namespace Rig

/-- Comments are transparent. A program and the program without its comments are loaded alike, and
if one of them halts the other does, too: both at the end or both at fault, for the same reason,
with the same tape, head, output and pending input. The program with comments makes one more step
for each comment that it carries out. -/
theorem halts_iff_withoutComments (code input : String) {size : Int} {commented : Rig}
    (hload : load? code size input = some commented) :
    ∃ plain, load? (String.ofList (withoutComments code.toList)) size input = some plain ∧
      (∀ count fault? last, commented.Halts count fault? last →
        ∃ fewer fault'? last', plain.Halts fewer fault'? last' ∧
          SameHalt code.toList fault? fault'? last last' ∧
          count = fewer + commented.commentSteps count) ∧
      ∀ fewer fault'? last', plain.Halts fewer fault'? last' →
        ∃ count fault? last, commented.Halts count fault? last ∧
          SameHalt code.toList fault? fault'? last last' ∧
          count = fewer + commented.commentSteps count := by
  have hpositive : ¬ size ≤ 0 := fun hnone ↦ by simp [load?, hnone] at hload
  have hloaded (text : String) : load? text size input =
      some ((Store.blank size.toNat (.ofText input)).onText text.toList 0) := if_neg hpositive
  have hinside := Store.inside_blank (by omega : 0 < size.toNat) (.ofText input)
  obtain rfl := Option.some.inj ((hloaded code).symm.trans hload)
  refine ⟨_, hloaded _, ?_⟩
  rw [String.toList_ofList, ← rank_zero code.toList]
  refine ⟨fun count fault? last hhalts ↦ ?_, fun fewer fault'? last' hhalts' ↦ ?_⟩
  · rw [rank_zero] at hhalts ⊢
    exact Store.halts_withoutComments hinside hhalts
  · rw [rank_zero]
    obtain ⟨count, fault?, last, hhalts⟩ := Store.exists_halts_of_withoutComments hinside hhalts'
    obtain ⟨_, _, _, hagain, hsame, hcount⟩ := Store.halts_withoutComments hinside hhalts
    obtain ⟨rfl, rfl, rfl⟩ := hhalts'.unique hagain
    exact ⟨count, fault?, last, hhalts, hsame, hcount⟩

/-- A loop with comments that are passed in each of its two turns, and behind it a closing bracket
without a partner: thirty of the thirty-nine steps are comments. -/
theorem halts_iff_withoutComments_turns :
    let commented : Rig := ⟨.load "set ++ [print. less-] stop]" 2, .ofText "", .empty⟩
    let last := (commented.stepTimes 39).2
    load? "set ++ [print. less-] stop]" 2 "" = some commented ∧
      commented.Halts 39 (some (.unmatched ']' 26)) last ∧
      ∃ plain last', load? "++[.-]]" 2 "" = some plain ∧
        plain.Halts 9 (some (.unmatched ']' 6)) last' ∧
        last'.machine.cells = last.machine.cells ∧ last'.output = last.output := by
  intro commented last
  have hload : load? "set ++ [print. less-] stop]" 2 "" = some commented := rfl
  have hhalts : commented.Halts 39 (some (.unmatched ']' 26)) last :=
    ⟨by decide +kernel, by decide +kernel, by decide +kernel⟩
  obtain ⟨plain, hplain, hforth, -⟩ := halts_iff_withoutComments _ _ hload
  obtain ⟨fewer, fault'?, last', hhalts', hsame, hcount⟩ := hforth _ _ _ hhalts
  have hcomments : commented.commentSteps 39 = 30 := by decide +kernel
  obtain rfl : fewer = 9 := by omega
  obtain rfl : fault'? = some (.unmatched ']' 6) := by
    rcases hsame.reason with ⟨_ | hother⟩
    · rfl
    · exact absurd rfl (hother ']' 26)
  exact ⟨hload, hhalts, plain, last', hplain, hhalts', hsame.cells_eq, hsame.output_eq⟩

end Rig

end TapeRunner
