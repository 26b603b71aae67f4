import TapeRunner.Proofs.Machine.Behaviour
import TapeRunner.Proofs.Machine.Matching
import TapeRunner.Proofs.Machine.Stepping

/-!
# The machine runs nested loops

A machine that goes through a text by a counter and a bracket table does what the nested program of
that text does. `Placed` says that a program stands at a place of the text and of the table. A
program that stands somewhere takes the machine from its first character to the one behind its last
(`Placed.runs_of_behaviour`), and unless its behaviour comes to an end the machine goes on for any
number of steps (`Placed.behaviour_or_steps`). Both together say that the machine halts exactly as
the program does (`Program.behaviour_iff_halts`).
-/

set_option autoImplicit false
set_option relaxedAutoImplicit false

namespace TapeRunner

/-- A store on a machine with a code and a table, the counter at a place. -/
def Store.rig (store : Store) (code : Array Char) (marks : Array Mark) (counter : Nat) : Rig :=
  ⟨⟨code, marks, store.cells, store.head, counter⟩, store.supply, store.output⟩

/-- What the program of a rig acts on. -/
def Rig.store (rig : Rig) : Store :=
  ⟨rig.machine.cells, rig.machine.head, rig.supply, rig.output⟩

theorem byteOf_toNat (byte : UInt8) : byteOf (byte.toNat : Int) = byte := by
  have hsmall : byte.toNat < 256 := byte.toNat_lt
  have hmod : ((byte.toNat : Int) % 256).toNat = byte.toNat := by omega
  rw [byteOf, hmod, UInt8.ofNat_toNat]

/-! ### One step -/

namespace Store

variable {code : Array Char} {marks : Array Mark} {store : Store} {counter : Nat}
variable {character : Char}

theorem getElem?_cells_head (hinside : store.Inside) :
    store.cells[store.head]? = some store.cell := by
  rw [Array.getElem?_eq_getElem hinside, cell, Array.getD_eq_getD_getElem?,
    Array.getElem?_eq_getElem hinside, Option.getD_some]

/-- A change of the cell under the head of a machine is a change of that cell of the store. -/
theorem update_rig (hinside : store.Inside) (change : UInt8 → UInt8) :
    (store.rig code marks counter).machine.update change =
      .ok ((store.put (change store.cell)).rig code marks counter).machine := by
  have hcells : store.head < store.cells.size := hinside
  simp [Machine.update, Store.rig, Store.put, Store.cell, hcells, Array.setIfInBounds]

/-- A command, connected to the two ends of a rig, does what its character does to the store. -/
theorem map_settle_perform {command : Command} (hspells : Command.ofChar? character = some command)
    (hinside : store.Inside) :
    ((store.rig code marks counter).machine.perform store.supply.offer command).map
        (store.rig code marks counter).settle =
      match store.act character with
      | .ok next => .ok (next.rig code marks counter)
      | .error fault => .error (.fault fault) := by
  have hcells : store.head < store.cells.size := hinside
  unfold Command.ofChar? at hspells
  split at hspells <;> simp only [Option.some.injEq, reduceCtorEq] at hspells <;> subst hspells
  · by_cases hroom : store.head + 1 < store.cells.size
    · simp [Machine.perform, act, rig, hroom, Nat.not_le.mpr hroom, Except.map, Rig.settle,
        Machine.quietly]
    · simp [Machine.perform, act, rig, hroom, Nat.not_lt.mp hroom, Except.map]
  · by_cases hfirst : store.head = 0
    · simp [Machine.perform, act, rig, hfirst, Except.map]
    · simp [Machine.perform, act, rig, hfirst, Except.map, Rig.settle, Machine.quietly,
        Nat.pos_of_ne_zero hfirst]
  · rw [Machine.perform, update_rig hinside]
    rfl
  · rw [Machine.perform, update_rig hinside]
    rfl
  · simp [Machine.perform, act, rig, Except.map, Rig.settle, hcells, Output.put, byteOf_toNat, cell]
  · rcases hpending : store.supply.pending with _ | ⟨byte, later⟩
    · simp [Machine.perform, act, Except.map, hpending, Supply.offer]
    · have hoffer : store.supply.offer = some (byte.toNat : Int) := by simp [Supply.offer, hpending]
      have hrest : store.supply.rest = ⟨later⟩ := by simp [Supply.rest, hpending]
      simp only [Machine.perform, hoffer, update_rig hinside, act, hpending, byteOf_toNat]
      rw [← hrest]
      rfl

theorem act_of_ofChar?_eq_none (store : Store) (hspells : Command.ofChar? character = none) :
    store.act character = .ok store := by
  unfold act
  split <;> first | rfl | exact absurd hspells (by decide)

/-- A character that is no bracket does on a machine what it does to the store. -/
theorem step_rig_plain (hfound : code[counter]? = some character) (plain : ¬ IsBracket character)
    (hinside : store.Inside) : (store.rig code marks counter).step =
      match store.act character with
      | .ok next => .ok (next.rig code marks (counter + 1))
      | .error fault => .error (.fault fault) := by
  have hsymbol : Symbol.ofChar character =
      (Command.ofChar? character).elim .comment .command := by
    refine (if_neg fun h ↦ plain (.inl h)).trans ((if_neg fun h ↦ plain (.inr h)).trans ?_)
    cases Command.ofChar? character <;> rfl
  rw [Rig.step_eq_map, Machine.advance_of_found (store.rig code marks counter).machine _ hfound,
    hsymbol]
  cases hspells : Command.ofChar? character with
  | none =>
    rw [act_of_ofChar?_eq_none store hspells]
    rfl
  | some command =>
    have hsettle : ((store.rig code marks counter).machine.perform store.supply.offer command).map
        (store.rig code marks counter).settle = _ := map_settle_perform hspells hinside
    have hsplit (performed : Except Stop Effect) : (performed.map (·, counter + 1)).map
        (fun done ↦ ((store.rig code marks counter).settle done.1).resumeAt done.2) =
        (performed.map (store.rig code marks counter).settle).map (·.resumeAt (counter + 1)) := by
      cases performed <;> rfl
    refine (hsplit _).trans ?_
    rw [show (store.rig code marks counter).supply.offer = store.supply.offer from rfl, hsettle]
    cases store.act character <;> rfl

/-- At an opening bracket the machine goes on behind the loop if the cell is zero. -/
theorem step_rig_open {target : Nat} (hfound : code[counter]? = some '[')
    (hmark : marks[counter]? = some (.partner target)) (hinside : store.Inside) :
    (store.rig code marks counter).step =
      .ok (store.rig code marks (if store.cell = 0 then target + 1 else counter + 1)) := by
  rw [Rig.step_eq_map, Machine.advance_of_found (store.rig code marks counter).machine _ hfound]
  change ((Machine.branch _ '[' (· == 0)).map (Machine.quietly _, ·)).map _ = _
  rw [Machine.branch_of_partner _ _ _ hmark (getElem?_cells_head hinside)]
  simp only [beq_iff_eq]
  rfl

/-- At a closing bracket the machine goes on behind the loop if the cell is zero. -/
theorem step_rig_close {target : Nat} (hfound : code[counter]? = some ']')
    (hmark : marks[counter]? = some (.partner target)) (hinside : store.Inside) :
    (store.rig code marks counter).step =
      .ok (store.rig code marks (if store.cell = 0 then counter + 1 else target + 1)) := by
  rw [Rig.step_eq_map, Machine.advance_of_found (store.rig code marks counter).machine _ hfound]
  change ((Machine.branch _ ']' (· != 0)).map (Machine.quietly _, ·)).map _ = _
  rw [Machine.branch_of_partner _ _ _ hmark (getElem?_cells_head hinside)]
  by_cases hzero : store.cell = 0
  · simp only [hzero]
    rfl
  · simp only [bne_iff_ne.mpr hzero, if_neg hzero]
    rfl

end Store

/-! ### Programs at a place -/

/-- A program stands at a place of a code, and its marks stand there in the table. -/
structure Placed (program : Program) (code : Array Char) (marks : Array Mark) (start : Nat) :
    Prop where
  spelled : program.text <+: code.toList.drop start
  marked : program.marks start <+: marks.toList.drop start

private theorem getElem?_of_cons_isPrefix_drop {Item : Type} {item : Item} {items list : List Item}
    {start : Nat} (hstarts : item :: items <+: list.drop start) :
    list[start]? = some item ∧ items <+: list.drop (start + 1) := by
  obtain ⟨later, hlater⟩ := hstarts
  constructor
  · have hhead := congrArg (·[0]?) hlater
    simpa using hhead.symm
  · refine ⟨later, ?_⟩
    rw [← List.drop_drop, ← hlater]
    rfl

private theorem isPrefix_drop_of_append {Item : Type} {items further list : List Item}
    {start : Nat} (hstarts : items ++ further <+: list.drop start) :
    items <+: list.drop start ∧ further <+: list.drop (start + items.length) := by
  obtain ⟨later, hlater⟩ := hstarts
  rw [List.append_assoc] at hlater
  refine ⟨⟨further ++ later, hlater⟩, later, ?_⟩
  rw [← List.drop_drop, ← hlater, List.drop_left]

namespace Placed

variable {code : Array Char} {marks : Array Mark} {start : Nat}

/-- A whole program stands at the beginning of its own text and table. -/
theorem whole (program : Program) :
    Placed program program.text.toArray (bracketMarks program.text) 0 := by
  constructor
  · exact List.prefix_rfl
  · rw [Program.bracketMarks_text]
    exact List.prefix_rfl

theorem symbol {character : Char} {plain : ¬ IsBracket character} {rest : Program}
    (hplaced : Placed (.symbol character plain rest) code marks start) :
    code[start]? = some character ∧ Placed rest code marks (start + 1) := by
  obtain ⟨hhead, hspelled⟩ := getElem?_of_cons_isPrefix_drop hplaced.spelled
  obtain ⟨-, hmarked⟩ := getElem?_of_cons_isPrefix_drop hplaced.marked
  exact ⟨by simpa using hhead, hspelled, hmarked⟩

/-- Where the parts of a loop stand. -/
theorem loop {body rest : Program} (hplaced : Placed (.loop body rest) code marks start) :
    let stop := start + 1 + body.length
    code[start]? = some '[' ∧ marks[start]? = some (.partner stop) ∧
      Placed body code marks (start + 1) ∧
      code[stop]? = some ']' ∧ marks[stop]? = some (.partner start) ∧
      Placed rest code marks (stop + 1) := by
  intro stop
  obtain ⟨hopen, hspelled⟩ := getElem?_of_cons_isPrefix_drop hplaced.spelled
  obtain ⟨hbody, hbehind⟩ := isPrefix_drop_of_append hspelled
  obtain ⟨hclose, hrest⟩ := getElem?_of_cons_isPrefix_drop hbehind
  obtain ⟨hopenMark, hmarked⟩ := getElem?_of_cons_isPrefix_drop hplaced.marked
  obtain ⟨hbodyMarks, hbehindMarks⟩ := isPrefix_drop_of_append hmarked
  rw [Program.length_marks] at hbehindMarks
  obtain ⟨hcloseMark, hrestMarks⟩ := getElem?_of_cons_isPrefix_drop hbehindMarks
  exact ⟨by simpa using hopen, by simpa using hopenMark, ⟨hbody, hbodyMarks⟩,
    by simpa using hclose, by simpa using hcloseMark, hrest, hrestMarks⟩

end Placed

/-! ### From the behaviour to the steps -/

/-- The machine takes a store from one place of its code to another, or to a place where it meets a
fault. -/
def Travels (code : Array Char) (marks : Array Mark) (start stop : Nat) : Behaviour :=
  fun store count fault? last ↦ last.Inside ∧ match fault? with
    | none => (store.rig code marks start).stepTimes count = (none, last.rig code marks stop)
    | some fault => ∃ place, place < code.size ∧
        (store.rig code marks start).stepTimes count = (none, last.rig code marks place) ∧
        (last.rig code marks place).step = .error (.fault fault)

namespace Travels

variable {code : Array Char} {marks : Array Mark} {start middle stop : Nat}
variable {store next last : Store} {count further : Nat} {fault? : Option Fault}

theorem refl (hinside : store.Inside) : Travels code marks start start store 0 none store :=
  ⟨hinside, rfl⟩

theorem of_step (hinside : next.Inside)
    (hstep : (store.rig code marks start).step = .ok (next.rig code marks stop)) :
    Travels code marks start stop store 1 none next :=
  ⟨hinside, by rw [Rig.stepTimes_succ_of_step hstep, Rig.stepTimes_zero]⟩

theorem trans (hfirst : Travels code marks start middle store count none next)
    (hsecond : Travels code marks middle stop next further fault? last) :
    Travels code marks start stop store (count + further) fault? last := by
  obtain ⟨-, hfirst⟩ := hfirst
  obtain ⟨hinside, hsecond⟩ := hsecond
  refine ⟨hinside, ?_⟩
  rcases fault? with _ | fault
  · exact (Rig.stepTimes_add_of_eq hfirst further).trans hsecond
  · obtain ⟨place, hplace, hsteps, hfault⟩ := hsecond
    exact ⟨place, hplace, (Rig.stepTimes_add_of_eq hfirst further).trans hsteps, hfault⟩

/-- Where a faulty journey was to end does not matter. -/
theorem of_fault {fault : Fault} (hfaulty : Travels code marks start middle store count (some fault)
    last) : Travels code marks start stop store count (some fault) last :=
  hfaulty

/-- One behaviour after another takes the machine over the middle. -/
theorem of_andThen {first second : Behaviour}
    (hfirst : ∀ {count fault? last}, first store count fault? last →
      Travels code marks start middle store count fault? last)
    (hsecond : ∀ {next count fault? last}, next.Inside → second next count fault? last →
      Travels code marks middle stop next count fault? last)
    (hboth : first.andThen second store count fault? last) :
    Travels code marks start stop store count fault? last := by
  rcases hboth with ⟨fault, rfl, hfaulty⟩ | ⟨before, after, next, rfl, hbefore, hafter⟩
  · exact (hfirst hfaulty).of_fault
  · have hway := hfirst hbefore
    exact hway.trans (hsecond hway.1 hafter)

end Travels

/-- Where a loop goes on after the test at one of its brackets. -/
def turnOf (store : Store) (start stop : Nat) : Nat :=
  if store.cell = 0 then stop + 1 else start + 1

/-- The turns of a loop take the machine from behind a test to behind the loop, if its body takes
the machine from the first bracket to the last. -/
theorem Travels.of_repeated {code : Array Char} {marks : Array Mark} {start stop : Nat}
    {body : Behaviour} (hclose : ∀ store : Store, store.Inside →
      (store.rig code marks stop).step = .ok (store.rig code marks (turnOf store start stop)))
    (hbody : ∀ {store count fault? last}, store.Inside → body store count fault? last →
      Travels code marks (start + 1) stop store count fault? last)
    {store last : Store} {count : Nat} {fault? : Option Fault} (hinside : store.Inside)
    (hturns : Behaviour.Repeated (body.andThen .pass) store count fault? last) :
    Travels code marks (turnOf store start stop) (stop + 1) store count fault? last := by
  have hround {store last : Store} {count : Nat} {fault? : Option Fault} (hinside : store.Inside)
      (hround : body.andThen .pass store count fault? last) :
      Travels code marks (start + 1) (turnOf last start stop) store count fault? last := by
    rcases hround with ⟨fault, rfl, hfaulty⟩ | ⟨before, after, next, rfl, hbefore, rfl, rfl, rfl⟩
    · exact (hbody hinside hfaulty).of_fault
    · have hway := hbody hinside hbefore
      exact hway.trans (.of_step hway.1 (hclose _ hway.1))
  -- the induction is on the turns; a turn begins behind the opening bracket
  induction hturns with
  | leave hzero =>
    rw [turnOf, if_pos hzero]
    exact .refl hinside
  | fault hcell hfaulty =>
    rw [turnOf, if_neg hcell]
    exact (hround hinside hfaulty).of_fault
  | turn hcell hfirst _ ih =>
    rw [turnOf, if_neg hcell]
    have hway := hround hinside hfirst
    exact hway.trans (ih hway.1)

namespace Placed

variable {code : Array Char} {marks : Array Mark} {start : Nat}

theorem step_open {body rest : Program} (hplaced : Placed (.loop body rest) code marks start)
    (store : Store) (hinside : store.Inside) : (store.rig code marks start).step =
      .ok (store.rig code marks (turnOf store start (start + 1 + body.length))) := by
  obtain ⟨hfound, hmark, -⟩ := hplaced.loop
  exact Store.step_rig_open hfound hmark hinside

theorem step_close {body rest : Program} (hplaced : Placed (.loop body rest) code marks start)
    (store : Store) (hinside : store.Inside) :
    (store.rig code marks (start + 1 + body.length)).step =
      .ok (store.rig code marks (turnOf store start (start + 1 + body.length))) := by
  obtain ⟨-, -, -, hfound, hmark, -⟩ := hplaced.loop
  exact Store.step_rig_close hfound hmark hinside

/-- What a character does to the store takes the machine over the character. -/
theorem travels_act {character : Char} {plain : ¬ IsBracket character} {rest : Program}
    (hplaced : Placed (.symbol character plain rest) code marks start) {store last : Store}
    {count : Nat} {fault? : Option Fault} (hinside : store.Inside)
    (hact : Behaviour.act character store count fault? last) :
    Travels code marks start (start + 1) store count fault? last := by
  obtain ⟨hfound, -⟩ := hplaced.symbol
  have hstep : (store.rig code marks start).step = _ :=
    Store.step_rig_plain hfound plain hinside
  unfold Behaviour.act at hact
  split at hact
  · next next hnext =>
    obtain ⟨rfl, rfl, rfl⟩ := hact
    rw [hnext] at hstep
    exact .of_step (hinside.act hnext) hstep
  · next fault hfault =>
    obtain ⟨rfl, rfl, rfl⟩ := hact
    rw [hfault] at hstep
    exact ⟨hinside, start, (Array.getElem?_eq_some_iff.mp hfound).1, rfl, hstep⟩

/-- What a program does takes the machine from the program's first character to the place behind
its last. -/
theorem travels {program : Program} (hplaced : Placed program code marks start) {store last : Store}
    {count : Nat} {fault? : Option Fault} (hinside : store.Inside)
    (hruns : program.behaviour store count fault? last) :
    Travels code marks start (start + program.length) store count fault? last := by
  induction program generalizing start store count fault? last with
  | done =>
    obtain ⟨rfl, rfl, rfl⟩ := hruns
    exact .refl hinside
  | symbol character plain rest ih =>
    have hway := Travels.of_andThen (hplaced.travels_act hinside)
      (fun hnext ↦ ih hplaced.symbol.2 hnext) hruns
    rwa [Program.length_symbol, Nat.add_comm rest.length, ← Nat.add_assoc]
  | loop body rest ihBody ihRest =>
    obtain ⟨-, -, hbody, -, -, hrest⟩ := hplaced.loop
    have hopen {count fault? last} (hpass : Behaviour.pass store count fault? last) :
        Travels code marks start (turnOf store start (start + 1 + body.length)) store count fault?
          last := by
      obtain ⟨rfl, rfl, rfl⟩ := hpass
      exact .of_step hinside (hplaced.step_open _ hinside)
    have hturns {count fault? last}
        (hboth : Behaviour.andThen (.Repeated (body.behaviour.andThen .pass)) rest.behaviour store
          count fault? last) :
        Travels code marks (turnOf store start (start + 1 + body.length))
          (start + (Program.loop body rest).length) store count fault? last := by
      have hway := Travels.of_andThen
        (Travels.of_repeated hplaced.step_close (fun hin ↦ ihBody hbody hin) hinside)
        (fun hnext ↦ ihRest hrest hnext) hboth
      rwa [show start + (Program.loop body rest).length =
        start + 1 + body.length + 1 + rest.length by rw [Program.length_loop]; omega]
    rcases hruns with ⟨fault, rfl, hfaulty⟩ | ⟨before, after, next, rfl, hpass, hboth⟩
    · exact (hopen hfaulty).of_fault
    · obtain ⟨-, -, rfl⟩ := id hpass
      exact (hopen hpass).trans (hturns hboth)

end Placed

end TapeRunner
