import Mathlib.Data.List.Forall2
import TapeRunner.Proofs.Machine.Intake
import TapeRunner.Proofs.Session.Authorship

/-!
# How a session deals with its input

The engine of a run reads with its own steps and with instructions beside its program; besides,
texts are fed to the run, and its input is read past the engine (`Run.Deals`). Its supply is dealt
with in the same way, and in no other (`Run.Deals.supply`).

From a start on, until the next start or stop, the input of the session goes to the run that was
built for the start, whatever is ordered and whatever the observers do (`Runner.Dealt`). So all that
becomes of it is one course of dealings, in which every order has its part (`Order.AccountsFor`): a
text that is fed is there as a whole, a read finds what it answers, and no other order deals with
the input but through the engine. No byte is lost, doubled or put before another one
(`Runner.input_conserved`).
-/

set_option autoImplicit false
set_option relaxedAutoImplicit false

namespace TapeRunner

open Activity Dealing

/-! ### What an engine reads -/

theorem Stop.error_eq_fault_iff {stop : Stop} {fault : Fault} :
    stop.error = .fault fault ↔ stop = .fault fault := by
  cases stop <;> simp [Stop.error]

namespace Script

/-- A scripted engine misses no input. -/
theorem errorAt_ne_noInput (script : Script) (counter : Nat) :
    script.errorAt counter ≠ some (.fault .noInput) := by
  unfold errorAt
  split
  · simp [Fault.noInput]
  · simp

theorem errorOf_ne_noInput (script : Script) (instruction : String) :
    script.errorOf instruction ≠ some (.fault .noInput) := by
  unfold errorOf
  split
  · simp [Fault.noInput]
  · split <;> simp

end Script

namespace Run

/-- The engine is at a read. -/
def atRead (run : Run) : Bool :=
  match run.engine with
  | .tape machine => machine.atRead
  | .scripted _ => false

/-- An instruction beside the program has the engine read. -/
def readsBeside (run : Run) (instruction : String) : Bool :=
  match run.engine with
  | .tape _ => instruction = ","
  | .scripted _ => false

/-- What becomes of the input with an effect: an engine that was reading has found what is in the
cell under its head then. -/
def intake (reading : Bool) (effect? : Option Effect) : List Dealing :=
  if reading then
    [.read .engine (effect?.bind fun effect ↦ effect.machine.cells[effect.machine.head]?)]
  else
    []

/-- A run comes to another one in the course of some dealings with its input. In the midst of a
step, after its effect and before the counter moves, there may be more, or the step may be broken
off there. -/
inductive Deals : Run → List Dealing → Run → Prop
  | nothing (run : Run) : Deals run [] run
  | turn {run middle last : Run} {dealings further : List Dealing} {script : Script}
      {effect? : Option Effect} {counter : Nat} : Deals run dealings middle →
      middle.turn script = .ok (effect?, counter) →
      Deals (middle.settleAny effect?) further last →
      Deals run (dealings ++ (intake middle.atRead effect? ++ further)) (last.resumeAt counter)
  | brokenOff {run middle : Run} {dealings : List Dealing} {script : Script}
      {effect? : Option Effect} {counter : Nat} : Deals run dealings middle →
      middle.turn script = .ok (effect?, counter) →
      Deals run (dealings ++ intake middle.atRead effect?) (middle.settleAny effect?)
  | missed {run middle : Run} {dealings : List Dealing} {script : Script} :
      Deals run dealings middle → middle.turn script = .error (.fault .noInput) →
      Deals run (dealings ++ [.read .engine none]) middle
  | beside {run middle : Run} {dealings : List Dealing} {script : Script} {instruction : String}
      {effect? : Option Effect} : Deals run dealings middle →
      middle.aside script instruction = .ok effect? →
      Deals run (dealings ++ intake (middle.readsBeside instruction) effect?)
        (middle.settleAny effect?)
  | missedBeside {run middle : Run} {dealings : List Dealing} {script : Script}
      {instruction : String} : Deals run dealings middle →
      middle.aside script instruction = .error (.fault .noInput) →
      Deals run (dealings ++ [.read .engine none]) middle
  | feed {run middle : Run} {dealings : List Dealing} (text : String) :
      Deals run dealings middle →
      Deals run (dealings ++ [.fed text]) { middle with supply := middle.supply.feed text }
  | read {run middle : Run} {dealings : List Dealing} : Deals run dealings middle →
      Deals run (dealings ++ [.read .outsider middle.supply.pending.head?])
        { middle with supply := middle.supply.rest }

variable {run middle last : Run} {script : Script} {effect : Effect} {effect? : Option Effect}
variable {counter : Nat} {instruction : String} {dealings further : List Dealing} {reading : Bool}

theorem Deals.trans (hfirst : run.Deals dealings middle) (hsecond : middle.Deals further last) :
    run.Deals (dealings ++ further) last := by
  induction hsecond with
  | nothing run => simpa using hfirst
  | turn _ hturn hinside ih _ =>
    rw [← List.append_assoc]
    exact (ih hfirst).turn hturn hinside
  | brokenOff _ hturn ih =>
    rw [← List.append_assoc]
    exact (ih hfirst).brokenOff hturn
  | missed _ hturn ih =>
    rw [← List.append_assoc]
    exact (ih hfirst).missed hturn
  | beside _ haside ih =>
    rw [← List.append_assoc]
    exact (ih hfirst).beside haside
  | missedBeside _ haside ih =>
    rw [← List.append_assoc]
    exact (ih hfirst).missedBeside haside
  | feed text _ ih =>
    rw [← List.append_assoc]
    exact (ih hfirst).feed text
  | read _ ih =>
    rw [← List.append_assoc]
    exact (ih hfirst).read

theorem byEngine_of_mem_intake {dealing : Dealing} (hmem : dealing ∈ intake reading effect?) :
    dealing.ByEngine := by
  unfold intake at hmem
  split at hmem
  · obtain rfl := List.mem_singleton.mp hmem
    trivial
  · exact absurd hmem List.not_mem_nil

/-- An effect that takes what is offered deals with the supply as the engine has read. -/
theorem supply_deals_of_takes (htakes : effect.Takes reading run.supply.offer) :
    run.supply.Deals (intake reading (some effect)) (run.settle effect).supply := by
  obtain ⟨hconsumed, hfound⟩ := htakes
  cases reading with
  | false =>
    have hkept : (run.settle effect).supply = run.supply :=
      if_neg (hconsumed ▸ Bool.false_ne_true)
    rw [hkept]
    exact .nothing run.supply
  | true =>
    obtain ⟨number, hoffer, hcell⟩ := hfound rfl
    obtain ⟨byte, hbyte, rfl⟩ := Option.map_eq_some_iff.mp hoffer
    have htaken : (run.settle effect).supply = run.supply.rest := if_pos hconsumed
    have hread : intake true (some effect) = [.read .engine run.supply.pending.head?] := by
      rw [hbyte, ← byteOf_toNat byte, ← hcell]
      rfl
    rw [htaken, hread]
    exact .read .engine (.nothing _)

/-- What an engine does in a step, it does to its supply as well. -/
theorem supply_deals_of_turn (hturn : run.turn script = .ok (effect?, counter)) :
    run.supply.Deals (intake run.atRead effect?) (run.settleAny effect?).supply := by
  unfold turn at hturn
  cases hengine : run.engine with
  | tape machine =>
    simp only [hengine] at hturn
    have hread : run.atRead = machine.atRead := by simp only [atRead, hengine]
    cases hadvance : machine.advance run.supply.offer with
    | error stop =>
      rw [hadvance] at hturn
      cases hturn
    | ok done =>
      rw [hadvance] at hturn
      cases hturn
      rw [hread]
      exact supply_deals_of_takes (Machine.advance_takes hadvance)
  | scripted place =>
    simp only [hengine] at hturn
    have hread : run.atRead = false := by simp only [atRead, hengine]
    cases herror : script.errorAt place with
    | some error =>
      rw [herror] at hturn
      cases hturn
    | none =>
      rw [herror] at hturn
      cases hturn
      rw [hread]
      exact .nothing run.supply

theorem supply_deals_of_aside (haside : run.aside script instruction = .ok effect?) :
    run.supply.Deals (intake (run.readsBeside instruction) effect?)
      (run.settleAny effect?).supply := by
  unfold aside at haside
  cases hengine : run.engine with
  | tape machine =>
    simp only [hengine] at haside
    have hread : run.readsBeside instruction = decide (instruction = ",") := by
      simp only [readsBeside, hengine]
    cases hexecute : machine.execute run.supply.offer instruction with
    | error stop =>
      rw [hexecute] at haside
      cases haside
    | ok done =>
      rw [hexecute] at haside
      cases haside
      rw [hread]
      exact supply_deals_of_takes (Machine.execute_takes hexecute)
  | scripted place =>
    simp only [hengine] at haside
    have hread : run.readsBeside instruction = false := by simp only [readsBeside, hengine]
    cases herror : script.errorOf instruction with
    | some error =>
      rw [herror] at haside
      cases haside
    | none =>
      rw [herror] at haside
      cases haside
      rw [hread]
      exact .nothing run.supply

/-- A step misses its input exactly at a read when nothing is pending. -/
theorem turn_eq_noInput_iff : run.turn script = .error (.fault .noInput) ↔
    run.atRead = true ∧ run.supply.pending = [] := by
  unfold turn
  cases hengine : run.engine with
  | tape machine =>
    simp only [atRead, hengine]
    rw [← Supply.offer_eq_none_iff, ← Machine.advance_eq_noInput_iff]
    cases machine.advance run.supply.offer with
    | error stop => simp only [Except.error.injEq, Stop.error_eq_fault_iff]
    | ok done => simp only [reduceCtorEq]
  | scripted place =>
    have hother := script.errorAt_ne_noInput place
    simp only [atRead, hengine, Bool.false_eq_true, false_and, iff_false]
    cases herror : script.errorAt place with
    | some error => simpa [herror] using hother
    | none => simp only [reduceCtorEq, not_false_eq_true]

/-- So does an instruction beside the program. -/
theorem aside_eq_noInput_iff : run.aside script instruction = .error (.fault .noInput) ↔
    run.readsBeside instruction = true ∧ run.supply.pending = [] := by
  unfold aside
  cases hengine : run.engine with
  | tape machine =>
    simp only [readsBeside, hengine, decide_eq_true_eq]
    rw [← Supply.offer_eq_none_iff, ← Machine.execute_eq_noInput_iff]
    cases machine.execute run.supply.offer instruction with
    | error stop => simp only [Except.error.injEq, Stop.error_eq_fault_iff]
    | ok done => simp only [reduceCtorEq]
  | scripted place =>
    have hother := script.errorOf_ne_noInput instruction
    simp only [readsBeside, hengine, Bool.false_eq_true, false_and, iff_false]
    cases herror : script.errorOf instruction with
    | some error => simpa [herror] using hother
    | none => simp only [reduceCtorEq, not_false_eq_true]

/-- Whatever becomes of a run, its supply is dealt with as the run is. -/
theorem Deals.supply (hdeals : run.Deals dealings last) :
    run.supply.Deals dealings last.supply := by
  induction hdeals with
  | nothing run => exact .nothing run.supply
  | turn _ hturn _ ih hinside => exact ih.trans ((supply_deals_of_turn hturn).trans hinside)
  | brokenOff _ hturn ih => exact ih.trans (supply_deals_of_turn hturn)
  | beside _ haside ih => exact ih.trans (supply_deals_of_aside haside)
  | missed _ hturn ih => exact ih.trans (.missed (turn_eq_noInput_iff.mp hturn).2 .engine)
  | missedBeside _ haside ih => exact ih.trans (.missed (aside_eq_noInput_iff.mp haside).2 .engine)
  | feed text _ ih => exact ih.trans (.feed text (.nothing _))
  | read _ ih => exact ih.trans (.read .outsider (.nothing _))

/-- After some dealings that began with a text, what has been read, in order, and behind it what is
pending, are the code points modulo 256 of that text and behind it of those fed; and whoever reads
finds nothing exactly if all of it has been read, in the course of the dealings and after them. -/
structure Conserves (initial : String) (dealings : List Dealing) (run : Run) : Prop where
  bytes : (bytesRead dealings ++ run.supply.pending).map UInt8.toNat =
    (initial ++ textFed dealings).toList.map (·.toNat % 256)
  found_iff (earlier later : List Dealing) (consumer : Consumer) (found : Option UInt8) :
    dealings = earlier ++ .read consumer found :: later → (found = none ↔ UsedUp initial earlier)
  turn_iff (script : Script) : run.turn script = .error (.fault .noInput) ↔
    run.atRead = true ∧ UsedUp initial dealings
  aside_iff (script : Script) (instruction : String) :
    run.aside script instruction = .error (.fault .noInput) ↔
      run.readsBeside instruction = true ∧ UsedUp initial dealings

theorem Deals.conserves {initial : String} (hdeals : run.Deals dealings last)
    (hinitial : run.supply.pending = Supply.bytesOf initial) : last.Conserves initial dealings := by
  have hused {dealings : List Dealing} {supply : Supply}
      (hdeals : run.supply.Deals dealings supply) :
      supply.pending = [] ↔ UsedUp initial dealings := by
    rw [hdeals.pending_eq_nil_iff, hinitial, Supply.length_bytesOf, ← String.length_append]
    exact Iff.rfl
  have hsupply := hdeals.supply
  refine ⟨?_, ?_, fun script ↦ ?_, fun script instruction ↦ ?_⟩
  · rw [hsupply.bytesRead_append_pending, hinitial, ← Supply.bytesOf_append,
      Supply.map_toNat_bytesOf]
  · rintro earlier later consumer found rfl
    obtain ⟨middle, hfirst, hsecond⟩ := hsupply.exists_between
    rw [hsecond.found_eq_none_iff, hused hfirst]
  · rw [turn_eq_noInput_iff, hused hsupply]
  · rw [aside_eq_noInput_iff, hused hsupply]

end Run

/-! ### Who deals with the input -/

/-- An order that deals with the input past the engine. -/
def Order.HandlesInput : Order → Prop
  | .feed _ | .readInput => True
  | _ => False

/-- The part of an order in the dealings with the input of its session, by its answer. If the
observers have no hand in them, no other order deals with the input but through the engine. -/
def Order.AccountsFor (hands : Prop) (order : Order) (answer : Except Halt Reply)
    (dealings : List Dealing) : Prop :=
  match order with
  | .feed text => answer = .ok .nothing ∧ dealings = [.fed text]
  | .readInput => ∃ found : Option UInt8, dealings = [.read .outsider found] ∧
      answer = found.elim (.error (.raised (.fault .noInput))) fun byte ↦ .ok (.byte byte)
  | _ => ∀ dealing ∈ dealings, hands ∨ dealing.ByEngine

/-- The text that an order feeds, which is empty for most of them. -/
def Order.text : Order → String
  | .feed text => text
  | _ => ""

/-- The texts that a list of orders feeds, as one. -/
def Order.textFed : List Order → String
  | [] => ""
  | order :: later => order.text ++ textFed later

/-- Where the observers have no hand in the input, an order feeds its own text. -/
theorem Order.AccountsFor.textFed_eq {order : Order} {answer : Except Halt Reply}
    {dealings : List Dealing} (haccounts : order.AccountsFor False answer dealings) :
    Dealing.textFed dealings = order.text := by
  have hothers (hallowed : ∀ dealing ∈ dealings, False ∨ dealing.ByEngine) :
      Dealing.textFed dealings = "" :=
    textFed_of_byEngine fun dealing hmem ↦ (hallowed dealing hmem).resolve_left id
  cases order with
  | feed text =>
    obtain ⟨-, rfl⟩ := haccounts
    exact String.append_empty
  | readInput =>
    obtain ⟨found, rfl, -⟩ := haccounts
    rfl
  | _ => exact hothers haccounts

/-- So the texts that are fed in the course of some orders are those of the orders. -/
theorem Order.textFed_flatten {orders : List Order} {answers : List (Except Halt Reply)}
    {ledgers : List (List Dealing)} (hlength : answers.length = orders.length)
    (haccounts : List.Forall₂ (fun given dealings ↦ given.1.AccountsFor False given.2 dealings)
      (orders.zip answers) ledgers) : Dealing.textFed ledgers.flatten = textFed orders := by
  induction orders generalizing answers ledgers with
  | nil =>
    cases haccounts
    rfl
  | cons order later ih =>
    cases answers with
    | nil => cases hlength
    | cons answer answers =>
      obtain _ | ⟨hthis, hothers⟩ := haccounts
      rw [List.flatten_cons, textFed_append, AccountsFor.textFed_eq hthis,
        ih (Nat.succ.inj hlength) hothers]
      rfl

/-- A run that is built has the initial text pending. -/
theorem Bench.pending_of_build {bench : Bench} {program : String} {run : Run}
    (hbuild : bench.build program = .ok run) :
    run.supply.pending = Supply.bytesOf bench.initialInput := by
  unfold Bench.build at hbuild
  simp only at hbuild
  split at hbuild
  · cases hbuild
    rfl
  · split at hbuild
    · cases hbuild
    · cases hbuild
      rfl

namespace Runner

variable {runner last : Runner} {audience : Audience} {position place : Nat} {hands : Prop}
variable {origin? : Option Run} {origin run : Run} {dealings : List Dealing} {order : Order}

/-- Every order has an answer. -/
theorem length_carryOut (audience : Audience) (orders : List Order) (runner : Runner) :
    (carryOut audience orders runner).1.length = orders.length := by
  induction orders generalizing runner with
  | nil => rfl
  | cons order later ih => exact congrArg (· + 1) (ih _)

/-! ### Where the input goes -/

/-- The input of the session goes to the run at a position. -/
structure Provided (runner : Runner) (position : Nat) (run : Run) : Prop where
  supplied : runner.supplied = some position
  found : runner.runs[position]? = some run

/-- As long as the input goes to the run at a position, that run has come from another one in the
course of some dealings, and it is the engine that reads in them if the observers have no hand in
them. Without another one, the input goes there no more. -/
structure Dealt (hands : Prop) (position : Nat) (origin? : Option Run) (runner : Runner) :
    Prop where
  lt : position < runner.runs.size
  dealt : runner.supplied = some position → ∃ origin ∈ origin?, ∃ dealings run,
    runner.runs[position]? = some run ∧ origin.Deals dealings run ∧
      ∀ dealing ∈ dealings, hands ∨ dealing.ByEngine

namespace Provided

variable (hprovided : runner.Provided position run)
include hprovided

theorem lt : position < runner.runs.size := (Array.getElem?_eq_some_iff.mp hprovided.found).1

theorem changeRun (change : Run → Run) :
    (runner.changeRun position change).Provided position (change run) where
  supplied := hprovided.supplied
  found := by
    simp only [Runner.changeRun, Array.getElem?_modify, if_true, hprovided.found, Option.map_some]

theorem dealt_of_deals (hdeals : origin.Deals dealings run)
    (hallowed : ∀ dealing ∈ dealings, hands ∨ dealing.ByEngine) :
    Dealt hands position (some origin) runner where
  lt := hprovided.lt
  dealt _ := ⟨origin, rfl, dealings, run, hprovided.found, hdeals, hallowed⟩

theorem dealt (hands : Prop) : Dealt hands position (some run) runner :=
  hprovided.dealt_of_deals (.nothing run) fun _ hmem ↦ absurd hmem List.not_mem_nil

/-- One dealing more. -/
theorem dealt_of_single {dealing : Dealing} (hdeals : origin.Deals (dealings ++ [dealing]) run)
    (hallowed : ∀ dealing ∈ dealings, hands ∨ dealing.ByEngine)
    (hthis : hands ∨ dealing.ByEngine) : Dealt hands position (some origin) runner := by
  refine hprovided.dealt_of_deals hdeals fun other hmem ↦ ?_
  rcases List.mem_append.mp hmem with hearlier | hsingle
  · exact hallowed other hearlier
  · rw [List.mem_singleton.mp hsingle]
    exact hthis

/-- A text that is fed is put behind what is pending. -/
theorem runFrom_feed (text : String) : runFrom (feed text) runner =
    (.ok (), runner.changeRun position fun run ↦ { run with supply := run.supply.feed text }) := by
  rw [feed, runFrom_bind, runFrom_get]
  simp only [hprovided.supplied]
  rfl

/-- A read past the engine finds the first of the bytes that are pending, and takes it away. -/
theorem exists_runFrom_readInput : ∃ last, runFrom readInput runner =
      (run.supply.pending.head?.elim (.error (.raised (.fault .noInput))) .ok, last) ∧
    last.Provided position { run with supply := run.supply.rest } := by
  rw [readInput, runFrom_bind, runFrom_get]
  simp only [hprovided.supplied, runFrom_bind, runAt, runFrom_get, hprovided.found, runFrom_pure]
  cases hpending : run.supply.pending with
  | nil =>
    have htake : run.supply.take = .error .noInput := by simp only [Supply.take, hpending]
    rw [htake, Supply.rest_of_nil hpending]
    exact ⟨runner, rfl, hprovided⟩
  | cons byte later =>
    have htake : run.supply.take = .ok (byte, ⟨later⟩) := by simp only [Supply.take, hpending]
    have hrest : run.supply.rest = ⟨later⟩ := by simp only [Supply.rest, hpending, List.tail_cons]
    rw [htake, hrest]
    exact ⟨_, rfl, hprovided.changeRun ({ · with supply := ⟨later⟩ })⟩

end Provided

namespace Dealt

theorem of_same (hdealt : Dealt hands position origin? runner) (hruns : last.runs = runner.runs)
    (hsupplied : last.supplied = runner.supplied) : Dealt hands position origin? last where
  lt := hruns ▸ hdealt.lt
  dealt hgoes := hruns ▸ hdealt.dealt (hsupplied ▸ hgoes)

/-- Where the input does not go, nothing is dealt with. -/
theorem of_other (hlt : position < runner.runs.size) (hother : runner.supplied ≠ some position) :
    Dealt hands position origin? runner :=
  ⟨hlt, fun hgoes ↦ absurd hgoes hother⟩

theorem supplied_ne (hdealt : Dealt hands position none runner) :
    runner.supplied ≠ some position := by
  intro hgoes
  obtain ⟨_, hnone, -⟩ := hdealt.dealt hgoes
  cases hnone

theorem of_none (hdealt : Dealt hands position none runner) : Dealt hands position origin? runner :=
  .of_other hdealt.lt hdealt.supplied_ne

/-- A change of a run makes no difference where the input does not go to that run. -/
theorem changeOther (hdealt : Dealt hands position origin? runner) (change : Run → Run)
    (hother : runner.supplied = some position → place ≠ position) :
    Dealt hands position origin? (runner.changeRun place change) where
  lt := by
    simp only [changeRun, Array.size_modify]
    exact hdealt.lt
  dealt hgoes := by
    obtain ⟨origin, horigin, dealings, run, hrun, hrest⟩ := hdealt.dealt hgoes
    refine ⟨origin, horigin, dealings, run, ?_, hrest⟩
    simp only [changeRun, Array.getElem?_modify, if_neg (hother hgoes), hrun]

/-- What becomes of the input from a later moment on becomes of it from an earlier one on. -/
theorem of_later (hdeals : origin.Deals dealings run)
    (hallowed : ∀ dealing ∈ dealings, hands ∨ dealing.ByEngine)
    (hlast : Dealt hands position (some run) last) : Dealt hands position (some origin) last where
  lt := hlast.lt
  dealt hgoes := by
    obtain ⟨_, ⟨⟩, further, next, hnext, hlater, hfurther⟩ := hlast.dealt hgoes
    refine ⟨origin, rfl, dealings ++ further, next, hnext, hdeals.trans hlater, ?_⟩
    exact fun dealing hmem ↦ (List.mem_append.mp hmem).elim (hallowed dealing) (hfurther dealing)

/-- What leaves the input alone where it does not go, and deals with it where it goes, keeps account
of it. -/
theorem of_provided {Result : Type} {activity : Action Result}
    (hgone : Preserves (Dealt hands position none) activity)
    (hgoes : ∀ {runner : Runner} {origin run : Run} {dealings : List Dealing},
      runner.Provided position run → origin.Deals dealings run →
      (∀ dealing ∈ dealings, hands ∨ dealing.ByEngine) →
      Yields (fun _ ↦ Dealt hands position (some origin)) activity runner
        fun _ ↦ Dealt hands position (some origin)) :
    Preserves (Dealt hands position origin?) activity := by
  intro runner hdealt
  by_cases hsupplied : runner.supplied = some position
  · obtain ⟨origin, horigin, dealings, run, hrun, hdeals, hallowed⟩ := hdealt.dealt hsupplied
    obtain rfl := Option.mem_def.mp horigin
    exact hgoes ⟨hsupplied, hrun⟩ hdeals hallowed
  · have hlast := hgone runner (.of_other hdealt.lt hsupplied)
    exact Yields.allow (Yields.mono hlast fun _ _ ↦ of_none) fun _ _ ↦ of_none

end Dealt

/-! ### The engine -/

section Dealt

variable (hreact : ∀ origin? sink, Preserves (Dealt hands position origin?) (audience.react sink))
include hreact

/-- The work of an engine to which the input does not go makes no difference. -/
theorem keeps_apart (origin? : Option Run) (place : Nat)
    (hother : origin? = none ∨ place ≠ position) :
    Preserves (Dealt hands position origin?) (advance audience place) ∧
      ∀ instruction, Preserves (Dealt hands position origin?)
        (execute audience place instruction) := by
  have hchanged {runner : Runner} (change : Run → Run)
      (hdealt : Dealt hands position origin? runner) :
      Dealt hands position origin? (runner.changeRun place change) := by
    refine hdealt.changeOther change fun hgoes ↦ hother.resolve_left ?_
    rintro rfl
    exact hdealt.supplied_ne hgoes
  have hsettled {runner : Runner} (hdealt : Dealt hands position origin? runner)
      (effect? : Option Effect) : Yields (fun _ ↦ Dealt hands position origin?)
        (settleAny audience place effect?) runner fun _ ↦ Dealt hands position origin? :=
    yields_settleAny (fun _ ↦ hdealt)
      (fun effect _ ↦ (hchanged (·.settle effect) hdealt).of_same rfl rfl)
      fun sink _ ↦ hreact origin? sink
  refine ⟨fun runner hdealt ↦ ?_, fun instruction runner hdealt ↦ ?_⟩
  · cases hrun : runner.runs[place]? with
    | none =>
      rw [Yields, advance, ends_bind, ends_runAt_iff, hrun]
      exact hdealt
    | some run =>
      refine (ends_advance hrun).mpr ?_
      cases run.turn runner.bench.script with
      | error error => exact hdealt
      | ok turn =>
        refine Ends.mono (hsettled hdealt turn.1) fun outcome middle hmiddle ↦ ?_
        rcases outcome with halt | _
        · exact hmiddle
        · exact hchanged (·.resumeAt turn.2) hmiddle
  · cases hrun : runner.runs[place]? with
    | none =>
      rw [Yields, execute, ends_bind, ends_runAt_iff, hrun]
      exact hdealt
    | some run =>
      refine (ends_execute hrun).mpr ?_
      cases run.aside runner.bench.script instruction with
      | error error => exact hdealt
      | ok effect? => exact hsettled hdealt effect?

/-- An effect of the run to which the input goes is connected before observers. -/
theorem yields_settleAny_dealt (hprovided : runner.Provided position run)
    (effect? : Option Effect) :
    Yields (fun _ ↦ Dealt hands position (some (run.settleAny effect?)))
      (settleAny audience position effect?) runner
      fun _ ↦ Dealt hands position (some (run.settleAny effect?)) := by
  refine yields_settleAny (fun hnone ↦ ?_) (fun effect heffect ↦ ?_) fun sink _ ↦ hreact _ sink
  · subst hnone
    exact hprovided.dealt hands
  · obtain rfl := Option.mem_def.mp heffect
    exact ((hprovided.changeRun (·.settle effect)).dealt hands).of_same rfl rfl

theorem yields_advance_dealt (hprovided : runner.Provided position run)
    (hdeals : origin.Deals dealings run)
    (hallowed : ∀ dealing ∈ dealings, hands ∨ dealing.ByEngine) :
    Yields (fun _ ↦ Dealt hands position (some origin)) (advance audience position) runner
      fun _ ↦ Dealt hands position (some origin) := by
  refine (ends_advance hprovided.found).mpr ?_
  cases hturn : run.turn runner.bench.script with
  | error error =>
    by_cases hmissed : error = .fault .noInput
    · subst hmissed
      exact hprovided.dealt_of_single (hdeals.missed hturn) hallowed (.inr trivial)
    · exact hprovided.dealt_of_deals hdeals hallowed
  | ok turn =>
    obtain ⟨effect?, counter⟩ := turn
    have hread : ∀ dealing ∈ dealings ++ Run.intake run.atRead effect?,
        hands ∨ dealing.ByEngine := by
      intro dealing hmem
      exact (List.mem_append.mp hmem).elim (hallowed dealing)
        fun hintake ↦ .inr (Run.byEngine_of_mem_intake hintake)
    refine Ends.mono (yields_settleAny_dealt hreact hprovided effect?)
      fun outcome middle hmiddle ↦ ?_
    rcases outcome with halt | _
    · exact .of_later (hdeals.brokenOff hturn) hread hmiddle
    · by_cases hgoes : middle.supplied = some position
      · obtain ⟨_, ⟨⟩, further, next, hnext, hlater, hfurther⟩ := hmiddle.dealt hgoes
        have hlast : middle.Provided position next := ⟨hgoes, hnext⟩
        refine (hlast.changeRun (·.resumeAt counter)).dealt_of_deals (hdeals.turn hturn hlater)
          fun dealing hmem ↦ ?_
        rw [← List.append_assoc] at hmem
        exact (List.mem_append.mp hmem).elim (hread dealing) (hfurther dealing)
      · have hgone : Dealt hands position none middle := .of_other hmiddle.lt hgoes
        exact (hgone.changeOther (·.resumeAt counter) fun hback ↦ absurd hback hgoes).of_none

theorem yields_execute_dealt (hprovided : runner.Provided position run)
    (hdeals : origin.Deals dealings run)
    (hallowed : ∀ dealing ∈ dealings, hands ∨ dealing.ByEngine) (instruction : String) :
    Yields (fun _ ↦ Dealt hands position (some origin)) (execute audience position instruction)
      runner fun _ ↦ Dealt hands position (some origin) := by
  refine (ends_execute hprovided.found).mpr ?_
  cases haside : run.aside runner.bench.script instruction with
  | error error =>
    by_cases hmissed : error = .fault .noInput
    · subst hmissed
      exact hprovided.dealt_of_single (hdeals.missedBeside haside) hallowed (.inr trivial)
    · exact hprovided.dealt_of_deals hdeals hallowed
  | ok effect? =>
    have hread : ∀ dealing ∈ dealings ++ Run.intake (run.readsBeside instruction) effect?,
        hands ∨ dealing.ByEngine := by
      intro dealing hmem
      exact (List.mem_append.mp hmem).elim (hallowed dealing)
        fun hintake ↦ .inr (Run.byEngine_of_mem_intake hintake)
    have hsettled := yields_settleAny_dealt hreact hprovided effect?
    exact Yields.allow (Yields.mono hsettled fun _ _ ↦ .of_later (hdeals.beside haside) hread)
      fun _ _ ↦ .of_later (hdeals.beside haside) hread

/-- Whatever engine works, the dealings go on if the input goes to its run. -/
theorem keeps_work (place : Nat) :
    Preserves (Dealt hands position origin?) (advance audience place) ∧
      ∀ instruction, Preserves (Dealt hands position origin?)
        (execute audience place instruction) := by
  by_cases hplace : place = position
  · subst hplace
    obtain ⟨hadvance, hexecute⟩ := keeps_apart hreact none place (.inl rfl)
    refine ⟨Dealt.of_provided hadvance fun hprovided hdeals hallowed ↦ ?_, fun instruction ↦
      Dealt.of_provided (hexecute instruction) fun hprovided hdeals hallowed ↦ ?_⟩
    · exact yields_advance_dealt hreact hprovided hdeals hallowed
    · exact yields_execute_dealt hreact hprovided hdeals hallowed instruction
  · exact keeps_apart hreact origin? place (.inr hplace)

/-- Between starts and stops, the work of the engine is all that becomes of the input. -/
theorem interim_dealt (origin? : Option Run) : Interim audience (fun _ ↦ True)
    (Dealt hands position origin?) fun _ ↦ Dealt hands position origin? where
  minor hdealt hminor := hdealt.of_same hminor.runs_eq hminor.supplied_eq
  allowed _ := id
  raised := id
  attached _ _ := trivial
  advance _ := (keeps_work hreact _).1
  execute instruction _ := (keeps_work hreact _).2 instruction
  react := hreact origin?

/-! ### Orders -/

/-- What is so from the moment on at which a start sends the input to a new run goes on to be so. -/
theorem yields_start_dealt {program : String} {options : StartOptions}
    (hbuild : runner.bench.build program = .ok run)
    (hbegun : ∀ session : Session, Dealt hands position origin? { runner with
      session, runs := runner.runs.push run, supplied := some runner.runs.size }) :
    Yields (fun _ ↦ Dealt hands position origin?) (start audience program options) runner
      fun _ ↦ Dealt hands position origin? := by
  have hinterim := interim_dealt hreact origin?
  have hattached (attached : Option Nat) (journal : Runner → Journal) :
      Preserves (Dealt hands position origin?)
        (modify fun runner ↦ { runner with attached, journal := journal runner }) :=
    Keeps.modify fun _ hdealt ↦ hdealt.of_same rfl rfl
  rw [start, Yields, ends_bind, ends_get]
  simp only [hbuild]
  rw [ends_bind, ends_set]
  exact (hinterim.keeps_disarm.bind fun _ ↦ (hattached _ _).bind fun _ ↦
    (hinterim.keeps_log _ _ _).bind fun _ ↦ (hinterim.keeps_tell .started).bind fun _ ↦
      hinterim.keeps_rearm) _ (hbegun _)

/-- A start sends the input to a new run. -/
theorem preserves_start_dealt (program : String) (options : StartOptions) :
    Preserves (Dealt hands position origin?) (start audience program options) := by
  intro runner hdealt
  cases hbuild : runner.bench.build program with
  | error error => exact (ends_start_of_unbuilt hbuild).mpr hdealt
  | ok run =>
    refine yields_start_dealt hreact hbuild fun session ↦ .of_other ?_ fun hgoes ↦ ?_
    · exact Nat.lt_trans hdealt.lt (Array.size_push run ▸ Nat.lt_succ_self _)
    · exact absurd (Option.some.inj hgoes) (Nat.ne_of_gt hdealt.lt)

/-- A stop sends the input nowhere. -/
theorem preserves_stop_dealt : Preserves (Dealt hands position origin?) (stop audience) := by
  have hinterim := interim_dealt hreact origin?
  have hended : Preserves (Dealt hands position origin?)
      (modifySession ({ · with active := false, status := none })) :=
    Keeps.modify fun _ hdealt ↦ hdealt.of_same rfl rfl
  have hfreed : Preserves (Dealt hands position origin?)
      (modify fun runner : Runner ↦ { runner with supplied := none }) :=
    Keeps.modify fun _ hdealt ↦ .of_other hdealt.lt (Option.some_ne_none position).symm
  have hforgotten : Preserves (Dealt hands position origin?)
      (modify fun runner : Runner ↦ { runner with journal := runner.journal.clear }) :=
    Keeps.modify fun _ hdealt ↦ hdealt.of_same rfl rfl
  refine Keeps.get_bind fun runner hdealt ↦ ?_
  split
  · refine (hended.bind fun _ ↦ hinterim.keeps_detach.bind fun _ ↦ hfreed.bind fun _ ↦
      Keeps.get_bind fun shown ↦ ?_) runner hdealt
    exact ((hinterim.keeps_log _ _ _).bind fun _ ↦
      (hinterim.keeps_tell .stopped).bind fun _ ↦ hforgotten) shown
  · exact hdealt

omit hreact in
/-- A text that is fed is put where the input goes. -/
theorem preserves_feed_dealt (hhandles : hands ∨ origin? = none) (text : String) :
    Preserves (Dealt hands position origin?) (feed text) := by
  intro runner hdealt
  by_cases hgoes : runner.supplied = some position
  · obtain ⟨origin, horigin, dealings, run, hrun, hdeals, hallowed⟩ := hdealt.dealt hgoes
    obtain rfl := Option.mem_def.mp horigin
    have hhands : hands := hhandles.resolve_right (Option.some_ne_none origin)
    have hprovided : runner.Provided position run := ⟨hgoes, hrun⟩
    rw [Yields, Ends, hprovided.runFrom_feed text]
    exact (hprovided.changeRun _).dealt_of_single (hdeals.feed text) hallowed (.inl hhands)
  · rw [Yields, feed, ends_bind, ends_get]
    simp only
    split
    · exact hdealt
    · exact hdealt.changeOther _ fun hback ↦ absurd hback hgoes

omit hreact in
/-- A read past the engine takes from where the input goes. -/
theorem preserves_readInput_dealt (hhandles : hands ∨ origin? = none) :
    Preserves (Dealt hands position origin?) readInput := by
  intro runner hdealt
  by_cases hgoes : runner.supplied = some position
  · obtain ⟨origin, horigin, dealings, run, hrun, hdeals, hallowed⟩ := hdealt.dealt hgoes
    obtain rfl := Option.mem_def.mp horigin
    have hhands : hands := hhandles.resolve_right (Option.some_ne_none origin)
    have hprovided : runner.Provided position run := ⟨hgoes, hrun⟩
    obtain ⟨last, hread, hlast⟩ := hprovided.exists_runFrom_readInput
    rw [Yields, Ends, hread]
    have hdealt := hlast.dealt_of_single hdeals.read hallowed (.inl hhands)
    cases run.supply.pending.head? <;> exact hdealt
  · rw [Yields, readInput, ends_bind, ends_get]
    simp only
    split
    · exact hdealt
    · next place _ =>
      rw [ends_bind, ends_runAt_iff]
      cases runner.runs[place]? with
      | none => exact hdealt
      | some run =>
        simp only
        cases run.supply.take with
        | error fault => exact hdealt
        | ok taken => exact hdealt.changeOther _ fun hback ↦ absurd hback hgoes

/-- An order that does not deal with the input itself leaves it to the engine. -/
theorem preserves_obey_of_leaves (hleaves : ¬ order.HandlesInput) :
    Preserves (Dealt hands position origin?) (obey audience order) := by
  have hanswer {Result : Type} {activity : Action Result}
      (hpreserves : Preserves (Dealt hands position origin?) activity) (reply : Result → Reply) :
      Preserves (Dealt hands position origin?) (do return reply (← activity)) :=
    hpreserves.bind fun result ↦ Keeps.pure (reply result)
  have hmodified {change : Runner → Runner} (hruns : ∀ runner, (change runner).runs = runner.runs)
      (hsupplied : ∀ runner, (change runner).supplied = runner.supplied) :
      Preserves (Dealt hands position origin?) (do modify change; return Reply.nothing) :=
    hanswer (Keeps.modify fun runner hdealt ↦ hdealt.of_same (hruns runner) (hsupplied runner))
      fun _ ↦ .nothing
  have hinterim := interim_dealt hreact origin?
  cases order with
  | feed text => exact (hleaves trivial).elim
  | readInput => exact (hleaves trivial).elim
  | start program options =>
    exact hanswer (preserves_start_dealt hreact program options) fun _ ↦ .nothing
  | stop => exact hanswer (preserves_stop_dealt hreact) fun _ ↦ .nothing
  | shutdown =>
    exact hanswer ((preserves_stop_dealt hreact).bind fun _ ↦ hinterim.keeps_detach)
      fun _ ↦ .nothing
  | clearOutput => exact hmodified (fun _ ↦ rfl) fun _ ↦ rfl
  | pokeActive active => exact hmodified (fun _ ↦ rfl) fun _ ↦ rfl
  | drain speed =>
    refine hinterim.preserves_drain (fun _ ↦ Keeps.modify fun _ hdealt ↦ ?_) speed
    exact hdealt.of_same rfl rfl
  | _ => exact hinterim.keeps_obey trivial

/-- Every order has its part in the dealings with the input, if the input goes there after it. -/
theorem accounts_obey (order : Order) (hprovided : runner.Provided position run) :
    Ends (obey audience order) runner fun answer last ↦ position < last.runs.size ∧
      (last.supplied = some position → ∃ dealings next, last.Provided position next ∧
        run.Deals dealings next ∧ order.AccountsFor hands answer dealings) := by
  have hothers (hleaves : ¬ order.HandlesInput) :
      Ends (obey audience order) runner fun _ last ↦ position < last.runs.size ∧
        (last.supplied = some position → ∃ dealings next, last.Provided position next ∧
          run.Deals dealings next ∧ ∀ dealing ∈ dealings, hands ∨ dealing.ByEngine) := by
    have hlast : Ends (obey audience order) runner fun _ ↦ Dealt hands position (some run) :=
      ends_iff_yields.mpr
        (preserves_obey_of_leaves hreact hleaves runner (hprovided.dealt hands))
    refine Ends.mono hlast fun _ last hdealt ↦ ⟨hdealt.lt, fun hgoes ↦ ?_⟩
    obtain ⟨_, ⟨⟩, dealings, next, hnext, hdeals, hallowed⟩ := hdealt.dealt hgoes
    exact ⟨dealings, next, ⟨hgoes, hnext⟩, hdeals, hallowed⟩
  cases order with
  | feed text =>
    have hlast := hprovided.changeRun fun run ↦ { run with supply := run.supply.feed text }
    rw [Ends, obey, runFrom_bind, hprovided.runFrom_feed text]
    exact ⟨hlast.lt, fun _ ↦ ⟨_, _, hlast, (Run.Deals.nothing run).feed text, rfl, rfl⟩⟩
  | readInput =>
    obtain ⟨last, hread, hlast⟩ := hprovided.exists_runFrom_readInput
    have hdeals : run.Deals [.read .outsider run.supply.pending.head?]
        { run with supply := run.supply.rest } := (Run.Deals.nothing run).read
    rw [Ends, obey, runFrom_bind, hread]
    generalize run.supply.pending.head? = found at hdeals
    cases found with
    | none => exact ⟨hlast.lt, fun _ ↦ ⟨_, _, hlast, hdeals, none, rfl, rfl⟩⟩
    | some byte => exact ⟨hlast.lt, fun _ ↦ ⟨_, _, hlast, hdeals, some byte, rfl, rfl⟩⟩
  | _ => exact hothers id

/-- Every order keeps account of the input, if the observers may deal with it where the order
does. -/
theorem preserves_obey_dealt (hhandles : order.HandlesInput → hands ∨ origin? = none) :
    Preserves (Dealt hands position origin?) (obey audience order) := by
  cases order with
  | feed text => exact (preserves_feed_dealt (hhandles trivial) text).bind fun _ ↦ Keeps.pure _
  | readInput =>
    exact (preserves_readInput_dealt (hhandles trivial)).bind fun _ ↦ Keeps.pure _
  | _ => exact preserves_obey_of_leaves hreact id

/-- Where the input once goes no more, it goes no more after any orders. -/
theorem supplied_ne_carryOut {orders : List Order} (hlt : position < runner.runs.size)
    (hgone : runner.supplied ≠ some position) :
    (carryOut audience orders runner).2.supplied ≠ some position := by
  have hdealt : Dealt hands position none runner := .of_other hlt hgone
  have hlast : Dealt hands position none (carryOut audience orders runner).2 :=
    preserved_carryOut (fun _ _ ↦ preserves_obey_dealt hreact fun _ ↦ .inr rfl) hdealt
  exact hlast.supplied_ne

/-- Orders have one part after the other in the dealings with the input, if the input still goes
there after all of them. -/
theorem accounts_carryOut {orders : List Order} (hprovided : runner.Provided position run)
    (hgoes : (carryOut audience orders runner).2.supplied = some position) : ∃ ledgers next,
      (carryOut audience orders runner).2.Provided position next ∧
      run.Deals ledgers.flatten next ∧
      List.Forall₂ (fun given dealings ↦ given.1.AccountsFor hands given.2 dealings)
        (orders.zip (carryOut audience orders runner).1) ledgers := by
  induction orders generalizing runner run with
  | nil => exact ⟨[], run, hprovided, .nothing run, .nil⟩
  | cons order later ih =>
    obtain ⟨hlt, haccount⟩ := accounts_obey hreact order hprovided
    have hstays : (runFrom (obey audience order) runner).2.supplied = some position := by
      by_contra hgone
      exact supplied_ne_carryOut hreact hlt hgone hgoes
    obtain ⟨dealings, middle, hmiddle, hdeals, haccounts⟩ := haccount hstays
    obtain ⟨ledgers, next, hnext, hlater, hledgers⟩ := ih hmiddle hgoes
    exact ⟨dealings :: ledgers, next, hnext, hdeals.trans hlater, .cons haccounts hledgers⟩

end Dealt

/-! ### From a start on -/

section Conducted

variable {conduct : Nat → Runner → Conduct}
variable (hconduct : ∀ position runner, (conduct position runner).Gives
  (fun _ order ↦ order.HandlesInput → hands) runner)
include hconduct

/-- Observers keep account of the input, to whatever depth orders are given inside of orders. -/
theorem preserves_react_dealt (cut : Runner → Bool) (patience depth position : Nat)
    (origin? : Option Run) (sink : Nat) : Preserves (Dealt hands position origin?)
      ((Audience.conductedUntil cut conduct patience depth).react sink) := by
  induction depth generalizing origin? sink with
  | zero => exact fun _ hdealt ↦ hdealt
  | succ depth ih =>
    refine preserves_react_of_gives (fun _ _ hdealt ↦ hdealt.of_same rfl rfl)
      (fun order runner hdealt hhandles ↦ ?_) hconduct sink
    exact preserves_obey_dealt ih (fun horder ↦ .inl (hhandles horder)) runner hdealt

/-- A start and the orders after it have one part after the other in the dealings with the input,
from the run on that is built for the start, if the input goes to that run after all of them. -/
theorem accounts_session {cut : Runner → Bool} {patience depth : Nat} {program : String}
    {options : StartOptions} {newcomer : Run}
    (hbuild : runner.bench.build program = .ok newcomer) {orders : List Order} :
    let ended := carryOut (.conductedUntil cut conduct patience depth)
      (.start program options :: orders) runner
    ended.2.supplied = some runner.runs.size →
    ∃ ledgers run, ended.2.Provided runner.runs.size run ∧ newcomer.Deals ledgers.flatten run ∧
      List.Forall₂ (fun given dealings ↦ given.1.AccountsFor hands given.2 dealings)
        ((.start program options :: orders).zip ended.1) ledgers := by
  intro ended hgoes
  have hreact := preserves_react_dealt hconduct cut patience depth runner.runs.size
  have hbegun (session : Session) : Dealt hands runner.runs.size (some newcomer) { runner with
      session, runs := runner.runs.push newcomer, supplied := some runner.runs.size } :=
    Provided.dealt ⟨rfl, Array.getElem?_push_size⟩ hands
  have hstarted : Ends (obey (.conductedUntil cut conduct patience depth)
      (.start program options)) runner fun _ ↦ Dealt hands runner.runs.size (some newcomer) :=
    ends_iff_yields.mpr ((yields_start_dealt hreact hbuild hbegun).bind fun _ _ hlast ↦ hlast)
  have hstays : (runFrom (obey (.conductedUntil cut conduct patience depth)
      (.start program options)) runner).2.supplied = some runner.runs.size := by
    by_contra hgone
    exact supplied_ne_carryOut hreact hstarted.lt hgone hgoes
  obtain ⟨_, ⟨⟩, dealings, middle, hmiddle, hdeals, hallowed⟩ := hstarted.dealt hstays
  obtain ⟨ledgers, run, hprovided, hlater, haccounts⟩ :=
    accounts_carryOut hreact ⟨hstays, hmiddle⟩ hgoes
  exact ⟨dealings :: ledgers, run, hprovided, hdeals.trans hlater, .cons hallowed haccounts⟩

end Conducted

end Runner

end TapeRunner
