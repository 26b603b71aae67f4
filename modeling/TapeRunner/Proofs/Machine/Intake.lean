import TapeRunner.Proofs.Machine.Feeding
import TapeRunner.Proofs.Machine.Safety

/-!
# Where input goes

A supply is dealt with in two ways: a text is fed to it, or somebody reads from it, and finds a byte
or nothing (`Supply.Deals`). What is read, in order, and what is still pending behind it is what was
pending at first and behind it what was fed (`Supply.Deals.bytesRead_append_pending`). So nothing is
left to find exactly if as many bytes have been read as there were
(`Supply.Deals.pending_eq_nil_iff`).

A machine takes a byte from its input with every read and with nothing else, and puts it into the
cell under its head (`Machine.advance_takes`, `Machine.execute_takes`); it misses one only at a
read for which nothing is offered (`Machine.advance_eq_noInput_iff`,
`Machine.execute_eq_noInput_iff`).
-/

set_option autoImplicit false
set_option relaxedAutoImplicit false

namespace TapeRunner

/-! ### Dealing with a supply -/

/-- Who reads: an engine, or somebody past it. -/
inductive Consumer
  | engine
  | outsider
deriving DecidableEq

/-- What becomes of a supply at a time: a text is fed, or somebody reads and finds a byte or
nothing. -/
inductive Dealing
  | fed (text : String)
  | read (consumer : Consumer) (found : Option UInt8)
deriving DecidableEq

namespace Dealing

/-- The byte that is read, if one is found. -/
def byte? : Dealing → Option UInt8
  | fed _ => none
  | read _ found => found

/-- An engine reads. -/
def ByEngine : Dealing → Prop
  | read .engine _ => True
  | _ => False

/-- The bytes that are read in the course of some dealings. -/
def bytesRead (dealings : List Dealing) : List UInt8 := dealings.filterMap byte?

/-- The texts that are fed in the course of some dealings, as one. -/
def textFed : List Dealing → String
  | [] => ""
  | fed text :: later => text ++ textFed later
  | read _ _ :: later => textFed later

/-- As many bytes have been read in the course of some dealings as there were characters, of a text
at first and of those fed. -/
def UsedUp (initial : String) (dealings : List Dealing) : Prop :=
  (bytesRead dealings).length = (initial ++ textFed dealings).length

@[simp] theorem bytesRead_nil : bytesRead [] = [] := rfl

@[simp] theorem textFed_nil : textFed [] = "" := rfl

@[simp] theorem bytesRead_fed (text : String) (later : List Dealing) :
    bytesRead (.fed text :: later) = bytesRead later := rfl

@[simp] theorem textFed_fed (text : String) (later : List Dealing) :
    textFed (.fed text :: later) = text ++ textFed later := rfl

@[simp] theorem bytesRead_read (consumer : Consumer) (found : Option UInt8)
    (later : List Dealing) :
    bytesRead (.read consumer found :: later) = found.toList ++ bytesRead later := by
  cases found <;> rfl

@[simp] theorem textFed_read (consumer : Consumer) (found : Option UInt8)
    (later : List Dealing) : textFed (.read consumer found :: later) = textFed later := rfl

@[simp] theorem textFed_append (dealings later : List Dealing) :
    textFed (dealings ++ later) = textFed dealings ++ textFed later := by
  induction dealings with
  | nil => exact String.empty_append.symm
  | cons dealing dealings ih =>
    cases dealing with
    | fed text => simp only [List.cons_append, textFed_fed, ih, String.append_assoc]
    | read consumer found => simp only [List.cons_append, textFed_read, ih]

/-- No text is fed by reading. -/
theorem textFed_of_byEngine {dealings : List Dealing}
    (hreads : ∀ dealing ∈ dealings, dealing.ByEngine) : textFed dealings = "" := by
  induction dealings with
  | nil => rfl
  | cons dealing later ih =>
    cases dealing with
    | fed text => exact (hreads (.fed text) List.mem_cons_self).elim
    | read consumer found =>
      exact ih fun other hother ↦ hreads other (List.mem_cons_of_mem _ hother)

end Dealing

namespace Supply

open Dealing

/-- A supply comes to another one in the course of some dealings. Whoever reads finds the first of
the bytes that are pending. -/
inductive Deals : Supply → List Dealing → Supply → Prop
  | nothing (supply : Supply) : Deals supply [] supply
  | feed {supply last : Supply} {later : List Dealing} (text : String) :
      Deals (supply.feed text) later last → Deals supply (.fed text :: later) last
  | read {supply last : Supply} {later : List Dealing} (consumer : Consumer) :
      Deals supply.rest later last →
      Deals supply (.read consumer supply.pending.head? :: later) last

/-- The bytes of a text are its code points modulo 256. -/
theorem map_toNat_bytesOf (text : String) :
    (bytesOf text).map UInt8.toNat = text.toList.map (·.toNat % 256) := by
  rw [bytesOf, List.map_map]
  refine List.map_congr_left fun character _ ↦ ?_
  have hmod : ((character.toNat : Int) % 256).toNat = character.toNat % 256 := by omega
  rw [Function.comp_apply, byteOf, hmod, UInt8.toNat_ofNat', Nat.mod_mod]

/-- There is one byte for every character. -/
theorem length_bytesOf (text : String) : (bytesOf text).length = text.length := by
  rw [bytesOf, List.length_map, String.length_toList]

variable {supply middle last : Supply} {dealings earlier later : List Dealing}

/-- Whoever reads takes away what is found. -/
theorem toList_head?_append_pending_rest (supply : Supply) :
    supply.pending.head?.toList ++ supply.rest.pending = supply.pending := by
  rcases supply with ⟨_ | ⟨byte, later⟩⟩ <;> rfl

/-- Where nothing is pending, a read leaves the supply as it is. -/
theorem rest_of_nil (hnil : supply.pending = []) : supply.rest = supply := by
  obtain ⟨pending⟩ := supply
  obtain rfl : pending = [] := hnil
  rfl

namespace Deals

/-- Dealings follow on dealings. -/
theorem trans (hfirst : supply.Deals earlier middle) (hsecond : middle.Deals later last) :
    supply.Deals (earlier ++ later) last := by
  induction hfirst with
  | nothing supply => exact hsecond
  | feed text _ ih => exact .feed text (ih hsecond)
  | read consumer _ ih => exact .read consumer (ih hsecond)

/-- Where nothing is pending, whoever reads misses a byte and leaves the supply as it is. -/
theorem missed (hnil : supply.pending = []) (consumer : Consumer) :
    supply.Deals [.read consumer none] supply := by
  have hread : supply.Deals [.read consumer supply.pending.head?] supply.rest :=
    .read consumer (.nothing _)
  rwa [hnil, rest_of_nil hnil] at hread

/-- At every time in the course of some dealings there is a supply to deal with. -/
theorem exists_between (hdeals : supply.Deals (earlier ++ later) last) :
    ∃ middle, supply.Deals earlier middle ∧ middle.Deals later last := by
  induction earlier generalizing supply with
  | nil => exact ⟨supply, .nothing supply, hdeals⟩
  | cons dealing earlier ih =>
    cases hdeals with
    | feed text hlater =>
      obtain ⟨middle, hfirst, hsecond⟩ := ih hlater
      exact ⟨middle, .feed text hfirst, hsecond⟩
    | read consumer hlater =>
      obtain ⟨middle, hfirst, hsecond⟩ := ih hlater
      exact ⟨middle, .read consumer hfirst, hsecond⟩

/-- No byte is lost, doubled or put before another one: what has been read, and behind it what is
pending, is what was pending at first, and behind it what has been fed. -/
theorem bytesRead_append_pending (hdeals : supply.Deals dealings last) :
    bytesRead dealings ++ last.pending = supply.pending ++ bytesOf (textFed dealings) := by
  induction hdeals with
  | nothing supply => exact (List.append_nil _).symm
  | @feed supply last later text _ ih =>
    calc bytesRead (.fed text :: later) ++ last.pending
      _ = supply.pending ++ bytesOf text ++ bytesOf (textFed later) := ih
      _ = supply.pending ++ bytesOf (textFed (.fed text :: later)) := by
        rw [textFed_fed, bytesOf_append, List.append_assoc]
  | @read supply last later consumer _ ih =>
    calc bytesRead (.read consumer supply.pending.head? :: later) ++ last.pending
      _ = supply.pending.head?.toList ++ (supply.rest.pending ++ bytesOf (textFed later)) := by
        rw [bytesRead_read, List.append_assoc, ih]
      _ = supply.pending ++ bytesOf (textFed later) := by
        rw [← List.append_assoc, toList_head?_append_pending_rest]

/-- Nothing is pending exactly if as many bytes have been read as there were. -/
theorem pending_eq_nil_iff (hdeals : supply.Deals dealings last) : last.pending = [] ↔
    (bytesRead dealings).length = supply.pending.length + (textFed dealings).length := by
  have hlengths := congrArg List.length hdeals.bytesRead_append_pending
  simp only [List.length_append, length_bytesOf] at hlengths
  rw [← List.length_eq_zero_iff]
  omega

/-- Whoever reads first finds nothing exactly if nothing is pending. -/
theorem found_eq_none_iff {consumer : Consumer} {found : Option UInt8}
    (hdeals : supply.Deals (.read consumer found :: later) last) :
    found = none ↔ supply.pending = [] := by
  cases hdeals
  rw [List.head?_eq_none_iff]

end Deals

end Supply

/-! ### What a machine takes -/

theorem Command.ofChar?_eq_read_iff (character : Char) :
    Command.ofChar? character = some .read ↔ character = ',' := by
  constructor
  · intro hread
    unfold ofChar? at hread
    split at hread
    · cases hread
    · cases hread
    · cases hread
    · cases hread
    · cases hread
    · rfl
    · cases hread
  · rintro rfl
    rfl

theorem Symbol.ofChar_eq_read_iff (character : Char) :
    Symbol.ofChar character = .command .read ↔ character = ',' := by
  constructor
  · intro hread
    unfold ofChar at hread
    split at hread
    · cases hread
    · split at hread
      · cases hread
      · split at hread
        · next found hfound =>
          cases hread
          exact (Command.ofChar?_eq_read_iff character).mp hfound
        · cases hread
  · rintro rfl
    rfl

/-- An effect takes what is offered if the machine is reading, and puts it into the cell under the
head, and takes nothing otherwise. -/
def Effect.Takes (effect : Effect) (reading : Bool) (offered : Option Int) : Prop :=
  effect.consumed = reading ∧ (reading = true → ∃ number, offered = some number ∧
    effect.machine.cells[effect.machine.head]? = some (byteOf number))

theorem Effect.takes_of_quiet {effect : Effect} (hquiet : effect.consumed = false)
    (offered : Option Int) : effect.Takes false offered :=
  ⟨hquiet, fun hreading ↦ absurd hreading Bool.false_ne_true⟩

namespace Machine

variable {machine : Machine} {offered : Option Int} {effect : Effect} {counter : Nat}
variable {command : Command} {instruction : String}

/-- There is a read under the counter. -/
def atRead (machine : Machine) : Bool := machine.code[machine.counter]? = some ','

theorem perform_takes (hdone : machine.perform offered command = .ok effect) :
    effect.Takes (command = .read) offered := by
  have hquiet {change : UInt8 → UInt8}
      (hmapped : (machine.update change).map quietly = .ok effect) :
      effect.Takes false offered := by
    obtain ⟨next, -, rfl⟩ := exists_ok_of_map_eq_ok hmapped
    exact Effect.takes_of_quiet rfl offered
  cases command with
  | increment => exact hquiet hdone
  | decrement => exact hquiet hdone
  | right | left | write =>
    simp only [perform] at hdone
    split at hdone
    · cases hdone <;> exact Effect.takes_of_quiet rfl offered
    · cases hdone <;> exact Effect.takes_of_quiet rfl offered
  | read =>
    cases offered with
    | none => cases hdone
    | some number =>
      obtain ⟨next, hupdate, rfl⟩ := exists_ok_of_map_eq_ok hdone
      refine ⟨rfl, fun _ ↦ ⟨number, rfl, ?_⟩⟩
      unfold update at hupdate
      split at hupdate
      · next hinside =>
        cases hupdate
        exact Array.getElem?_set_self hinside
      · cases hupdate

theorem perform_eq_noInput_iff : machine.perform offered command = .error (.fault .noInput) ↔
    command = .read ∧ offered = none := by
  have hupdated (change : UInt8 → UInt8) (finish : Machine → Effect) :
      (machine.update change).map finish ≠ .error (.fault .noInput) := by
    unfold update
    split <;> simp [Except.map]
  cases command with
  | increment => simpa [perform] using hupdated _ _
  | decrement => simpa [perform] using hupdated _ _
  | right | left | write =>
    simp only [perform, reduceCtorEq, false_and, iff_false]
    split <;> simp [Fault.noInput]
  | read =>
    cases offered with
    | none => simp only [perform, and_self]
    | some number => simpa [perform] using hupdated _ _

/-- A bracket misses no input. -/
theorem branch_ne_noInput (machine : Machine) (bracket : Char) (leaves : UInt8 → Bool) :
    machine.branch bracket leaves ≠ .error (.fault .noInput) := by
  unfold branch
  split
  · simp [Fault.noInput]
  · split
    · simp
    · split
      · split <;> simp
      · simp

/-- A step that turns at a bracket neither misses any input nor changes anything. -/
theorem quietly_of_branch {bracket : Char} {leaves : UInt8 → Bool}
    (hturns : machine.advance offered =
      (machine.branch bracket leaves).map (machine.quietly, ·)) :
    machine.advance offered ≠ .error (.fault .noInput) ∧
      ∀ effect counter, machine.advance offered = .ok (effect, counter) →
        effect = machine.quietly := by
  have hbranch := machine.branch_ne_noInput bracket leaves
  rw [hturns]
  cases hgoes : machine.branch bracket leaves with
  | error stop =>
    rw [hgoes] at hbranch
    simpa [Except.map] using hbranch
  | ok place =>
    simp only [Except.map, ne_eq, reduceCtorEq, not_false_eq_true, true_and]
    rintro _ _ ⟨⟩
    rfl

/-- A step performs a command, which is a read if there is one under the counter, or there is none
and the step neither misses any input nor changes anything. -/
theorem advance_intake (machine : Machine) (offered : Option Int) :
    (∃ command : Command, machine.atRead = decide (command = .read) ∧
      machine.advance offered =
        (machine.perform offered command).map (·, machine.counter + 1)) ∨
    machine.atRead = false ∧ machine.advance offered ≠ .error (.fault .noInput) ∧
      ∀ effect counter, machine.advance offered = .ok (effect, counter) →
        effect = machine.quietly := by
  by_cases hinside : machine.counter < machine.code.size
  · have hfound := Array.getElem?_eq_getElem hinside
    have hread : machine.atRead =
        decide (Symbol.ofChar machine.code[machine.counter] = .command .read) := by
      simp only [atRead, hfound, Option.some.injEq, Symbol.ofChar_eq_read_iff]
    have hadvance := machine.advance_of_found offered hfound
    cases hsymbol : Symbol.ofChar machine.code[machine.counter] with
    | command command =>
      rw [hsymbol] at hadvance hread
      simp only [Symbol.command.injEq] at hread
      exact .inl ⟨command, hread, hadvance⟩
    | loopStart =>
      rw [hsymbol] at hadvance hread
      exact .inr ⟨hread, quietly_of_branch hadvance⟩
    | loopEnd =>
      rw [hsymbol] at hadvance hread
      exact .inr ⟨hread, quietly_of_branch hadvance⟩
    | comment =>
      rw [hsymbol] at hadvance hread
      simp only [hadvance, ne_eq, reduceCtorEq, not_false_eq_true, true_and]
      refine .inr ⟨hread, ?_⟩
      rintro _ _ ⟨⟩
      rfl
  · have hnone := Array.getElem?_eq_none (Nat.le_of_not_lt hinside)
    have hread : machine.atRead = false := by
      simp only [atRead, hnone, reduceCtorEq, decide_false]
    rw [advance, dif_neg hinside]
    exact .inr ⟨hread, by simp [Fault.noInput]⟩

/-- A step takes what is offered with a read, and with nothing else. -/
theorem advance_takes (hdone : machine.advance offered = .ok (effect, counter)) :
    effect.Takes machine.atRead offered := by
  rcases machine.advance_intake offered with ⟨command, hread, hperform⟩ | ⟨hread, -, hquiet⟩
  · obtain ⟨found, hfound, ⟨⟩⟩ := exists_ok_of_map_eq_ok (hperform.symm.trans hdone)
    rw [hread]
    exact perform_takes hfound
  · rw [hread, hquiet effect counter hdone]
    exact Effect.takes_of_quiet rfl offered

/-- A step misses its input at a read for which nothing is offered, and nowhere else. -/
theorem advance_eq_noInput_iff : machine.advance offered = .error (.fault .noInput) ↔
    machine.atRead = true ∧ offered = none := by
  rcases machine.advance_intake offered with ⟨command, hread, hperform⟩ | ⟨hread, hother, -⟩
  · rw [hread, hperform, decide_eq_true_iff, ← perform_eq_noInput_iff]
    cases machine.perform offered command <;> simp [Except.map]
  · simp only [hread, Bool.false_eq_true, false_and, iff_false]
    exact hother

/-- An instruction beside the program performs a command, which is a read if it is written so, or it
is not one of a read and another fault than to miss its input. -/
theorem execute_intake (machine : Machine) (offered : Option Int) (instruction : String) :
    (∃ command : Command, (instruction = "," ↔ command = .read) ∧
      machine.execute offered instruction = machine.perform offered command) ∨
    instruction ≠ "," ∧ ∃ fault, fault ≠ .noInput ∧
      machine.execute offered instruction = .error (.fault fault) := by
  have houtside : Fault.loopOutside instruction ≠ .noInput := by simp [Fault.noInput]
  have hunknown : Fault.unknown instruction ≠ .noInput := by simp [Fault.noInput]
  by_cases hloop : instruction ∈ ["", "[", "]", "[]"]
  · refine .inr ⟨?_, .loopOutside instruction, houtside, if_pos hloop⟩
    rintro rfl
    exact absurd hloop (by decide)
  · have hspells : instruction = "," ↔ instruction.toList = [','] := by
      rw [← String.toList_inj]
      exact Iff.rfl
    rw [execute, if_neg hloop, ne_eq, hspells]
    rcases instruction.toList with _ | ⟨character, _ | ⟨other, later⟩⟩
    · exact .inr ⟨by simp, .unknown instruction, hunknown, rfl⟩
    · rw [List.singleton_inj, ← Command.ofChar?_eq_read_iff]
      cases hcommand : Command.ofChar? character with
      | none => exact .inr ⟨by simp, .unknown instruction, hunknown, by simp only [hcommand]⟩
      | some command => exact .inl ⟨command, Option.some_inj, by simp only [hcommand]⟩
    · exact .inr ⟨by simp, .unknown instruction, hunknown, rfl⟩

/-- An instruction beside the program takes what is offered if it is a read, and otherwise
nothing. -/
theorem execute_takes (hdone : machine.execute offered instruction = .ok effect) :
    effect.Takes (instruction = ",") offered := by
  rcases machine.execute_intake offered instruction with
    ⟨command, hread, hperform⟩ | ⟨-, fault, -, hfault⟩
  · simp only [hread]
    exact perform_takes (hperform.symm.trans hdone)
  · cases hfault.symm.trans hdone

/-- An instruction beside the program misses its input if it is a read and nothing is offered, and
not otherwise. -/
theorem execute_eq_noInput_iff :
    machine.execute offered instruction = .error (.fault .noInput) ↔
      instruction = "," ∧ offered = none := by
  rcases machine.execute_intake offered instruction with
    ⟨command, hread, hperform⟩ | ⟨hother, fault, hfault, hdone⟩
  · rw [hread, hperform, perform_eq_noInput_iff]
  · simp only [hdone, hother, false_and, iff_false, Except.error.injEq, Stop.fault.injEq]
    exact hfault

end Machine

end TapeRunner
