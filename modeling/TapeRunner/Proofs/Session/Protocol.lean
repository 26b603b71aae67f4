import TapeRunner.Proofs.Session.Tidings

/-!
# The protocol of events

The events that a recorder hears fall into blocks, one for every session (`Runner.Divided`). A block
is numbered from one on without a gap, all of its events are of its session, its start comes first
and only there, and its stop comes last if it comes at all (`Block`). Every order goes on in the
current block, opens the next one or closes the current one (`Runner.Turn`), so the record stays
divided over every list of orders (`Runner.event_protocol`), and what each order adds to it is what
it is said to tell.
-/

set_option autoImplicit false
set_option relaxedAutoImplicit false

namespace TapeRunner

open Activity

/-- The events of a session in the order in which they are heard: numbered from one on, with its
start first and nowhere else, and its stop, if it has come to one, last. -/
structure Block (number : Nat) (events : List Event) : Prop where
  sequence_eq : events.map Event.sequence = List.range' 1 events.length
  number_eq : ∀ event ∈ events, event.session.number = some number
  head_eq : events.head?.map Event.kind = some .started
  started_first : ∀ event ∈ events.tail, event.kind ≠ .started
  stopped_last : ∀ event ∈ events.dropLast, event.kind ≠ .stopped

theorem Block.ne_nil {number : Nat} {events : List Event} (hblock : Block number events) :
    events ≠ [] := by
  rintro rfl
  cases hblock.head_eq

/-- A block without a stop goes on with events that take the next numbers, are no starts and, but
for the last one, no stops. -/
theorem Block.append {number : Nat} {events later : List Event} (hblock : Block number events)
    (hopen : ∀ event ∈ events, event.kind ≠ .stopped)
    (hsequence : later.map Event.sequence = List.range' (events.length + 1) later.length)
    (hnumber : ∀ event ∈ later, event.session.number = some number)
    (hstarted : ∀ event ∈ later, event.kind ≠ .started)
    (hstopped : ∀ event ∈ later.dropLast, event.kind ≠ .stopped) :
    Block number (events ++ later) where
  sequence_eq := by
    rw [List.map_append, hblock.sequence_eq, hsequence, List.length_append, Nat.add_comm _ 1,
      List.range'_append_1]
  number_eq event hevent :=
    (List.mem_append.mp hevent).elim (hblock.number_eq event) (hnumber event)
  head_eq := by
    obtain ⟨first, rest, rfl⟩ := List.exists_cons_of_ne_nil hblock.ne_nil
    exact hblock.head_eq
  started_first event hevent := by
    rw [List.tail_append_of_ne_nil hblock.ne_nil] at hevent
    exact (List.mem_append.mp hevent).elim (hblock.started_first event) (hstarted event)
  stopped_last event hevent := by
    by_cases hnone : later = []
    · subst hnone
      exact hblock.stopped_last event (List.append_nil events ▸ hevent)
    · rw [List.dropLast_append_of_ne_nil hnone] at hevent
      exact (List.mem_append.mp hevent).elim (hopen event) (hstopped event)

namespace Runner

/-- What is on record falls into blocks, one for every session so far. The last one is that of the
current session, and has no stop in it while the session is active. -/
structure Divided (blocks : List (List Event)) (runner : Runner) : Prop where
  recorded_eq : runner.recorded.toList = blocks.flatten
  length_eq : blocks.length = runner.session.number.getD 0
  block : ∀ place events, blocks[place]? = some events → Block (place + 1) events
  sequence_eq : ∀ events, blocks.getLast? = some events → events.length = runner.session.sequence
  begun : runner.session.active = true → blocks ≠ []
  unstopped : runner.session.active = true → ∀ events, blocks.getLast? = some events →
    ∀ event ∈ events, event.kind ≠ .stopped

variable {runner middle last : Runner} {audience : Audience} {kinds further : List EventKind}
variable {blocks : List (List Event)}

/-! ### One order -/

/-- An order goes on inside of the session, if with another speed, opens another session and goes
on inside of that one, or closes the active session. -/
inductive Turn (runner last : Runner) : List EventKind → Prop
  | inside {kinds : List EventKind} (speed : Int)
      (hrecords : Records kinds (runner.withSpeed speed) last) : Turn runner last kinds
  | opened {options : StartOptions} {run : Run} {first : Runner} {further : List EventKind}
      (hopened : runner.Opened options run first) (hrecords : Records further first last) :
      Turn runner last (.started :: further)
  | closed {kinds : List EventKind} (hactive : runner.session.active = true)
      (hclosed : Closed kinds runner last) (hkinds : kinds = [.stopped] ∨ kinds = []) :
      Turn runner last kinds

/-- In whatever way it ends, an order has told what it is said to tell, unless it is cut short. -/
def Obeyed {Result : Type} (audience : Audience) (order : Order) (runner : Runner)
    (outcome : Except Halt Result) (last : Runner) : Prop :=
  ∃ kinds, Turn runner last kinds ∧ (Tells audience runner order kinds ∨
    ∃ halt, outcome = .error halt ∧ halt.CutsShort order.Blocking last.session.steps)

section Obeyed

variable {Result Next : Type} {order : Order} {outcome : Except Halt Result}

theorem Accounted.obeyed {speed : Int} {blocking : Prop} {stays : List EventKind → Runner → Prop}
    (haccounted : (runner.withSpeed speed).Accounted blocking
      (fun kinds last ↦ Tells audience runner order kinds ∧ stays kinds last) outcome last)
    (hblocking : blocking → order.Blocking) : Obeyed audience order runner outcome last := by
  obtain ⟨kinds, hrecords, ⟨htells, -⟩ | ⟨halt, hhalt, hshort⟩⟩ := haccounted
  · exact ⟨kinds, .inside speed hrecords, .inl htells⟩
  · exact ⟨kinds, .inside speed hrecords,
      .inr ⟨halt, hhalt, hshort.imp_right (And.imp_left hblocking)⟩⟩

/-- What nobody hears of is right for an order that tells nothing. -/
theorem Unheard.obeyed (hunheard : runner.Unheard last) (htells : Tells audience runner order []) :
    Obeyed audience order runner outcome last :=
  ⟨[], .inside runner.session.speed hunheard.1, .inl htells⟩

/-- An answer makes no difference to what has been told. -/
theorem ends_obeyed_reply {activity : Action Result} (reply : Result → Next)
    (hends : Ends activity runner (Obeyed audience order runner)) :
    Ends (do return reply (← activity)) runner (Obeyed audience order runner) := by
  refine (ends_bind _ _).mpr (Ends.mono hends ?_)
  rintro (halt | result) last ⟨kinds, hturn, htold⟩
  · refine ⟨kinds, hturn, htold.imp_right ?_⟩
    rintro ⟨_, ⟨⟩, hshort⟩
    exact ⟨halt, rfl, hshort⟩
  · exact ⟨kinds, hturn, .inl (htold.resolve_right nofun)⟩

end Obeyed

namespace Regular

variable (hregular : runner.Regular) (hpassive : audience.Passive)
include hregular hpassive

theorem obeyed_start {program : String} (options : StartOptions)
    (hlength : (program.length : Int) ≤ greatestInteger) :
    Ends (start audience program options) runner
      (Obeyed audience (.start program options) runner) := by
  cases hbuild : runner.bench.build program with
  | error error =>
    refine (ends_start_of_unbuilt hbuild).mpr ((Unheard.refl runner).obeyed ?_)
    simp only [Tells, StartTells, hbuild]
  | ok run =>
    refine Ends.mono (hregular.ends_start hpassive options hbuild hlength) ?_
    rintro outcome last ⟨opened, hopened, further, hrecords, htold⟩
    refine ⟨.started :: further, .opened hopened hrecords, htold.imp ?_ ?_⟩
    · rintro ⟨htells, -⟩
      simp only [Tells, StartTells, hbuild]
      exact ⟨further, htells, rfl⟩
    · rintro ⟨halt, hhalt, hshort⟩
      exact ⟨halt, hhalt, hshort.imp_right (And.imp_left id)⟩

omit hregular hpassive in
/-- Whatever closes an active session tells of it, unless the line about it is refused. -/
theorem obeyed_closing {order : Order} {activity : Action Unit}
    (hactive : runner.session.active = true) (htells : Tells audience runner order [.stopped])
    (hcloses : Ends activity runner fun outcome last ↦ ∃ kinds, Closed kinds runner last ∧
      (kinds = [.stopped] ∨ kinds = [] ∧ ∃ halt, outcome = .error halt ∧
        halt.Overflows runner.session.steps)) :
    Ends activity runner (Obeyed audience order runner) := by
  refine Ends.mono hcloses ?_
  rintro outcome last ⟨kinds, hclosed, rfl | ⟨rfl, halt, hhalt, hlong⟩⟩
  · exact ⟨_, .closed hactive hclosed (.inl rfl), .inl htells⟩
  · refine ⟨_, .closed hactive hclosed (.inr rfl), .inr ⟨halt, hhalt, .inl ?_⟩⟩
    rw [hclosed.steps_eq]
    exact hlong

theorem obeyed_stop : Ends (stop audience) runner (Obeyed audience .stop runner) := by
  cases hactive : runner.session.active with
  | false =>
    refine (ends_stop_of_inactive hactive).mpr ((Unheard.refl runner).obeyed ?_)
    simp only [Tells, hactive, Bool.false_eq_true, if_false]
  | true =>
    refine obeyed_closing hactive ?_ (hregular.ends_stop hpassive hactive)
    simp only [Tells, hactive, if_true]

theorem obeyed_shutdown : Ends (shutdown audience) runner (Obeyed audience .shutdown runner) := by
  cases hactive : runner.session.active with
  | false =>
    have htells : Tells audience runner .shutdown [] := by
      simp only [Tells, hactive, Bool.false_eq_true, if_false]
    have hdetach : Yields (fun _ _ ↦ False) detach runner _ := hregular.yields_detach hactive
    refine (ends_bind _ _).mpr ((ends_stop_of_inactive hactive).mpr (Ends.mono hdetach ?_))
    rintro (halt | _) last hlast
    · exact hlast.elim
    · obtain ⟨lines, rfl⟩ := hlast
      exact ((unheard_cleared runner).trans (unheard_withLines _ lines)).obeyed htells
  | true =>
    refine obeyed_closing hactive ?_ (hregular.ends_shutdown hpassive hactive)
    simp only [Tells, hactive, if_true]

/-- Every order tells what it is said to tell, unless it is cut short. -/
theorem obeyed_obey (hpatience : audience.patience ≠ 0) {order : Order} (horder : order.Regular) :
    Ends (obey audience order) runner (Obeyed audience order runner) := by
  cases hasks : order.speed? runner with
  | some speed =>
    refine Ends.mono (hregular.accounts_obey_speed hpassive hasks) fun outcome last hlast ↦ ?_
    exact hlast.obeyed fun _ ↦ Order.blocking_of_speed hasks
  | none =>
    cases order with
    | start program options =>
      exact ends_obeyed_reply (fun _ ↦ Reply.nothing)
        (hregular.obeyed_start hpassive options horder)
    | stop => exact ends_obeyed_reply (fun _ ↦ Reply.nothing) (hregular.obeyed_stop hpassive)
    | shutdown =>
      exact ends_obeyed_reply (fun _ ↦ Reply.nothing) (hregular.obeyed_shutdown hpassive)
    | _ =>
      refine Ends.mono (hregular.recounts_obey hpassive hpatience horder ⟨hasks, trivial⟩) ?_
      intro outcome last hlast
      have hsame : runner.withSpeed runner.session.speed = runner := rfl
      exact Accounted.obeyed (hsame.symm ▸ hlast) id

end Regular

/-! ### The record stays divided -/

/-- There are no blocks, or one of them is the last. -/
theorem eq_nil_or_append_singleton (blocks : List (List Event)) :
    blocks = [] ∨ ∃ earlier current, blocks = earlier ++ [current] := by
  rcases List.eq_nil_or_concat blocks with hnone | ⟨earlier, current, hconcat⟩
  · exact .inl hnone
  · exact .inr ⟨earlier, current, hconcat.trans List.concat_eq_append⟩

/-- A further block behind numbered blocks. -/
theorem block_concat {block : List Event}
    (hblocks : ∀ place events, blocks[place]? = some events → Block (place + 1) events)
    (hblock : Block (blocks.length + 1) block) :
    ∀ place events, (blocks ++ [block])[place]? = some events → Block (place + 1) events := by
  intro place events hevents
  rw [List.getElem?_append] at hevents
  split at hevents
  · exact hblocks place events hevents
  · next hplace =>
    rw [List.getElem?_singleton] at hevents
    split at hevents
    · next hlast =>
      obtain rfl := Option.some.inj hevents
      obtain rfl : place = blocks.length := by omega
      exact hblock
    · cases hevents

namespace Divided

variable {earlier : List (List Event)} {current events : List Event}

theorem of_concat (hdivided : Divided (earlier ++ [current]) runner) :
    Block (earlier.length + 1) current ∧ runner.session.number = some (earlier.length + 1) ∧
      current.length = runner.session.sequence := by
  refine ⟨hdivided.block _ _ ?_, ?_, hdivided.sequence_eq _ ?_⟩
  · exact List.getElem?_concat_length
  · have hlength := hdivided.length_eq
    rw [List.length_append, List.length_singleton] at hlength
    cases hnumber : runner.session.number with
    | none => simp [hnumber] at hlength
    | some number =>
      rw [hnumber] at hlength
      exact congrArg some hlength.symm
  · exact List.getLast?_concat

/-- The current block goes on. -/
theorem extended (hdivided : Divided (earlier ++ [current]) runner)
    (hrecorded : last.recorded.toList = runner.recorded.toList ++ events)
    (hnumber : last.session.number = runner.session.number)
    (hsequence : last.session.sequence = runner.session.sequence + events.length)
    (hblock : Block (earlier.length + 1) (current ++ events))
    (hopen : last.session.active = true → ∀ event ∈ current ++ events, event.kind ≠ .stopped) :
    Divided (earlier ++ [current ++ events]) last := by
  have hearlier : ∀ place events, earlier[place]? = some events → Block (place + 1) events := by
    intro place events hevents
    refine hdivided.block place events ?_
    have hplace := (List.getElem?_eq_some_iff.mp hevents).1
    rw [List.getElem?_append_left hplace, hevents]
  have hlast (later : List Event)
      (hlater : (earlier ++ [current ++ events]).getLast? = some later) :
      current ++ events = later := by
    rw [List.getLast?_concat] at hlater
    exact Option.some.inj hlater
  exact
    { recorded_eq := by
        rw [hrecorded, hdivided.recorded_eq]
        simp only [List.flatten_append, List.flatten_singleton, List.append_assoc]
      length_eq := by
        rw [hnumber, ← hdivided.length_eq, List.length_append, List.length_append]
        rfl
      block := block_concat hearlier hblock
      sequence_eq := fun later hlater ↦ by
        rw [← hlast later hlater, List.length_append, hdivided.of_concat.2.2, hsequence]
      begun := fun _ ↦ List.concat_ne_nil _ _
      unstopped := fun hactive later hlater ↦ hlast later hlater ▸ hopen hactive }

/-- What comes on record inside of a session goes on in its block. -/
theorem of_records (hdivided : Divided blocks runner) (hrecords : Records kinds runner last) :
    ∃ blocks, Divided blocks last := by
  obtain ⟨events, hrecorded, hkinds, hsequence, hnumber⟩ := hrecords.recorded
  have hlength : events.length = kinds.length := by rw [← hkinds, List.length_map]
  rcases eq_nil_or_append_singleton blocks with rfl | ⟨earlier, current, rfl⟩
  · have hinactive : ¬ runner.session.active = true := fun hactive ↦ hdivided.begun hactive rfl
    have hnone : kinds = [] := Decidable.not_not.mp (mt hrecords.active hinactive)
    subst hnone
    obtain rfl : events = [] := List.eq_nil_of_length_eq_zero hlength
    refine ⟨[], ?_, ?_, nofun, nofun, fun hactive ↦ ?_, fun hactive ↦ ?_⟩
    · rw [hrecorded, List.append_nil, hdivided.recorded_eq]
    · rw [hrecords.number_eq]
      exact hdivided.length_eq
    · exact absurd (hrecords.active_eq.symm.trans hactive) hinactive
    · exact absurd (hrecords.active_eq.symm.trans hactive) hinactive
  · obtain ⟨hcurrent, hnow, hcount⟩ := hdivided.of_concat
    have hinner (event : Event) (hevent : event ∈ events) : event.kind.Inner :=
      hrecords.inner _ (hkinds ▸ List.mem_map_of_mem hevent)
    have hunstopped (hactive : runner.session.active = true) (event : Event)
        (hevent : event ∈ current) : event.kind ≠ .stopped :=
      hdivided.unstopped hactive current List.getLast?_concat event hevent
    refine ⟨_, hdivided.extended hrecorded hrecords.number_eq ?_ ?_ fun hactive event hevent ↦ ?_⟩
    · rw [hrecords.sequence_eq, hlength]
    · by_cases hnone : events = []
      · rw [hnone, List.append_nil]
        exact hcurrent
      · have hactive : runner.session.active = true := by
          refine hrecords.active fun hempty ↦ hnone ?_
          rw [hempty] at hlength
          exact List.eq_nil_of_length_eq_zero hlength
        refine hcurrent.append (hunstopped hactive) ?_ (fun event hevent ↦ ?_)
          (fun event hevent ↦ (hinner event hevent).1)
          fun event hevent ↦ (hinner event ((List.dropLast_sublist events).subset hevent)).2
        · rw [hsequence, hcount, hlength]
        · rw [hnumber event hevent, hnow]
    · rcases List.mem_append.mp hevent with hold | hnew
      · exact hunstopped (hrecords.active_eq.symm.trans hactive) event hold
      · exact (hinner event hnew).2

/-- A session that is opened begins the next block. -/
theorem of_opened (hdivided : Divided blocks runner) {options : StartOptions} {run : Run}
    (hopened : runner.Opened options run last) : ∃ blocks, Divided blocks last := by
  obtain ⟨events, hrecorded, hkinds, hsequence, hnumber⟩ := hopened.appends.recorded
  have hzero : (runner.begun options run).session.sequence = 0 := rfl
  have hsame : (runner.begun options run).recorded = runner.recorded := rfl
  have hnext : last.session.number = some (blocks.length + 1) := by
    rw [hopened.appends.number_eq, hdivided.length_eq]
    rfl
  obtain ⟨first, rfl⟩ : ∃ first, events = [first] := by
    rw [← List.length_eq_one_iff, ← List.length_map Event.kind, hkinds]
    rfl
  rw [hzero] at hsequence
  have hstarted : first.kind = .started := by simpa using hkinds
  have hblock : Block (blocks.length + 1) [first] :=
    { sequence_eq := hsequence
      number_eq := fun event hevent ↦
        (hnumber event hevent).trans (hopened.appends.number_eq.symm.trans hnext)
      head_eq := congrArg some hstarted
      started_first := fun _ hevent ↦ absurd hevent List.not_mem_nil
      stopped_last := fun _ hevent ↦ absurd hevent List.not_mem_nil }
  refine ⟨blocks ++ [[first]], ?_, ?_, block_concat hdivided.block hblock, ?_, ?_, ?_⟩
  · rw [hrecorded, hsame, List.flatten_append, List.flatten_singleton, ← hdivided.recorded_eq]
  · rw [hnext, List.length_append]
    rfl
  · intro later hlater
    rw [List.getLast?_concat] at hlater
    obtain rfl := Option.some.inj hlater
    rw [hopened.appends.sequence_eq, hzero]
    rfl
  · exact fun _ ↦ List.concat_ne_nil _ _
  · intro _ later hlater event hevent
    rw [List.getLast?_concat] at hlater
    obtain rfl := Option.some.inj hlater
    rw [List.mem_singleton.mp hevent, hstarted]
    nofun

/-- A session that is closed ends its block, with its stop unless the line about it is refused. -/
theorem of_closed (hdivided : Divided blocks runner) (hactive : runner.session.active = true)
    (hclosed : Closed kinds runner last) (hkinds : kinds = [.stopped] ∨ kinds = []) :
    ∃ blocks, Divided blocks last := by
  obtain ⟨events, hrecorded, hmap, hsequence, hnumber⟩ := hclosed.appends.recorded
  have hlength : events.length = kinds.length := by rw [← hmap, List.length_map]
  obtain ⟨earlier, current, rfl⟩ :=
    (eq_nil_or_append_singleton blocks).resolve_left (hdivided.begun hactive)
  obtain ⟨hcurrent, hnow, hcount⟩ := hdivided.of_concat
  have hinactive : ¬ last.session.active = true := Bool.eq_false_iff.mp hclosed.inactive
  refine ⟨_, hdivided.extended hrecorded hclosed.appends.number_eq ?_ ?_
    fun hstill ↦ absurd hstill hinactive⟩
  · rw [hclosed.appends.sequence_eq, hlength]
  · refine hcurrent.append (hdivided.unstopped hactive current List.getLast?_concat) ?_
      (fun event hevent ↦ ?_) (fun event hevent ↦ ?_) fun event hevent ↦ ?_
    · rw [hsequence, hcount, hlength]
    · rw [hnumber event hevent, hnow]
    · have hkind : event.kind ∈ kinds := hmap ▸ List.mem_map_of_mem hevent
      rcases hkinds with rfl | rfl
      · rw [List.mem_singleton.mp hkind]
        nofun
      · cases hkind
    · have hshort : events.length ≤ 1 := by
        rw [hlength]
        rcases hkinds with rfl | rfl <;> decide
      have hnone : events.dropLast = [] := by
        rw [List.eq_nil_iff_length_eq_zero, List.length_dropLast]
        omega
      rw [hnone] at hevent
      cases hevent

end Divided

namespace Turn

theorem regular (hturn : Turn runner last kinds) (hregular : runner.Regular) : last.Regular := by
  cases hturn with
  | inside speed hrecords => exact hrecords.regular { hregular with }
  | opened hopened hrecords => exact hrecords.regular hopened.regular
  | closed _ hclosed _ => exact hclosed.regular

/-- After every order the record is divided as it was before. -/
theorem divided (hturn : Turn runner last kinds) (hdivided : Divided blocks runner) :
    ∃ blocks, Divided blocks last := by
  cases hturn with
  | inside speed hrecords =>
    have hchanged : Divided blocks (runner.withSpeed speed) := { hdivided with }
    exact hchanged.of_records hrecords
  | opened hopened hrecords =>
    obtain ⟨blocks, hblocks⟩ := hdivided.of_opened hopened
    exact hblocks.of_records hrecords
  | closed hactive hclosed hkinds => exact hdivided.of_closed hactive hclosed hkinds

/-- What an order has told is of the session that is current after it. -/
theorem told (hturn : Turn runner last kinds) : ∃ events,
    last.recorded.toList = runner.recorded.toList ++ events ∧ events.map Event.kind = kinds ∧
      ∀ event ∈ events, event.session.number = last.session.number := by
  cases hturn with
  | inside speed hrecords =>
    obtain ⟨events, hrecorded, hkinds, -, hnumber⟩ := hrecords.recorded
    exact ⟨events, hrecorded, hkinds, fun event hevent ↦
      (hnumber event hevent).trans hrecords.number_eq.symm⟩
  | opened hopened hrecords =>
    obtain ⟨events, hrecorded, hkinds, -, hnumber⟩ :=
      (hopened.appends.trans hrecords.toAppends).recorded
    exact ⟨events, hrecorded, hkinds, fun event hevent ↦ (hnumber event hevent).trans
      (hopened.appends.trans hrecords.toAppends).number_eq.symm⟩
  | closed _ hclosed _ =>
    obtain ⟨events, hrecorded, hkinds, -, hnumber⟩ := hclosed.appends.recorded
    exact ⟨events, hrecorded, hkinds, fun event hevent ↦
      (hnumber event hevent).trans hclosed.appends.number_eq.symm⟩

end Turn

/-! ### Lists of orders -/

/-- Over a list of orders, the runner stays regular and its record divided. -/
theorem Regular.carryOut (hregular : runner.Regular) (hdivided : Divided blocks runner)
    (hpassive : audience.Passive) (hpatience : audience.patience ≠ 0) {orders : List Order}
    (horders : ∀ order ∈ orders, order.Regular) :
    (carryOut audience orders runner).2.Regular ∧
      ∃ blocks, Divided blocks (carryOut audience orders runner).2 := by
  induction orders generalizing runner blocks with
  | nil => exact ⟨hregular, blocks, hdivided⟩
  | cons order later ih =>
    obtain ⟨kinds, hturn, -⟩ :=
      hregular.obeyed_obey hpassive hpatience (horders order List.mem_cons_self)
    obtain ⟨further, hfurther⟩ := hturn.divided hdivided
    exact ih (hturn.regular hregular) hfurther
      fun other hother ↦ horders other (List.mem_cons_of_mem _ hother)

/-- A runner before its first start is regular if its engines do not crash. -/
theorem regular_of_fresh {bench : Bench} {hooks : List Hook} {journal : Journal} {start : Runner}
    (hstart : fresh bench hooks journal = .ok start) (hbound : journal.context.Plain)
    (hhooks : 2 * (hooks.length + 2 : Int) ≤ greatestInteger)
    (hcrashes : bench.script.crashes = []) : start.Regular := by
  have hfounded := founded_of_fresh hstart hbound hhooks
  obtain ⟨_, -, rfl⟩ := exists_of_fresh hstart
  exact ⟨hfounded, hcrashes, ⟨nofun, nofun⟩⟩

/-- Before the first start nothing is on record. -/
theorem divided_of_fresh {bench : Bench} {hooks : List Hook} {journal : Journal} {start : Runner}
    (hstart : fresh bench hooks journal = .ok start) : Divided [] start := by
  obtain ⟨_, -, rfl⟩ := exists_of_fresh hstart
  exact ⟨rfl, rfl, nofun, nofun, nofun, nofun⟩

/-- The protocol of events. After every list of orders, before observers that only listen, the
record falls into blocks, one for every session so far. Whatever is asked next adds what it is said
to tell, of the session that is current then: a step or an effective tick tells of itself, right
after the fault that it found or the end that it came to, if it did, and a blocking run tells how it
ended and nothing else. Only a line for more steps than fit into it, or the want of patience with a
blocking run, can cut this short. -/
theorem event_protocol {bench : Bench} {hooks : List Hook} {journal : Journal} {start : Runner}
    (hstart : fresh bench hooks journal = .ok start) (hbound : journal.context.Plain)
    (hhooks : 2 * (hooks.length + 2 : Int) ≤ greatestInteger)
    (hcrashes : bench.script.crashes = []) (hpassive : audience.Passive)
    (hpatience : audience.patience ≠ 0) {orders : List Order}
    (horders : ∀ order ∈ orders, order.Regular) :
    let last := (carryOut audience orders start).2
    (∃ blocks, Divided blocks last) ∧ ∀ order, order.Regular →
      let ended := runFrom (obey audience order) last
      ∃ events, ended.2.recorded.toList = last.recorded.toList ++ events ∧
        (∀ event ∈ events, event.session.number = ended.2.session.number) ∧
        (Tells audience last order (events.map Event.kind) ∨
          ∃ halt, ended.1 = .error halt ∧
            halt.CutsShort order.Blocking ended.2.session.steps) := by
  intro last
  obtain ⟨hregular, hdivided⟩ := (regular_of_fresh hstart hbound hhooks hcrashes).carryOut
    (divided_of_fresh hstart) hpassive hpatience horders
  refine ⟨hdivided, ?_⟩
  intro order horder ended
  obtain ⟨kinds, hturn, htold⟩ := hregular.obeyed_obey hpassive hpatience horder
  obtain ⟨events, hrecorded, rfl, hnumber⟩ := hturn.told
  exact ⟨events, hrecorded, hnumber, htold⟩

/-- A speed without a session, a start, a restart without a stop, a tick and then a step that leaves
the tape: its fault is told right before it. -/
theorem event_protocol_underflow :
    ∃ start last, fresh ⟨.tape, 2, "", 0, .empty⟩ [] .initial = .ok start ∧
      last = (carryOut (.conducted (fun _ _ ↦ .rest) 10 1)
        [.setSpeed 5, .start "," ⟨false, false⟩, .start "+<" ⟨true, false⟩, .fire 1] start).2 ∧
      (∃ blocks, Divided blocks last ∧ blocks.length = 2) ∧
      let ended := runFrom (obey (.conducted (fun _ _ ↦ .rest) 10 1) .step) last
      ∃ events, ended.2.recorded.toList = last.recorded.toList ++ events ∧
        last.StepTells (events.map Event.kind) ∧
        events.map Event.kind = [.failed .underflow, .stepped] := by
  obtain ⟨start, hstart⟩ :
      ∃ start, fresh ⟨.tape, 2, "", 0, .empty⟩ [] .initial = .ok start := ⟨_, rfl⟩
  obtain ⟨orders, horders⟩ : ∃ orders : List Order, orders =
    [.setSpeed 5, .start "," ⟨false, false⟩, .start "+<" ⟨true, false⟩, .fire 1] := ⟨_, rfl⟩
  have hregular : ∀ order ∈ orders, order.Regular := by
    simp only [horders, List.forall_mem_cons, Order.Regular, List.not_mem_nil, false_implies,
      implies_true, and_true, true_and]
    decide
  have hprotocol := event_protocol hstart Fields.plain_nil (by decide) rfl
    (passive_conducted_rest 10 0) (by decide) hregular
  obtain ⟨last, hlast⟩ : ∃ last,
    last = (carryOut (.conducted (fun _ _ ↦ .rest) 10 1) orders start).2 := ⟨_, rfl⟩
  simp only [← hlast] at hprotocol
  obtain ⟨⟨blocks, hdivided⟩, htells⟩ := hprotocol
  obtain ⟨events, hrecorded, -, htold⟩ := htells .step trivial
  obtain ⟨ended, hended⟩ : ∃ ended,
    ended = runFrom (obey (.conducted (fun _ _ ↦ .rest) 10 1) .step) last := ⟨_, rfl⟩
  simp only [← hended] at hrecorded htold
  have hsteps : (decide (last.session.number = some 2 ∧ ended.1.isOk = true ∧
      ended.2.recorded.toList.map Event.kind = last.recorded.toList.map Event.kind ++
        [EventKind.failed .underflow, .stepped])) = true := by
    rw [hended, hlast, horders]
    cases hstart
    decide +kernel
  obtain ⟨hnumber, hanswer, hkinds⟩ := of_decide_eq_true hsteps
  have hblocks : blocks.length = 2 := by rw [hdivided.length_eq, hnumber, Option.getD_some]
  refine ⟨start, last, hstart, horders ▸ hlast, ⟨blocks, hdivided, hblocks⟩, ?_⟩
  simp only [← hended]
  refine ⟨events, hrecorded, htold.resolve_right ?_, ?_⟩
  · rintro ⟨halt, hhalt, -⟩
    rw [hhalt] at hanswer
    cases hanswer
  · rw [hrecorded, List.map_append] at hkinds
    exact List.append_cancel_left hkinds

end Runner

end TapeRunner
