import TapeRunner.Proofs.Machine.Feeding
import TapeRunner.Proofs.Session.Schedule

/-!
# Input in chunks

A text that is fed to a session on its course puts it on the course of the rig with that text behind
its input, after as many steps as before (`Runner.OnCourse.fed`). A session that is given its input
in chunks, each followed by a blocking run, goes from halt to halt in this way: it is at fault for
want of input in the middle and goes on where it was, or has halted for good already. So it ends as
after all input at once (`Runner.standing_eq_of_chunks`).
-/

set_option autoImplicit false
set_option relaxedAutoImplicit false

namespace TapeRunner

open Activity

/-- A course is another one with a text behind the input of its rig. -/
structure Course.Fed (course : Course) (text : String) (fed : Course) : Prop where
  position : fed.position = course.position
  program : fed.program = course.program
  clock : fed.clock = course.clock
  origin : fed.origin = course.origin.feed text

theorem Course.arrival_eq (course : Course) : course.arrival =
    course.fault?.elim (.finished (course.clock - course.clock)) .failed := by
  unfold arrival
  cases course.fault? <;> rfl

/-- The orders that feed a text and run to the halt. -/
def Order.chunk (text : String) : List Order := [.feed text, .superSpeed]

namespace Runner

variable {course target : Course} {runner : Runner} {audience : Audience} {text : String}

/-- Input that is fed changes the course and not the place on it. -/
theorem OnCourse.fed (hon : OnCourse course runner) (hfed : course.Fed text target) :
    OnCourse target (runner.changeRun course.position fun run ↦
      { run with supply := run.supply.feed text }) := by
  obtain ⟨rig, hcarries, hsteps⟩ := hon.carries
  have hcarried : Carries (runner.changeRun course.position fun run ↦
      { run with supply := run.supply.feed text })
      target.position target.program (rig.feed text) := by
    refine ⟨?_, hcarries.2⟩
    rw [hfed.position, hfed.program]
    simp only [changeRun, Array.getElem?_modify, if_true, hcarries.1, Option.map_some]
    rfl
  exact { hon with
    attached := hfed.position ▸ hon.attached
    supplied := hfed.position ▸ hon.supplied
    carries := ⟨rig.feed text, hcarried, hfed.origin ▸ Rig.stepTimes_feed hsteps text⟩
    begun := hfed.clock ▸ hon.begun
    clock := hfed.clock ▸ hon.clock }

/-- To feed a session that is underway puts it underway on the course with the text. -/
theorem leads_feed (hunderway : Underway course runner) (hfed : course.Fed text target) :
    LeadsTo target (Underway target) (feed text) runner := by
  rw [LeadsTo, Yields, feed, ends_bind, ends_get]
  simp only [hunderway.1.supplied]
  exact ⟨hunderway.1.fed hfed, hunderway.2⟩

section Chunks

variable (hpassive : audience.Passive) (hpatience : target.count + 1 < audience.patience)
include hpassive hpatience

/-- A chunk leads to the halt of the course with the text. -/
theorem arrived_carryOut_chunk (hunderway : Underway course runner)
    (hfed : course.Fed text target) :
    Arrived target (carryOut audience (Order.chunk text) runner).2 ∧
      ∀ halt, .error halt ∈ (carryOut audience (Order.chunk text) runner).1 →
        target.Refuses halt := by
  have hfeed : LeadsTo target (Underway target) (obey audience (.feed text)) runner :=
    (leads_feed hunderway hfed).bind fun _ _ hafter ↦ hafter
  obtain ⟨hafter, hrefuses⟩ := hfeed.reached
  have hnone : ∀ order ∈ ([] : List Order), order.Drives := List.forall_mem_nil _
  obtain ⟨harrived, hlater⟩ := arrived_carryOut hpassive hpatience hnone hafter
  refine ⟨harrived, fun halt hhalt ↦ ?_⟩
  rcases List.mem_cons.mp hhalt with hfirst | hothers
  · exact hrefuses halt hfirst
  · exact hlater halt hothers

/-- Chunks lead, each from the halt of the one before, to the halt of the course with all of their
texts. -/
theorem arrived_carryOut_chunks (text : String) (later : List String)
    (hunderway : Underway course runner) (hfed : course.Fed (String.join (text :: later)) target) :
    Arrived target (carryOut audience ((text :: later).flatMap Order.chunk) runner).2 ∧
      ∀ halt, .error halt ∈ (carryOut audience ((text :: later).flatMap Order.chunk) runner).1 →
        target.Refuses halt := by
  induction later generalizing text course runner with
  | nil =>
    rw [String.join_cons, String.join_nil, String.append_empty] at hfed
    rw [List.flatMap_singleton]
    exact arrived_carryOut_chunk hpassive hpatience hunderway hfed
  | cons next later ih =>
    have hhalts := target.halts
    rw [hfed.origin, String.join_cons, ← Rig.feed_feed] at hhalts
    obtain ⟨fewer, hfewer, reason?, place, hhere⟩ := hhalts.of_feed
    let middle : Course :=
      ⟨course.position, course.program, course.clock, course.origin.feed text, fewer, reason?,
        place, hhere⟩
    have hmiddle : course.Fed text middle := ⟨rfl, rfl, rfl, rfl⟩
    have hrest : middle.Fed (String.join (next :: later)) target := by
      refine ⟨hfed.position, hfed.program, hfed.clock, ?_⟩
      rw [hfed.origin, String.join_cons, ← Rig.feed_feed]
    have henough : middle.count + 1 < audience.patience :=
      Nat.lt_of_le_of_lt (Nat.succ_le_succ hfewer) hpatience
    obtain ⟨harrived, hrefuses⟩ := arrived_carryOut_chunk hpassive henough hunderway hmiddle
    obtain ⟨hended, hlater⟩ := ih next (harrived.lands 0).1 hrest
    rw [List.flatMap_cons, carryOut_append]
    refine ⟨hended, fun halt hhalt ↦ ?_⟩
    rcases List.mem_append.mp hhalt with hmine | hothers
    · obtain ⟨hlong, hrefusal⟩ := hrefuses halt hmine
      exact ⟨Int.lt_of_lt_of_le hlong (Int.ofNat_le.mpr hfewer), hrefusal⟩
    · exact hlater halt hothers

end Chunks

/-- Chunks make no difference. If the rig of a program halts when all of the input is there, a
session that is started with the program and given the input in chunks, with a blocking run after
each, stands at last just as it does with the input in one piece: where the rig halts, idle and
without a timer. Every order is answered, save that the end of more steps than fit into a line is
not. -/
theorem standing_eq_of_chunks {program : String} {texts : List String} {count : Nat}
    {fault? : Option Fault} {goal : Rig} (hpassive : audience.Passive)
    (hadmits : runner.Admits program) (hsome : texts ≠ [])
    (hhalts : ((runner.rigOf program).feed (String.join texts)).Halts count fault? goal)
    (hpatience : count + 1 < audience.patience) (options : StartOptions) :
    let chunked := carryOut audience (.start program options :: texts.flatMap Order.chunk) runner
    let whole := carryOut audience [.start program options, .feed (String.join texts), .superSpeed]
      runner
    chunked.2.standing = whole.2.standing ∧
      whole.2.standing = ⟨some ⟨program, .tape goal.machine, goal.supply⟩, some goal.supply,
        goal.output, count, 0, true, false,
        some (fault?.elim (.finished (runner.bench.clock - runner.bench.clock)) .failed)⟩ ∧
      ∀ halt, .error halt ∈ chunked.1 ++ whole.1 →
        greatestInteger < count ∧ ∃ error, halt = .raised error ∧ error.isRefusal = true := by
  intro chunked whole
  obtain ⟨fewer, hfewer, reason?, place, hhere⟩ := hhalts.of_feed
  let course := runner.courseOf program hhere
  let target : Course := ⟨runner.runs.size, program, runner.bench.clock,
    (runner.rigOf program).feed (String.join texts), count, fault?, goal, hhalts⟩
  have hfed : course.Fed (String.join texts) target := ⟨rfl, rfl, rfl, rfl⟩
  have henough : fewer + 1 < audience.patience := by omega
  have hstart : LeadsTo course (Lands course options.initialSpeed)
      (obey audience (.start program options)) runner :=
    (leads_start hpassive hadmits hhere henough options).bind fun _ _ hlands ↦ hlands
  obtain ⟨hlands, hrefuses⟩ := hstart.reached
  have hstarted (halt : Halt) (hhalt : Except.error halt =
      (runFrom (obey audience (.start program options)) runner).1) : target.Refuses halt := by
    obtain ⟨hlong, hrefusal⟩ := hrefuses halt hhalt
    exact ⟨Int.lt_of_lt_of_le hlong (Int.ofNat_le.mpr hfewer), hrefusal⟩
  obtain ⟨text, later, rfl⟩ := List.exists_cons_of_ne_nil hsome
  obtain ⟨hchunked, hmine⟩ :=
    arrived_carryOut_chunks hpassive hpatience text later hlands.1 hfed
  obtain ⟨hwhole, hother⟩ := arrived_carryOut_chunk hpassive hpatience hlands.1 hfed
  have hended : chunked.2.standing = _ := hchunked.standing_eq
  refine ⟨hended.trans hwhole.standing_eq.symm, ?_, fun halt hhalt ↦ ?_⟩
  · exact target.arrival_eq ▸ hwhole.standing_eq
  · rcases List.mem_append.mp hhalt with hfirst | hsecond
    · rcases List.mem_cons.mp hfirst with hbegun | hrest
      · exact hstarted halt hbegun
      · exact hmine halt hrest
    · rcases List.mem_cons.mp hsecond with hbegun | hrest
      · exact hstarted halt hbegun
      · exact hother halt hrest

/-- A program that copies two bytes is at fault after the first chunk, is at fault again after a
chunk of nothing, and ends after the last one, as it does with both bytes at once. -/
theorem standing_eq_of_chunks_resumed :
    ∃ start, fresh ⟨.tape, 1, "", 0, .empty⟩ [] .initial = .ok start ∧
      (carryOut (.conducted (fun _ _ ↦ .rest) 10 1) (.start ",.,." ⟨false, false⟩ ::
        ["A", "", "B"].flatMap Order.chunk) start).2.standing =
      (carryOut (.conducted (fun _ _ ↦ .rest) 10 1) [.start ",.,." ⟨false, false⟩,
        .feed (String.join ["A", "", "B"]), .superSpeed] start).2.standing := by
  obtain ⟨start, hstart⟩ :
      ∃ start, fresh ⟨.tape, 1, "", 0, .empty⟩ [] .initial = .ok start := ⟨_, rfl⟩
  have hadmits : start.Admits ",.,." := by
    cases hstart
    refine ⟨⟨Fields.plain_nil, fun type ↦ ?_⟩, rfl, by decide, by decide⟩
    exact Int.le_trans (Int.ofNat_le.mpr (Bus.length_recipients_le _ type)) (by decide)
  have hhalts : ((start.rigOf ",.,.").feed (String.join ["A", "", "B"])).Halts 4 none
      (Rig.stepTimes 4 ((start.rigOf ",.,.").feed (String.join ["A", "", "B"]))).2 := by
    cases hstart
    exact ⟨Prod.ext (by decide +kernel) rfl, by decide +kernel⟩
  exact ⟨start, hstart, (standing_eq_of_chunks (passive_conducted_rest 10 0) hadmits (by decide)
    hhalts (by decide) ⟨false, false⟩).1⟩

end Runner

end TapeRunner
