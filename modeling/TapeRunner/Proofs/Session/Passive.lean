import TapeRunner.Proofs.Session.Control

/-!
# Observers that only listen

Before an audience that only listens, what a session does is decided by the session alone. Telling
and writing leave their traces in what has been recorded and counted and in the lines of the
journal, and nowhere else (`Runner.Noted`). A line is refused only for a number that is too large,
and a line about events has no such number (`Runner.Chronicled.yields_tell`), but the line that ends
a stretch counts the steps (`Runner.Chronicled.yields_conclude`). A step of a run is a step of a rig
(`Runner.Carries.yields_advance`).
-/

set_option autoImplicit false
set_option relaxedAutoImplicit false

namespace TapeRunner

open Activity

/-- No observer does more than count its calls. -/
def Audience.Passive (audience : Audience) : Prop := ∀ position, audience.PassiveAt position

/-- No observer of an event does more than count its calls, whatever those of the output do. -/
def Audience.PassiveIn (audience : Audience) (bus : Bus Observer) : Prop :=
  ∀ type position, .hook position ∈ bus.recipients type → audience.PassiveAt position

theorem Audience.Passive.passiveIn {audience : Audience} (hpassive : audience.Passive)
    (bus : Bus Observer) : audience.PassiveIn bus :=
  fun _ position _ ↦ hpassive position

/-- An event is heard at most by those who hear its type and by those who hear every event. -/
theorem Bus.length_recipients_le {Handler : Type} (bus : Bus Handler) (eventType : String) :
    (bus.recipients eventType).length ≤ bus.subscriptions.length + bus.subscriptions.length := by
  have hsubscribers (eventType : String) :
      (bus.subscribersFor eventType).length ≤ bus.subscriptions.length := by
    rw [subscribersFor, List.length_map]
    exact List.length_filter_le _ _
  rw [recipients, List.length_append]
  exact Nat.add_le_add (hsubscribers _) (hsubscribers _)

/-- Every speed of a session fits into a line. -/
theorem Value.simple_speed {speed : Int} (hleast : Speed.blocking ≤ speed)
    (hgreatest : speed ≤ Speed.top) : (Value.whole speed).Simple := by
  constructor
  · unfold Speed.blocking at hleast
    unfold leastInteger
    omega
  · unfold Speed.top at hgreatest
    unfold greatestInteger
    omega

namespace Runner

/-- Observers that do nothing are passive. -/
theorem passive_conducted_rest (patience depth : Nat) :
    (Audience.conducted (fun _ _ ↦ .rest) patience (depth + 1)).Passive :=
  fun _ _ ↦ ⟨_, rfl⟩

/-- Observers of events that rest are passive, whatever those of the output do. -/
theorem passiveIn_conducted {conduct : Nat → Runner → Conduct} {bus : Bus Observer}
    (hrest : ∀ type position runner, .hook position ∈ bus.recipients type →
      conduct position runner = .rest) (patience depth : Nat) :
    (Audience.conducted conduct patience (depth + 1)).PassiveIn bus := by
  intro type position hmem runner
  simp only [Audience.conducted, hrest type position _ hmem]
  exact ⟨_, rfl⟩

/-! ### What telling leaves behind -/

/-- Nothing has changed but the counts of events and calls, what has been recorded, and the lines
of the journal. -/
def Noted (runner last : Runner) : Prop :=
  ∃ sequence recorded hookCalls lines, last =
    { runner with
      session := { runner.session with sequence }
      recorded
      hookCalls
      journal := { runner.journal with lines } }

variable {halted : Halt → Runner → Prop} {runner middle last : Runner} {audience : Audience}

theorem Noted.refl (runner : Runner) : runner.Noted runner := ⟨_, _, _, _, rfl⟩

theorem Noted.trans (hfirst : runner.Noted middle) (hsecond : middle.Noted last) :
    runner.Noted last := by
  obtain ⟨_, _, _, _, rfl⟩ := hfirst
  obtain ⟨sequence, recorded, hookCalls, lines, rfl⟩ := hsecond
  exact ⟨sequence, recorded, hookCalls, lines, rfl⟩

theorem noted_withLines (runner : Runner) (lines : Array Line) :
    runner.Noted (runner.withLines lines) := ⟨_, _, _, lines, rfl⟩

/-- The journal takes lines about events: the fields bound in it are plain, and the observers of an
event are not too many for their number to fit into a line. -/
structure Chronicled (runner : Runner) : Prop where
  bound : runner.journal.context.Plain
  heard : ∀ type, ((runner.bus.recipients type).length : Int) ≤ greatestInteger

namespace Chronicled

theorem noted (hchronicled : runner.Chronicled) (hnoted : runner.Noted last) :
    last.Chronicled := by
  obtain ⟨_, _, _, _, rfl⟩ := hnoted
  exact ⟨hchronicled.bound, hchronicled.heard⟩

/-- A line of plain fields is written. -/
theorem yields_log (hchronicled : runner.Chronicled) (level : Level) (event : String)
    {fields : Fields} (hown : fields.Plain) :
    Yields halted (log level event fields) runner fun _ ↦ runner.Noted := by
  refine Yields.mono (writes_of_plain hchronicled.bound hown level event) ?_
  rintro _ _ ⟨lines, rfl⟩
  exact noted_withLines runner lines

theorem plain_published (hchronicled : runner.Chronicled) (kind : EventKind) :
    (runner.publishedFields kind).Plain :=
  Fields.plain_cons (by decide) trivial <|
    Fields.plain_cons (by decide) (Value.simple_ofNat (hchronicled.heard _)) Fields.plain_nil

/-- The line about an event is written. -/
theorem writes_published (hchronicled : runner.Chronicled) (kind : EventKind) :
    runner.Writes halted (runner.publishedFields kind) :=
  writes_of_plain hchronicled.bound (hchronicled.plain_published kind)

/-- A line that counts steps is refused only if they are too many. -/
theorem writes_steps (hchronicled : runner.Chronicled) {fields : Fields} (hplain : fields.Plain)
    {steps : Nat} (hlong : greatestInteger < steps → ∀ error, error.isRefusal = true →
      halted (.raised error) runner) :
    runner.Writes halted (fields ++ [("steps", .ofNat steps)]) := by
  by_cases hsteps : (steps : Int) ≤ greatestInteger
  · refine writes_of_plain hchronicled.bound (hplain.append ?_)
    exact Fields.plain_cons (by decide) (Value.simple_ofNat hsteps) Fields.plain_nil
  · exact writes_of_refusal (hlong (Int.not_le.mp hsteps))

/-- The answer is whether there was no refusal, and a refusal leaves no more than a line. -/
theorem yields_acceptance (hchronicled : runner.Chronicled) (instruction : String)
    (outcome : Except Fault Unit) :
    Yields halted (acceptance instruction outcome) runner fun accepted last ↦
      accepted = outcome.isOk ∧ ∃ lines, last = runner.withLines lines := by
  rcases outcome with fault | _
  · have hplain : Fields.Plain
        [("instruction", .text instruction), ("reason", .text fault.message)] :=
      Fields.plain_cons (by decide) trivial
        (Fields.plain_cons (by decide) trivial Fields.plain_nil)
    refine Yields.bind
      (writes_of_plain hchronicled.bound hplain .debug "session.inject_rejected") ?_
    rintro _ _ ⟨lines, rfl⟩
    exact ⟨rfl, lines, rfl⟩
  · exact ⟨rfl, runner.journal.lines, rfl⟩

/-- Whatever is told to passive observers is told without a refusal. -/
theorem yields_tell (hchronicled : runner.Chronicled) (hpassive : audience.Passive)
    (kind : EventKind) : Yields halted (tell audience kind) runner fun _ ↦ runner.Noted := by
  have hkeeps : Keeps runner.Noted halted (tell audience kind) := by
    refine keeps_tell kind (fun _ hnoted ↦ (hchronicled.noted hnoted).writes_published kind)
      ?_ ?_ ?_ fun position ↦ ?_
    · exact fun _ lines hnoted ↦ hnoted.trans ⟨_, _, _, lines, rfl⟩
    · exact fun _ hnoted ↦ hnoted.trans ⟨_, _, _, _, rfl⟩
    · exact fun _ _ _ hnoted ↦ hnoted.trans ⟨_, _, _, _, rfl⟩
    · exact keeps_react_of_passive (hpassive position)
        fun _ hookCalls hnoted ↦ hnoted.trans ⟨_, _, hookCalls, _, rfl⟩
  exact hkeeps runner (.refl runner)

end Chronicled

/-- Rearming an idle session only disarms it. -/
theorem Chronicled.yields_rearm_of_idle (hchronicled : runner.Chronicled)
    (hidle : runner.session.speed = Speed.idle) (bound : Nat) :
    Yields halted (rearmWithin audience (bound + 1)) runner
      fun _ last ↦ ∃ lines, last = runner.cleared.withLines lines := by
  rw [rearmWithin_succ]
  refine Yields.bind (yields_clear (writes_of_plain hchronicled.bound Fields.plain_nil)) ?_
  rintro _ _ ⟨lines, rfl⟩
  have hidled : (runner.cleared.withLines lines).session.speed = Speed.idle := hidle
  exact (ends_engage_of_idle hidled).mpr ⟨lines, rfl⟩

/-! ### The end of a stretch -/

/-- How a stretch turns out that comes to the end of its program unless there is a fault. -/
def outcomeOf (fault? : Option Fault) : Except Fault Unit := fault?.elim (.ok ()) .error

/-- The status that the end of a stretch leaves. -/
def verdict (runner : Runner) : Except Fault Unit → Status
  | .ok () => .finished runner.elapsed
  | .error fault => .failed fault

theorem plain_nameField (runner : Runner) {fields : Fields} (hfields : fields.Plain) :
    Fields.Plain (runner.nameField :: fields) := by
  refine Fields.plain_cons (by decide) ?_ hfields
  cases runner.session.view.name? <;> trivial

/-- The line about a start is plain, unless the program is too long to be counted. -/
theorem plain_startedFields (runner : Runner) {program : String} (options : StartOptions)
    (hlength : (program.length : Int) ≤ greatestInteger) :
    (runner.startedFields program options).Plain := by
  obtain ⟨hleast, hgreatest⟩ := options.initialSpeed_mem_range
  exact Fields.plain_cons (by decide) trivial
    (Fields.plain_cons (by decide) (Value.simple_speed hleast hgreatest)
      (Fields.plain_cons (by decide) (Value.simple_ofNat hlength)
        (Fields.plain_cons (by decide) trivial
          (Fields.plain_cons (by decide) trivial Fields.plain_nil))))

/-- The event that reports the end of a stretch. -/
def closing (runner : Runner) : Except Fault Unit → EventKind
  | .ok () => .finished runner.elapsed
  | .error fault => .failed fault

/-- To report the end of a stretch is to turn idle, to write a line, which is refused only if too
many steps have been made, and to tell an event. -/
theorem Chronicled.yields_conclude_of_tell {required : Runner → Prop}
    (hchronicled : runner.Chronicled) (outcome : Except Fault Unit)
    (hlong : greatestInteger < runner.session.steps → ∀ error, error.isRefusal = true →
      halted (.raised error) (runner.idledWith (runner.verdict outcome)))
    (htell : ∀ lines, Yields halted (tell audience (runner.closing outcome))
      ((runner.idledWith (runner.verdict outcome)).withLines lines) fun _ ↦ required) :
    Yields halted (conclude audience outcome) runner fun _ ↦ required := by
  let idled := runner.idledWith (runner.verdict outcome)
  have hline (event : String) (fields : Fields) (hplain : fields.Plain) :
      Yields halted (do
        log .info event (fields ++ [("steps", .ofNat runner.session.steps)])
        tell audience (runner.closing outcome)) idled fun _ ↦ required := by
    have hidled : idled.Chronicled := ⟨hchronicled.bound, hchronicled.heard⟩
    refine Yields.bind (hidled.writes_steps hplain hlong .info event) ?_
    rintro _ _ ⟨lines, rfl⟩
    exact htell lines
  rcases outcome with fault | _
  · exact (ends_reportFault fault).mpr (hline "session.failed" [runner.nameField,
      ("error_type", .text fault.kind), ("error_message", .text fault.message)]
        (plain_nameField runner (Fields.plain_cons (by decide) trivial
          (Fields.plain_cons (by decide) trivial Fields.plain_nil))))
  · exact ends_reportEnd.mpr (hline "session.finished" [runner.nameField,
      ("elapsed_s", .real runner.elapsed)]
        (plain_nameField runner (Fields.plain_cons (by decide) trivial Fields.plain_nil)))

/-- The end of a stretch is reported without a refusal unless too many steps have been made. -/
theorem Chronicled.yields_conclude (hchronicled : runner.Chronicled) (hpassive : audience.Passive)
    (outcome : Except Fault Unit)
    (hlong : greatestInteger < runner.session.steps → ∀ error, error.isRefusal = true →
      halted (.raised error) (runner.idledWith (runner.verdict outcome))) :
    Yields halted (conclude audience outcome) runner
      fun _ ↦ (runner.idledWith (runner.verdict outcome)).Noted := by
  refine hchronicled.yields_conclude_of_tell outcome hlong fun lines ↦ ?_
  have hidled : (runner.idledWith (runner.verdict outcome)).Chronicled :=
    ⟨hchronicled.bound, hchronicled.heard⟩
  have hwritten := noted_withLines (runner.idledWith (runner.verdict outcome)) lines
  exact Yields.mono ((hidled.noted hwritten).yields_tell hpassive _) fun _ _ ↦ hwritten.trans

/-! ### Steps -/

/-- The runner with an effect connected to a run and to the output, if there is one. -/
def settledAny (runner : Runner) (position : Nat) : Option Effect → Runner
  | some effect => runner.settled position effect
  | none => runner

/-- Before observers that only listen, an effect is connected and nothing more. -/
theorem yields_settleAny_of_passive (hpassive : audience.Passive) (position : Nat)
    (effect? : Option Effect) :
    Yields halted (settleAny audience position effect?) runner fun _ last ↦
      ∃ hookCalls, last = { runner.settledAny position effect? with hookCalls } := by
  refine yields_settleAny ?_ ?_ fun sink _ ↦ ?_
  · rintro rfl
    exact ⟨runner.hookCalls, rfl⟩
  · rintro effect hsome
    obtain rfl := Option.mem_def.mp hsome
    exact ⟨runner.hookCalls, rfl⟩
  · refine keeps_react_of_passive (hpassive sink) ?_
    rintro _ hookCalls ⟨_, rfl⟩
    exact ⟨hookCalls, rfl⟩

/-- So is the effect of a step, after which the counter moves. -/
theorem yields_advance_of_turn (hpassive : audience.Passive) {position : Nat} {run : Run}
    (hrun : runner.runs[position]? = some run) {effect? : Option Effect} {counter : Nat}
    (hturn : run.turn runner.bench.script = .ok (effect?, counter)) :
    Yields halted (advance audience position) runner fun _ last ↦ ∃ hookCalls, last =
      changeRun { runner.settledAny position effect? with hookCalls } position
        (·.resumeAt counter) := by
  have hsettled : Yields halted (settleAny audience position effect?) runner _ :=
    yields_settleAny_of_passive hpassive position effect?
  rw [Yields, ends_advance hrun]
  simp only [hturn]
  refine Ends.mono hsettled ?_
  intro outcome middle hmiddle
  rcases outcome with halt | _
  · exact hmiddle
  · obtain ⟨hookCalls, rfl⟩ := hmiddle
    exact ⟨hookCalls, rfl⟩

/-- The run at a position has come as far with a program as a rig that shares its output. -/
def Carries (runner : Runner) (position : Nat) (program : String) (rig : Rig) : Prop :=
  runner.runs[position]? = some ⟨program, .tape rig.machine, rig.supply⟩ ∧
    runner.output = rig.output

namespace Carries

variable {position : Nat} {program : String} {rig next : Rig}

/-- Where a rig is refused a step, so is the run, with everything as it was. -/
theorem ends_advance_of_stop (hcarries : runner.Carries position program rig) {stop : Stop}
    (hstep : rig.step = .error stop) {required : Except Halt Unit → Runner → Prop} :
    Ends (advance audience position) runner required ↔
      required (.error (.raised stop.error)) runner := by
  rw [Rig.step_eq_map] at hstep
  rw [ends_advance hcarries.1]
  cases hdone : rig.machine.advance rig.supply.offer with
  | ok done =>
    rw [hdone] at hstep
    cases hstep
  | error found =>
    rw [hdone] at hstep
    cases hstep
    simp only [Run.turn, hdone]

/-- Whoever attempts a step that is a fault finds everything as it was. -/
theorem yields_attempt_advance_of_fault (hcarries : runner.Carries position program rig)
    {fault : Fault} (hstep : rig.step = .error (.fault fault)) :
    Yields halted (attempt (advance audience position)) runner
      fun outcome last ↦ outcome = .error fault ∧ last = runner :=
  ends_attempt.mpr ((hcarries.ends_advance_of_stop hstep).mpr ⟨rfl, rfl⟩)

/-- Where a rig makes a step, so does the run, whatever the observers of the output do beside: what
they keep without touching the runs and the output is kept. -/
theorem yields_advance_of_react {inv : Runner → Prop}
    (hcarries : runner.Carries position program rig) (hstep : rig.step = .ok next)
    (hinv : inv runner)
    (hfree : ∀ middle runs output, inv middle → inv { middle with runs, output })
    (hreact : ∀ sink ∈ runner.sinks, ∀ runs output, Keeps
      (fun last ↦ inv last ∧ last.runs = runs ∧ last.output = output) halted
        (audience.react sink)) :
    Yields halted (advance audience position) runner
      fun _ last ↦ last.Carries position program next ∧ inv last := by
  rw [Rig.step_eq_map] at hstep
  rw [Yields, ends_advance hcarries.1]
  cases hdone : rig.machine.advance rig.supply.offer with
  | error stop =>
    rw [hdone] at hstep
    cases hstep
  | ok done =>
    obtain ⟨effect, counter⟩ := done
    rw [hdone] at hstep
    obtain rfl := Except.ok.inj hstep
    simp only [Run.turn, hdone]
    let settled := runner.settled position effect
    have hsettled : Yields halted (settleAny audience position (some effect)) runner
        fun _ last ↦ inv last ∧ last.runs = settled.runs ∧ last.output = settled.output := by
      refine yields_settleAny (absurd · (Option.some_ne_none effect)) ?_
        fun sink hsink ↦ hreact sink hsink _ _
      rintro _ ⟨⟩
      exact ⟨hfree runner _ _ hinv, rfl, rfl⟩
    refine Ends.mono hsettled ?_
    intro outcome middle hmiddle
    rcases outcome with halt | _
    · exact hmiddle
    · obtain ⟨hkept, hruns, houtput⟩ := hmiddle
      refine ⟨⟨?_, ?_⟩, hfree middle _ middle.output hkept⟩
      · simp only [changeRun, hruns, settled, Runner.settled, Array.getElem?_modify, if_true,
          hcarries.1, Option.map_some]
        rfl
      · simp only [changeRun, houtput, settled, Runner.settled, hcarries.2]
        rfl

/-- Where a rig makes a step, so does the run, with nothing else changed but the counts of calls. -/
theorem yields_advance (hcarries : runner.Carries position program rig)
    (hpassive : audience.Passive) (hstep : rig.step = .ok next) :
    Yields halted (advance audience position) runner fun _ last ↦
      last.Carries position program next ∧
        ∃ runs output hookCalls, last = { runner with runs, output, hookCalls } := by
  refine hcarries.yields_advance_of_react hstep ⟨_, _, _, rfl⟩ ?_ fun sink _ runs output ↦ ?_
  · rintro _ runs output ⟨_, _, hookCalls, rfl⟩
    exact ⟨runs, output, hookCalls, rfl⟩
  · refine keeps_react_of_passive (hpassive sink) ?_
    rintro _ hookCalls ⟨⟨_, _, _, rfl⟩, hruns, houtput⟩
    exact ⟨⟨_, _, hookCalls, rfl⟩, hruns, houtput⟩

/-- Whoever attempts a step that is made finds it made. -/
theorem yields_attempt_advance (hcarries : runner.Carries position program rig)
    (hpassive : audience.Passive) (hstep : rig.step = .ok next) :
    Yields halted (attempt (advance audience position)) runner fun outcome last ↦
      outcome = .ok () ∧ last.Carries position program next ∧
        ∃ runs output hookCalls, last = { runner with runs, output, hookCalls } := by
  have hadvance : Yields (fun _ _ ↦ False) (attempt (advance audience position)) runner _ :=
    (hcarries.yields_advance hpassive hstep).attempt_ok fun _ _ ↦ id
  refine Yields.allow (Yields.mono hadvance ?_) fun _ _ ↦ False.elim
  rintro _ last ⟨_, rfl, hlast⟩
  exact ⟨rfl, hlast⟩

/-- A step before the end of the program is counted and no more. -/
theorem ends_concludeStep_of_pass (hcarries : runner.Carries position program rig)
    (hend : rig.machine.atEnd = false) {required : Except Halt Unit → Runner → Prop} :
    Ends (concludeStep audience position (.ok ())) runner required ↔
      required (.ok ()) runner.stepCounted := by
  have hbefore : Run.atEnd ⟨program, .tape rig.machine, rig.supply⟩ = false := hend
  rw [ends_concludeStep hcarries.1, if_neg (Bool.eq_false_iff.mp hbefore), ends_pure]

/-- A step to the end of the program is counted, and the end is reported. -/
theorem ends_concludeStep_of_end (hcarries : runner.Carries position program rig)
    (hend : rig.machine.atEnd = true) {required : Except Halt Unit → Runner → Prop} :
    Ends (concludeStep audience position (.ok ())) runner required ↔
      Ends (conclude audience (.ok ())) runner.stepCounted required := by
  have hafter : Run.atEnd ⟨program, .tape rig.machine, rig.supply⟩ = true := hend
  rw [ends_concludeStep hcarries.1, if_pos hafter]
  exact Iff.rfl

/-- With patience for all of the way, the loop of a blocking run takes a run to the halt of its rig,
if every step that the rig makes is made at the blocking speed. What is kept by a step that is then
counted has been kept as often. -/
theorem yields_attempt_blockingSteps_of_advance {inv : Nat → Runner → Prop}
    {made count patience : Nat} {fault? : Option Fault} {goal : Rig}
    (hfault : ∀ fault last, ¬ halted (.raised (.fault fault)) last)
    (hspeed : ∀ made last, inv made last → last.session.speed = Speed.blocking)
    (hcarries : runner.Carries position program rig) (hinv : inv made runner)
    (hhalts : rig.Halts count fault? goal) (hpatience : count < patience)
    (hadvance : ∀ step last rig next, step < made + count → inv step last →
      last.Carries position program rig → rig.step = .ok next →
        Yields halted (advance audience position) last fun _ after ↦
          after.Carries position program next ∧ inv (step + 1) after.stepCounted) :
    Yields halted (attempt (blockingSteps audience position patience)) runner fun outcome last ↦
      outcome = outcomeOf fault? ∧ last.Carries position program goal ∧
        inv (made + count) last := by
  obtain ⟨patience, rfl⟩ : ∃ more, patience = more + 1 := ⟨patience - 1, by omega⟩
  induction count generalizing runner rig made patience with
  | zero =>
    obtain ⟨hnow, hhow⟩ := hhalts
    obtain rfl : rig = goal := congrArg Prod.snd hnow
    cases fault? with
    | none =>
      refine ends_attempt.mpr ((ends_blockingSteps_of_stops hcarries.1 (.inr hhow)).mpr ?_)
      exact ⟨rfl, hcarries, hinv⟩
    | some fault =>
      refine ends_attempt.mpr
        ((ends_blockingSteps_of_goes hcarries.1 (hspeed made runner hinv) hhow.1).mpr ?_)
      exact (hcarries.ends_advance_of_stop hhow.2).mpr ⟨rfl, hcarries, hinv⟩
  | succ count ih =>
    obtain ⟨next, hstep, hrest⟩ := hhalts.exists_step
    have hbefore : rig.machine.atEnd = false := by
      refine Bool.eq_false_iff.mpr fun hend ↦ ?_
      cases hstep.symm.trans (Rig.step_of_atEnd hend)
    obtain ⟨fewer, rfl⟩ : ∃ fewer, patience = fewer + 1 := ⟨patience - 1, by omega⟩
    refine ends_attempt.mpr
      ((ends_blockingSteps_of_goes hcarries.1 (hspeed made runner hinv) hbefore).mpr
        (Ends.mono (hadvance made runner rig next (by omega) hinv hcarries hstep) ?_))
    intro outcome middle hmiddle
    rcases outcome with halt | _
    · rcases halt with error | _
      · cases error with
        | fault fault => exact absurd hmiddle (hfault fault middle)
        | _ => exact hmiddle
      · exact hmiddle
    · have hcounted : middle.stepCounted.Carries position program next := hmiddle.1
      have htotal : made + 1 + count = made + (count + 1) := by omega
      have hlater := ih hcounted hmiddle.2 hrest (htotal ▸ hadvance) fewer (by omega)
      rw [htotal] at hlater
      exact ends_attempt.mp hlater

/-- Before observers that only listen, the loop counts the steps, and changes nothing else but the
counts of calls. -/
theorem yields_attempt_blockingSteps {count patience : Nat} {fault? : Option Fault} {goal : Rig}
    (hcarries : runner.Carries position program rig) (hpassive : audience.Passive)
    (hspeed : runner.session.speed = Speed.blocking) (hhalts : rig.Halts count fault? goal)
    (hpatience : count < patience) :
    Yields halted (attempt (blockingSteps audience position patience)) runner fun outcome last ↦
      outcome = outcomeOf fault? ∧ last.Carries position program goal ∧
        ∃ runs output hookCalls, last =
          { runner with
            session := { runner.session with steps := runner.session.steps + count }
            runs, output, hookCalls } := by
  let inv (made : Nat) (last : Runner) : Prop := ∃ runs output hookCalls, last =
    { runner with
      session := { runner.session with steps := runner.session.steps + made }
      runs, output, hookCalls }
  have hloop : Yields (fun _ _ ↦ False) (attempt (blockingSteps audience position patience)) runner
      fun outcome last ↦ outcome = outcomeOf fault? ∧ last.Carries position program goal ∧
        inv (0 + count) last := by
    refine yields_attempt_blockingSteps_of_advance (fun _ _ ↦ id) ?_ hcarries
      ⟨_, _, _, rfl⟩ hhalts hpatience ?_
    · rintro _ _ ⟨_, _, _, rfl⟩
      exact hspeed
    · rintro made last rig next - hlast hcarried hstep
      refine Yields.mono (hcarried.yields_advance hpassive hstep) ?_
      rintro _ _ ⟨hnext, runs, output, hookCalls, rfl⟩
      obtain ⟨_, _, _, rfl⟩ := hlast
      exact ⟨hnext, runs, output, hookCalls, rfl⟩
  rw [Nat.zero_add] at hloop
  exact Yields.allow hloop fun _ _ ↦ False.elim

end Carries

end Runner

end TapeRunner
