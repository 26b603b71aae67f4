import TapeRunner.Proofs.Machine.Stretches
import TapeRunner.Proofs.Session.Hearing
import TapeRunner.Proofs.Session.Schedule

/-!
# A session in accord with itself

Whether a session is active, what it is attached to and where its input is fed to are kept apart,
and operations are refused for lack of one or of the other. Between the operations the three agree
(`Runner.InAccord`): there is one tape that all of them point to, or there is none. Such a session
is poised if no blocking run is due either, and then it can be asked for anything: before observers
that only listen, every operation comes to an end in a session that is poised again, and none is
refused. The only early end is that of a line for more steps than fit into it, which comes when
everything else has been done (`Runner.Overrun`). A blocking run has to come to the halt of its
rig within the patience of the audience (`Audience.Settles`); its rig is sound, so there is nothing
else that could stop it (`Rig.step_cases`).
-/

set_option autoImplicit false
set_option relaxedAutoImplicit false

namespace TapeRunner

open Activity

/-- A rig comes to a halt within the patience of an audience, of which something is left for what
follows. -/
def Audience.Settles (audience : Audience) (rig : Rig) : Prop :=
  ∃ count fault? goal, rig.Halts count fault? goal ∧ count + 1 < audience.patience

/-- How an attempt at an instruction beside the program turns out, with the rig that it leaves: the
next one, or the same after a refusal. -/
def Rig.TurnsOut (rig : Rig) (instruction : String) (next : Rig) : Except Fault Unit → Prop
  | .ok () => rig.execute instruction = .ok next
  | .error fault => rig.execute instruction = .error (.fault fault) ∧ next = rig

namespace Runner

variable {runner last : Runner} {audience : Audience} {position? : Option Nat} {position : Nat}
variable {halted : Halt → Runner → Prop}

/-! ### What agrees -/

/-- The session is active exactly if it is attached to a tape, whose machine is sound and which its
input is fed to, and the next start will build a tape as well. -/
structure InAccord (position? : Option Nat) (runner : Runner) : Prop extends runner.Chronicled where
  attached_eq : runner.attached = position?
  supplied_eq : runner.supplied = position?
  active_eq : runner.session.active = position?.isSome
  carries : ∀ position ∈ position?, ∃ program rig,
    runner.Carries position program rig ∧ rig.machine.Sound
  kind : runner.bench.kind = .tape
  size : 0 < runner.bench.memorySize
  least : Speed.blocking ≤ runner.session.speed
  greatest : runner.session.speed ≤ Speed.top

/-- The session is in accord with itself, and no blocking run is due. -/
structure Poised (position? : Option Nat) (runner : Runner) : Prop
    extends InAccord position? runner where
  idle_le : Speed.idle ≤ runner.session.speed

/-- An early end that is allowed for: there are more steps to be counted than fit into a line, and
the session is poised all the same. -/
def Overrun (position? : Option Nat) (halt : Halt) (last : Runner) : Prop :=
  Poised position? last ∧ halt.Overflows last.session.steps

/-- A run carries one rig only. -/
theorem Carries.unique {program other : String} {rig found : Rig}
    (hcarries : runner.Carries position program rig)
    (hfound : runner.Carries position other found) : rig = found := by
  have hrun := Option.some.inj (hcarries.1.symm.trans hfound.1)
  have houtput := hcarries.2.symm.trans hfound.2
  rcases rig with ⟨machine, supply, output⟩
  simp only [Run.mk.injEq, Engine.tape.injEq] at hrun houtput
  obtain ⟨-, rfl, rfl⟩ := hrun
  rw [houtput]

/-- Whoever attempts an instruction beside the program of a sound machine finds it executed, or
refused with everything as it was, and no other run is touched. -/
theorem Carries.yields_attempt_execute {program : String} {rig : Rig}
    (hcarries : runner.Carries position program rig) (hsound : rig.machine.Sound)
    (hpassive : audience.Passive) (instruction : String) :
    Yields halted (attempt (execute audience position instruction)) runner fun outcome last ↦
      ∃ next, rig.TurnsOut instruction next outcome ∧ last.Carries position program next ∧
        next.machine.Sound ∧ ∃ runs output hookCalls,
          last = { runner with runs, output, hookCalls } ∧
            ∀ other ≠ position, runs[other]? = runner.runs[other]? := by
  refine ends_attempt.mpr ((ends_execute hcarries.1).mpr ?_)
  rcases hsound.execute_cases rig.supply.offer instruction with
    ⟨fault, hfault⟩ | ⟨effect, hdone, htouches⟩
  · simp only [Run.aside, hfault, Stop.error]
    have hrefused : rig.execute instruction = .error (.fault fault) := by
      rw [Rig.execute, hfault]
      rfl
    exact ⟨rig, ⟨hrefused, rfl⟩, hcarries, hsound, _, _, _, rfl, fun _ _ ↦ rfl⟩
  · simp only [Run.aside, hdone]
    have hsettled : Yields (fun _ _ ↦ False) (settleAny audience position (some effect)) runner _ :=
      yields_settleAny_of_passive hpassive position (some effect)
    refine Ends.mono hsettled fun outcome last hlast ↦ ?_
    rcases outcome with halt | _
    · exact hlast.elim
    · obtain ⟨hookCalls, rfl⟩ := hlast
      have hexecuted : rig.execute instruction = .ok (rig.settle effect) := by
        rw [Rig.execute, hdone]
        rfl
      refine ⟨rig.settle effect, hexecuted, ⟨?_, ?_⟩,
        htouches.sound hsound effect.machine.counter, _, _, hookCalls, rfl, fun other hother ↦ ?_⟩
      · simp only [settledAny, settled, Array.getElem?_modify, if_true, hcarries.1]
        rfl
      · simp only [settledAny, settled, hcarries.2]
        rfl
      · simp only [settledAny, settled, Array.getElem?_modify, if_neg hother.symm]

namespace InAccord

variable (haccord : InAccord position? runner)
include haccord

theorem noted (hnoted : runner.Noted last) : InAccord position? last := by
  obtain ⟨_, _, _, _, rfl⟩ := hnoted
  exact { haccord with }

theorem cleared (lines : Array Line) : InAccord position? (runner.cleared.withLines lines) :=
  { haccord with }

theorem withSpeed {speed : Int} (hleast : Speed.blocking ≤ speed) (hgreatest : speed ≤ Speed.top) :
    InAccord position? (runner.withSpeed speed) :=
  { haccord with least := hleast, greatest := hgreatest }

/-- Whoever turns idle is poised. -/
theorem idledWith (status : Status) : Poised position? (runner.idledWith status) :=
  { haccord with
    least := show Speed.blocking ≤ Speed.idle by decide
    greatest := show Speed.idle ≤ Speed.top by decide
    idle_le := Int.le_refl Speed.idle }

/-- An active session has a position. -/
theorem exists_position (hactive : runner.session.active = true) :
    ∃ position, position? = some position :=
  Option.isSome_iff_exists.mp (haccord.active_eq.symm.trans hactive)

/-- An inactive one has none. -/
theorem position_eq_none (hinactive : runner.session.active = false) : position? = none :=
  Option.isNone_iff_eq_none.mp
    (Option.isSome_eq_false_iff.mp (haccord.active_eq.symm.trans hinactive))

theorem simple_speed : (Value.whole runner.session.speed).Simple :=
  Value.simple_speed haccord.least haccord.greatest

end InAccord

namespace Poised

variable (hpoised : Poised position? runner)
include hpoised

theorem noted (hnoted : runner.Noted last) : Poised position? last := by
  have haccord := hpoised.toInAccord.noted hnoted
  obtain ⟨_, _, _, _, rfl⟩ := hnoted
  exact ⟨haccord, hpoised.idle_le⟩

theorem withOutput (output : Output) : Poised position? { runner with output } :=
  { hpoised with
    carries := by
      intro position hposition
      obtain ⟨program, rig, hcarries, hsound⟩ := hpoised.carries position hposition
      exact ⟨program, { rig with output }, ⟨hcarries.1, rfl⟩, hsound⟩ }

theorem withClock (clock : Float) :
    Poised position? { runner with bench := { runner.bench with clock } } :=
  { hpoised with }

end Poised

/-! ### Rearming -/

namespace Poised

/-- What follows once there is no timer is a timer or nothing. -/
theorem yields_engage (hpoised : Poised position? runner) (again : Action Unit) :
    Yields halted (engage audience again) runner fun _ ↦ Poised position? := by
  refine ends_engage (fun _ ↦ hpoised) (fun _ ↦ hpoised) (fun habove cadence hcadence ↦ ?_)
    fun hbelow ↦ absurd hpoised.idle_le (Int.not_le.mpr hbelow)
  obtain ⟨found, hfound, hinterval⟩ := Speed.interval_pos habove hpoised.greatest
  obtain rfl : found = cadence := Option.some.inj (hfound.symm.trans hcadence)
  have harmed : Poised position? (runner.armedAt found) := { hpoised with }
  have hline : Fields.Plain [("speed", .whole runner.session.speed),
      ("interval_s", .real (Speed.interval found))] :=
    Fields.plain_cons (by decide) hpoised.simple_speed
      (Fields.plain_cons (by decide) trivial Fields.plain_nil)
  refine Yields.mono (yields_arm hinterval (writes_of_plain harmed.bound hline)) ?_
  rintro _ _ ⟨lines, rfl⟩
  exact harmed.noted (noted_withLines _ lines)

theorem yields_rearmWithin (hpoised : Poised position? runner) {bound : Nat} (hbound : bound ≠ 0) :
    Yields halted (rearmWithin audience bound) runner fun _ ↦ Poised position? := by
  obtain ⟨bound, rfl⟩ := Nat.exists_eq_succ_of_ne_zero hbound
  rw [rearmWithin_succ]
  refine Yields.bind (yields_clear (writes_of_plain hpoised.bound Fields.plain_nil)) ?_
  rintro _ _ ⟨lines, rfl⟩
  have hcleared : Poised position? (runner.cleared.withLines lines) :=
    ⟨hpoised.toInAccord.cleared lines, hpoised.idle_le⟩
  exact hcleared.yields_engage _

/-- So a session stays poised when its speed has perhaps changed. -/
theorem yields_again (hpoised : Poised position? runner) (speed : Int) {bound : Nat}
    (hbound : bound ≠ 0) :
    Yields halted (againUnless speed (rearmWithin audience bound)) runner
      fun _ ↦ Poised position? := by
  by_cases hsame : runner.session.speed = speed
  · exact (ends_againUnless_of_same hsame).mpr hpoised
  · exact (ends_againUnless_of_other hsame).mpr (hpoised.yields_rearmWithin hbound)

end Poised

namespace InAccord

/-- The end of a stretch is reported, after which the session is poised. -/
theorem yields_conclude (haccord : InAccord position? runner) (hpassive : audience.Passive)
    (outcome : Except Fault Unit) :
    Yields (Overrun position?) (conclude audience outcome) runner fun _ ↦ Poised position? := by
  have hidled := haccord.idledWith (runner.verdict outcome)
  refine Yields.mono (haccord.toChronicled.yields_conclude hpassive outcome ?_) ?_
  · exact fun hlong error hrefusal ↦ ⟨hidled, hlong, error, rfl, hrefusal⟩
  · exact fun _ _ hnoted ↦ hidled.noted hnoted

/-- A blocking run of a tape that settles leaves the session poised. -/
theorem yields_blockingRun (haccord : InAccord (some position) runner)
    (hpassive : audience.Passive) {program : String} {rig : Rig}
    (hcarries : runner.Carries position program rig) (hsound : rig.machine.Sound)
    (hspeed : runner.session.speed = Speed.blocking) {count bound : Nat} {fault? : Option Fault}
    {goal : Rig} (hhalts : rig.Halts count fault? goal) (hpatience : count < audience.patience)
    (hbound : bound ≠ 0) :
    Yields (Overrun (some position)) (blockingRun audience (rearmWithin audience bound) position)
      runner fun _ ↦ Poised (some position) := by
  rw [Yields, blockingRun_eq, ends_bind, ends_get]
  have hplain := plain_nameField runner Fields.plain_nil
  refine Yields.bind (writes_of_plain haccord.bound hplain .info "session.blocking_run") ?_
  rintro _ _ ⟨lines, rfl⟩
  have hwritten : (runner.withLines lines).Carries position program rig := hcarries
  refine Yields.bind
    (hwritten.yields_attempt_blockingSteps hpassive hspeed hhalts hpatience) ?_
  rintro outcome counted ⟨-, hgoal, runs, output, hookCalls, rfl⟩
  have hcounted : InAccord (some position)
      { runner.withLines lines with
        session := { runner.session with steps := runner.session.steps + count }
        runs, output, hookCalls } :=
    { haccord with
      carries := by
        rintro _ ⟨⟩
        exact ⟨program, goal, hgoal, Rig.sound_of_stepTimes hsound hhalts.1⟩ }
  exact (hcounted.yields_conclude hpassive outcome).bind fun _ _ hclosed ↦
    hclosed.yields_again _ hbound

/-- To rearm a session is to leave it poised, if a blocking run that is due settles. -/
theorem yields_rearm (haccord : InAccord position? runner) (hpassive : audience.Passive)
    (hpatience : audience.patience ≠ 0)
    (hsettles : runner.session.speed = Speed.blocking →
      ∃ position program rig, position? = some position ∧
        runner.Carries position program rig ∧ audience.Settles rig) :
    Yields (Overrun position?) (rearm audience) runner fun _ ↦ Poised position? := by
  by_cases hspeed : runner.session.speed = Speed.blocking
  · obtain ⟨position, program, rig, rfl, hcarries, count, fault?, goal, hhalts, hcount⟩ :=
      hsettles hspeed
    obtain ⟨bound, hbound⟩ : ∃ bound, audience.patience = bound + 1 + 1 :=
      ⟨audience.patience - 2, by omega⟩
    rw [rearm, hbound, rearmWithin_succ]
    refine Yields.bind (yields_clear (writes_of_plain haccord.bound Fields.plain_nil)) ?_
    rintro _ _ ⟨lines, rfl⟩
    have hcleared := haccord.cleared lines
    obtain ⟨_, found, hfound, hsound⟩ := haccord.carries position rfl
    obtain rfl : found = rig := hfound.unique hcarries
    have hbelow : runner.session.speed < 0 := hspeed ▸ by decide
    refine (ends_engage_of_blocking hcleared.active_eq hcleared.attached_eq hbelow).mpr ?_
    exact hcleared.yields_blockingRun hpassive hcarries hsound hspeed hhalts (by omega)
      (Nat.succ_ne_zero bound)
  · have hidle : Speed.idle ≤ runner.session.speed := by
      have hleast := haccord.least
      unfold Speed.blocking at hleast hspeed
      unfold Speed.idle
      omega
    have hpoised : Poised position? runner := ⟨haccord, hidle⟩
    exact hpoised.yields_rearmWithin hpatience

end InAccord

/-! ### Steps and ticks -/

namespace Poised

/-- A run is stepped, and the step counted and reported. -/
theorem yields_attempt (hpoised : Poised (some position) runner) (hpassive : audience.Passive) :
    Yields (Overrun (some position))
      (attempt (advance audience position) >>= concludeStep audience position) runner
      fun _ ↦ Poised (some position) := by
  obtain ⟨program, rig, hcarries, hsound⟩ := hpoised.carries position rfl
  rcases rig.step_cases hsound with ⟨fault, hfault⟩ | ⟨next, hstep, hnext⟩
  · refine Yields.bind (hcarries.yields_attempt_advance_of_fault hfault) ?_
    rintro _ _ ⟨rfl, rfl⟩
    exact hpoised.yields_conclude hpassive (.error fault)
  · refine Yields.bind (hcarries.yields_attempt_advance hpassive hstep) ?_
    rintro _ _ ⟨rfl, hmoved, runs, output, hookCalls, rfl⟩
    have hcounted : Poised (some position)
        ({ runner with runs, output, hookCalls } : Runner).stepCounted :=
      { hpoised with
        carries := by
          rintro _ ⟨⟩
          exact ⟨program, next, hmoved, hnext⟩ }
    refine (ends_concludeStep hmoved.1).mpr ?_
    split
    · exact hcounted.yields_conclude hpassive (.ok ())
    · exact hcounted

theorem yields_step (hpoised : Poised (some position) runner) (hpassive : audience.Passive)
    (hpatience : audience.patience ≠ 0) :
    Yields (Overrun (some position)) (step audience) runner fun _ ↦ Poised (some position) := by
  have hwiped : Poised (some position) runner.wiped := { hpoised with }
  have htold : Keeps (Poised (some position)) (Overrun (some position))
      (tell audience .stepped) := fun _ hmiddle ↦
    Yields.mono (hmiddle.yields_tell hpassive .stepped) fun _ _ hnoted ↦ hmiddle.noted hnoted
  have hagain : Keeps (Poised (some position)) (Overrun (some position))
      (againUnless runner.session.speed (rearm audience)) :=
    fun _ hlast ↦ hlast.yields_again _ hpatience
  have hwhole := (hwiped.yields_attempt hpassive).bind fun _ ↦ htold.bind fun _ ↦ hagain
  rw [bind_assoc] at hwhole
  exact (ends_step hpoised.attached_eq).mpr hwhole

/-- Rounds of the timers make steps, or nothing. -/
theorem yields_fire (hpoised : Poised position? runner) (hpassive : audience.Passive)
    (hpatience : audience.patience ≠ 0) (rounds : Nat) :
    Yields (Overrun position?) (fire audience rounds) runner fun _ ↦ Poised position? := by
  refine keeps_fire_of_active (fun middle hmiddle hactive ↦ ?_) rounds runner hpoised
  obtain ⟨position, rfl⟩ := hmiddle.exists_position hactive
  exact hmiddle.yields_step hpassive hpatience

/-! ### Speed -/

/-- A change of speed leaves the session poised, if a blocking run that it begins settles. -/
theorem yields_setSpeed (hpoised : Poised position? runner) (hpassive : audience.Passive)
    (hpatience : audience.patience ≠ 0) {speed : Int} (hleast : Speed.blocking ≤ speed)
    (hgreatest : speed ≤ Speed.top)
    (hsettles : speed = Speed.blocking → ∃ position program rig, position? = some position ∧
      runner.Carries position program rig ∧ audience.Settles rig) :
    Yields (Overrun position?) (setSpeed audience speed) runner fun _ ↦ Poised position? := by
  by_cases hsame : speed = runner.session.speed
  · rw [Yields, setSpeed_eq, ends_bind, ends_get]
    simp only [ne_eq, hsame, not_true_eq_false, if_false]
    exact hpoised
  · have hchanged : InAccord position? (runner.withSpeed speed) :=
      hpoised.withSpeed hleast hgreatest
    have hline : Fields.Plain [("previous_speed", .whole runner.session.speed),
        ("speed", .whole speed)] :=
      Fields.plain_cons (by decide) hpoised.simple_speed
        (Fields.plain_cons (by decide) hchanged.simple_speed Fields.plain_nil)
    refine (ends_setSpeed_of_other hsame).mpr (Yields.bind
      (hchanged.yields_log .info "session.speed_changed" hline) fun _ logged hlogged ↦ ?_)
    have htold : Yields (Overrun position?) (tellChange audience runner.session.speed) logged
        fun _ ↦ (runner.withSpeed speed).Noted := by
      rw [Yields, tellChange, ends_bind, ends_get]
      simp only
      split
      · exact Yields.mono ((hchanged.noted hlogged).yields_tell hpassive _)
          fun _ _ ↦ hlogged.trans
      · exact hlogged
    refine htold.bind fun _ told hnoted ↦ ?_
    have haccord := hchanged.noted hnoted
    obtain ⟨_, _, _, _, rfl⟩ := hnoted
    exact haccord.yields_rearm hpassive hpatience hsettles

/-- One speed up is never the blocking one. -/
theorem yields_faster (hpoised : Poised position? runner) (hpassive : audience.Passive)
    (hpatience : audience.patience ≠ 0) :
    Yields (Overrun position?) (faster audience) runner fun _ ↦ Poised position? := by
  have hidle := hpoised.idle_le
  rw [Yields, faster, ends_bind, ends_get]
  refine hpoised.yields_setSpeed hpassive hpatience (Speed.blocking_le_clamp _)
    (Speed.clamp_le_top _) fun hblocking ↦ ?_
  unfold Speed.clamp Speed.blocking Speed.top at hblocking
  unfold Speed.idle at hidle
  omega

/-- Nor is one speed down. -/
theorem yields_slower (hpoised : Poised position? runner) (hpassive : audience.Passive)
    (hpatience : audience.patience ≠ 0) :
    Yields (Overrun position?) (slower audience) runner fun _ ↦ Poised position? := by
  have hgreatest := hpoised.greatest
  rw [Yields, slower, ends_bind, ends_get]
  simp only
  split
  · next hfast =>
    unfold Speed.idle at hfast
    refine hpoised.yields_setSpeed hpassive hpatience ?_ ?_ fun hblocking ↦ ?_
    · unfold Speed.blocking
      omega
    · omega
    · unfold Speed.blocking at hblocking
      omega
  · exact hpoised

/-! ### Beside the program -/

/-- An instruction beside the program is accepted or rejected, and told of. -/
theorem yields_inject (hpoised : Poised (some position) runner) (hpassive : audience.Passive)
    (instruction : String) :
    Yields halted (inject audience instruction) runner fun _ ↦ Poised (some position) := by
  obtain ⟨program, rig, hcarries, hsound⟩ := hpoised.carries position rfl
  rw [inject_eq, Yields, ends_bind, ends_requireRun, hpoised.attached_eq]
  refine Yields.bind (hcarries.yields_attempt_execute hsound hpassive instruction) ?_
  rintro outcome _ ⟨next, -, hmoved, hnext, runs, output, hookCalls, rfl, -⟩
  have hexecuted : Poised (some position) { runner with runs, output, hookCalls } :=
    { hpoised with
      carries := by
        rintro _ ⟨⟩
        exact ⟨program, next, hmoved, hnext⟩ }
  refine Yields.bind (hexecuted.yields_acceptance instruction outcome) ?_
  rintro accepted _ ⟨-, lines, rfl⟩
  have hlogged := hexecuted.noted (noted_withLines _ lines)
  exact Yields.bind (hlogged.yields_tell hpassive _) fun _ _ hnoted ↦ hlogged.noted hnoted

theorem yields_feed (hpoised : Poised (some position) runner) (content : String) :
    Yields halted (feed content) runner fun _ ↦ Poised (some position) := by
  obtain ⟨program, rig, hcarries, hsound⟩ := hpoised.carries position rfl
  rw [Yields, feed, ends_bind, ends_get]
  simp only [hpoised.supplied_eq]
  refine (ends_modify _).mpr { hpoised with
    carries := ?_ }
  rintro _ ⟨⟩
  refine ⟨program, rig.feed content, ⟨?_, hcarries.2⟩, hsound⟩
  rw [Array.getElem?_modify, if_pos rfl, hcarries.1]
  rfl

/-! ### Starting and stopping -/

/-- A session that is started is poised, if a blocking run that it begins settles. -/
theorem yields_start (hpoised : Poised position? runner) (hpassive : audience.Passive)
    (hpatience : audience.patience ≠ 0) {program : String} (options : StartOptions)
    (hlength : (program.length : Int) ≤ greatestInteger)
    (hsettles : options.initialSpeed = Speed.blocking →
      audience.Settles (runner.rigOf program)) :
    Yields (Overrun (some runner.runs.size)) (start audience program options) runner
      fun _ ↦ Poised (some runner.runs.size) := by
  have hadmits : runner.Admits program :=
    { hpoised with length := hlength }
  refine Runner.yields_start (build_eq_of_admits hadmits) hpoised.bound fun lines ↦ ?_
  obtain ⟨hleast, hgreatest⟩ := options.initialSpeed_mem_range
  have hcarries : ((runner.begun options ⟨program, .tape (runner.rigOf program).machine,
      (runner.rigOf program).supply⟩).withLines lines).Carries runner.runs.size program
        (runner.rigOf program) := ⟨Array.getElem?_push_size, rfl⟩
  have hloaded : (runner.rigOf program).machine.Sound :=
    .load program (Int.pos_iff_toNat_pos.mp hpoised.size)
  have hbegun : InAccord (some runner.runs.size) ((runner.begun options ⟨program,
      .tape (runner.rigOf program).machine, (runner.rigOf program).supply⟩).withLines lines) :=
    { bound := hpoised.bound.named _
      heard := hpoised.heard
      attached_eq := rfl
      supplied_eq := rfl
      active_eq := rfl
      carries := by
        rintro _ ⟨⟩
        exact ⟨program, _, hcarries, hloaded⟩
      kind := hpoised.kind
      size := hpoised.size
      least := hleast
      greatest := hgreatest }
  refine Yields.bind (hbegun.yields_log .info "session.started"
    (plain_startedFields runner options hlength)) fun _ logged hlogged ↦ ?_
  refine Yields.bind ((hbegun.noted hlogged).yields_tell hpassive .started) fun _ told htold ↦ ?_
  have hnoted := hlogged.trans htold
  have haccord := hbegun.noted hnoted
  obtain ⟨_, _, _, _, rfl⟩ := hnoted
  exact haccord.yields_rearm hpassive hpatience fun hblocking ↦
    ⟨_, program, _, rfl, hcarries, hsettles hblocking⟩

/-- A session that is stopped is poised for the next start. -/
theorem yields_stop (hpoised : Poised position? runner) (hpassive : audience.Passive) :
    Yields (Overrun none) (stop audience) runner fun _ ↦ Poised none := by
  rcases position? with _ | position
  · exact (ends_stop_of_inactive hpoised.active_eq).mpr hpoised
  refine Runner.yields_stop hpoised.active_eq hpoised.bound fun lines ↦ ?_
  have hended : Poised none (runner.ended.withLines lines) :=
    { hpoised with
      attached_eq := rfl
      supplied_eq := rfl
      active_eq := rfl
      carries := nofun }
  have hplain := plain_nameField runner Fields.plain_nil
  refine Yields.bind (hended.writes_steps hplain ?_ .info "session.stopped") ?_
  · exact fun hlong error hrefusal ↦ ⟨hended, hlong, error, rfl, hrefusal⟩
  rintro _ _ ⟨written, rfl⟩
  have hlogged := hended.noted (noted_withLines _ written)
  refine Yields.bind (hlogged.yields_tell hpassive .stopped) fun _ told hnoted ↦ ?_
  have htold := hlogged.noted hnoted
  exact { htold with bound := Fields.plain_nil }

end Poised

end Runner

end TapeRunner
