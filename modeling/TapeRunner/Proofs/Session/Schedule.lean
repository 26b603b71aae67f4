import TapeRunner.Proofs.Session.Course

/-!
# Schedules

However a session is driven along its course, by single steps, by timers or by blocking runs, and
in whatever order, it stays on it (`Runner.drives_obey`); and whoever turns to the blocking
speed at the end arrives (`Runner.leads_setSpeed`). So a schedule makes no difference to where a
program that halts takes the session (`Runner.standing_eq_of_schedule`).
-/

set_option autoImplicit false
set_option relaxedAutoImplicit false

namespace TapeRunner

open Activity

/-- An order that drives a session on, or changes how it is driven on, within the limits of
speed. -/
def Order.Drives : Order → Prop
  | .step | .runBlocking | .faster | .slower | .pause | .superSpeed | .fire _ | .rearm => True
  | .setSpeed speed => Speed.blocking ≤ speed ∧ speed ≤ Speed.top
  | _ => False

namespace Runner

/-- The session is on its course, and no blocking run is due. -/
def Underway (course : Course) (runner : Runner) : Prop :=
  OnCourse course runner ∧ 0 ≤ runner.session.speed

/-- Where a change to a speed leads: the session is underway, and has arrived if the speed is below
zero. -/
def Lands (course : Course) (speed : Int) (last : Runner) : Prop :=
  Underway course last ∧ (speed < 0 → Arrived course last)

/-- An activity keeps every session underway that is. -/
abbrev Drives {Result : Type} (course : Course) (activity : Action Result) : Prop :=
  Keeps (Underway course) (Overlong course (Underway course)) activity

variable {course : Course} {runner last : Runner} {audience : Audience}

theorem Underway.noted (hunderway : Underway course runner) (hnoted : runner.Noted last) :
    Underway course last := by
  have hon := hunderway.1.noted hnoted
  obtain ⟨_, _, _, _, rfl⟩ := hnoted
  exact ⟨hon, hunderway.2⟩

theorem Arrived.lands (harrived : Arrived course runner) (speed : Int) :
    Lands course speed runner :=
  ⟨⟨harrived.toOnCourse, Int.le_of_eq harrived.idle.symm⟩, fun _ ↦ harrived⟩

/-! ### Rearming -/

/-- Rearming a session on its course keeps it there, and arrives if the speed is the blocking
one. -/
theorem OnCourse.leads_rearm (hon : OnCourse course runner) (hpassive : audience.Passive)
    (hpatience : course.count + 1 < audience.patience) :
    LeadsTo course (Lands course runner.session.speed) (rearm audience) runner := by
  obtain ⟨bound, hbound⟩ : ∃ bound, audience.patience = bound + 1 + 1 :=
    ⟨audience.patience - 2, by omega⟩
  rw [rearm, hbound, rearmWithin_succ]
  refine Yields.bind hon.yields_disarm ?_
  intro _ middle hmiddle
  obtain ⟨hoff, hcurrent, hsame⟩ := hmiddle
  rw [← hsame]
  rcases Int.lt_trichotomy middle.session.speed 0 with hbelow | hidle | habove
  · have hspeed : middle.session.speed = Speed.blocking := by
      have hleast := hoff.least
      unfold Speed.blocking at hleast ⊢
      omega
    have hrun := hoff.leads_blockingRun hpassive hspeed hcurrent (by omega) bound
    exact (ends_engage_of_blocking hoff.active hoff.attached hbelow).mpr
      (LeadsTo.mono hrun fun _ harrived ↦ harrived.lands _)
  · refine (ends_engage_of_idle hidle).mpr ⟨⟨hoff, Int.le_of_eq hidle.symm⟩, fun hbelow ↦ ?_⟩
    omega
  · obtain ⟨cadence, hcadence, hinterval⟩ := Speed.interval_pos habove hoff.greatest
    have hline : Fields.Plain [("speed", .whole middle.session.speed),
        ("interval_s", .real (Speed.interval cadence))] :=
      Fields.plain_cons (by decide) (Value.simple_speed hoff.least hoff.greatest)
        (Fields.plain_cons (by decide) trivial Fields.plain_nil)
    refine (ends_engage_of_stepped hoff.active hoff.attached hcadence).mpr (Yields.mono
      (yields_arm hinterval (writes_of_plain (hoff.armedAt cadence).bound hline)) ?_)
    rintro _ _ ⟨lines, rfl⟩
    refine ⟨⟨(hoff.armedAt cadence).noted (noted_withLines _ lines), Int.le_of_lt habove⟩, ?_⟩
    intro hbelow
    omega

/-- What is told before rearming makes no difference to it. -/
theorem OnCourse.leads_rearm_of_noted (hon : OnCourse course runner) (hpassive : audience.Passive)
    (hpatience : course.count + 1 < audience.patience) (hnoted : runner.Noted last) :
    LeadsTo course (Lands course runner.session.speed) (rearm audience) last := by
  have hrearm := (hon.noted hnoted).leads_rearm hpassive hpatience
  obtain ⟨_, _, _, _, rfl⟩ := hnoted
  exact hrearm

/-! ### Steps and blocking runs -/

/-- Reporting an end keeps a session underway. -/
theorem OnCourse.leads_report (hon : OnCourse course runner) (hpassive : audience.Passive)
    (outcome : Except Fault Unit) :
    LeadsTo course (Underway course) (conclude audience outcome) runner := by
  obtain ⟨_, -, hsteps⟩ := hon.carries
  have hcount := course.halts.le_count hsteps
  have hunderway : Underway course (runner.idledWith (runner.verdict outcome)) :=
    ⟨hon.idledWith _, Int.le_refl 0⟩
  refine Yields.mono (hon.yields_conclude hpassive outcome fun hlong error hrefusal ↦
    ⟨hunderway, by omega, error, rfl, hrefusal⟩) ?_
  exact fun _ _ hnoted ↦ hunderway.noted hnoted

/-- A step of the run, with what is counted and reported after it, keeps a session underway, whether
it succeeds, ends the program or is a fault. -/
theorem Underway.leads_attempt (hunderway : Underway course runner) (hpassive : audience.Passive) :
    LeadsTo course (Underway course)
      (attempt (advance audience course.position) >>= concludeStep audience course.position)
      runner := by
  obtain ⟨hon, hspeed⟩ := hunderway
  refine (ends_bind _ _).mpr (ends_attempt.mpr (Ends.mono (hon.ends_advance hpassive)
    fun outcome middle hmiddle ↦ ?_))
  rcases outcome with halt | _
  · obtain ⟨rfl, fault, rfl⟩ := hmiddle
    exact hon.leads_report hpassive (.error fault)
  · obtain ⟨hfurther, hsession⟩ := hmiddle
    obtain ⟨rig, hcarries, -⟩ := hfurther.carries
    have hrun : middle.runs[course.position]? = _ := hcarries.1
    refine (ends_concludeStep hrun).mpr ?_
    split
    · exact hfurther.leads_report hpassive (.ok ())
    · have hkept : middle.session.speed = runner.session.speed := by rw [hsession]
      exact ⟨hfurther, hkept ▸ hspeed⟩

section Operations

variable (hpassive : audience.Passive) (hpatience : course.count + 1 < audience.patience)
include hpassive hpatience

/-- Going on after a change of speed keeps a session underway. -/
theorem drives_againUnless (speed : Int) : Drives course (againUnless speed (rearm audience)) := by
  apply Keeps.get_bind
  intro runner hunderway
  split
  · exact LeadsTo.mono (hunderway.1.leads_rearm hpassive hpatience) fun _ ↦ And.left
  · exact hunderway

theorem drives_step : Drives course (step audience) := by
  intro runner hunderway
  have hwiped : Underway course runner.wiped := ⟨{ hunderway.1 with }, hunderway.2⟩
  have htold : Drives course (tell audience .stepped) := fun _ hmiddle ↦
    Yields.mono (hmiddle.1.yields_tell hpassive .stepped) fun _ _ hnoted ↦ hmiddle.noted hnoted
  have hrest := htold.bind fun _ ↦ drives_againUnless hpassive hpatience runner.session.speed
  have hwhole := (hwiped.leads_attempt hpassive).bind fun _ ↦ hrest
  rw [bind_assoc] at hwhole
  exact (ends_step hunderway.1.attached).mpr hwhole

/-- A blocking run that is asked for underway makes no step; what it reports all the same, and what
follows, keeps the session underway. -/
theorem drives_runBlocking : Drives course (runBlocking audience) := by
  intro runner hunderway
  obtain ⟨hon, hspeed⟩ := hunderway
  rw [Yields, runBlocking, ends_bind, ends_requireRun, hon.attached]
  simp only
  rw [blockingRun_eq, ends_bind, ends_get]
  refine Yields.bind (hon.yields_log .info "session.blocking_run"
    (plain_nameField runner Fields.plain_nil)) fun _ middle hmiddle ↦ ?_
  have honward := hon.noted hmiddle
  have hslow : middle.session.speed ≠ Speed.blocking := by
    obtain ⟨_, _, _, _, rfl⟩ := hmiddle
    show runner.session.speed ≠ Speed.blocking
    unfold Speed.blocking
    omega
  obtain ⟨rig, hcarries, -⟩ := honward.carries
  obtain ⟨patience, henough⟩ : ∃ patience, audience.patience = patience + 1 :=
    ⟨audience.patience - 1, by omega⟩
  rw [Yields, ends_bind, ends_attempt, henough, ends_blockingSteps_of_stops hcarries.1 (.inl hslow)]
  exact (honward.leads_report hpassive (.ok ())).bind
    fun _ ↦ drives_againUnless hpassive hpatience runner.session.speed

/-! ### Speed -/

/-- A change of speed leads where rearming at the new speed leads. -/
theorem leads_setSpeed (hunderway : Underway course runner) {speed : Int}
    (hleast : Speed.blocking ≤ speed) (hgreatest : speed ≤ Speed.top) :
    LeadsTo course (Lands course speed) (setSpeed audience speed) runner := by
  obtain ⟨hon, hspeed⟩ := hunderway
  rw [LeadsTo, Yields, setSpeed_eq, ends_bind, ends_get]
  simp only
  split
  · have hchanged := hon.withSpeed hleast hgreatest
    have hline : Fields.Plain [("previous_speed", .whole runner.session.speed),
        ("speed", .whole speed)] :=
      Fields.plain_cons (by decide) (Value.simple_speed hon.least hon.greatest)
        (Fields.plain_cons (by decide) (Value.simple_speed hleast hgreatest) Fields.plain_nil)
    rw [modifySession, ends_bind, ends_modify]
    refine Yields.bind (hchanged.yields_log .info "session.speed_changed" hline)
      fun _ middle hmiddle ↦ ?_
    have htell : Yields (Overlong course (Lands course speed))
        (tellChange audience runner.session.speed) middle
        fun _ ↦ (runner.withSpeed speed).Noted := by
      refine (ends_tellChange_of_active (hchanged.noted hmiddle).active).mpr ?_
      exact Yields.mono ((hchanged.noted hmiddle).yields_tell hpassive _) fun _ _ ↦ hmiddle.trans
    exact htell.bind fun _ told htold ↦
      hchanged.leads_rearm_of_noted hpassive hpatience htold
  · next hsame =>
    refine ⟨⟨hon, hspeed⟩, fun hbelow ↦ ?_⟩
    omega

theorem drives_setSpeed {speed : Int} (hleast : Speed.blocking ≤ speed)
    (hgreatest : speed ≤ Speed.top) : Drives course (setSpeed audience speed) :=
  fun _ hunderway ↦ LeadsTo.mono
    (leads_setSpeed hpassive hpatience hunderway hleast hgreatest) fun _ ↦ And.left

/-- Every order that drives a session keeps it on its course. -/
theorem drives_obey {order : Order} (horder : order.Drives) :
    Drives course (obey audience order) := by
  have hanswer {Result : Type} {activity : Action Result} (hdrives : Drives course activity)
      (reply : Result → Reply) : Drives course (do return reply (← activity)) :=
    hdrives.bind fun result ↦ Keeps.pure (reply result)
  cases order with
  | step => exact hanswer (drives_step hpassive hpatience) fun _ ↦ .nothing
  | runBlocking => exact hanswer (drives_runBlocking hpassive hpatience) fun _ ↦ .nothing
  | faster =>
    refine hanswer (Keeps.get_bind fun runner hunderway ↦ ?_) fun _ ↦ .nothing
    exact drives_setSpeed hpassive hpatience (Speed.blocking_le_clamp _) (Speed.clamp_le_top _)
      runner hunderway
  | slower =>
    refine hanswer (Keeps.get_bind fun runner hunderway ↦ ?_) fun _ ↦ .nothing
    simp only
    split
    · next hmoves =>
      have hgreatest := hunderway.1.greatest
      unfold Speed.idle at hmoves
      refine drives_setSpeed hpassive hpatience ?_ ?_ runner hunderway
      · unfold Speed.blocking
        omega
      · omega
    · exact hunderway
  | pause =>
    exact hanswer (drives_setSpeed hpassive hpatience (by decide) (by decide)) fun _ ↦ .nothing
  | superSpeed =>
    exact hanswer (drives_setSpeed hpassive hpatience (by decide) (by decide)) fun _ ↦ .nothing
  | setSpeed speed =>
    exact hanswer (drives_setSpeed hpassive hpatience horder.1 horder.2) fun _ ↦ .nothing
  | fire rounds => exact hanswer (keeps_fire (drives_step hpassive hpatience) rounds) .calls
  | rearm =>
    refine hanswer (fun runner hunderway ↦ ?_) fun _ ↦ .nothing
    exact LeadsTo.mono (hunderway.1.leads_rearm hpassive hpatience) fun _ ↦ And.left
  | _ => exact horder.elim

end Operations

/-! ### Whole schedules -/

/-- A start of a program builds a tape, and the line about it is written. -/
structure Admits (runner : Runner) (program : String) : Prop extends runner.Chronicled where
  kind : runner.bench.kind = .tape
  size : 0 < runner.bench.memorySize
  length : (program.length : Int) ≤ greatestInteger

/-- The fresh rig of a program, with the input that waits and the output so far. -/
def rigOf (runner : Runner) (program : String) : Rig :=
  ⟨.load program runner.bench.memorySize.toNat, .ofText runner.bench.initialInput, runner.output⟩

/-- The course of a session that is started with a program. -/
def courseOf (runner : Runner) (program : String) {count : Nat} {fault? : Option Fault} {goal : Rig}
    (hhalts : (runner.rigOf program).Halts count fault? goal) : Course :=
  ⟨runner.runs.size, program, runner.bench.clock, runner.rigOf program, count, fault?, goal, hhalts⟩

section Schedules

variable {program : String} {count : Nat} {fault? : Option Fault} {goal : Rig}

theorem build_eq_of_admits (hadmits : runner.Admits program) :
    runner.bench.build program =
      .ok ⟨program, .tape (runner.rigOf program).machine, (runner.rigOf program).supply⟩ := by
  unfold Bench.build
  simp only [hadmits.kind, if_neg (Int.not_le.mpr hadmits.size)]
  rfl

/-- A session that has just begun is on its course. -/
theorem onCourse_begun (hadmits : runner.Admits program)
    (hhalts : (runner.rigOf program).Halts count fault? goal) (options : StartOptions)
    (lines : Array Line) :
    OnCourse (runner.courseOf program hhalts) ((runner.begun options
      ⟨program, .tape (runner.rigOf program).machine, (runner.rigOf program).supply⟩).withLines
        lines) := by
  obtain ⟨hleast, hgreatest⟩ := options.initialSpeed_mem_range
  exact {
    bound := hadmits.bound.named _
    heard := hadmits.heard
    active := rfl
    attached := rfl
    supplied := rfl
    carries := ⟨runner.rigOf program, ⟨Array.getElem?_push_size, rfl⟩, rfl⟩
    least := hleast
    greatest := hgreatest
    begun := rfl
    clock := rfl }

/-- A start leads where rearming at its speed leads. -/
theorem leads_start (hpassive : audience.Passive) (hadmits : runner.Admits program)
    (hhalts : (runner.rigOf program).Halts count fault? goal)
    (hpatience : count + 1 < audience.patience) (options : StartOptions) :
    LeadsTo (runner.courseOf program hhalts)
      (Lands (runner.courseOf program hhalts) options.initialSpeed)
      (start audience program options) runner := by
  refine Runner.yields_start (build_eq_of_admits hadmits) hadmits.bound fun lines ↦ ?_
  have hon := onCourse_begun hadmits hhalts options lines
  refine Yields.bind (hon.yields_log .info "session.started"
    (plain_startedFields runner options hadmits.length)) fun _ logged hlogged ↦ ?_
  refine Yields.bind ((hon.noted hlogged).yields_tell hpassive .started) fun _ told htold ↦ ?_
  exact hon.leads_rearm_of_noted hpassive hpatience (hlogged.trans htold)

/-- Whatever drives a session that is underway, it arrives once it turns to the blocking speed. -/
theorem arrived_carryOut (hpassive : audience.Passive)
    (hpatience : course.count + 1 < audience.patience) {orders : List Order}
    (hdrives : ∀ order ∈ orders, order.Drives) (hunderway : Underway course runner) :
    Arrived course (carryOut audience (orders ++ [.superSpeed]) runner).2 ∧
      ∀ halt, .error halt ∈ (carryOut audience (orders ++ [.superSpeed]) runner).1 →
        course.Refuses halt := by
  induction orders generalizing runner with
  | nil =>
    have hsuper : LeadsTo course (Lands course Speed.blocking) (obey audience .superSpeed) runner :=
      (leads_setSpeed hpassive hpatience hunderway (by decide) (by decide)).bind
        fun _ _ hlands ↦ hlands
    obtain ⟨hlands, hrefuses⟩ := hsuper.reached
    refine ⟨hlands.2 (by decide), fun halt hhalt ↦ hrefuses halt ?_⟩
    exact List.mem_singleton.mp hhalt
  | cons order later ih =>
    have horder := drives_obey hpassive hpatience (hdrives order List.mem_cons_self)
    obtain ⟨hafter, hrefuses⟩ := LeadsTo.reached (horder runner hunderway)
    obtain ⟨harrived, hlater⟩ :=
      ih (fun other hother ↦ hdrives other (List.mem_cons_of_mem _ hother)) hafter
    refine ⟨harrived, fun halt hhalt ↦ ?_⟩
    rcases List.mem_cons.mp hhalt with hfirst | hothers
    · exact hrefuses halt hfirst
    · exact hlater halt hothers

/-- A schedule makes no difference. If the fresh rig of a program halts, a session that is started
with the program, driven in any way and at last turned to the blocking speed stands just as it does
after a single start at that speed: where the rig halts, idle and without a timer. Every order is
answered, save that the end of more steps than fit into a line is not. -/
theorem standing_eq_of_schedule (hpassive : audience.Passive) (hadmits : runner.Admits program)
    (hhalts : (runner.rigOf program).Halts count fault? goal)
    (hpatience : count + 1 < audience.patience) (options : StartOptions) {orders : List Order}
    (hdrives : ∀ order ∈ orders, order.Drives) :
    let ended := carryOut audience (.start program options :: (orders ++ [.superSpeed])) runner
    let single := carryOut audience [.start program ⟨true, true⟩] runner
    ended.2.standing = single.2.standing ∧
      single.2.standing = ⟨some ⟨program, .tape goal.machine, goal.supply⟩, some goal.supply,
        goal.output, count, 0, true, false, some (runner.courseOf program hhalts).arrival⟩ ∧
      ∀ halt, .error halt ∈ ended.1 ++ single.1 →
        greatestInteger < count ∧ ∃ error, halt = .raised error ∧ error.isRefusal = true := by
  intro ended single
  have hstart (options : StartOptions) :
      LeadsTo (runner.courseOf program hhalts)
        (Lands (runner.courseOf program hhalts) options.initialSpeed)
        (obey audience (.start program options)) runner :=
    (leads_start hpassive hadmits hhalts hpatience options).bind fun _ _ hlands ↦ hlands
  obtain ⟨hlands, hrefuses⟩ := (hstart options).reached
  obtain ⟨hdirect, hdirectly⟩ := (hstart ⟨true, true⟩).reached
  obtain ⟨harrived, hlater⟩ := arrived_carryOut hpassive hpatience hdrives hlands.1
  have hsingle : Arrived (runner.courseOf program hhalts) single.2 := hdirect.2 (by decide)
  have hended : ended.2.standing = _ := harrived.standing_eq
  refine ⟨hended.trans hsingle.standing_eq.symm, hsingle.standing_eq, fun halt hhalt ↦ ?_⟩
  rcases List.mem_append.mp hhalt with hmine | hother
  · rcases List.mem_cons.mp hmine with hfirst | hothers
    · exact hrefuses halt hfirst
    · exact hlater halt hothers
  · exact hdirectly halt (List.mem_singleton.mp hother)

end Schedules

/-- A program that leaves the tape after thirteen steps is at fault there, whether it is run in one
go, or stepped, timed and paused, also beyond the fault. -/
theorem standing_eq_of_schedule_underflow :
    ∃ start, fresh ⟨.tape, 3, "", 0, .empty⟩ [] .initial = .ok start ∧
      (carryOut (.conducted (fun _ _ ↦ .rest) 20 1) (.start "++[->+<]<" ⟨true, false⟩ ::
        ([.step, .setSpeed 5, .fire 20, .step, .pause, .runBlocking, .rearm] ++ [.superSpeed]))
        start).2.standing =
      (carryOut (.conducted (fun _ _ ↦ .rest) 20 1) [.start "++[->+<]<" ⟨true, true⟩]
        start).2.standing := by
  obtain ⟨start, hstart⟩ :
      ∃ start, fresh ⟨.tape, 3, "", 0, .empty⟩ [] .initial = .ok start := ⟨_, rfl⟩
  have hadmits : start.Admits "++[->+<]<" := by
    cases hstart
    refine ⟨⟨Fields.plain_nil, fun type ↦ ?_⟩, rfl, by decide, by decide⟩
    exact Int.le_trans (Int.ofNat_le.mpr (Bus.length_recipients_le _ type)) (by decide)
  have hhalts : (start.rigOf "++[->+<]<").Halts 13 (some .underflow)
      (Rig.stepTimes 13 (start.rigOf "++[->+<]<")).2 := by
    cases hstart
    exact ⟨Prod.ext (by decide +kernel) rfl, by decide +kernel, by rfl⟩
  refine ⟨start, hstart, (standing_eq_of_schedule (passive_conducted_rest 20 0) hadmits hhalts
    (by decide) ⟨true, false⟩ ?_).1⟩
  simp [Order.Drives, Speed.blocking, Speed.top]

end Runner

end TapeRunner
