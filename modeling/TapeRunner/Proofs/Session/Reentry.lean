import TapeRunner.Proofs.Session.Accounting

/-!
# Observers of the output that take part

An observer of the output is called in the midst of a step, after the engine has acted and before
its counter has moved and the step is counted. As long as the observers are reserved there
(`Order.Reserved`), which leaves them stops, instructions beside the program and changes of speed,
the session stays in step (`Audience.accountable_reserved`). One that starts another program there
has the rest of the step go on with the new session (`Runner.Usurped`), and the step is counted for
it.
-/

set_option autoImplicit false
set_option relaxedAutoImplicit false

namespace TapeRunner

open Activity

/-- An order that neither steps an engine, nor starts a session, nor can begin a blocking run. -/
def Order.Reserved (runner : Runner) : Order → Prop
  | .start _ _ | .step | .runBlocking | .superSpeed | .fire _ | .callTimer _ | .drain _ => False
  | .setSpeed speed | .pokeSpeed speed => 0 ≤ speed
  | .faster => Speed.blocking ≤ runner.session.speed
  | .rearm => 0 ≤ runner.session.speed
  | _ => True

/-- Reserved orders start nothing. -/
theorem Order.Reserved.loopless {runner : Runner} {order : Order}
    (hreserved : order.Reserved runner) : order.Loopless := by
  cases order <;> trivial

namespace Runner

variable {audience : Audience} {runner : Runner}

/-- Where the speed is not a blocking one, rearming makes no step. -/
theorem kept_rearm {base : Runner} (hspeed : 0 ≤ base.session.speed) :
    Preserves (Kept base) (rearm audience) := by
  unfold rearm
  cases audience.patience with
  | zero => exact fun _ h ↦ h
  | succ bound =>
    rw [rearmWithin_succ]
    refine (sustained_kept base).preserves_disarm.bind fun _ runner h ↦ ?_
    refine ends_engage (fun _ ↦ h) (fun _ ↦ h)
      (fun _ _ _ ↦ (sustained_kept base).preserves_arm _ _ runner h) fun hblocking ↦ ?_
    exact absurd (h.speed hspeed) (Int.not_le.mpr hblocking)

section Reserved

variable (hkept : ∀ position base, Preserves (Kept base) (audience.react position))
include hkept

theorem kept_setSpeed {speed : Int} (hspeed : 0 ≤ speed) (base : Runner) :
    Preserves (Kept base) (setSpeed audience speed) := by
  intro runner hbase
  let changed := runner.withSpeed speed
  have hchanged : Kept base changed := { hbase with speed := fun _ ↦ hspeed }
  have hset : Yields (fun _ ↦ Kept changed) (setSpeed audience speed) runner
      fun _ ↦ Kept changed := by
    refine (sustained_kept changed).yields_setSpeed (hkept · changed) (fun hsame ↦ ?_)
      (.refl changed) (kept_rearm hspeed)
    subst hsame
    exact .refl runner
  exact Yields.allow (Yields.mono hset fun _ _ ↦ hchanged.trans) fun _ _ ↦ hchanged.trans

/-- A reserved order leaves counters, counts and the attached engine alone. -/
theorem kept_obey {order : Order} {base : Runner} (hreserved : order.Reserved runner)
    (hbase : Kept base runner) :
    Yields (fun _ ↦ Kept base) (obey audience order) runner fun _ ↦ Kept base := by
  have hanswer {activity : Action Unit} (hyields : Yields (fun _ ↦ Kept base) activity runner
      fun _ ↦ Kept base) :
      Yields (fun _ ↦ Kept base) (do activity; return Reply.nothing) runner fun _ ↦ Kept base :=
    hyields.bind fun _ _ h ↦ h
  have hstill {order : Order} (h : order.Still) :
      Yields (fun _ ↦ Kept base) (obey audience order) runner fun _ ↦ Kept base :=
    (sustained_kept base).preserves_obey_of_still (hkept · base) h runner hbase
  cases order with
  | faster =>
    refine hanswer ?_
    rw [Yields, faster, ends_bind, ends_get]
    refine kept_setSpeed hkept ?_ base runner hbase
    unfold Order.Reserved Speed.blocking at hreserved
    unfold Speed.clamp Speed.blocking Speed.top
    omega
  | slower =>
    refine hanswer (Keeps.get_bind (fun found h ↦ ?_) runner hbase)
    simp only
    split
    · next hrunning =>
      refine kept_setSpeed hkept ?_ base found h
      unfold Speed.idle at hrunning
      omega
    · exact h
  | pause => exact hanswer (kept_setSpeed hkept (Int.le_refl 0) base runner hbase)
  | setSpeed speed => exact hanswer (kept_setSpeed hkept hreserved base runner hbase)
  | rearm =>
    have hrearm : Yields _ (rearm audience) runner _ := kept_rearm hreserved runner (.refl runner)
    exact hanswer (Yields.allow (Yields.mono hrearm fun _ _ ↦ hbase.trans) fun _ _ ↦ hbase.trans)
  | start program options => exact hreserved.elim
  | step => exact hreserved.elim
  | runBlocking => exact hreserved.elim
  | superSpeed => exact hreserved.elim
  | fire rounds => exact hreserved.elim
  | callTimer index => exact hreserved.elim
  | drain speed => exact hreserved.elim
  | pokeSpeed speed =>
    have hnonneg : 0 ≤ speed := hreserved
    exact hstill hnonneg
  | _ => exact hstill trivial

end Reserved

end Runner

/-- Observers that only give reserved orders are accountable, to whatever depth orders are given
inside of orders. -/
theorem Audience.accountable_reserved {conduct : Nat → Runner → Conduct}
    (hreserved : ∀ position runner,
      (conduct position runner).Gives (fun runner order ↦ order.Reserved runner) runner)
    (cut : Runner → Bool) (kind : EngineKind) (patience depth : Nat) :
    (Audience.conductedUntil cut conduct patience depth).Accountable kind := by
  have hkept (depth : Nat) : ∀ position base, Preserves (Runner.Kept base)
      ((Audience.conductedUntil cut conduct patience depth).react position) := by
    induction depth with
    | zero => exact fun _ _ _ h ↦ h
    | succ depth ih =>
      refine fun position base ↦ Runner.preserves_react_of_gives (fun _ _ h ↦ { h with })
        (fun order runner h horder ↦ ?_) hreserved position
      exact Runner.kept_obey ih horder h
  induction depth with
  | zero => exact ⟨fun _ _ h ↦ h, fun _ ↦ hkept 0⟩
  | succ depth ih =>
    refine ⟨fun position ↦ ?_, fun _ ↦ hkept (depth + 1)⟩
    refine Runner.preserves_react_of_gives (fun _ _ h ↦ { h with })
      (fun order runner h horder ↦ ?_) hreserved position
    exact Runner.inStep_obey ih (fun _ ↦ Order.Reserved.loopless horder) runner h

namespace Runner

variable {audience : Audience} {runner last : Runner} {position : Nat} {bus : Bus Observer}
variable {program : String} {bench : Bench} {halted : Halt → Runner → Prop}

/-! ### A restart in the midst of a step -/

/-- The run at a position is there, and events are heard as they are on a bus. -/
structure Underlying (bus : Bus Observer) (bench : Bench) (position : Nat) (runner : Runner) : Prop
    extends runner.Attended where
  bus_eq : runner.bus = bus
  bench_eq : runner.bench = bench
  inside : position < runner.runs.size

/-- The session is an idle one on another engine than the one at a position. This engine has made no
step, and the session has counted some. -/
structure Usurped (bus : Bus Observer) (bench : Bench) (position steps : Nat) (runner : Runner) :
    Prop extends Underlying bus bench position runner where
  usurper : ∃ place run, runner.attached = some place ∧ place ≠ position ∧
    runner.runs[place]? = some run ∧ run.counter = 0
  steps_eq : runner.session.steps = steps
  idle : runner.session.speed = Speed.idle

variable {steps : Nat}

theorem Usurped.told (husurped : Usurped bus bench position steps runner) {kind : EventKind}
    (htraced : (runner.told kind).Traced last) : Usurped bus bench position steps last := by
  obtain ⟨_, _, rfl⟩ := htraced
  exact { husurped with }

/-- What happens to the old run is no matter of the session. -/
theorem Usurped.changeRun (husurped : Usurped bus bench position steps runner)
    (change : Run → Run) :
    Usurped bus bench position steps (runner.changeRun position change) := by
  obtain ⟨place, run, hattached, hother, hrun, hcounter⟩ := husurped.usurper
  refine { husurped with inside := ?_, usurper := ⟨place, run, hattached, hother, ?_, hcounter⟩ }
  · simpa [Runner.changeRun] using husurped.inside
  · rw [Runner.changeRun, Array.getElem?_modify, if_neg (Ne.symm hother), hrun]

/-- Events are told to observers that do not take part. -/
theorem Usurped.yields_tell (husurped : Usurped bus bench position steps runner)
    (hpassive : audience.PassiveIn bus) (kind : EventKind) :
    Yields halted (tell audience kind) runner fun _ ↦ Usurped bus bench position steps :=
  Yields.mono (husurped.yields_told (husurped.bus_eq ▸ hpassive) kind)
    fun _ _ ↦ husurped.told

/-- Rearming an idle session only disarms it. -/
theorem Usurped.yields_rearm (husurped : Usurped bus bench position steps runner)
    (hpatience : 0 < audience.patience) :
    Yields halted (rearm audience) runner fun _ last ↦
      Usurped bus bench position steps last ∧ last.session = runner.session := by
  obtain ⟨bound, hbound⟩ : ∃ bound, audience.patience = bound + 1 :=
    ⟨audience.patience - 1, by omega⟩
  rw [rearm, hbound]
  refine Yields.mono (husurped.yields_rearm_of_idle husurped.idle bound) ?_
  rintro _ _ ⟨lines, rfl⟩
  exact ⟨{ husurped with }, rfl⟩

theorem Usurped.yields_again (husurped : Usurped bus bench position steps runner)
    (hpatience : 0 < audience.patience) (speed : Int) :
    Yields halted (againUnless speed (rearm audience)) runner fun _ last ↦
      Usurped bus bench position steps last ∧ last.session = runner.session := by
  by_cases hsame : runner.session.speed = speed
  · exact (ends_againUnless_of_same hsame).mpr ⟨husurped, rfl⟩
  · exact (ends_againUnless_of_other hsame).mpr (husurped.yields_rearm hpatience)

/-- The program that is started can be: an engine is built for it, at its start, and its length can
be told. -/
structure Startable (bench : Bench) (program : String) (newcomer : Run) : Prop where
  build_eq : bench.build program = .ok newcomer
  counter_eq : newcomer.counter = 0
  length_le : (program.length : Int) ≤ greatestInteger

/-- Whoever starts another session meanwhile leaves it on a fresh engine, with no steps. -/
theorem Underlying.yields_start (hunder : Underlying bus bench position runner)
    (hpassive : audience.PassiveIn bus) (hpatience : 0 < audience.patience) {newcomer : Run}
    (hstartable : Startable bench program newcomer) :
    Yields halted (start audience program ⟨false, false⟩) runner
      fun _ ↦ Usurped bus bench position 0 := by
  refine Runner.yields_start (hunder.bench_eq ▸ hstartable.build_eq) hunder.bound fun lines ↦ ?_
  have hbegun : Usurped bus bench position 0
      ((runner.begun ⟨false, false⟩ newcomer).withLines lines) := by
    refine { hunder with
      bound := hunder.bound.named _
      inside := ?_
      usurper := ⟨runner.runs.size, newcomer, rfl, Nat.ne_of_gt hunder.inside, ?_,
        hstartable.counter_eq⟩
      steps_eq := rfl
      idle := rfl }
    · simpa [begun, withLines] using Nat.lt_succ_of_lt hunder.inside
    · simp only [withLines, begun, Array.getElem?_push_size]
  have hplain := plain_startedFields runner ⟨false, false⟩ hstartable.length_le
  refine Yields.bind (writes_of_plain hbegun.bound hplain _ _) ?_
  rintro _ _ ⟨written, rfl⟩
  have hlogged : Usurped bus bench position 0
      (((runner.begun ⟨false, false⟩ newcomer).withLines lines).withLines written) :=
    { hbegun with }
  refine (hlogged.yields_tell hpassive .started).bind fun _ told htold ↦ ?_
  exact Yields.mono (htold.yields_rearm hpatience) fun _ _ ↦ And.left

end Runner

/-- Observers of the output that start a program, idle, at every byte. The others rest. -/
def restarts (program : String) (sinks : List Nat) (position : Nat) (_ : Runner) : Conduct :=
  if position ∈ sinks then .inTurn [.start program ⟨false, false⟩] else .rest

namespace Runner

variable {runner last start : Runner} {position : Nat} {bus : Bus Observer}
variable {program : String} {bench : Bench} {halted : Halt → Runner → Prop} {sinks : List Nat}
variable {patience depth : Nat} {newcomer : Run}

/-- Who watches the output alone is nobody that an event is told. -/
theorem passiveIn_restarts (hapart : ∀ sink ∈ sinks, ∀ type, .hook sink ∉ bus.recipients type) :
    (Audience.conducted (restarts program sinks) patience (depth + 1)).PassiveIn bus :=
  passiveIn_conducted
    (fun type position _ hmem ↦ if_neg fun hsink ↦ hapart position hsink type hmem) patience depth

/-- An observer of the output that is called restarts. -/
theorem Underlying.yields_react (hunder : Underlying bus bench position runner)
    (hapart : ∀ sink ∈ sinks, ∀ type, .hook sink ∉ bus.recipients type)
    (hstartable : Startable bench program newcomer) (hpatience : 0 < patience) {sink : Nat}
    (hsink : sink ∈ sinks) :
    Yields halted ((Audience.conducted (restarts program sinks) patience (depth + 2)).react sink)
      runner fun _ ↦ Usurped bus bench position 0 := by
  have hcalled : Underlying bus bench position (runner.calledAt sink) := { hunder with }
  have hstart : Yields (fun _ _ ↦ False) (do
      start (.conducted (restarts program sinks) patience (depth + 1)) program ⟨false, false⟩
      return Reply.nothing) (runner.calledAt sink) fun _ ↦ Usurped bus bench position 0 :=
    (hcalled.yields_start (passiveIn_restarts hapart) hpatience hstartable).bind
      fun _ _ hlast ↦ hlast
  refine Yields.allow ?_ fun _ _ hfalse ↦ absurd hfalse id
  refine ends_react_conducted.mpr ?_
  rw [restarts, if_pos hsink]
  exact yields_perform_single hstart fun _ _ hfalse ↦ hfalse.elim

/-- A step in which a byte is written leaves the session with the last observer that restarted. -/
theorem Underlying.yields_advance (hunder : Underlying bus bench position runner)
    (hapart : ∀ sink ∈ runner.sinks, ∀ type, .hook sink ∉ bus.recipients type)
    (hwatched : runner.sinks ≠ []) (hstartable : Startable bench program newcomer)
    (hpatience : 0 < patience) {run : Run} (hrun : runner.runs[position]? = some run)
    {effect : Effect} {counter : Nat} {byte : UInt8}
    (hturn : run.turn runner.bench.script = .ok (some effect, counter))
    (hwritten : effect.written = some byte) :
    Yields halted (advance (.conducted (restarts program runner.sinks) patience (depth + 2))
      position) runner fun _ ↦ Usurped bus bench position 0 := by
  let audience := Audience.conducted (restarts program runner.sinks) patience (depth + 2)
  obtain ⟨sink, later, hsinks⟩ := List.exists_cons_of_ne_nil hwatched
  have hreact (sink : Nat) (hsink : sink ∈ runner.sinks) (last : Runner)
      (hlast : Underlying bus bench position last) :
      Yields halted (audience.react sink) last fun _ ↦ Usurped bus bench position 0 :=
    hlast.yields_react hapart hstartable hpatience hsink
  have hfirst : Yields halted (settleAny audience position (some effect)) runner
      fun _ ↦ Usurped bus bench position 0 := by
    rw [Yields, settleAny, settle, ends_bind, modifyRun, ends_modify]
    simp only [hwritten, emit, ends_bind, ends_modify, ends_get, hsinks]
    refine Yields.bind (hreact sink (hsinks ▸ List.mem_cons_self) _ ?_) fun _ ↦ ?_
    · exact { hunder with inside := by simpa using hunder.inside }
    · refine Keeps.forM later fun other hother last hlast ↦ ?_
      exact hreact other (hsinks ▸ List.mem_cons_of_mem _ hother) last hlast.toUnderlying
  refine (ends_advance hrun).mpr ?_
  simp only [hturn]
  refine Ends.mono hfirst fun outcome middle hmiddle ↦ ?_
  rcases outcome with halt | _
  · exact hmiddle
  · exact hmiddle.changeRun _

/-! ### What becomes of the step -/

theorem Usurped.stepCounted {steps : Nat} (husurped : Usurped bus bench position steps runner) :
    Usurped bus bench position (steps + 1) runner.stepCounted :=
  { husurped with steps_eq := congrArg (· + 1) husurped.steps_eq }

/-- The end of the old run is reported as that of the new session. -/
theorem Usurped.yields_reportEnd {audience : Audience}
    (husurped : Usurped bus bench position 1 runner) (hpassive : audience.PassiveIn bus) :
    Yields halted (reportEnd audience) runner fun _ last ↦ Usurped bus bench position 1 last ∧
      ∃ elapsed, last.session.status = some (.finished elapsed) := by
  have hline : greatestInteger < runner.session.steps → ∀ error, error.isRefusal = true →
      halted (.raised error) (runner.idledWith (runner.verdict (.ok ()))) := by
    rw [husurped.steps_eq]
    exact fun hlong ↦ absurd hlong (by decide)
  have hidled : Usurped bus bench position 1 (runner.idledWith (runner.verdict (.ok ()))) :=
    { husurped with idle := rfl }
  refine Yields.mono (husurped.yields_concluded (husurped.bus_eq ▸ hpassive) (.ok ()) hline)
    fun _ last hlast ↦ ?_
  refine ⟨hidled.told hlast, runner.elapsed, ?_⟩
  obtain ⟨_, _, rfl⟩ := hlast
  rfl

/-- The session is attached to a run whose next step writes a byte, before observers. -/
structure Writing (runner : Runner) (position : Nat) : Prop where
  attached : runner.attached = some position
  watched : runner.sinks ≠ []
  writes : ∃ run effect counter byte, runner.runs[position]? = some run ∧
    run.turn runner.bench.script = .ok (some effect, counter) ∧ effect.written = some byte

section Writing

variable (hunder : Underlying bus bench position runner)
variable (hapart : ∀ sink ∈ runner.sinks, ∀ type, .hook sink ∉ bus.recipients type)
variable (hwriting : runner.Writing position) (hstartable : Startable bench program newcomer)
include hunder hapart hwriting hstartable

/-- The step in which another session was started is counted for that one. -/
theorem Underlying.yields_step (hpatience : 0 < patience) :
    Yields halted (step (.conducted (restarts program runner.sinks) patience (depth + 2))) runner
      fun _ ↦ Usurped bus bench position 1 := by
  let audience := Audience.conducted (restarts program runner.sinks) patience (depth + 2)
  have hpassive : audience.PassiveIn bus := passiveIn_restarts hapart
  obtain ⟨run, effect, counter, byte, hrun, hturn, hwritten⟩ := hwriting.writes
  refine (ends_step hwriting.attached).mpr ?_
  have hwiped : Underlying bus bench position runner.wiped := { hunder with }
  have hadvance : Yields (fun _ _ ↦ False) (advance audience position) runner.wiped
      fun _ ↦ Usurped bus bench position 0 :=
    hwiped.yields_advance hapart hwriting.watched hstartable hpatience hrun hturn hwritten
  rw [ends_bind, ends_attempt]
  refine Ends.mono hadvance fun outcome middle hmiddle ↦ ?_
  rcases outcome with halt | _
  · exact hmiddle.elim
  have hcounted := hmiddle.stepCounted
  have hconcluded : Yields halted (concludeStep audience position (.ok ())) middle
      fun _ ↦ Usurped bus bench position 1 := by
    refine (ends_concludeStep (Array.getElem?_eq_getElem hmiddle.inside)).mpr ?_
    split
    · exact Yields.mono (hcounted.yields_reportEnd hpassive) fun _ _ ↦ And.left
    · exact hcounted
  refine hconcluded.bind fun _ after hafter ↦ (hafter.yields_tell hpassive .stepped).bind ?_
  exact fun _ told htold ↦ Yields.mono (htold.yields_again hpatience _) fun _ _ ↦ And.left

/-- So is the step of a blocking run, which then is over, and the end of which is reported as that
of the session that was started. -/
theorem Underlying.yields_runBlocking (hpatience : 1 < patience)
    (hspeed : runner.session.speed = Speed.blocking) :
    Yields halted (runBlocking (.conducted (restarts program runner.sinks) patience (depth + 2)))
      runner fun _ last ↦ Usurped bus bench position 1 last ∧
        ∃ elapsed, last.session.status = some (.finished elapsed) := by
  let audience := Audience.conducted (restarts program runner.sinks) patience (depth + 2)
  have hpassive : audience.PassiveIn bus := passiveIn_restarts hapart
  obtain ⟨run, effect, counter, byte, hrun, hturn, hwritten⟩ := hwriting.writes
  obtain ⟨more, hmore⟩ : ∃ more, patience = more + 1 + 1 := ⟨patience - 2, by omega⟩
  rw [Yields, runBlocking, ends_bind, ends_requireRun, hwriting.attached]
  simp only
  rw [blockingRun_eq, ends_bind, ends_get]
  refine Yields.bind (writes_of_plain hunder.bound
    (plain_nameField runner Fields.plain_nil) .info "session.blocking_run") ?_
  rintro _ _ ⟨lines, rfl⟩
  have hlogged : Underlying bus bench position (runner.withLines lines) := { hunder with }
  have hadvance : Yields (fun _ _ ↦ False) (advance audience position) (runner.withLines lines)
      fun _ ↦ Usurped bus bench position 0 :=
    hlogged.yields_advance hapart hwriting.watched hstartable (Nat.zero_lt_of_lt hpatience) hrun
      hturn hwritten
  have hloop : Yields halted (attempt (blockingSteps audience position audience.patience))
      (runner.withLines lines) fun outcome last ↦
        outcome = .ok () ∧ Usurped bus bench position 1 last := by
    have hrunning : (runner.withLines lines).runs[position]? = some run := hrun
    rw [show audience.patience = more + 1 + 1 from hmore]
    refine ends_attempt.mpr ((ends_blockingSteps_of_goes hrunning hspeed
      (Run.atEnd_eq_false_of_turn hturn)).mpr (Ends.mono hadvance fun outcome middle hmiddle ↦ ?_))
    rcases outcome with halt | _
    · exact hmiddle.elim
    · have hcounted := hmiddle.stepCounted
      have hidle : middle.stepCounted.session.speed ≠ Speed.blocking := by
        rw [hcounted.idle]
        decide
      refine (ends_blockingSteps_of_stops (Array.getElem?_eq_getElem hcounted.inside)
        (.inl hidle)).mpr ?_
      exact ⟨rfl, hcounted⟩
  refine hloop.bind ?_
  rintro _ stopped ⟨rfl, hstopped⟩
  refine (hstopped.yields_reportEnd hpassive).bind ?_
  rintro _ reported ⟨hreported, elapsed, hstatus⟩
  refine Yields.mono (hreported.yields_again (Nat.zero_lt_of_lt hpatience) _) ?_
  rintro _ last ⟨hlast, hsession⟩
  exact ⟨hlast, elapsed, hsession ▸ hstatus⟩

end Writing

/-! ### Steps and restarts -/

/-- A step is counted, and the attached engine has made none. -/
def Overcounted (runner : Runner) : Prop :=
  runner.session.steps = 1 ∧ ∃ run, runner.run? = some run ∧ run.counter = 0

theorem Usurped.overcounted (husurped : Usurped bus bench position 1 runner) :
    runner.Overcounted := by
  obtain ⟨place, run, hattached, -, hrun, hcounter⟩ := husurped.usurper
  exact ⟨husurped.steps_eq, run, run?_eq_some hattached hrun, hcounter⟩

/-- When the count of steps follows the engine. In programs without loops, it is where the counter
of the attached engine is at every moment of every run, as long as observers give reserved orders
only. But a step in whose midst an observer of the output starts another session is counted for that
one, so that a fresh engine stands beside a step that it has not made; and if it was a step of a
blocking run, the fresh session is also reported as finished. -/
theorem steps_counted_unless_restarted {bench : Bench} {hooks : List Hook} {journal : Journal}
    (hstart : fresh bench hooks journal = .ok start) (hbound : journal.context.Plain)
    (hhooks : 2 * (hooks.length + 2 : Int) ≤ greatestInteger) :
    (∀ (cast : Cast) (cut : Runner → Bool),
      (∀ position runner, (cast.conduct position runner).Gives
        (fun runner order ↦ order.Reserved runner) runner) →
      cast.caller.Gives (fun _ order ↦ order.Loopless) start →
      let moment := cast.moment start cut
      (∀ run, moment.run? = some run → moment.session.steps = run.counter) ∧
        ∀ event ∈ moment.recorded, event.InStep) ∧
    ∀ (runner : Runner) (position : Nat) (program : String) (newcomer : Run) (patience depth : Nat),
      start.Reachable runner → runner.Writing position → Startable runner.bench program newcomer →
      1 < patience →
      let audience := Audience.conducted (restarts program runner.sinks) patience (depth + 2)
      let stepped := runFrom (step audience) runner
      let ran := runFrom (runBlocking audience) runner
      (stepped.1 = .ok () ∧ stepped.2.Overcounted) ∧
        (runner.session.speed = Speed.blocking → ran.1 = .ok () ∧ ran.2.Overcounted ∧
          ∃ elapsed, ran.2.session.status = some (.finished elapsed)) := by
  constructor
  · intro cast cut hreserved hloopless moment
    have hobservers :=
      Audience.accountable_reserved hreserved cut bench.kind cast.patience cast.depth
    have hmoment : InStep bench.kind moment :=
      (yields_performUntil_of_gives (fun _ runner hstep horder ↦
        inStep_obey hobservers (fun _ ↦ horder) runner hstep) cut hloopless
          (inStep_of_fresh hstart hbound)).last
    exact ⟨hmoment.count, hmoment.events⟩
  · intro runner position program newcomer patience depth hreachable hwriting hstartable hpatience
    have hfounded := upheldThroughout_founded.reachable hreachable
      (founded_of_fresh hstart hbound hhooks)
    have hapart := apart_of_reachable hstart hreachable
    have hunder : Underlying runner.bus runner.bench position runner :=
      ⟨hfounded.toAttended, rfl, rfl, hfounded.attached_lt position hwriting.attached⟩
    intro audience stepped ran
    constructor
    · have hstep : Yields (fun _ _ ↦ False) (step audience) runner _ :=
        hunder.yields_step hapart hwriting hstartable (Nat.zero_lt_of_lt hpatience)
      rcases hstep.ended with ⟨_, hanswer, hlast⟩ | ⟨_, _, hfalse⟩
      · exact ⟨hanswer, hlast.overcounted⟩
      · exact hfalse.elim
    · intro hspeed
      have hrun : Yields (fun _ _ ↦ False) (runBlocking audience) runner _ :=
        hunder.yields_runBlocking hapart hwriting hstartable hpatience hspeed
      rcases hrun.ended with ⟨_, hanswer, hlast, hstatus⟩ | ⟨_, _, hfalse⟩
      · exact ⟨hanswer, hlast.overcounted, hstatus⟩
      · exact hfalse.elim

/-- Slows down and adds one beside the program at every byte. -/
def slowsAndAdds (_ : Nat) (_ : Runner) : Conduct := .inTurn [.setSpeed 3, .inject "+"]

/-- A step that writes is counted for its own engine if the observer of the output changes the speed
and the tape, and for the other one if it starts another program. -/
theorem steps_counted_unless_restarted_written :
    ∃ start runner last, fresh ⟨.tape, 2, "", 0, .empty⟩ [⟨.output, [], []⟩] .initial = .ok start ∧
      last = (runFrom ((Conduct.inTurn [.start ".+" ⟨false, false⟩, .step]).perform
        (.conducted slowsAndAdds 10 2)) start).2 ∧
      (last.run?.map Run.counter = some 1 ∧ last.session.steps = 1) ∧ start.Reachable runner ∧
      (runFrom (step (.conducted (restarts "++" runner.sinks) 10 2)) runner).2.Overcounted := by
  obtain ⟨start, hstart⟩ : ∃ start,
      fresh ⟨.tape, 2, "", 0, .empty⟩ [⟨.output, [], []⟩] .initial = .ok start := ⟨_, rfl⟩
  obtain ⟨hkept, hrestarted⟩ :=
    steps_counted_unless_restarted hstart Fields.plain_nil (by decide)
  let cast : Cast := ⟨slowsAndAdds, 10, 2, .inTurn [.start ".+" ⟨false, false⟩, .step]⟩
  let last := cast.moment start fun _ ↦ false
  have hlast : last = (runFrom ((Conduct.inTurn [.start ".+" ⟨false, false⟩, .step]).perform
      (.conducted slowsAndAdds 10 2)) start).2 := by
    show cast.moment start (fun _ ↦ false) = _
    rw [Cast.moment, Conduct.performUntil_never, Audience.conductedUntil_never]
  have hcounter : last.run?.map Run.counter = some 1 := by
    rw [hlast]
    cases hstart
    decide +kernel
  obtain ⟨run, hrun, hone⟩ := Option.map_eq_some_iff.mp hcounter
  have hcount := (hkept cast (fun _ ↦ false) (fun position runner ↦ ?_) ?_).1 run hrun
  · let runner := (runFrom ((Conduct.inTurn [.start ".+" ⟨false, false⟩]).perform
      (.conducted (fun _ _ ↦ .rest) 10 1)) start).2
    have hbefore : (decide (runner.attached = some 0 ∧ runner.sinks = [0] ∧
        runner.bench = ⟨.tape, 2, "", 0, .empty⟩ ∧
        runner.runs[0]? = some ⟨".+", .tape (.load ".+" 2), .ofText ""⟩)) = true := by
      cases hstart
      decide +kernel
    obtain ⟨hattached, hsinks, hbench, hfirst⟩ := of_decide_eq_true hbefore
    have hwriting : runner.Writing 0 :=
      ⟨hattached, by simp [hsinks], _, ⟨.load ".+" 2, false, some 0⟩, 1, 0, hfirst,
        by rw [hbench]; rfl, rfl⟩
    have hstartable : Startable runner.bench "++" ⟨"++", .tape (.load "++" 2), .ofText ""⟩ :=
      ⟨by rw [hbench]; rfl, rfl, by decide⟩
    have hreachable : start.Reachable runner := reachable_perform _ 10 1 _ start
    refine ⟨start, runner, last, hstart, hlast, ⟨hcounter, hcount.trans hone⟩, hreachable, ?_⟩
    exact (hrestarted runner 0 "++" _ 10 0 hreachable hwriting hstartable (by decide)).1.2
  · refine Conduct.gives_inTurn (fun order horder runner ↦ ?_) runner
    simp only [List.mem_cons, List.not_mem_nil, or_false] at horder
    rcases horder with rfl | rfl
    · exact (by decide : (0 : Int) ≤ 3)
    · trivial
  · refine Conduct.gives_inTurn (fun order horder runner ↦ ?_) start
    simp only [List.mem_cons, List.not_mem_nil, or_false] at horder
    rcases horder with rfl | rfl
    · show Loopless ".+"
      decide
    · trivial

end Runner

end TapeRunner
