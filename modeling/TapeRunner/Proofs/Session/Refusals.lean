import TapeRunner.Proofs.Session.Accord
import TapeRunner.Proofs.Session.Interim
import TapeRunner.Proofs.Session.Sight

/-!
# What is refused

A session declines an order for want of what the order needs: a start that can build no tape, and an
operation on the engine or on the input while no session is active (`Runner.Declines`). It finds out
before it has changed anything. For the operations on the engine that is because no engine is
attached then, and for the input because it goes nowhere then (`Runner.Furnished`).

Before observers that only listen, every other operation passes: it comes to a regular end unless it
is cut short (`Runner.UpToDate.passes_obey`). So errors are raised exactly where an order is
declined, and leave everything as it was (`Runner.raises_iff_declines`).
-/

set_option autoImplicit false
set_option relaxedAutoImplicit false

namespace TapeRunner

open Activity

/-- An operation of a session, at a speed within the limits and with a program whose length fits
into a line. -/
def Order.Operation : Order → Prop
  | .start program _ => (program.length : Int) ≤ greatestInteger
  | .setSpeed speed => Speed.blocking ≤ speed ∧ speed ≤ Speed.top
  | .stop | .shutdown | .step | .runBlocking | .faster | .slower | .pause | .superSpeed
  | .inject _ | .feed _ | .fire _ | .rearm => True
  | _ => False

namespace Runner

variable {runner last : Runner} {audience : Audience} {order : Order}

/-- An order is declined with an error: a start for which no tape can be built, or an operation that
needs a session while none is active. -/
inductive Declines (runner : Runner) : Order → Error → Prop
  | start {program : String} {options : StartOptions} (hsize : runner.bench.memorySize ≤ 0) :
      Declines runner (.start program options) .memorySize
  | step (hinactive : runner.session.active = false) :
      Declines runner .step (.noSession "step")
  | runBlocking (hinactive : runner.session.active = false) :
      Declines runner .runBlocking (.noSession "run_blocking")
  | inject {instruction : String} (hinactive : runner.session.active = false) :
      Declines runner (.inject instruction) (.noSession "inject_instruction")
  | feed {content : String} (hinactive : runner.session.active = false) :
      Declines runner (.feed content) (.noSession "feed_input")

/-! ### Where input goes -/

/-- Every engine is a tape, and the next one will be, and input goes to one of them exactly while
the session is active. -/
structure Furnished (runner : Runner) : Prop where
  bound : runner.journal.context.Plain
  kind_eq : runner.bench.kind = .tape
  tape : ∀ (position : Nat) (run : Run), runner.runs[position]? = some run →
    ∃ machine, run.engine = .tape machine
  supplied_eq : runner.supplied.isSome = runner.session.active

namespace Furnished

theorem minor (hfurnished : runner.Furnished) (hminor : runner.Minor last) : last.Furnished where
  bound := hminor.context_eq ▸ hfurnished.bound
  kind_eq := hminor.kind_eq.trans hfurnished.kind_eq
  tape := hminor.runs_eq ▸ hfurnished.tape
  supplied_eq := by
    rw [hminor.supplied_eq, hminor.active_eq]
    exact hfurnished.supplied_eq

theorem changeRun (hfurnished : runner.Furnished) (position : Nat) {change : Run → Run}
    (hchange : ∀ run machine, run.engine = .tape machine →
      ∃ machine, (change run).engine = .tape machine) :
    (runner.changeRun position change).Furnished where
  bound := hfurnished.bound
  kind_eq := hfurnished.kind_eq
  tape place run hrun := by
    simp only [Runner.changeRun, Array.getElem?_modify] at hrun
    split at hrun
    · obtain ⟨old, hold, rfl⟩ := Option.map_eq_some_iff.mp hrun
      obtain ⟨machine, htape⟩ := hfurnished.tape place old hold
      exact hchange old machine htape
    · exact hfurnished.tape place run hrun
  supplied_eq := hfurnished.supplied_eq

theorem settled (hfurnished : runner.Furnished) (position : Nat) (effect : Effect) :
    (runner.settled position effect).Furnished :=
  { hfurnished.changeRun position fun _ _ _ ↦ ⟨effect.machine, rfl⟩ with }

theorem resumeAt (hfurnished : runner.Furnished) (position counter : Nat) :
    (runner.changeRun position (·.resumeAt counter)).Furnished :=
  hfurnished.changeRun position fun run machine htape ↦
    ⟨{ machine with counter }, by simp only [Run.resumeAt, htape]⟩

theorem begun (hfurnished : runner.Furnished) {program : String} (options : StartOptions)
    {run : Run} (hbuild : runner.bench.build program = .ok run) :
    (runner.begun options run).Furnished where
  bound := hfurnished.bound.named _
  kind_eq := hfurnished.kind_eq
  tape position found hfound := by
    have hfound : (runner.runs.push run)[position]? = some found := hfound
    rw [Array.getElem?_push] at hfound
    split at hfound
    · obtain rfl := Option.some.inj hfound
      unfold Bench.build at hbuild
      simp only [hfurnished.kind_eq] at hbuild
      split at hbuild
      · cases hbuild
      · cases hbuild
        exact ⟨_, rfl⟩
    · exact hfurnished.tape position found hfound
  supplied_eq := rfl

theorem ended (hfurnished : runner.Furnished) : runner.ended.Furnished :=
  { hfurnished with supplied_eq := rfl }

/-- Between starts and stops, nothing else becomes of engines and of the input. -/
theorem interim (hpassive : audience.Passive) :
    Interim audience (fun _ ↦ True) Furnished fun _ ↦ Furnished := by
  have hreact (sink : Nat) : Preserves Furnished (audience.react sink) :=
    keeps_react_of_passive (hpassive sink) fun _ _ hfurnished ↦ { hfurnished with }
  have hsettled {runner : Runner} (hfurnished : runner.Furnished) (position : Nat)
      (effect? : Option Effect) : Yields (fun _ ↦ Furnished)
        (settleAny audience position effect?) runner fun _ ↦ Furnished :=
    yields_settleAny (fun _ ↦ hfurnished) (fun effect _ ↦ hfurnished.settled position effect)
      fun sink _ ↦ hreact sink
  refine ⟨minor, fun _ ↦ id, id, fun _ _ ↦ trivial, fun {position} _ runner hfurnished ↦ ?_,
    fun {position} instruction _ runner hfurnished ↦ ?_, hreact⟩
  · cases hrun : runner.runs[position]? with
    | none =>
      rw [Yields, advance, ends_bind, ends_runAt_iff, hrun]
      exact hfurnished
    | some run =>
      refine (ends_advance hrun).mpr ?_
      cases run.turn runner.bench.script with
      | error error => exact hfurnished
      | ok turn =>
        refine Ends.mono (hsettled hfurnished position turn.1) fun outcome middle hmiddle ↦ ?_
        rcases outcome with halt | _
        · exact hmiddle
        · exact hmiddle.resumeAt position turn.2
  · cases hrun : runner.runs[position]? with
    | none =>
      rw [Yields, execute, ends_bind, ends_runAt_iff, hrun]
      exact hfurnished
    | some run =>
      refine (ends_execute hrun).mpr ?_
      cases run.aside runner.bench.script instruction with
      | error error => exact hfurnished
      | ok effect? => exact hsettled hfurnished position effect?

theorem preserves_changeSupply (position : Nat) (supplyOf : Run → Supply) :
    Preserves Furnished (modifyRun position fun run ↦ { run with supply := supplyOf run }) :=
  Keeps.modify fun _ hfurnished ↦ hfurnished.changeRun position fun _ machine htape ↦
    ⟨machine, htape⟩

section Preserves

variable (hpassive : audience.Passive)
include hpassive

theorem preserves_start (program : String) (options : StartOptions) :
    Preserves Furnished (start audience program options) := by
  intro runner hfurnished
  have hinterim := interim hpassive
  cases hbuild : runner.bench.build program with
  | error error => exact (ends_start_of_unbuilt hbuild).mpr hfurnished
  | ok run =>
    refine yields_start hbuild hfurnished.bound fun lines ↦ ?_
    exact (hinterim.keeps_log _ _ _).bind (fun _ ↦
      (hinterim.keeps_tell .started).bind fun _ ↦ hinterim.keeps_rearm) _
        { hfurnished.begun options hbuild with }

theorem preserves_stop : Preserves Furnished (stop audience) := by
  intro runner hfurnished
  have hinterim := interim hpassive
  have hforgotten : Preserves Furnished
      (modify fun runner : Runner ↦ { runner with journal := runner.journal.clear }) :=
    Keeps.modify fun _ hlast ↦ { hlast with bound := Fields.plain_nil }
  cases hactive : runner.session.active with
  | false => exact (ends_stop_of_inactive hactive).mpr hfurnished
  | true =>
    refine yields_stop hactive hfurnished.bound fun lines ↦ ?_
    exact (hinterim.keeps_log _ _ _).bind (fun _ ↦
      (hinterim.keeps_tell .stopped).bind fun _ ↦ hforgotten) _ { hfurnished.ended with }

/-- Every order that does not reach around the operations keeps the session furnished. -/
theorem preserves_obey (horder : order.Regular) : Preserves Furnished (obey audience order) := by
  have hanswer {Result : Type} {activity : Action Result}
      (hpreserves : Preserves Furnished activity) (reply : Result → Reply) :
      Preserves Furnished (do return reply (← activity)) :=
    hpreserves.bind fun result ↦ Keeps.pure (reply result)
  have hinterim := interim hpassive
  cases order with
  | start program options =>
    exact hanswer (preserves_start hpassive program options) fun _ ↦ .nothing
  | stop => exact hanswer (preserves_stop hpassive) fun _ ↦ .nothing
  | shutdown =>
    exact hanswer ((preserves_stop hpassive).bind fun _ ↦ hinterim.keeps_detach) fun _ ↦ .nothing
  | feed content =>
    refine hanswer (Keeps.get_bind fun runner hfurnished ↦ ?_) fun _ ↦ .nothing
    split
    · exact hfurnished
    · exact preserves_changeSupply _ _ runner hfurnished
  | readInput =>
    refine hanswer (Keeps.get_bind fun runner hfurnished ↦ ?_) .byte
    split
    · exact hfurnished
    · refine ((preserves_runAt _).bind fun run ↦ ?_) runner hfurnished
      split
      · exact Preserves.fail _
      · exact (preserves_changeSupply _ _).bind fun _ ↦ Keeps.pure _
  | clearOutput =>
    exact Keeps.bind (Keeps.modify fun _ hfurnished ↦ { hfurnished with }) fun _ ↦ Keeps.pure _
  | pokeSpeed speed => exact horder.elim
  | pokeActive active => exact horder.elim
  | drain speed => exact horder.elim
  | _ => exact hinterim.keeps_obey trivial

theorem carryOut {orders : List Order} (horders : ∀ order ∈ orders, order.Regular)
    (hfurnished : runner.Furnished) : (carryOut audience orders runner).2.Furnished :=
  preserved_carryOut (fun order horder ↦ preserves_obey hpassive (horders order horder)) hfurnished

end Preserves

end Furnished

/-! ### What passes -/

/-- An activity comes to a regular end unless it is cut short. -/
def Passes {Result : Type} (activity : Action Result) (runner : Runner) : Prop :=
  Yields (fun halt last ↦ halt.CutsShort True last.session.steps) activity runner fun _ _ ↦ True

section Passes

variable {Result Next : Type} {blocking : Prop} {required : Result → Runner → Prop}

theorem passes_bind {first : Action Result} {next : Result → Action Next}
    (hfirst : Yields (fun halt last ↦ halt.CutsShort True last.session.steps) first runner required)
    (hnext : ∀ result after, required result after → Passes (next result) after) :
    Passes (first >>= next) runner :=
  hfirst.bind hnext

/-- An answer makes no difference. -/
theorem passes_reply {activity : Action Result} (reply : Result → Next)
    (hpasses : Passes activity runner) : Passes (do return reply (← activity)) runner :=
  passes_bind hpasses fun _ _ _ ↦ trivial

theorem yields_of_brokenOff {activity : Action Result}
    (hyields : Yields (runner.BrokenOff blocking) activity runner required) :
    Yields (fun halt last ↦ halt.CutsShort True last.session.steps) activity runner required :=
  hyields.allow fun _ _ ⟨_, _, hshort⟩ ↦ hshort.imp_right fun ⟨_, hgave⟩ ↦ ⟨trivial, hgave⟩

theorem passes_of_brokenOff {activity : Action Result}
    (hyields : Yields (runner.BrokenOff blocking) activity runner required) :
    Passes activity runner :=
  Yields.mono (yields_of_brokenOff hyields) fun _ _ _ ↦ trivial

/-- Letting go of the engine passes where the journal takes lines. -/
theorem passes_detach (hbound : runner.journal.context.Plain) : Passes detach runner :=
  passes_bind (yields_clear (writes_of_plain hbound Fields.plain_nil)) fun _ _ _ ↦ trivial

end Passes

namespace Regular

variable (hregular : runner.Regular) (hpassive : audience.Passive)
include hregular hpassive

/-- To tell of a change of speed changes no speed. -/
theorem yields_tellChange (previous : Int) : Yields (fun halt last ↦
    halt.CutsShort True last.session.steps) (tellChange audience previous) runner
      fun _ last ↦ last.Regular ∧ last.session.speed = runner.session.speed := by
  cases hactive : runner.session.active with
  | false =>
    rw [Yields, tellChange, ends_bind, ends_get]
    simp only [hactive, Bool.false_eq_true, if_false, ends_pure, and_true]
    exact hregular
  | true =>
    refine (ends_tellChange_of_active hactive).mpr ?_
    have hinner : (EventKind.speedChanged previous).Inner := by
      constructor <;> simp
    refine Yields.mono (hregular.yields_tell hpassive hactive _ hinner) fun _ last htold ↦ ?_
    obtain ⟨hrecords, -, hkept⟩ := htold
    exact ⟨hrecords.regular hregular, hkept⟩

/-- At a speed within the limits there is an interval for a timer. -/
theorem passes_rearm (hspeed : Speed.blocking ≤ runner.session.speed ∧
    runner.session.speed ≤ Speed.top) : Passes (rearm audience) runner := by
  unfold rearm
  cases audience.patience with
  | zero => exact .inr ⟨trivial, rfl⟩
  | succ bound =>
    rw [rearmWithin_succ]
    refine passes_bind (yields_clear (writes_of_plain hregular.bound Fields.plain_nil)) ?_
    rintro _ _ ⟨lines, rfl⟩
    have hcleared : (runner.cleared.withLines lines).Regular := { hregular with }
    rw [Passes, Yields]
    refine ends_engage (fun _ ↦ trivial) (fun _ ↦ trivial) (fun hstepped cadence hcadence ↦ ?_)
      fun _ position _ hattached ↦
        passes_of_brokenOff (hcleared.yields_blockingRun hpassive hattached bound)
    obtain ⟨found, hfound, hinterval⟩ := Speed.interval_pos hstepped hspeed.2
    obtain rfl : found = cadence := Option.some.inj (hfound.symm.trans hcadence)
    have hline : Fields.Plain [("speed", .whole runner.session.speed),
        ("interval_s", .real (Speed.interval found))] :=
      Fields.plain_cons (by decide) (Value.simple_speed hspeed.1 hspeed.2)
        (Fields.plain_cons (by decide) trivial Fields.plain_nil)
    exact Yields.mono (yields_arm hinterval (writes_of_plain hregular.bound hline))
      fun _ _ _ ↦ trivial

theorem passes_start {program : String} (options : StartOptions)
    (hsize : 0 < runner.bench.memorySize) (hlength : (program.length : Int) ≤ greatestInteger) :
    Passes (start audience program options) runner := by
  obtain ⟨run, hbuild⟩ : ∃ run, runner.bench.build program = .ok run := by
    unfold Bench.build
    split
    · exact ⟨_, rfl⟩
    · exact ⟨_, if_neg (Int.not_le.mpr hsize)⟩
  refine yields_start hbuild hregular.bound fun lines ↦ ?_
  have hbegun : ((runner.begun options run).withLines lines).Regular :=
    { hregular.begun options hbuild with }
  have hplain := runner.plain_startedFields options hlength
  refine passes_bind (writes_of_plain hbegun.bound hplain .info "session.started") ?_
  rintro _ _ ⟨written, rfl⟩
  have hlogged : ((runner.begun options run).withLines written).Regular := { hbegun with }
  refine passes_bind (hlogged.yields_told (hpassive.passiveIn _) .started) fun _ opened htraced ↦ ?_
  have hopened := opened_of_traced (hregular.begun options hbuild) htraced
  refine hopened.regular.passes_rearm hpassive ?_
  rw [hopened.speed_eq]
  exact options.initialSpeed_mem_range

/-- However it ends, a stop leaves a journal that takes lines, and it passes. -/
theorem yields_stop_plain : Yields (fun halt last ↦ halt.CutsShort True last.session.steps)
    (stop audience) runner fun _ last ↦ last.journal.context.Plain := by
  cases hactive : runner.session.active with
  | false => exact (ends_stop_of_inactive hactive).mpr hregular.bound
  | true =>
    refine Yields.mono (hregular.yields_stopped (hpassive.passiveIn _) hactive ?_) ?_
    · exact fun hlong error hrefusal _ ↦ .inl ⟨hlong, error, rfl, hrefusal⟩
    · rintro _ _ ⟨_, _, rfl⟩
      exact Fields.plain_nil

theorem passes_stop : Passes (stop audience) runner :=
  Yields.mono (hregular.yields_stop_plain hpassive) fun _ _ _ ↦ trivial

theorem passes_shutdown : Passes (shutdown audience) runner :=
  passes_bind (hregular.yields_stop_plain hpassive) fun _ _ hbound ↦ passes_detach hbound

theorem passes_inject (hfurnished : runner.Furnished) (hactive : runner.session.active = true)
    (instruction : String) : Passes (inject audience instruction) runner := by
  obtain ⟨position, hattached⟩ := Option.isSome_iff_exists.mp (hregular.active_iff.mp hactive)
  obtain ⟨run, hrun⟩ := hregular.exists_run hattached
  obtain ⟨machine, htape⟩ := hfurnished.tape position run hrun
  have hcarries : runner.Carries position run.program ⟨machine, run.supply, runner.output⟩ := by
    refine ⟨hrun.trans ?_, rfl⟩
    rw [← htape]
  rw [inject_eq, Passes, Yields, ends_bind, ends_requireRun, hattached]
  refine passes_bind (hcarries.yields_attempt_execute (hregular.sound position run hrun machine
    htape) hpassive instruction) ?_
  rintro outcome _ ⟨_, -, -, -, runs, output, hookCalls, rfl, -⟩
  have hexecuted : Chronicled { runner with runs, output, hookCalls } := { hregular with }
  refine passes_bind (hexecuted.yields_acceptance instruction outcome) ?_
  rintro accepted _ ⟨-, lines, rfl⟩
  exact passes_bind ((hexecuted.noted (noted_withLines _ lines)).yields_tell hpassive _)
    fun _ _ _ ↦ trivial

end Regular

theorem passes_feed (hfurnished : runner.Furnished) (hactive : runner.session.active = true)
    (content : String) : Passes (feed content) runner := by
  obtain ⟨position, hsupplied⟩ :=
    Option.isSome_iff_exists.mp (hfurnished.supplied_eq.trans hactive)
  rw [Passes, Yields, feed, ends_bind, ends_get]
  simp only [hsupplied]
  exact trivial

namespace UpToDate

variable (huptodate : runner.UpToDate) (hpassive : audience.Passive)
include huptodate hpassive

theorem passes_setSpeed {speed : Int} (hspeed : Speed.blocking ≤ speed ∧ speed ≤ Speed.top) :
    Passes (setSpeed audience speed) runner := by
  by_cases hsame : speed = runner.session.speed
  · rw [Passes, Yields, setSpeed_eq, ends_bind, ends_get]
    simp only [ne_eq, hsame, not_true_eq_false, if_false]
    exact trivial
  have hchanged : (runner.withSpeed speed).Regular := { huptodate.toRegular with }
  have hline : Fields.Plain [("previous_speed", .whole runner.session.speed),
      ("speed", .whole speed)] :=
    Fields.plain_cons (by decide) (Value.simple_speed huptodate.least huptodate.greatest)
      (Fields.plain_cons (by decide) (Value.simple_speed hspeed.1 hspeed.2) Fields.plain_nil)
  have hrest : Passes (do
      log .info "session.speed_changed" [("previous_speed", .whole runner.session.speed),
        ("speed", .whole speed)]
      tellChange audience runner.session.speed
      rearm audience) (runner.withSpeed speed) := by
    refine passes_bind (writes_of_plain hchanged.bound hline .info "session.speed_changed") ?_
    rintro _ _ ⟨lines, rfl⟩
    have hlogged : ((runner.withSpeed speed).withLines lines).Regular := { hchanged with }
    refine passes_bind (hlogged.yields_tellChange hpassive runner.session.speed) ?_
    rintro _ after ⟨hafter, hkept⟩
    refine hafter.passes_rearm hpassive ?_
    rw [hkept]
    exact hspeed
  rw [Passes, Yields] at hrest ⊢
  exact (ends_setSpeed_of_other hsame).mpr hrest

/-- An order that asks for a speed passes. -/
theorem passes_obey_speed (hoperation : order.Operation) {speed : Int}
    (hasks : order.speed? runner = some speed) : Passes (obey audience order) runner := by
  have hspeed : Speed.blocking ≤ speed ∧ speed ≤ Speed.top := by
    refine huptodate.speed_mem ?_ hasks
    cases order <;> first | exact hoperation | exact trivial
  have hpasses := passes_reply (fun _ ↦ Reply.nothing) (huptodate.passes_setSpeed hpassive hspeed)
  cases order with
  | setSpeed | faster | pause | superSpeed =>
    obtain rfl := Option.some.inj hasks
    exact hpasses
  | slower =>
    by_cases hfast : Speed.idle < runner.session.speed
    · obtain rfl := Option.some.inj ((if_pos hfast).symm.trans hasks)
      rw [Passes, Yields]
      refine (ends_bind _ _).mpr ((ends_bind _ _).mpr (ends_get.mpr ?_))
      simp only [if_pos hfast]
      exact (ends_bind _ _).mp hpasses
    · cases (if_neg hfast).symm.trans hasks
  | _ => cases hasks

/-- Every operation passes that is not declined. -/
theorem passes_obey (hfurnished : runner.Furnished) (hpatience : audience.patience ≠ 0)
    (hoperation : order.Operation) (hdeclines : ∀ error, ¬ runner.Declines order error) :
    Passes (obey audience order) runner := by
  have hactive {needing : Order} {error : Error}
      (hdeclined : runner.session.active = false → runner.Declines needing error)
      (hneeds : needing = order) : runner.session.active = true := by
    subst hneeds
    exact Bool.not_eq_false _ |>.mp fun hinactive ↦ hdeclines error (hdeclined hinactive)
  cases hasks : order.speed? runner with
  | some speed => exact huptodate.passes_obey_speed hpassive hoperation hasks
  | none =>
    cases order with
    | start program options =>
      have hsize : 0 < runner.bench.memorySize :=
        Int.not_le.mp fun hsize ↦ hdeclines _ (.start hsize)
      exact passes_reply (fun _ ↦ Reply.nothing)
        (huptodate.passes_start hpassive options hsize hoperation)
    | stop => exact passes_reply (fun _ ↦ Reply.nothing) (huptodate.passes_stop hpassive)
    | shutdown => exact passes_reply (fun _ ↦ Reply.nothing) (huptodate.passes_shutdown hpassive)
    | step =>
      exact passes_reply (fun _ ↦ Reply.nothing) (passes_of_brokenOff
        (huptodate.yields_step hpassive (hactive .step rfl) hpatience))
    | runBlocking =>
      obtain ⟨position, hattached⟩ := Option.isSome_iff_exists.mp
        (huptodate.active_iff.mp (hactive .runBlocking rfl))
      refine passes_reply (fun _ ↦ Reply.nothing) ?_
      rw [Passes, Yields, runBlocking, ends_bind, ends_requireRun, hattached]
      exact passes_of_brokenOff
        (huptodate.yields_blockingRun hpassive hattached audience.patience)
    | inject instruction =>
      exact passes_reply Reply.accepted
        (huptodate.passes_inject hpassive hfurnished (hactive .inject rfl) instruction)
    | feed content =>
      exact passes_reply (fun _ ↦ Reply.nothing)
        (passes_feed hfurnished (hactive .feed rfl) content)
    | fire rounds =>
      exact passes_reply Reply.calls (passes_of_brokenOff
        (huptodate.yields_fireRounds hpassive hpatience rounds 0))
    | rearm =>
      exact passes_reply (fun _ ↦ Reply.nothing)
        (huptodate.passes_rearm hpassive ⟨huptodate.least, huptodate.greatest⟩)
    | slower =>
      have hslow : ¬ Speed.idle < runner.session.speed :=
        fun hfast ↦ Option.some_ne_none _ ((if_pos hfast).symm.trans hasks)
      refine passes_reply (fun _ ↦ Reply.nothing) ?_
      rw [Passes, Yields, slower, ends_bind, ends_get]
      simp only [if_neg hslow]
      exact trivial
    | faster | pause | superSpeed | setSpeed => cases hasks
    | _ => exact hoperation.elim

end UpToDate

/-! ### What is declined -/

/-- What is declined changes nothing. -/
theorem Declines.runFrom_obey {error : Error} (hdeclines : runner.Declines order error)
    (hregular : runner.Regular) (hfurnished : runner.Furnished) :
    runFrom (obey audience order) runner = (.error (.raised error), runner) := by
  have hdetached {Result : Type} (hinactive : runner.session.active = false) (operation : String)
      (next : Nat → Action Result) : runFrom (requireRun operation >>= next) runner =
        (.error (.raised (.noSession operation)), runner) := by
    have hnone : runner.attached = none := Option.not_isSome_iff_eq_none.mp
      (mt hregular.active_iff.mpr (Bool.eq_false_iff.mp hinactive))
    simp only [requireRun, runFrom_bind, runFrom_get, hnone, runFrom_fail]
  cases hdeclines with
  | start hsize =>
    rename_i program options
    have hbuild : runner.bench.build program = .error .memorySize := by
      unfold Bench.build
      simp only [hfurnished.kind_eq, if_pos hsize]
    simp only [obey, Runner.start, runFrom_bind, runFrom_get, hbuild, runFrom_fail]
  | step hinactive =>
    simp only [obey, step_eq, runFrom_bind, hdetached hinactive]
  | runBlocking hinactive =>
    simp only [obey, Runner.runBlocking, runFrom_bind, hdetached hinactive]
  | inject hinactive =>
    simp only [obey, inject_eq, runFrom_bind, hdetached hinactive]
  | feed hinactive =>
    have hnone : runner.supplied = none := by
      rw [← Option.not_isSome_iff_eq_none, hfurnished.supplied_eq, hinactive]
      exact Bool.false_ne_true
    simp only [obey, Runner.feed, runFrom_bind, runFrom_get, hnone, runFrom_fail]

/-! ### After any orders -/

/-- A runner before its first start has neither engines nor input. -/
theorem furnished_of_fresh {bench : Bench} {hooks : List Hook} {journal : Journal} {start : Runner}
    (hstart : fresh bench hooks journal = .ok start) (hbound : journal.context.Plain)
    (hkind : bench.kind = .tape) : start.Furnished := by
  obtain ⟨_, -, rfl⟩ := exists_of_fresh hstart
  exact ⟨hbound, hkind, fun _ _ hrun ↦ (nomatch hrun), rfl⟩

end Runner

end TapeRunner
