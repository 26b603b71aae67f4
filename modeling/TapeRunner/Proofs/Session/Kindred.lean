import TapeRunner.Proofs.Lockstep
import TapeRunner.Proofs.Session.Ticks

/-!
# Sessions with different pasts

Two runners with pasts of their own are akin (`Runner.Akin`) if they find the same before them and
have written and told the same since then. They are kindred (`Runner.Kindred`) if their sessions are
the same besides, but for their numbers, with the same run to go on with, and both or neither of
them armed. Their runs and their timers stand at different places, behind those of their pasts.
Before observers that only listen, the parts of the operations go on in lockstep from there.
-/

set_option autoImplicit false
set_option relaxedAutoImplicit false

namespace TapeRunner

open Activity

/-- An event without the number of its session. -/
def Event.unnumbered (event : Event) : Event :=
  { event with session := { event.session with number := none } }

namespace Runner

/-- Two runners at the point from which on they are compared, and the places at which the runs stand
that belong together. -/
structure Pasts where
  left : Runner
  right : Runner
  place : Nat
  spot : Nat

/-- Two places are those of the runs that belong together, or there are none. -/
def Pasts.Align (pasts : Pasts) (one other : Option Nat) : Prop :=
  (one = none ∧ other = none) ∨ (one = some pasts.place ∧ other = some pasts.spot)

/-- Two runners find the same before them, and have written and told the same since two moments. -/
structure Akin (past before left right : Runner) : Prop where
  boundLeft : left.journal.context.Plain
  boundRight : right.journal.context.Plain
  heardLeft : ∀ type, ((left.bus.recipients type).length : Int) ≤ greatestInteger
  heardRight : ∀ type, ((right.bus.recipients type).length : Int) ≤ greatestInteger
  recorderLeft : ∀ kind : EventKind, (left.bus.recipients kind.type).count .recorder = 1
  recorderRight : ∀ kind : EventKind, (right.bus.recipients kind.type).count .recorder = 1
  threshold_eq : left.journal.threshold = right.journal.threshold
  form_eq : left.journal.form = right.journal.form
  bench_eq : left.bench = right.bench
  written : ∃ bytes, left.output.bytes = past.output.bytes ++ bytes ∧
    right.output.bytes = before.output.bytes ++ bytes
  told : ∃ news further, left.recorded = past.recorded ++ news ∧
    right.recorded = before.recorded ++ further ∧
      news.map Event.unnumbered = further.map Event.unnumbered

/-- Since their pasts, two runners have had everything in common that counts for the session. -/
structure Kindred (pasts : Pasts) (left right : Runner) : Prop
    extends Akin pasts.left pasts.right left right where
  session_eq : left.session = { right.session with number := left.session.number }
  run : ∃ run, left.runs[pasts.place]? = some run ∧ right.runs[pasts.spot]? = some run
  attached : pasts.Align left.attached right.attached
  supplied : pasts.Align left.supplied right.supplied
  armed_eq : left.armed = right.armed

variable {pasts : Pasts} {past before left right : Runner} {audience other : Audience}

namespace Akin

theorem attendedLeft (hakin : Akin past before left right) : left.Attended :=
  ⟨⟨hakin.boundLeft, hakin.heardLeft⟩, hakin.recorderLeft⟩

theorem attendedRight (hakin : Akin past before left right) : right.Attended :=
  ⟨⟨hakin.boundRight, hakin.heardRight⟩, hakin.recorderRight⟩

end Akin

namespace Kindred

variable (hkindred : Kindred pasts left right)
include hkindred

theorem run?_eq : left.run? = right.run? := by
  obtain ⟨run, hleft, hright⟩ := hkindred.run
  rcases hkindred.attached with ⟨hone, hother⟩ | ⟨hone, hother⟩
  · rw [run?, run?, hone, hother]
    rfl
  · rw [run?_eq_some hone hleft, run?_eq_some hother hright]

theorem supply?_eq : left.supply? = right.supply? := by
  obtain ⟨run, hleft, hright⟩ := hkindred.run
  rcases hkindred.supplied with ⟨hone, hother⟩ | ⟨hone, hother⟩
  · rw [supply?, supply?, hone, hother]
    rfl
  · simp only [supply?, hone, hother, Option.bind_some, hleft, hright]

theorem elapsed_eq : left.elapsed = right.elapsed := by
  rw [elapsed, elapsed, hkindred.bench_eq, hkindred.session_eq]

theorem speed_eq : left.session.speed = right.session.speed := by rw [hkindred.session_eq]

theorem active_eq : left.session.active = right.session.active := by rw [hkindred.session_eq]

/-! ### Changes that are common -/

theorem withLines (lines further : Array Line) :
    Kindred pasts (left.withLines lines) (right.withLines further) :=
  { hkindred with }

/-- What is told is told of both. -/
theorem told_of_traced {kind : EventKind} {after later : Runner}
    (hleft : (left.told kind).Traced after) (hright : (right.told kind).Traced later) :
    Kindred pasts after later := by
  obtain ⟨_, _, rfl⟩ := hleft
  obtain ⟨_, _, rfl⟩ := hright
  refine { hkindred with
    session_eq := congrArg (fun session ↦ { session with sequence := session.sequence + 1 })
      hkindred.session_eq
    told := ?_ }
  obtain ⟨news, further, hnews, hfurther, hsame⟩ := hkindred.told
  refine ⟨news.push (left.counted.eventOf kind), further.push (right.counted.eventOf kind),
    ?_, ?_, ?_⟩
  · rw [← Array.push_append, ← hnews]
    rfl
  · rw [← Array.push_append, ← hfurther]
    rfl
  · -- Without its number, an event shows nothing but what the sessions have in common.
    let shown (session : Session) (engine : Option EngineView) : Event :=
      ⟨kind, session.sequence + 1,
        ⟨none, session.active, session.speed, session.status, session.steps⟩, engine⟩
    have hengine : left.engineView = right.engineView :=
      congrArg (Option.map Run.view) hkindred.run?_eq
    have hview : (left.counted.eventOf kind).unnumbered =
        (right.counted.eventOf kind).unnumbered := by
      change shown left.session left.engineView = shown right.session right.engineView
      rw [hengine, hkindred.session_eq]
    rw [Array.map_push, Array.map_push, hsame, hview]

theorem changeRun (change : Run → Run) :
    Kindred pasts (left.changeRun pasts.place change) (right.changeRun pasts.spot change) := by
  refine { hkindred with run := ?_ }
  obtain ⟨run, hleft, hright⟩ := hkindred.run
  refine ⟨change run, ?_, ?_⟩
  · simp only [Runner.changeRun, Array.getElem?_modify, if_true, hleft, Option.map_some]
  · simp only [Runner.changeRun, Array.getElem?_modify, if_true, hright, Option.map_some]

theorem cleared : Kindred pasts left.cleared right.cleared :=
  { hkindred with armed_eq := rfl }

theorem armedAt (cadence : Float) :
    Kindred pasts (left.armedAt cadence) (right.armedAt cadence) := by
  have harmed (runner : Runner) : (runner.armedAt cadence).armed = true := by
    simp [armed, Runner.armedAt, Timer.isLive]
  exact { hkindred with armed_eq := (harmed left).trans (harmed right).symm }

theorem ended : Kindred pasts left.ended right.ended :=
  { hkindred.cleared with
    session_eq := congrArg (fun session ↦ { session with active := false, status := none })
      hkindred.session_eq
    attached := .inl ⟨rfl, rfl⟩
    supplied := .inl ⟨rfl, rfl⟩ }

theorem detached :
    Kindred pasts { left with attached := none } { right with attached := none } :=
  { hkindred with attached := .inl ⟨rfl, rfl⟩ }

/-- Nothing is bound any more in either journal. -/
theorem unbound :
    Kindred pasts { left with journal := left.journal.clear }
      { right with journal := right.journal.clear } :=
  { hkindred with
    boundLeft := Fields.plain_nil
    boundRight := Fields.plain_nil }

/-- The same effect on both runs, with whatever calls of observers. -/
theorem settledAny (effect? : Option Effect) (hookCalls further : Array Nat) :
    Kindred pasts { left.settledAny pasts.place effect? with hookCalls }
      { right.settledAny pasts.spot effect? with hookCalls := further } := by
  cases effect? with
  | none => exact { hkindred with }
  | some effect =>
    have hsettled := hkindred.changeRun (·.settle effect)
    refine { hsettled with written := ?_ }
    obtain ⟨bytes, hleft, hright⟩ := hkindred.written
    simp only [Runner.settledAny, settled]
    cases effect.written with
    | none => exact ⟨bytes, hleft, hright⟩
    | some byte =>
      refine ⟨bytes.push (byteOf byte.toNat), ?_, ?_⟩
      · simp only [Output.put, hleft, Array.push_append]
      · simp only [Output.put, hright, Array.push_append]

end Kindred

end Runner

/-! ### Lines -/

/-- A simple field is no reason to refuse a line. -/
theorem Fields.flaw?_cons_of_simple {name : String} {value : Value} {fields : Fields}
    (hsimple : value.Simple) (form : Form) :
    Fields.flaw? ((name, value) :: fields) form = fields.flaw? form := by
  cases form with
  | object =>
    rw [flaw?, Value.plainFields, Value.flawInFields?, hsimple.plain.flaw?_eq_none, Option.none_or]
    rfl
  | console => rfl

namespace Runner

variable {pasts : Pasts} {left right : Runner} {audience other : Audience}

theorem flaw?_nameField (runner : Runner) (fields : Fields) (form : Form) :
    Fields.flaw? (runner.nameField :: fields) form = fields.flaw? form := by
  refine Fields.flaw?_cons_of_simple ?_ form
  cases runner.session.view.name? <;> trivial

theorem runFrom_log (runner : Runner) (level : Level) (event : String) (fields : Fields) :
    runFrom (log level event fields) runner = match runner.journal.write level event fields with
      | .ok journal => (.ok (), { runner with journal })
      | .error error => (.error (.raised error), runner) := by
  rw [log, runFrom_bind, runFrom_get]
  cases hwrite : runner.journal.write level event fields <;>
    simp only [hwrite, runFrom_modify, runFrom_fail]

namespace Kindred

section Lines

variable (hkindred : Kindred pasts left right)
include hkindred

/-- Lines that are refused for the same reason, if they are, are written alike. -/
theorem alike_log (level : Level) (event : String) {own same : Fields} (hown : own.Free)
    (hsame : same.Free) (hflaw : ∀ form, own.flaw? form = same.flaw? form) :
    Alike (Kindred pasts) (log level event own) (log level event same) left right := by
  unfold Alike
  rw [runFrom_log, runFrom_log, Journal.write_eq hown hkindred.boundLeft,
    Journal.write_eq hsame hkindred.boundRight]
  by_cases hlow : level.rank < left.journal.threshold
  · have hlower : level.rank < right.journal.threshold := hkindred.threshold_eq ▸ hlow
    simp only [if_pos hlow, if_pos hlower]
    exact ⟨trivial, hkindred⟩
  · have hhigh : ¬ level.rank < right.journal.threshold := hkindred.threshold_eq ▸ hlow
    have hreason : own.flaw? left.journal.form = same.flaw? right.journal.form := by
      rw [hkindred.form_eq, hflaw]
    simp only [if_neg hlow, if_neg hhigh]
    cases hfound : same.flaw? right.journal.form with
    | some error =>
      simp only [hreason.trans hfound]
      exact ⟨trivial, hkindred⟩
    | none =>
      simp only [hreason.trans hfound]
      exact ⟨trivial, hkindred.withLines _ _⟩

/-- Both names may stand before what is the same. -/
theorem alike_log_named (level : Level) (event : String) {fields : Fields} (hfree : fields.Free) :
    Alike (Kindred pasts) (log level event (left.nameField :: fields))
      (log level event (right.nameField :: fields)) left right :=
  hkindred.alike_log level event (Fields.free_cons (by decide) hfree)
    (Fields.free_cons (by decide) hfree) fun form ↦ by rw [flaw?_nameField, flaw?_nameField]

theorem alike_disarm : Alike (Kindred pasts) disarm disarm left right := by
  refine Alike.of_yields
    (yields_clear (writes_of_plain hkindred.boundLeft Fields.plain_nil))
    (yields_clear (writes_of_plain hkindred.boundRight Fields.plain_nil)) ?_
  rintro _ _ _ _ ⟨_, rfl⟩ ⟨_, rfl⟩
  exact ⟨rfl, hkindred.cleared.withLines _ _⟩

theorem alike_arm (speed : Int) (cadence : Float) :
    Alike (Kindred pasts) (arm speed cadence) (arm speed cadence) left right := by
  by_cases hinterval : Speed.interval cadence ≤ 0
  · exact .of_ends (fun _ ↦ ends_arm_of_refused hinterval) (fun _ ↦ ends_arm_of_refused hinterval)
      (Lockstep.fail _ left right hkindred)
  · refine .of_ends (fun _ ↦ ends_arm hinterval) (fun _ ↦ ends_arm hinterval) ?_
    have hfree :
        Fields.Free [("speed", .whole speed), ("interval_s", .real (Speed.interval cadence))] :=
      Fields.free_cons (by decide) (Fields.free_cons (by decide) Fields.free_nil)
    exact (hkindred.armedAt cadence).alike_log _ _ hfree hfree fun _ ↦ rfl

end Lines

section Passive

variable (hpassive : audience.Passive) (hother : other.Passive)
include hpassive hother

theorem alike_tell (hkindred : Kindred pasts left right) (kind : EventKind) :
    Alike (Kindred pasts) (tell audience kind) (tell other kind) left right := by
  refine Alike.of_yields (hkindred.attendedLeft.yields_told (hpassive.passiveIn _) kind)
    (hkindred.attendedRight.yields_told (hother.passiveIn _) kind) ?_
  exact fun _ _ _ _ hleft hright ↦ ⟨rfl, hkindred.told_of_traced hleft hright⟩

/-- The end of a stretch is reported alike. -/
theorem alike_conclude (hkindred : Kindred pasts left right) (outcome : Except Fault Unit) :
    Alike (Kindred pasts) (conclude audience outcome) (conclude other outcome) left right := by
  have hidled (status : Status) :
      Kindred pasts (left.idledWith status) (right.idledWith status) :=
    { hkindred with
      session_eq := congrArg (fun session ↦
        { session with speed := Speed.idle, status := some status }) hkindred.session_eq }
  have hsteps : left.session.steps = right.session.steps := by rw [hkindred.session_eq]
  have hreport (status : Status) (event : String) (kind : EventKind) {fields : Fields}
      (hfree : fields.Free) :
      Alike (Kindred pasts)
        (do
          log .info event (left.nameField :: fields)
          tell audience kind)
        (do
          log .info event (right.nameField :: fields)
          tell other kind) (left.idledWith status) (right.idledWith status) :=
    ((hidled status).alike_log_named .info event hfree).bind fun _ _ _ hlogged ↦
      hlogged.alike_tell hpassive hother kind
  rcases outcome with fault | _
  · refine .of_ends (fun _ ↦ ends_reportFault fault) (fun _ ↦ ends_reportFault fault) ?_
    rw [hsteps]
    exact hreport (.failed fault) _ _ (Fields.free_cons (by decide) (Fields.free_cons (by decide)
      (Fields.free_cons (by decide) Fields.free_nil)))
  · refine .of_ends (fun _ ↦ ends_reportEnd) (fun _ ↦ ends_reportEnd) ?_
    rw [hsteps, hkindred.elapsed_eq]
    exact hreport (.finished right.elapsed) _ _ (Fields.free_cons (by decide)
      (Fields.free_cons (by decide) Fields.free_nil))

/-- Each run makes its turn. -/
theorem alike_advance (hkindred : Kindred pasts left right) :
    Alike (Kindred pasts) (advance audience pasts.place) (advance other pasts.spot) left right := by
  obtain ⟨run, hleft, hright⟩ := hkindred.run
  have hscript : left.bench.script = right.bench.script := by rw [hkindred.bench_eq]
  cases hturn : run.turn left.bench.script with
  | error error =>
    refine .of_ends (fun _ ↦ ?_) (fun _ ↦ ?_) (Lockstep.fail error left right hkindred)
    · rw [ends_advance hleft, hturn]
      exact Iff.rfl
    · rw [ends_advance hright, ← hscript, hturn]
      exact Iff.rfl
  | ok done =>
    obtain ⟨effect?, counter⟩ := done
    refine Alike.of_yields (yields_advance_of_turn hpassive hleft hturn)
      (yields_advance_of_turn hother hright (hscript ▸ hturn)) ?_
    rintro _ _ _ _ ⟨hookCalls, rfl⟩ ⟨further, rfl⟩
    exact ⟨rfl, (hkindred.settledAny effect? hookCalls further).changeRun _⟩

/-- An instruction beside the program is executed on each run. -/
theorem alike_execute (hkindred : Kindred pasts left right) (instruction : String) :
    Alike (Kindred pasts) (execute audience pasts.place instruction)
      (execute other pasts.spot instruction) left right := by
  obtain ⟨run, hleft, hright⟩ := hkindred.run
  have hscript : left.bench.script = right.bench.script := by rw [hkindred.bench_eq]
  cases haside : run.aside left.bench.script instruction with
  | error error =>
    refine .of_ends (fun _ ↦ ?_) (fun _ ↦ ?_) (Lockstep.fail error left right hkindred)
    · rw [ends_execute hleft, haside]
      exact Iff.rfl
    · rw [ends_execute hright, ← hscript, haside]
      exact Iff.rfl
  | ok effect? =>
    have hsettled : Alike (Kindred pasts) (settleAny audience pasts.place effect?)
        (settleAny other pasts.spot effect?) left right := by
      refine Alike.of_yields (yields_settleAny_of_passive hpassive _ effect?)
        (yields_settleAny_of_passive hother _ effect?) ?_
      rintro _ _ _ _ ⟨hookCalls, rfl⟩ ⟨further, rfl⟩
      exact ⟨rfl, hkindred.settledAny effect? hookCalls further⟩
    refine .of_ends (fun _ ↦ ?_) (fun _ ↦ ?_) hsettled
    · rw [ends_execute hleft, haside]
    · rw [ends_execute hright, ← hscript, haside]

end Passive

end Kindred

end Runner

end TapeRunner
