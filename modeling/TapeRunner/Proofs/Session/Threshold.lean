import TapeRunner.Proofs.Session.Kindred
import TapeRunner.Proofs.Session.Reachable
import TapeRunner.Proofs.Tracking

/-!
# What the threshold of a journal decides

Two runners that are the same but for the thresholds of their journals (`Runner.ButForLines`) write
other lines, and those that reach both thresholds are the same. A line is refused only where it is
written, so that is a difference too; but a line of plain fields is never refused, and the fields
are plain as long as the speed is within its limits, the observers are not too many to be counted,
and the session has not made too many steps. Where it has, the first runner is lost
(`Runner.TooLong`), and stays so until the next start. So each operation on the first one tracks the
same operation on the second one, if each observer of the first does so.
-/

set_option autoImplicit false
set_option relaxedAutoImplicit false

namespace TapeRunner

open Activity

/-! ### Lines of two journals -/

/-- Every line of two lists reaches its threshold, and those that reach both are the same. -/
structure Line.Agree (threshold other : Nat) (lines further : Array Line) : Prop where
  common : lines.filter (fun line ↦ other ≤ line.level.rank) =
    further.filter fun line ↦ threshold ≤ line.level.rank
  reaches : ∀ line ∈ lines, threshold ≤ line.level.rank
  reachesOther : ∀ line ∈ further, other ≤ line.level.rank

/-- The lines of a journal once a line has been written that is not refused. -/
def Journal.linesWith (journal : Journal) (line : Line) : Array Line :=
  if line.level.rank < journal.threshold then journal.lines else journal.lines.push line

theorem Line.filter_push (bound : Nat) (lines : Array Line) (line : Line) :
    (lines.push line).filter (fun line ↦ bound ≤ line.level.rank) =
      if line.level.rank < bound then lines.filter fun line ↦ bound ≤ line.level.rank
      else (lines.filter fun line ↦ bound ≤ line.level.rank).push line := by
  rw [Array.size_push]
  split
  · next hlow => exact Array.filter_push_of_neg (by simpa using hlow) rfl
  · next hhigh => exact Array.filter_push_of_pos (by simpa using hhigh) rfl

namespace Line.Agree

variable {threshold other : Nat} {lines further : Array Line}

/-- Equal thresholds leave no difference. -/
theorem eq_of_threshold (hagree : Agree threshold threshold lines further) :
    lines = further := by
  have hlines : lines.filter (fun line ↦ threshold ≤ line.level.rank) = lines :=
    Array.filter_eq_self.mpr fun line hline ↦ decide_eq_true (hagree.reaches line hline)
  have hfurther : further.filter (fun line ↦ threshold ≤ line.level.rank) = further :=
    Array.filter_eq_self.mpr fun line hline ↦ decide_eq_true (hagree.reachesOther line hline)
  rw [← hlines, hagree.common, hfurther]

/-- The lines of the higher threshold are those of the lower one that reach it. -/
theorem eq_filter_of_le (hagree : Agree threshold other lines further) (hle : threshold ≤ other) :
    further = lines.filter fun line ↦ other ≤ line.level.rank := by
  rw [hagree.common]
  refine (Array.filter_eq_self.mpr fun line hline ↦ decide_eq_true ?_).symm
  exact Nat.le_trans hle (hagree.reachesOther line hline)

theorem symm (hagree : Agree threshold other lines further) :
    Agree other threshold further lines where
  common := hagree.common.symm
  reaches := hagree.reachesOther
  reachesOther := hagree.reaches

/-- A line that is offered to both journals is written where it reaches the threshold. -/
theorem linesWith (journal same : Journal)
    (hagree : Agree journal.threshold same.threshold journal.lines same.lines) (line : Line) :
    Agree journal.threshold same.threshold (journal.linesWith line) (same.linesWith line) := by
  have hreaches {journal : Journal}
      (hall : ∀ line ∈ journal.lines, journal.threshold ≤ line.level.rank) :
      ∀ found ∈ journal.linesWith line, journal.threshold ≤ found.level.rank := by
    unfold Journal.linesWith
    split
    · exact hall
    · next hhigh =>
      intro found hfound
      rcases Array.mem_push.mp hfound with hold | rfl
      · exact hall found hold
      · exact Nat.not_lt.mp hhigh
  refine ⟨?_, hreaches hagree.reaches, hreaches hagree.reachesOther⟩
  unfold Journal.linesWith
  by_cases hone : line.level.rank < journal.threshold <;>
    by_cases hother : line.level.rank < same.threshold
  · rw [if_pos hone, if_pos hother, hagree.common]
  · rw [if_pos hone, if_neg hother, filter_push, if_pos hone, hagree.common]
  · rw [if_neg hone, if_pos hother, filter_push, if_pos hother, hagree.common]
  · rw [if_neg hone, if_neg hother, filter_push, filter_push, if_neg hone, if_neg hother,
      hagree.common]

end Line.Agree

/-- What is written of a line that is not refused. -/
theorem Journal.write_eq_linesWith {journal : Journal} (hbound : journal.context.Plain)
    (level : Level) (event : String) {fields : Fields} (hown : fields.Plain) :
    journal.write level event fields = .ok { journal with
      lines := journal.linesWith (Line.of level event fields journal.context) } := by
  let line := Line.of level event fields journal.context
  have hlines : journal.linesWith line =
      if level.rank < journal.threshold then journal.lines else journal.lines.push line := rfl
  rw [hlines, write]
  split
  · rfl
  · simp only [Line.refusal?_eq_none (hown.of_line hbound level event)]
    rfl

namespace Runner

/-! ### Runners with two journals -/

/-- The runner with another threshold and other lines in its journal. -/
def relogged (runner : Runner) (threshold : Nat) (lines : Array Line) : Runner :=
  { runner with journal := { runner.journal with threshold, lines } }

/-- The journal takes lines about events and about changes of speed. -/
structure Recordable (runner : Runner) : Prop extends Chronicled runner where
  blocking_le : Speed.blocking ≤ runner.session.speed
  le_top : runner.session.speed ≤ Speed.top

/-- Two runners are the same but for the thresholds of their journals and the lines that do not
reach both. -/
def ButForLines (left right : Runner) : Prop :=
  left.Recordable ∧ ∃ threshold lines, right = left.relogged threshold lines ∧
    Line.Agree left.journal.threshold threshold left.journal.lines lines

/-- The steps of the session are too many for a line. -/
def TooLong (runner : Runner) : Prop := greatestInteger < (runner.session.steps : Int)

instance (runner : Runner) : Decidable runner.TooLong := Int.decLt _ _

/-- An operation on one runner tracks an operation on another one. -/
abbrev Follows {Result : Type} (one other : Action Result) : Prop :=
  Tracks ButForLines TooLong one other

/-- So it is from two runners in particular. -/
abbrev FollowsFrom {Result : Type} (one other : Action Result) (left right : Runner) : Prop :=
  AlikeUnlessLost ButForLines TooLong one other left right

variable {Result : Type} {left right : Runner} {short long : Audience}

/-- A change that has nothing to do with the lines is made on both sides. -/
theorem ButForLines.changed (hsame : ButForLines left right) {change : Runner → Runner}
    (hrelogged : ∀ runner threshold lines,
      change (relogged runner threshold lines) = (change runner).relogged threshold lines)
    (hjournal : ∀ runner, (change runner).journal.threshold = runner.journal.threshold ∧
      (change runner).journal.lines = runner.journal.lines)
    (hrecordable : (change left).Recordable) : ButForLines (change left) (change right) := by
  obtain ⟨-, threshold, lines, rfl, hagree⟩ := hsame
  refine ⟨hrecordable, threshold, lines, hrelogged left threshold lines, ?_⟩
  rwa [(hjournal left).1, (hjournal left).2]

theorem follows_modify {change : Runner → Runner}
    (hrelogged : ∀ runner threshold lines,
      change (relogged runner threshold lines) = (change runner).relogged threshold lines)
    (hjournal : ∀ runner, (change runner).journal.threshold = runner.journal.threshold ∧
      (change runner).journal.lines = runner.journal.lines)
    (hrecordable : ∀ runner, runner.Recordable → (change runner).Recordable)
    (hsteps : ∀ runner, runner.session.steps ≤ (change runner).session.steps) :
    Follows (modify change) (modify change) := by
  refine .modify (fun left right hsame ↦ ?_) fun runner hlong ↦ ?_
  · exact hsame.changed hrelogged hjournal (hrecordable left hsame.1)
  · exact Int.lt_of_lt_of_le hlong (Int.ofNat_le.mpr (hsteps runner))

/-- A change that touches neither the journal nor the session nor the bus is harmless. -/
theorem follows_modify_apart {change : Runner → Runner}
    (hrelogged : ∀ runner threshold lines,
      change (relogged runner threshold lines) = (change runner).relogged threshold lines)
    (happart : ∀ runner, (change runner).journal = runner.journal ∧
      (change runner).session = runner.session ∧ (change runner).bus = runner.bus) :
    Follows (modify change) (modify change) := by
  refine follows_modify hrelogged (fun runner ↦ ?_) (fun runner hrecordable ↦ ?_) fun runner ↦ ?_
  · rw [(happart runner).1]
    exact ⟨rfl, rfl⟩
  · obtain ⟨hjournal, hsession, hbus⟩ := happart runner
    refine ⟨⟨?_, ?_⟩, ?_, ?_⟩
    · exact hjournal ▸ hrecordable.bound
    · exact hbus ▸ hrecordable.heard
    · exact hsession ▸ hrecordable.blocking_le
    · exact hsession ▸ hrecordable.le_top
  · exact Nat.le_of_eq (congrArg Session.steps (happart runner).2.1.symm)

theorem follows_modifySession {change : Session → Session}
    (hspeed : ∀ session, Speed.blocking ≤ session.speed → session.speed ≤ Speed.top →
      Speed.blocking ≤ (change session).speed ∧ (change session).speed ≤ Speed.top)
    (hsteps : ∀ session, session.steps ≤ (change session).steps) :
    Follows (modifySession change) (modifySession change) := by
  refine follows_modify (fun _ _ _ ↦ rfl) (fun _ ↦ ⟨rfl, rfl⟩) (fun runner hrecordable ↦ ?_)
    fun runner ↦ hsteps runner.session
  obtain ⟨hleast, hgreatest⟩ := hspeed _ hrecordable.blocking_le hrecordable.le_top
  exact { hrecordable with blocking_le := hleast, le_top := hgreatest }

/-- What is done next may depend on everything but the lines. -/
theorem follows_get_of {next further : Runner → Action Result}
    (hsame : ∀ runner threshold lines, further (relogged runner threshold lines) = further runner)
    (hnext : ∀ left right, ButForLines left right →
      FollowsFrom (next left) (further left) left right)
    (hstays : ∀ runner, TooLong runner →
      Yields (fun _ ↦ TooLong) (next runner) runner fun _ ↦ TooLong) :
    Follows (get >>= next) (get >>= further) := by
  refine .get_bind (fun left right hleft ↦ ?_) hstays
  obtain ⟨-, threshold, lines, rfl, -⟩ := id hleft
  rw [hsame]
  exact hnext left _ hleft

theorem follows_get {next further : Runner → Action Result}
    (hsame : ∀ runner threshold lines, further (relogged runner threshold lines) = further runner)
    (hnext : ∀ runner, Follows (next runner) (further runner)) :
    Follows (get >>= next) (get >>= further) :=
  follows_get_of hsame (fun left _ ↦ (hnext left).alike) fun runner ↦ (hnext runner).stays runner

/-! ### Lines and events -/

theorem stays_log (level : Level) (event : String) (fields : Fields) :
    Preserves TooLong (log level event fields) :=
  keeps_log level event (fun _ hlong ↦ writes_of_refusal fun _ _ ↦ hlong) fun _ _ hlong ↦ hlong

/-- A line of plain fields is not refused at any threshold. -/
theorem follows_log (level : Level) (event : String) {fields : Fields} (hplain : fields.Plain) :
    Follows (log level event fields) (log level event fields) where
  alike {left right} hsame := by
    obtain ⟨hrecordable, threshold, lines, rfl, hagree⟩ := hsame
    have hright : (left.relogged threshold lines).journal.context.Plain := hrecordable.bound
    unfold AlikeUnlessLost Alike
    rw [runFrom_log, runFrom_log, Journal.write_eq_linesWith hrecordable.bound level event hplain,
      Journal.write_eq_linesWith hright level event hplain]
    refine .inl ⟨rfl, { hrecordable with }, threshold, _, rfl, ?_⟩
    exact .linesWith left.journal (left.relogged threshold lines).journal hagree _
  stays := stays_log level event fields

/-- A line that counts steps is not refused either, unless the first runner has made too many. -/
theorem follows_count (level : Level) (event : String) (fieldsOf : Runner → Fields)
    {one other : Action Unit}
    (hsame : ∀ runner threshold lines, fieldsOf (relogged runner threshold lines) = fieldsOf runner)
    (hplain : ∀ runner, (fieldsOf runner).Plain) (hnext : Follows one other) :
    Follows
      (do
        let runner ← get
        log level event (fieldsOf runner ++ [("steps", .ofNat runner.session.steps)])
        one)
      (do
        let runner ← get
        log level event (fieldsOf runner ++ [("steps", .ofNat runner.session.steps)])
        other) := by
  have hstays (fields : Fields) : Preserves TooLong (do log level event fields; one) :=
    (stays_log level event fields).bind fun _ ↦ hnext.stays
  refine follows_get_of (fun runner threshold lines ↦ ?_) (fun left right hleft ↦ ?_)
    fun runner hlong ↦ hstays _ runner hlong
  · rw [hsame]
    rfl
  by_cases hlong : left.TooLong
  · exact .inr (hstays _ left hlong).last
  · have hsteps : (Value.ofNat left.session.steps).Simple :=
      Value.simple_ofNat (Int.not_lt.mp hlong)
    exact ((follows_log level event ((hplain left).append
      (Fields.plain_cons (by decide) hsteps Fields.plain_nil))).bind fun _ ↦ hnext).alike hleft

/-! ### Parts that call nobody -/

theorem follows_runAt (position : Nat) : Follows (runAt position) (runAt position) := by
  refine follows_get (fun _ _ _ ↦ rfl) fun runner ↦ ?_
  split
  · exact .pure _
  · exact .fail _

theorem follows_raiseStop (stop : Stop) : Follows (raiseStop stop) (raiseStop stop) := by
  rw [raiseStop_eq]
  exact .fail _

theorem follows_modifyRun (position : Nat) (change : Run → Run) :
    Follows (modifyRun position change) (modifyRun position change) :=
  follows_modify_apart (fun _ _ _ ↦ rfl) fun _ ↦ ⟨rfl, rfl, rfl⟩

theorem follows_modifyBench (change : Bench → Bench) :
    Follows (modifyBench change) (modifyBench change) :=
  follows_modify_apart (fun _ _ _ ↦ rfl) fun _ ↦ ⟨rfl, rfl, rfl⟩

theorem follows_cancel (index : Nat) : Follows
    (modify fun runner ↦ { runner with timers := Timer.cancel runner.timers index })
    (modify fun runner ↦ { runner with timers := Timer.cancel runner.timers index }) :=
  follows_modify_apart (fun _ _ _ ↦ rfl) fun _ ↦ ⟨rfl, rfl, rfl⟩

theorem follows_modifyContext {context : Fields} (hplain : context.Plain) :
    Follows (modifyContext fun _ ↦ context) (modifyContext fun _ ↦ context) :=
  follows_modify (fun _ _ _ ↦ rfl) (fun _ ↦ ⟨rfl, rfl⟩)
    (fun _ hrecordable ↦ { hrecordable with bound := hplain }) fun _ ↦ Nat.le_refl _

theorem follows_disarm : Follows disarm disarm := by
  refine Tracks.bind (follows_modify_apart (fun _ _ _ ↦ rfl) fun _ ↦ ⟨rfl, rfl, rfl⟩) fun _ ↦ ?_
  refine follows_get (fun _ _ _ ↦ rfl) fun runner ↦ ?_
  split
  · exact .pure ()
  · refine Tracks.bind (follows_modify_apart (fun _ _ _ ↦ rfl) fun _ ↦ ⟨rfl, rfl, rfl⟩) fun _ ↦ ?_
    exact follows_log _ _ Fields.plain_nil

theorem follows_detach : Follows detach detach :=
  follows_disarm.bind fun _ ↦ follows_modify_apart (fun _ _ _ ↦ rfl) fun _ ↦ ⟨rfl, rfl, rfl⟩

theorem follows_requireRun (operation : String) :
    Follows (requireRun operation) (requireRun operation) := by
  refine follows_get (fun _ _ _ ↦ rfl) fun runner ↦ ?_
  split
  · exact .pure _
  · exact .fail _

theorem follows_timerAt (index : Int) : Follows (timerAt index) (timerAt index) := by
  refine follows_get (fun _ _ _ ↦ rfl) fun runner ↦ ?_
  split
  · exact .pure _
  · exact .fail _

theorem follows_acceptance (instruction : String) (outcome : Except Fault Unit) :
    Follows (acceptance instruction outcome) (acceptance instruction outcome) := by
  rcases outcome with fault | _
  · refine (follows_log _ _ ?_).bind fun _ ↦ .pure false
    exact Fields.plain_cons (by decide) trivial
      (Fields.plain_cons (by decide) trivial Fields.plain_nil)
  · exact .pure true

/-- A timer is made alike for every speed within the limits. -/
theorem arm_followsFrom (hsame : ButForLines left right) (cadence : Float) :
    FollowsFrom (arm left.session.speed cadence) (arm left.session.speed cadence) left right := by
  obtain ⟨hrecordable, threshold, lines, rfl, hagree⟩ := id hsame
  by_cases hinterval : Speed.interval cadence ≤ 0
  · exact .of_ends (fun _ ↦ ends_arm_of_refused hinterval) (fun _ ↦ ends_arm_of_refused hinterval)
      ((Tracks.fail _).alike hsame)
  · refine .of_ends (fun _ ↦ ends_arm hinterval) (fun _ ↦ ends_arm hinterval) ?_
    have hplain : Fields.Plain [("speed", .whole left.session.speed),
        ("interval_s", .real (Speed.interval cadence))] :=
      Fields.plain_cons (by decide)
        (Value.simple_speed hrecordable.blocking_le hrecordable.le_top)
        (Fields.plain_cons (by decide) trivial Fields.plain_nil)
    exact (follows_log _ _ hplain).alike ⟨{ hrecordable with }, threshold, lines, rfl, hagree⟩

theorem stays_arm (speed : Int) (cadence : Float) : Preserves TooLong (arm speed cadence) := by
  intro runner hlong
  by_cases hinterval : Speed.interval cadence ≤ 0
  · exact (ends_arm_of_refused hinterval).mpr hlong
  · exact (ends_arm hinterval).mpr (stays_log _ _ _ _ hlong)

/-- The runner with a session that is about to begin with a run. -/
def launched (runner : Runner) (options : StartOptions) (run : Run) : Runner :=
  { runner with
    session := ⟨some (runner.session.number.getD 0 + 1), true, options.initialSpeed,
      runner.bench.clock, none, 0, 0⟩
    runs := runner.runs.push run
    supplied := some runner.runs.size }

/-- A start goes on from a session that is about to begin. -/
theorem ends_start_of_built {runner : Runner} {audience : Audience} {program : String}
    {options : StartOptions} {run : Run} {required : Except Halt Unit → Runner → Prop}
    (hbuild : runner.bench.build program = .ok run) :
    Ends (start audience program options) runner required ↔ Ends (do
      disarm
      modify fun last ↦ { last with
        attached := some runner.runs.size
        journal := last.journal.bind
          [("session_id", .text (Session.nameOf (runner.session.number.getD 0 + 1))),
            ("component", .text "session")] }
      log .info "session.started" (runner.startedFields program options)
      tell audience .started
      rearm audience) (runner.launched options run) required := by
  rw [start, ends_bind, ends_get]
  simp only [hbuild]
  rw [ends_bind, ends_set]
  exact Iff.rfl

theorem follows_feed (content : String) : Follows (feed content) (feed content) := by
  refine follows_get (fun _ _ _ ↦ rfl) fun runner ↦ ?_
  split
  · exact .fail _
  · exact follows_modifyRun _ _

theorem follows_readInput : Follows readInput readInput := by
  refine follows_get (fun _ _ _ ↦ rfl) fun runner ↦ ?_
  split
  · exact .fail _
  · refine (follows_runAt _).bind fun run ↦ ?_
    split
    · exact .fail _
    · exact (follows_modifyRun _ _).bind fun _ ↦ .pure _

end Runner

/-- Each observer of the first audience tracks the one of the second. -/
structure Audience.Follows (short long : Audience) : Prop where
  patience_eq : short.patience = long.patience
  react (position : Nat) : Runner.Follows (short.react position) (long.react position)

namespace Audience.Follows

open Runner

variable {short long : Audience} (hfollows : short.Follows long) {left right : Runner}
include hfollows

/-! ### Events and reports -/

theorem publish (event : Event) :
    Runner.Follows (Runner.publish short event) (Runner.publish long event) := by
  have hhear (recipients : List Observer) : Runner.Follows
      (recipients.forM (Runner.hear short event)) (recipients.forM (Runner.hear long event)) := by
    refine .forM recipients fun observer ↦ ?_
    cases observer with
    | registrar => exact .pure ()
    | recorder =>
      exact follows_modify_apart (fun _ _ _ ↦ rfl) fun _ ↦ ⟨rfl, rfl, rfl⟩
    | hook position => exact hfollows.react position
  refine follows_get_of (fun _ _ _ ↦ rfl) (fun left right hleft ↦ ?_) fun runner hlong ↦
    ((stays_log _ _ _).bind fun _ ↦ (hhear _).stays) runner hlong
  have hplain := hleft.1.plain_published event.kind
  exact ((follows_log _ _ hplain).bind fun _ ↦ hhear _).alike hleft

theorem tell (kind : EventKind) :
    Runner.Follows (Runner.tell short kind) (Runner.tell long kind) := by
  refine Tracks.bind (follows_modifySession (fun _ ↦ And.intro) fun _ ↦ Nat.le_refl _) fun _ ↦ ?_
  exact follows_get (fun _ _ _ ↦ rfl) fun _ ↦ hfollows.publish _

theorem conclude (outcome : Except Fault Unit) :
    Runner.Follows (Runner.conclude short outcome) (Runner.conclude long outcome) := by
  have hidle : Speed.blocking ≤ Speed.idle ∧ Speed.idle ≤ Speed.top := by decide
  rcases outcome with fault | _
  · refine Tracks.bind (follows_modifySession (fun _ _ _ ↦ hidle) fun _ ↦ Nat.le_refl _)
      fun _ ↦ ?_
    exact follows_count .info "session.failed" (fun runner ↦ [runner.nameField,
      ("error_type", .text fault.kind), ("error_message", .text fault.message)])
      (fun _ _ _ ↦ rfl) (fun runner ↦ plain_nameField runner (Fields.plain_cons (by decide) trivial
        (Fields.plain_cons (by decide) trivial Fields.plain_nil))) (hfollows.tell _)
  · refine follows_get (fun _ _ _ ↦ rfl) fun before ↦ ?_
    refine Tracks.bind (follows_modifySession (fun _ _ _ ↦ hidle) fun _ ↦ Nat.le_refl _)
      fun _ ↦ ?_
    exact follows_count .info "session.finished" (fun runner ↦ [runner.nameField,
      ("elapsed_s", .real before.elapsed)]) (fun _ _ _ ↦ rfl)
      (fun runner ↦ plain_nameField runner (Fields.plain_cons (by decide) trivial
        Fields.plain_nil)) (hfollows.tell _)

/-! ### Steps of the engine -/

theorem settle (position : Nat) (effect : Effect) :
    Runner.Follows (Runner.settle short position effect) (Runner.settle long position effect) := by
  refine Tracks.bind (follows_modifyRun _ _) fun _ ↦ ?_
  cases effect.written with
  | none => exact .pure ()
  | some byte =>
    refine Tracks.bind (follows_modify_apart (fun _ _ _ ↦ rfl) fun _ ↦ ⟨rfl, rfl, rfl⟩) fun _ ↦ ?_
    exact follows_get (fun _ _ _ ↦ rfl) fun runner ↦ .forM _ hfollows.react

theorem advance (position : Nat) :
    Runner.Follows (Runner.advance short position) (Runner.advance long position) := by
  refine Tracks.bind (follows_runAt position) fun run ↦ ?_
  cases run.engine with
  | tape machine =>
    simp only
    cases machine.advance run.supply.offer with
    | error stop => exact follows_raiseStop stop
    | ok done => exact (hfollows.settle position done.1).bind fun _ ↦ follows_modifyRun _ _
  | scripted counter =>
    refine follows_get (fun _ _ _ ↦ rfl) fun runner ↦ ?_
    split
    · exact .fail _
    · exact follows_modifyRun _ _

theorem execute (position : Nat) (instruction : String) : Runner.Follows
    (Runner.execute short position instruction) (Runner.execute long position instruction) := by
  refine Tracks.bind (follows_runAt position) fun run ↦ ?_
  cases run.engine with
  | tape machine =>
    simp only
    cases machine.execute run.supply.offer instruction with
    | error stop => exact follows_raiseStop stop
    | ok effect => exact hfollows.settle position effect
  | scripted counter =>
    refine follows_get (fun _ _ _ ↦ rfl) fun runner ↦ ?_
    split
    · exact .fail _
    · exact .pure ()

theorem blockingSteps (position patience : Nat) : Runner.Follows
    (Runner.blockingSteps short position patience)
    (Runner.blockingSteps long position patience) := by
  induction patience with
  | zero => exact .giveUp
  | succ patience ih =>
    refine Tracks.bind (follows_runAt position) fun run ↦
      follows_get (fun _ _ _ ↦ rfl) fun runner ↦ ?_
    split
    · refine (hfollows.advance position).bind fun _ ↦ Tracks.bind ?_ fun _ ↦ ih
      exact follows_modifySession (fun _ ↦ And.intro) fun _ ↦ Nat.le_succ _
    · exact .pure ()

/-! ### Moving on -/

omit hfollows in
theorem again {shortAgain longAgain : Action Unit} (hagain : Runner.Follows shortAgain longAgain)
    (speed : Int) :
    Runner.Follows (againUnless speed shortAgain) (againUnless speed longAgain) := by
  refine follows_get (fun _ _ _ ↦ rfl) fun runner ↦ ?_
  split
  · exact hagain
  · exact .pure ()

theorem blockingRun {shortAgain longAgain : Action Unit}
    (hagain : Runner.Follows shortAgain longAgain) (position : Nat) : Runner.Follows
      (Runner.blockingRun short shortAgain position)
      (Runner.blockingRun long longAgain position) := by
  rw [blockingRun_eq, blockingRun_eq, hfollows.patience_eq]
  refine follows_get (fun _ _ _ ↦ rfl) fun before ↦ ?_
  refine (follows_log _ _ (plain_nameField before Fields.plain_nil)).bind fun _ ↦ ?_
  refine (hfollows.blockingSteps position long.patience).attempt.bind fun outcome ↦ ?_
  exact (hfollows.conclude outcome).bind fun _ ↦ again hagain _

theorem engage {shortAgain longAgain : Action Unit}
    (hagain : Runner.Follows shortAgain longAgain) :
    Runner.Follows (Runner.engage short shortAgain) (Runner.engage long longAgain) := by
  refine follows_get_of (fun _ _ _ ↦ rfl) (fun left right hleft ↦ ?_) fun runner hlong ↦ ?_
  · split
    · exact (Tracks.pure ()).alike hleft
    · split
      · split
        · exact arm_followsFrom hleft _
        · split
          · exact (Tracks.pure ()).alike hleft
          · exact (hfollows.blockingRun hagain _).alike hleft
      · exact (Tracks.pure ()).alike hleft
  · split
    · exact hlong
    · split
      · split
        · exact stays_arm _ _ runner hlong
        · split
          · exact hlong
          · exact (hfollows.blockingRun hagain _).stays runner hlong
      · exact hlong

theorem rearmWithin (bound : Nat) :
    Runner.Follows (Runner.rearmWithin short bound) (Runner.rearmWithin long bound) := by
  induction bound with
  | zero => exact .giveUp
  | succ bound ih => exact follows_disarm.bind fun _ ↦ hfollows.engage ih

theorem rearm : Runner.Follows (Runner.rearm short) (Runner.rearm long) := by
  rw [Runner.rearm, Runner.rearm, hfollows.patience_eq]
  exact hfollows.rearmWithin _

theorem runBlocking : Runner.Follows (Runner.runBlocking short) (Runner.runBlocking long) :=
  (follows_requireRun _).bind fun position ↦ hfollows.blockingRun hfollows.rearm position

theorem concludeStep (position : Nat) (outcome : Except Fault Unit) : Runner.Follows
    (Runner.concludeStep short position outcome) (Runner.concludeStep long position outcome) := by
  rcases outcome with fault | _
  · exact hfollows.conclude (.error fault)
  · refine Tracks.bind (follows_modifySession (fun _ ↦ And.intro) fun _ ↦ Nat.le_succ _)
      fun _ ↦ (follows_runAt position).bind fun run ↦ ?_
    split
    · exact hfollows.conclude (.ok ())
    · exact .pure ()

theorem step : Runner.Follows (Runner.step short) (Runner.step long) := by
  rw [step_eq, step_eq]
  refine (follows_requireRun _).bind fun position ↦ follows_get (fun _ _ _ ↦ rfl) fun before ↦ ?_
  refine Tracks.bind (follows_modifySession (fun _ ↦ And.intro) fun _ ↦ Nat.le_refl _) fun _ ↦ ?_
  refine (hfollows.advance position).attempt.bind fun outcome ↦ ?_
  refine (hfollows.concludeStep position outcome).bind fun _ ↦ (hfollows.tell _).bind fun _ ↦ ?_
  exact again hfollows.rearm _

theorem callTimer (index : Nat) :
    Runner.Follows (Runner.callTimer short index) (Runner.callTimer long index) := by
  refine follows_get (fun _ _ _ ↦ rfl) fun runner ↦ ?_
  split
  · refine follows_get (fun _ _ _ ↦ rfl) fun shown ↦ ?_
    split
    · exact hfollows.step
    · exact .pure ()
  · exact .fail _

theorem fire (rounds : Nat) :
    Runner.Follows (Runner.fire short rounds) (Runner.fire long rounds) := by
  refine .fireRounds (fun left right hleft ↦ ?_) hfollows.callTimer rounds 0
  obtain ⟨-, threshold, lines, rfl, -⟩ := hleft
  rfl

/-! ### Speed -/

/-- What follows a change of speed. -/
theorem changed (previous : Int) : Runner.Follows
    (do tellChange short previous; Runner.rearm short)
    (do tellChange long previous; Runner.rearm long) := by
  refine Tracks.bind (follows_get (fun _ _ _ ↦ rfl) fun runner ↦ ?_) fun _ ↦ hfollows.rearm
  split
  · exact hfollows.tell _
  · exact .pure ()

/-- Another speed within the limits is stored, logged and told alike. -/
theorem setSpeed {speed : Int} (hleast : Speed.blocking ≤ speed) (hgreatest : speed ≤ Speed.top) :
    Runner.Follows (Runner.setSpeed short speed) (Runner.setSpeed long speed) := by
  have hstored : Runner.Follows (modifySession ({ · with speed }))
      (modifySession ({ · with speed })) :=
    follows_modifySession (fun _ _ _ ↦ ⟨hleast, hgreatest⟩) fun _ ↦ Nat.le_refl _
  rw [setSpeed_eq, setSpeed_eq]
  refine follows_get_of (fun _ _ _ ↦ rfl) (fun left right hleft ↦ ?_) fun runner hlong ↦ ?_
  · have hplain : Fields.Plain
        [("previous_speed", .whole left.session.speed), ("speed", .whole speed)] :=
      Fields.plain_cons (by decide) (Value.simple_speed hleft.1.blocking_le hleft.1.le_top)
        (Fields.plain_cons (by decide) (Value.simple_speed hleast hgreatest) Fields.plain_nil)
    split
    · exact (hstored.bind fun _ ↦ (follows_log _ _ hplain).bind fun _ ↦
        hfollows.changed _).alike hleft
    · exact (Tracks.pure ()).alike hleft
  · split
    · exact hstored.stays.bind (fun _ ↦ (stays_log _ _ _).bind fun _ ↦
        (hfollows.changed _).stays) runner hlong
    · exact hlong

/-! ### Lifecycle -/

/-- A session begins with no steps, whatever has been lost before. -/
theorem start_followsFrom {program : String} (hlength : (program.length : Int) ≤ greatestInteger)
    (options : StartOptions) (hleft : ButForLines left right) : FollowsFrom
      (Runner.start short program options) (Runner.start long program options) left right := by
  obtain ⟨hrecordable, threshold, lines, rfl, hagree⟩ := id hleft
  cases hbuild : left.bench.build program with
  | error error =>
    have hsame : (left.relogged threshold lines).bench.build program = .error error := hbuild
    exact .of_ends (fun _ ↦ ends_start_of_unbuilt hbuild) (fun _ ↦ ends_start_of_unbuilt hsame)
      ((Tracks.fail error).alike hleft)
  | ok run =>
    have hsame : (left.relogged threshold lines).bench.build program = .ok run := hbuild
    refine .of_ends (fun _ ↦ ends_start_of_built hbuild) (fun _ ↦ ends_start_of_built hsame) ?_
    obtain ⟨hleast, hgreatest⟩ := options.initialSpeed_mem_range
    have hlaunched : ButForLines (left.launched options run)
        ((left.relogged threshold lines).launched options run) :=
      ⟨{ hrecordable with blocking_le := hleast, le_top := hgreatest }, threshold, lines, rfl,
        hagree⟩
    have hplain := plain_startedFields left options hlength
    refine (follows_disarm.bind fun _ ↦ ?_).alike hlaunched
    refine Tracks.bind (follows_modify (fun _ _ _ ↦ rfl) (fun _ ↦ ⟨rfl, rfl⟩)
      (fun _ hlast ↦ { hlast with bound := hlast.bound.named _ }) fun _ ↦ Nat.le_refl _) fun _ ↦ ?_
    exact (follows_log _ _ hplain).bind fun _ ↦ (hfollows.tell _).bind fun _ ↦ hfollows.rearm

theorem stop : Runner.Follows (Runner.stop short) (Runner.stop long) := by
  refine follows_get (fun _ _ _ ↦ rfl) fun runner ↦ ?_
  split
  · refine Tracks.bind (follows_modifySession (fun _ ↦ And.intro) fun _ ↦ Nat.le_refl _)
      fun _ ↦ follows_detach.bind fun _ ↦ ?_
    refine Tracks.bind (follows_modify_apart (fun _ _ _ ↦ rfl) fun _ ↦ ⟨rfl, rfl, rfl⟩) fun _ ↦ ?_
    refine follows_count .info "session.stopped" (fun runner ↦ [runner.nameField])
      (fun _ _ _ ↦ rfl) (fun runner ↦ plain_nameField runner Fields.plain_nil) ?_
    refine (hfollows.tell _).bind fun _ ↦ follows_modify (fun _ _ _ ↦ rfl) (fun _ ↦ ⟨rfl, rfl⟩)
      (fun _ hrecordable ↦ { hrecordable with bound := Fields.plain_nil }) fun _ ↦ Nat.le_refl _
  · exact .pure ()

theorem inject (instruction : String) :
    Runner.Follows (Runner.inject short instruction) (Runner.inject long instruction) := by
  rw [inject_eq, inject_eq]
  refine (follows_requireRun _).bind fun position ↦ ?_
  refine (hfollows.execute position instruction).attempt.bind fun outcome ↦ ?_
  refine (follows_acceptance instruction outcome).bind fun accepted ↦ ?_
  exact (hfollows.tell _).bind fun _ ↦ .pure accepted

/-! ### Timers on threads of their own -/

theorem callAside (index : Nat) :
    Runner.Follows (Runner.callAside short index) (Runner.callAside long index) := by
  have hcalled := (hfollows.callTimer index).survives
  have hfailed (timer : Timer Nat) : Fields.Plain [("interval_s", .real timer.interval)] :=
    Fields.plain_cons (by decide) trivial Fields.plain_nil
  refine follows_get_of (fun _ _ _ ↦ rfl) (fun left right hleft ↦ ?_) fun runner hlong ↦ ?_
  · have hrestored := follows_modifyContext hleft.1.bound
    refine ((follows_modifyContext Fields.plain_nil).bind fun _ ↦
      hcalled.bind fun survived ↦ ?_).alike hleft
    split
    · refine (follows_cancel index).bind fun _ ↦ follows_get (fun _ _ _ ↦ rfl) fun after ↦ ?_
      split
      · exact (follows_log _ _ (hfailed _)).bind fun _ ↦ hrestored
      · exact hrestored
    · exact hrestored
  · have hrestored : Preserves TooLong (modifyContext fun _ ↦ runner.journal.context) :=
      Keeps.modify fun _ ↦ id
    refine Keeps.bind (follows_modifyContext Fields.plain_nil).stays (fun _ ↦
      hcalled.stays.bind fun survived ↦ ?_) runner hlong
    split
    · refine (follows_cancel index).stays.bind fun _ ↦ Keeps.get_bind fun after hafter ↦ ?_
      split
      · exact ((stays_log _ _ _).bind fun _ ↦ hrestored) after hafter
      · exact hrestored after hafter
    · exact hrestored

theorem drainWithin (bound : Nat) :
    Runner.Follows (Runner.drainWithin short bound) (Runner.drainWithin long bound) := by
  induction bound with
  | zero => exact .giveUp
  | succ bound ih =>
    refine follows_get (fun _ _ _ ↦ rfl) fun runner ↦ ?_
    split
    · exact .pure ()
    · exact (hfollows.callAside _).bind fun _ ↦ ih

end Audience.Follows

end TapeRunner
