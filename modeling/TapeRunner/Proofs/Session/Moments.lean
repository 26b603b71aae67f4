import TapeRunner.Proofs.Session.Reachable
import TapeRunner.Proofs.Truncation

/-!
# Moments of one run

Two moments of one run are compared by cutting the run off at either of them: up to the earlier one,
both runs are the same. What every part of an operation upholds from the earlier moment on
(`Runner.Enduring`) relates it to the later one, also where the earlier one is in the midst of an
order and the later one comes after it (`Runner.Enduring.later`).
-/

set_option autoImplicit false
set_option relaxedAutoImplicit false

namespace TapeRunner

open Activity

namespace Runner

/-- A relation of a runner to later ones that every part of an operation upholds. -/
structure Enduring (related : Runner → Runner → Prop) : Prop where
  refl (runner : Runner) : related runner runner
  upheld (base : Runner) : UpheldThroughout (related base)
  context {base runner : Runner} (context : Fields) : related base runner →
    related base (runner.withContext context)

/-- Observers that conduct themselves as others do, save that they may be cut off. -/
structure CutShort (related : Runner → Runner → Prop) (short long : Audience) : Prop where
  patience : short.patience = long.patience
  react (position : Nat) : Truncates related (short.react position) (long.react position)
  keeps (base : Runner) (position : Nat) : Preserves (related base) (long.react position)

namespace Enduring

variable {related : Runner → Runner → Prop} {short long : Audience}
variable (henduring : Enduring related) (hcut : CutShort related short long)
include henduring hcut

/-! ### Events and reports -/

theorem truncates_publish (event : Event) :
    Truncates related (publish short event) (publish long event) := by
  refine .after _ fun runner ↦ .after _ fun _ ↦ .forM _ (fun observer ↦ ?_) fun base observer ↦ ?_
  · cases observer with
    | hook position => exact hcut.react position
    | _ => exact .refl _
  · cases observer with
    | registrar => exact Keeps.pure ()
    | recorder =>
      exact Keeps.modify fun _ hinv ↦ (henduring.upheld base).noted hinv ⟨_, _, _, _, rfl⟩
    | hook position => exact hcut.keeps base position

theorem truncates_tell (kind : EventKind) : Truncates related (tell short kind) (tell long kind) :=
  .after _ fun _ ↦ .after _ fun _ ↦ henduring.truncates_publish hcut _

theorem truncates_conclude (outcome : Except Fault Unit) :
    Truncates related (conclude short outcome) (conclude long outcome) := by
  rcases outcome with fault | _
  · exact .after _ fun _ ↦ .after _ fun _ ↦ .after _ fun _ ↦ henduring.truncates_tell hcut _
  · exact .after _ fun _ ↦ .after _ fun _ ↦ .after _ fun _ ↦ .after _ fun _ ↦
      henduring.truncates_tell hcut _

/-! ### Steps of the engine -/

omit henduring in
theorem truncates_settle (position : Nat) (effect : Effect) :
    Truncates related (settle short position effect) (settle long position effect) := by
  refine .after _ fun _ ↦ ?_
  cases effect.written with
  | none => exact .refl _
  | some byte =>
    exact .after _ fun _ ↦ .after _ fun runner ↦ .forM _ (fun sink ↦ hcut.react sink)
      fun base sink ↦ hcut.keeps base sink

theorem truncates_advance (position : Nat) :
    Truncates related (advance short position) (advance long position) := by
  refine .after _ fun run ↦ ?_
  cases run.engine with
  | scripted counter => exact .refl _
  | tape machine =>
    simp only
    cases machine.advance run.supply.offer with
    | error stop => exact .refl _
    | ok done =>
      refine (truncates_settle hcut position done.1).bind (fun _ ↦ .refl _) fun base _ ↦ ?_
      exact Keeps.modify fun _ hinv ↦ (henduring.upheld base).changeRun position _ hinv
        fun _ _ hsound ↦ hsound.resumeAt done.2

omit henduring in
theorem truncates_execute (position : Nat) (instruction : String) :
    Truncates related (execute short position instruction) (execute long position instruction) := by
  refine .after _ fun run ↦ ?_
  cases run.engine with
  | scripted counter => exact .refl _
  | tape machine =>
    simp only
    cases machine.execute run.supply.offer instruction with
    | error stop => exact .refl _
    | ok effect => exact truncates_settle hcut position effect

theorem truncates_blockingSteps (position patience : Nat) :
    Truncates related (blockingSteps short position patience)
      (blockingSteps long position patience) := by
  induction patience with
  | zero => exact .refl _
  | succ patience ih =>
    refine .after _ fun run ↦ .after _ fun runner ↦ ?_
    split
    · refine (henduring.truncates_advance hcut position).bind (fun _ ↦ .after _ fun _ ↦ ih) ?_
      intro base _
      have hupheld := (henduring.upheld base).toUpheld
      have hcounted : Preserves (related base) (modifySession fun session ↦
          { session with steps := session.steps + 1 }) :=
        hupheld.preserves_modifySession fun _ ↦ .inl rfl
      exact hcounted.bind fun _ ↦
        hupheld.preserves_blockingSteps (hcut.keeps base) position patience
    · exact .refl _

/-! ### Moving on -/

omit henduring hcut in
theorem truncates_again {shortAgain longAgain : Action Unit}
    (hagain : Truncates related shortAgain longAgain) (speed : Int) :
    Truncates related (againUnless speed shortAgain) (againUnless speed longAgain) := by
  refine .after _ fun runner ↦ ?_
  split
  · exact hagain
  · exact .refl _

theorem truncates_blockingRun {shortAgain longAgain : Action Unit}
    (hagain : Truncates related shortAgain longAgain)
    (hkeeps : ∀ base, Preserves (related base) longAgain) (position : Nat) :
    Truncates related (blockingRun short shortAgain position)
      (blockingRun long longAgain position) := by
  rw [blockingRun_eq, blockingRun_eq, hcut.patience]
  refine .after _ fun runner ↦ .after _ fun _ ↦ ?_
  have hloop := henduring.truncates_blockingSteps hcut position long.patience
  refine hloop.attempt.bind (fun outcome ↦ ?_) fun base outcome ↦ ?_
  · exact (henduring.truncates_conclude hcut outcome).bind
      (fun _ ↦ truncates_again hagain _) fun base _ ↦ preserves_again (hkeeps base) _
  · exact ((henduring.upheld base).preserves_conclude (hcut.keeps base) outcome).bind fun _ ↦
      preserves_again (hkeeps base) _

theorem truncates_rearmWithin (bound : Nat) :
    Truncates related (rearmWithin short bound) (rearmWithin long bound) := by
  induction bound with
  | zero => exact .refl _
  | succ bound ih =>
    rw [rearmWithin_succ, rearmWithin_succ]
    refine .after _ fun _ ↦ .after _ fun runner ↦ ?_
    split
    · exact .refl _
    · split
      · split
        · exact .refl _
        · split
          · exact .refl _
          · refine henduring.truncates_blockingRun hcut ih (fun base ↦ ?_) _
            exact (henduring.upheld base).preserves_rearmWithin (hcut.keeps base) bound
      · exact .refl _

theorem truncates_rearm : Truncates related (rearm short) (rearm long) := by
  rw [rearm, rearm, hcut.patience]
  exact henduring.truncates_rearmWithin hcut _

theorem truncates_runBlocking : Truncates related (runBlocking short) (runBlocking long) :=
  .after _ fun position ↦ henduring.truncates_blockingRun hcut (henduring.truncates_rearm hcut)
    (fun base ↦ (henduring.upheld base).preserves_rearm (hcut.keeps base)) position

theorem truncates_concludeStep (position : Nat) (outcome : Except Fault Unit) :
    Truncates related (concludeStep short position outcome)
      (concludeStep long position outcome) := by
  rcases outcome with fault | _
  · exact henduring.truncates_conclude hcut (.error fault)
  · refine .after _ fun _ ↦ .after _ fun run ↦ ?_
    split
    · exact henduring.truncates_conclude hcut (.ok ())
    · exact .refl _

theorem truncates_step : Truncates related (step short) (step long) := by
  have hnext (base : Runner) (speed : Int) : Preserves (related base)
      (do tell long .stepped; againUnless speed (rearm long)) :=
    ((henduring.upheld base).preserves_tell (hcut.keeps base) .stepped).bind fun _ ↦
      preserves_again ((henduring.upheld base).preserves_rearm (hcut.keeps base)) speed
  rw [step_eq, step_eq]
  refine .after _ fun position ↦ .after _ fun runner ↦ .after _ fun _ ↦ ?_
  refine (henduring.truncates_advance hcut position).attempt.bind (fun outcome ↦ ?_) ?_
  · refine (henduring.truncates_concludeStep hcut position outcome).bind (fun _ ↦ ?_)
      fun base _ ↦ hnext base _
    exact (henduring.truncates_tell hcut .stepped).bind
      (fun _ ↦ truncates_again (henduring.truncates_rearm hcut) _) fun base _ ↦
        preserves_again ((henduring.upheld base).preserves_rearm (hcut.keeps base)) _
  · intro base outcome
    exact ((henduring.upheld base).preserves_concludeStep (hcut.keeps base) position outcome).bind
      fun _ ↦ hnext base _

theorem truncates_callTimer (index : Nat) :
    Truncates related (callTimer short index) (callTimer long index) := by
  refine .after _ fun runner ↦ ?_
  split
  · refine .after _ fun shown ↦ ?_
    split
    · exact henduring.truncates_step hcut
    · exact .refl _
  · exact .refl _

theorem truncates_fire (rounds : Nat) : Truncates related (fire short rounds) (fire long rounds) :=
  .fireRounds (henduring.truncates_callTimer hcut)
    (fun base ↦ (henduring.upheld base).preserves_callTimer (hcut.keeps base)) rounds 0

/-! ### Lifecycle and speed -/

theorem truncates_start (program : String) (options : StartOptions) :
    Truncates related (start short program options) (start long program options) := by
  refine .after _ fun runner ↦ ?_
  split
  · exact .refl _
  · refine .after _ fun _ ↦ .after _ fun _ ↦ .after _ fun _ ↦ .after _ fun _ ↦ ?_
    exact (henduring.truncates_tell hcut .started).bind
      (fun _ ↦ henduring.truncates_rearm hcut) fun base _ ↦
        (henduring.upheld base).preserves_rearm (hcut.keeps base)

theorem truncates_stop : Truncates related (stop short) (stop long) := by
  refine .after _ fun runner ↦ ?_
  split
  · refine .after _ fun _ ↦ .after _ fun _ ↦ .after _ fun _ ↦ .after _ fun shown ↦
      .after _ fun _ ↦ ?_
    refine (henduring.truncates_tell hcut .stopped).bind (fun _ ↦ .refl _) fun base _ ↦ ?_
    exact Keeps.modify fun _ hinv ↦ henduring.context [] hinv
  · exact .refl _

theorem truncates_setSpeed (speed : Int) :
    Truncates related (setSpeed short speed) (setSpeed long speed) := by
  rw [setSpeed_eq, setSpeed_eq]
  refine .after _ fun runner ↦ ?_
  split
  · refine .after _ fun _ ↦ .after _ fun _ ↦ ?_
    have htell : Truncates related (tellChange short runner.session.speed)
        (tellChange long runner.session.speed) := by
      refine .after _ fun shown ↦ ?_
      split
      · exact henduring.truncates_tell hcut _
      · exact .refl _
    exact htell.bind (fun _ ↦ henduring.truncates_rearm hcut) fun base _ ↦
      (henduring.upheld base).preserves_rearm (hcut.keeps base)
  · exact .refl _

theorem truncates_inject (instruction : String) :
    Truncates related (inject short instruction) (inject long instruction) := by
  rw [inject_eq, inject_eq]
  refine .after _ fun position ↦
    (truncates_execute hcut position instruction).attempt.bind (fun outcome ↦ ?_) ?_
  · refine .after _ fun accepted ↦ (henduring.truncates_tell hcut _).bind (fun _ ↦ .refl _) ?_
    exact fun base _ ↦ Keeps.pure _
  · intro base outcome
    have hupheld := (henduring.upheld base).toUpheld
    exact (hupheld.preserves_acceptance instruction outcome).bind fun accepted ↦
      (hupheld.preserves_tell (hcut.keeps base) _).bind fun _ ↦ Keeps.pure accepted

/-! ### Orders -/

theorem truncates_callAside (index : Nat) :
    Truncates related (callAside short index) (callAside long index) := by
  refine .after _ fun runner ↦ .after _ fun _ ↦
    (henduring.truncates_callTimer hcut index).survives.bind (fun _ ↦ .refl _) ?_
  intro base survived
  have hupheld := (henduring.upheld base).toUpheld
  -- What is bound again was bound before the cut, when the relation need not have held yet.
  have hrestored : Preserves (related base) (modifyContext fun _ ↦ runner.journal.context) :=
    Keeps.modify fun _ hinv ↦ henduring.context _ hinv
  split
  · refine (hupheld.preserves_cancel index).bind fun _ ↦ Keeps.get_bind fun after hafter ↦ ?_
    split
    · exact ((hupheld.preserves_log _ _ _).bind fun _ ↦ hrestored) after hafter
    · exact hrestored after hafter
  · exact hrestored

theorem truncates_drainWithin (bound : Nat) :
    Truncates related (drainWithin short bound) (drainWithin long bound) := by
  induction bound with
  | zero => exact .refl _
  | succ bound ih =>
    refine .after _ fun runner ↦ ?_
    split
    · exact .refl _
    · exact (henduring.truncates_callAside hcut _).bind (fun _ ↦ ih) fun base _ ↦
        (henduring.upheld base).preserves_drainWithin (hcut.keeps base) bound

/-- Orders are cut off with the observers that they call. -/
theorem truncates_obey (order : Order) :
    Truncates related (obey short order) (obey long order) := by
  cases order with
  | start program options => exact (henduring.truncates_start hcut program options).map _
  | stop => exact (henduring.truncates_stop hcut).map _
  | step => exact (henduring.truncates_step hcut).map _
  | runBlocking => exact (henduring.truncates_runBlocking hcut).map _
  | faster =>
    exact .map (.after _ fun runner ↦ henduring.truncates_setSpeed hcut _) _
  | slower =>
    refine .map (.after _ fun runner ↦ ?_) _
    simp only
    split
    · exact henduring.truncates_setSpeed hcut _
    · exact .refl _
  | pause => exact (henduring.truncates_setSpeed hcut _).map _
  | superSpeed => exact (henduring.truncates_setSpeed hcut _).map _
  | shutdown =>
    refine .map ((henduring.truncates_stop hcut).bind (fun _ ↦ .refl _) fun base _ ↦ ?_) _
    exact (henduring.upheld base).preserves_detach
  | setSpeed speed => exact (henduring.truncates_setSpeed hcut speed).map _
  | inject instruction => exact (henduring.truncates_inject hcut instruction).map _
  | fire rounds => exact (henduring.truncates_fire hcut rounds).map _
  | callTimer index =>
    exact .after _ fun position ↦ (henduring.truncates_callTimer hcut position).map _
  | rearm => exact (henduring.truncates_rearm hcut).map _
  | drain speed =>
    have hdrain := henduring.truncates_drainWithin hcut long.patience
    refine (henduring.truncates_setSpeed hcut speed).bind (fun _ ↦ ?_) fun base _ ↦ ?_
    · rw [hcut.patience]
      exact hdrain.map _
    · exact ((henduring.upheld base).preserves_drainWithin (hcut.keeps base) _).bind
        fun _ ↦ Keeps.pure _
  | _ => exact .refl _

/-! ### Runs -/

variable {early late : Runner → Bool} (hearly : ∀ runner, late runner = true → early runner = true)
include hearly

/-- Who is cut off earlier is cut off on the way of who is cut off later. -/
theorem truncates_performUntil (conduct : Conduct) :
    Truncates related (conduct.performUntil early short) (conduct.performUntil late long) := by
  induction conduct with
  | rest => exact .refl _
  | raise error => exact .refl _
  | give order next ih =>
    have hkeeps (base : Runner) (conduct : Conduct) :
        Preserves (related base) (conduct.performUntil late long) :=
      (henduring.upheld base).preserves_performUntil (hcut.keeps base) late conduct
    refine (henduring.truncates_obey hcut order).caught.bind
      (fun outcome ↦ .after _ fun runner ↦ ?_)
      fun base outcome ↦ Keeps.get_bind fun runner hbase ↦ ?_
    · by_cases hlate : late runner = true
      · rw [if_pos hlate, if_pos (hearly runner hlate)]
        exact .refl _
      · rw [if_neg hlate]
        split
        · exact .giveUp henduring.refl fun base ↦ hkeeps base _
        · exact ih outcome runner
    · split
      · exact hbase
      · exact hkeeps base _ runner hbase

omit hcut in
/-- Observers that are cut off earlier conduct themselves as those that are cut off later. -/
theorem cutShort_conductedUntil (conduct : Nat → Runner → Conduct) (patience depth : Nat) :
    CutShort related (.conductedUntil early conduct patience depth)
      (.conductedUntil late conduct patience depth) := by
  have hkeeps (depth : Nat) (base : Runner) :=
    (henduring.upheld base).preserves_react late conduct patience depth
  induction depth with
  | zero => exact ⟨rfl, fun _ ↦ .refl _, hkeeps 0⟩
  | succ depth ih =>
    refine ⟨?_, fun position ↦ ?_, hkeeps (depth + 1)⟩
    · rw [Audience.patience_conductedUntil, Audience.patience_conductedUntil]
    rw [Audience.react_conductedUntil, Audience.react_conductedUntil]
    refine .after _ fun _ ↦ .after _ fun runner ↦ ?_
    by_cases hlate : late runner = true
    · rw [if_pos hlate, if_pos (hearly runner hlate)]
      exact .refl _
    · rw [if_neg hlate]
      split
      · refine .giveUp henduring.refl fun base ↦ ?_
        exact (henduring.upheld base).preserves_performUntil (hkeeps depth base) late _
      · exact henduring.truncates_performUntil ih hearly (conduct position runner)

end Enduring

/-- The middle runner is there at some moment of a run from the start on, and the last one at the
same moment of it or at a later one. -/
def Traverses (start middle last : Runner) : Prop :=
  ∃ (cast : Cast) (earlier later : Runner → Bool),
    middle = cast.moment start (fun runner ↦ earlier runner || later runner) ∧
      last = cast.moment start later

variable {start middle last : Runner}

/-- Both moments of a run are reachable. -/
theorem Traverses.reachable (htraverses : start.Traverses middle last) :
    start.Reachable middle ∧ start.Reachable last := by
  obtain ⟨cast, earlier, later, hmiddle, hlast⟩ := htraverses
  exact ⟨⟨cast, _, hmiddle⟩, ⟨cast, _, hlast⟩⟩

/-- What is upheld from the earlier moment on relates it to the later one. -/
theorem Enduring.traverses {related : Runner → Runner → Prop} (henduring : Enduring related)
    (htraverses : start.Traverses middle last) : related middle last := by
  obtain ⟨cast, earlier, later, rfl, rfl⟩ := htraverses
  have hearly (runner : Runner) (hlater : later runner = true) :
      (earlier runner || later runner) = true := by
    rw [hlater, Bool.or_true]
  have hobservers :=
    henduring.cutShort_conductedUntil hearly cast.conduct cast.patience cast.depth
  have hrun := henduring.truncates_performUntil hobservers hearly cast.caller start
  unfold Cast.moment
  rcases hrun with hsame | ⟨-, hrelated⟩
  · rw [hsame]
    exact henduring.refl _
  · exact hrelated

end Runner

end TapeRunner
