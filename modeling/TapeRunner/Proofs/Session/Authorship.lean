import TapeRunner.Proofs.Machine.Simulation
import TapeRunner.Proofs.Session.Interim
import TapeRunner.Proofs.Session.Reachable

/-!
# Who has written the output

An engine writes with its own steps and with instructions beside its program (`Run.Writes`). Between
two starts an operation works on no other engine than the attached one, and apart from that rests
(`Runner.Resting`). So the output grows only by what this engine writes, whatever is ordered and
whatever the observers do, as long as nobody starts a session or clears the output
(`Runner.Worked.preserves_obey`).

When the output is cleared before a start, that holds on either side of the start, but the engine is
another one. What the old engine still writes between the clearing and the start stays in front of
what the new one writes (`Runner.output_belongs_but_for_leftover`).
-/

set_option autoImplicit false
set_option relaxedAutoImplicit false

namespace TapeRunner

open Activity

/-- An order that neither starts a session nor clears the output. -/
def Order.Continues : Order → Prop
  | .start _ _ | .clearOutput => False
  | _ => True

instance (order : Order) : Decidable order.Continues := by
  cases order <;> unfold Order.Continues <;> infer_instance

/-! ### What an engine writes -/

namespace Run

/-- The run with an effect connected, if there is one. -/
def settleAny (run : Run) : Option Effect → Run
  | some effect => run.settle effect
  | none => run

/-- The byte of an effect, if there is one. -/
def bytesOf (effect? : Option Effect) : List UInt8 := (effect?.bind (·.written)).toList

/-- A run comes to another one in writing bytes. In the midst of a step, after its effect and before
the counter moves, there may be more, or the step may be broken off there. -/
inductive Writes : Run → List UInt8 → Run → Prop
  | nothing (run : Run) : Writes run [] run
  | turn {run middle last : Run} {bytes further : List UInt8} {script : Script}
      {effect? : Option Effect} {counter : Nat} : Writes run bytes middle →
      middle.turn script = .ok (effect?, counter) →
      Writes (middle.settleAny effect?) further last →
      Writes run (bytes ++ (bytesOf effect? ++ further)) (last.resumeAt counter)
  | brokenOff {run middle : Run} {bytes : List UInt8} {script : Script}
      {effect? : Option Effect} {counter : Nat} : Writes run bytes middle →
      middle.turn script = .ok (effect?, counter) →
      Writes run (bytes ++ bytesOf effect?) (middle.settleAny effect?)
  | beside {run middle : Run} {bytes : List UInt8} {script : Script} {instruction : String}
      {effect? : Option Effect} : Writes run bytes middle →
      middle.aside script instruction = .ok effect? →
      Writes run (bytes ++ bytesOf effect?) (middle.settleAny effect?)
  | feed {run middle : Run} {bytes : List UInt8} (content : String) : Writes run bytes middle →
      Writes run bytes { middle with supply := middle.supply.feed content }
  | take {run middle : Run} {bytes : List UInt8} {byte : UInt8} {supply : Supply} :
      Writes run bytes middle → middle.supply.take = .ok (byte, supply) →
      Writes run bytes { middle with supply }

theorem Writes.trans {run middle last : Run} {bytes further : List UInt8}
    (hfirst : run.Writes bytes middle) (hsecond : middle.Writes further last) :
    run.Writes (bytes ++ further) last := by
  induction hsecond with
  | nothing run => simpa using hfirst
  | turn _ hturn hinside ih _ =>
    rw [← List.append_assoc]
    exact (ih hfirst).turn hturn hinside
  | brokenOff _ hturn ih =>
    rw [← List.append_assoc]
    exact (ih hfirst).brokenOff hturn
  | beside _ haside ih =>
    rw [← List.append_assoc]
    exact (ih hfirst).beside haside
  | feed content _ ih => exact (ih hfirst).feed content
  | take _ htake ih => exact (ih hfirst).take htake

end Run

namespace Runner

variable {runner last base : Runner} {audience : Audience} {inv : Runner → Prop}
variable {position? : Option Nat} {position : Nat}

/-! ### Working on one engine -/

/-- No engine has been worked on and nothing has been written, and the session is attached as it
was, or to nothing any more. -/
structure Resting (base runner : Runner) : Prop where
  runs_eq : runner.runs = base.runs
  output_eq : runner.output = base.output
  attached : runner.attached = base.attached ∨ runner.attached = none

theorem Minor.resting (hminor : base.Minor runner) : base.Resting runner :=
  { hminor with }

/-- An invariant that is kept by whatever rests and by the work on one engine, if there is one, to
which the session is attached, if it is to any. -/
structure Worked (audience : Audience) (position? : Option Nat) (inv : Runner → Prop) : Prop where
  rests {runner last : Runner} : inv runner → runner.Resting last → inv last
  attached {runner : Runner} {position : Nat} : inv runner → runner.attached = some position →
    position? = some position
  advance {position : Nat} : position? = some position → Preserves inv (advance audience position)
  execute {position : Nat} (instruction : String) : position? = some position →
    Preserves inv (execute audience position instruction)
  fed {runner : Runner} (place : Nat) (content : String) : inv runner →
    inv (runner.changeRun place fun run ↦ { run with supply := run.supply.feed content })
  taken {runner : Runner} {place : Nat} {run : Run} {byte : UInt8} {supply : Supply} :
    inv runner → runner.runs[place]? = some run → run.supply.take = .ok (byte, supply) →
      inv (runner.changeRun place ({ · with supply }))
  react (sink : Nat) : Preserves inv (audience.react sink)

namespace Worked

variable (hworked : Worked audience position? inv)
include hworked

/-- So it is kept between starts and stops. -/
theorem interim : Interim audience (position? = some ·) inv fun _ ↦ inv where
  minor hinv hminor := hworked.rests hinv hminor.resting
  allowed _ := id
  raised := id
  attached := hworked.attached
  advance := hworked.advance
  execute := hworked.execute
  react := hworked.react

theorem preserves_modify {change : Runner → Runner}
    (hchange : ∀ runner : Runner, runner.Resting (change runner)) : Preserves inv (modify change) :=
  Keeps.modify fun runner hinv ↦ hworked.rests hinv (hchange runner)

theorem preserves_stop : Preserves inv (stop audience) := by
  have hended : Preserves inv (modifySession ({ · with active := false, status := none })) :=
    hworked.preserves_modify fun _ ↦ ⟨rfl, rfl, .inl rfl⟩
  have hfreed : Preserves inv (modify ({ · with supplied := none })) :=
    hworked.preserves_modify fun _ ↦ ⟨rfl, rfl, .inl rfl⟩
  have hforgotten : Preserves inv
      (modify fun runner : Runner ↦ { runner with journal := runner.journal.clear }) :=
    hworked.preserves_modify fun _ ↦ ⟨rfl, rfl, .inl rfl⟩
  refine Keeps.get_bind fun runner hinv ↦ ?_
  split
  · refine (hended.bind fun _ ↦ hworked.interim.keeps_detach.bind fun _ ↦ hfreed.bind fun _ ↦
      Keeps.get_bind fun shown ↦ ?_) runner hinv
    exact ((hworked.interim.keeps_log _ _ _).bind fun _ ↦
      (hworked.interim.keeps_tell .stopped).bind fun _ ↦ hforgotten) shown
  · exact hinv

theorem preserves_feed (content : String) : Preserves inv (feed content) := by
  refine Keeps.get_bind fun runner hinv ↦ ?_
  split
  · exact hinv
  · exact hworked.fed _ content hinv

theorem preserves_readInput : Preserves inv readInput := by
  refine Keeps.get_bind fun runner hinv ↦ ?_
  split
  · exact hinv
  · next place _ =>
    rw [Yields, ends_bind, ends_runAt_iff]
    cases hrun : runner.runs[place]? with
    | none => exact hinv
    | some run =>
      simp only
      cases htake : run.supply.take with
      | error fault => exact hinv
      | ok taken => exact hworked.taken hinv hrun htake

/-- Every order that neither starts a session nor clears the output keeps what is worked on. -/
theorem preserves_obey {order : Order} (hcontinues : order.Continues) :
    Preserves inv (obey audience order) := by
  have hanswer {Result : Type} {activity : Action Result} (hpreserves : Preserves inv activity)
      (reply : Result → Reply) : Preserves inv (do return reply (← activity)) :=
    hpreserves.bind fun result ↦ Keeps.pure (reply result)
  have hpoked (active : Bool) : Preserves inv (modifySession ({ · with active })) :=
    hworked.preserves_modify fun _ ↦ ⟨rfl, rfl, .inl rfl⟩
  cases order with
  | start program options => exact hcontinues.elim
  | clearOutput => exact hcontinues.elim
  | stop => exact hanswer hworked.preserves_stop fun _ ↦ .nothing
  | shutdown =>
    exact hanswer (hworked.preserves_stop.bind fun _ ↦ hworked.interim.keeps_detach)
      fun _ ↦ .nothing
  | feed content => exact hanswer (hworked.preserves_feed content) fun _ ↦ .nothing
  | readInput => exact hanswer hworked.preserves_readInput .byte
  | pokeActive active => exact hanswer (hpoked active) fun _ ↦ .nothing
  | drain speed =>
    refine hworked.interim.preserves_drain (fun _ ↦ ?_) speed
    exact hworked.preserves_modify fun _ ↦ ⟨rfl, rfl, .inl rfl⟩
  | _ => exact hworked.interim.keeps_obey trivial

end Worked

/-! ### The writer -/

/-- What a run at a position has written since it was another one. Without a run, it is nothing. -/
def Authored (runner : Runner) (writer? : Option (Nat × Run)) (bytes : List UInt8) : Prop :=
  match writer? with
  | none => bytes = []
  | some (position, origin) => ∃ run, runner.runs[position]? = some run ∧ origin.Writes bytes run

/-- After what was there before, the output has what a writer has written since, and the session is
attached to no other engine. -/
structure WrittenBy (writer? : Option (Nat × Run)) (before : List UInt8) (runner : Runner) :
    Prop where
  attached : ∀ position, runner.attached = some position → writer?.map Prod.fst = some position
  written : ∃ bytes, runner.output.bytes.toList = before ++ bytes ∧ runner.Authored writer? bytes

variable {writer? : Option (Nat × Run)} {before : List UInt8}

theorem Authored.changeRun {place : Nat} {change : Run → Run} {bytes : List UInt8}
    (hauthored : runner.Authored writer? bytes)
    (hchange : ∀ run, runner.runs[place]? = some run → ∀ origin : Run,
      origin.Writes bytes run → origin.Writes bytes (change run)) :
    (runner.changeRun place change).Authored writer? bytes := by
  unfold Authored at hauthored ⊢
  split at hauthored
  · exact hauthored
  · obtain ⟨run, hrun, hwrites⟩ := hauthored
    simp only [Runner.changeRun, Array.getElem?_modify]
    split
    · next hsame =>
      subst hsame
      exact ⟨change run, by rw [hrun, Option.map_some], hchange run hrun _ hwrites⟩
    · exact ⟨run, hrun, hwrites⟩

namespace WrittenBy

theorem rests (hwritten : WrittenBy writer? before runner) (hresting : runner.Resting last) :
    WrittenBy writer? before last where
  attached position hposition := by
    rcases hresting.attached with hsame | hnone
    · exact hwritten.attached position (hsame ▸ hposition)
    · exact nomatch hnone.symm.trans hposition
  written := by
    obtain ⟨bytes, hbytes, hauthored⟩ := hwritten.written
    refine ⟨bytes, hresting.output_eq ▸ hbytes, ?_⟩
    unfold Authored at hauthored ⊢
    rw [hresting.runs_eq]
    exact hauthored

theorem changeRun {place : Nat} {change : Run → Run} (hwritten : WrittenBy writer? before runner)
    (hchange : ∀ run, runner.runs[place]? = some run → ∀ (origin : Run) bytes,
      origin.Writes bytes run → origin.Writes bytes (change run)) :
    WrittenBy writer? before (runner.changeRun place change) where
  attached := hwritten.attached
  written := by
    obtain ⟨bytes, hbytes, hauthored⟩ := hwritten.written
    exact ⟨bytes, hbytes, hauthored.changeRun fun run hrun origin ↦ hchange run hrun origin bytes⟩

/-- What is written from a later moment on is written from an earlier one on as well. -/
theorem of_later {position : Nat} {origin run : Run} {bytes : List UInt8}
    (hwrites : origin.Writes bytes run)
    (hlast : WrittenBy (some (position, run)) (before ++ bytes) last) :
    WrittenBy (some (position, origin)) before last where
  attached := hlast.attached
  written := by
    obtain ⟨further, hfurther, run, hrun, hlater⟩ := hlast.written
    exact ⟨bytes ++ further, by rw [hfurther, List.append_assoc], run, hrun, hwrites.trans hlater⟩

/-- An effect is connected, and its byte written. -/
theorem settledAny {position : Nat} {run : Run} (hrun : runner.runs[position]? = some run)
    (hattached : ∀ place, runner.attached = some place → some position = some place)
    (effect? : Option Effect) :
    WrittenBy (some (position, run.settleAny effect?))
      (runner.output.bytes.toList ++ Run.bytesOf effect?) (runner.settledAny position effect?) := by
  have hnothing := Run.Writes.nothing (run.settleAny effect?)
  cases effect? with
  | none => exact ⟨hattached, [], by simp [Run.bytesOf, Runner.settledAny], run, hrun, hnothing⟩
  | some effect =>
    refine ⟨hattached, [], ?_, _, ?_, hnothing⟩
    · cases hwritten : effect.written <;>
        simp [Run.bytesOf, Runner.settledAny, Runner.settled, hwritten, Output.put,
          byteOf_toNat]
    · simp only [Runner.settledAny, Runner.settled, Array.getElem?_modify, if_true, hrun]
      rfl

end WrittenBy

section Written

variable {audience : Audience}
variable (hreact : ∀ writer? before sink,
  Preserves (WrittenBy writer? before) (audience.react sink))
include hreact

/-- An effect of a run is connected before observers who watch the output. -/
theorem yields_settleAny_written {run : Run} (hrun : runner.runs[position]? = some run)
    (hattached : ∀ place, runner.attached = some place → some position = some place)
    (effect? : Option Effect) :
    Yields (fun _ ↦ WrittenBy (some (position, run.settleAny effect?))
        (runner.output.bytes.toList ++ Run.bytesOf effect?))
      (settleAny audience position effect?) runner
      fun _ ↦ WrittenBy (some (position, run.settleAny effect?))
        (runner.output.bytes.toList ++ Run.bytesOf effect?) := by
  have hsettled := WrittenBy.settledAny hrun hattached effect?
  refine yields_settleAny (fun hnone ↦ ?_) (fun effect heffect ↦ ?_) fun sink _ ↦ hreact _ _ sink
  · subst hnone
    exact hsettled
  · obtain rfl := Option.mem_def.mp heffect
    exact hsettled

theorem worked_writtenBy (writer? : Option (Nat × Run)) (before : List UInt8) :
    Worked audience (writer?.map Prod.fst) (WrittenBy writer? before) where
  rests := WrittenBy.rests
  attached hwritten hattached := hwritten.attached _ hattached
  advance {position} hposition := by
    obtain ⟨⟨place, origin⟩, rfl, rfl⟩ := Option.map_eq_some_iff.mp hposition
    intro runner hwritten
    obtain ⟨bytes, hbytes, run, hrun, hwrites⟩ := hwritten.written
    refine (ends_advance hrun).mpr ?_
    cases hturn : run.turn runner.bench.script with
    | error error => exact hwritten
    | ok turn =>
      obtain ⟨effect?, counter⟩ := turn
      have hsettled := yields_settleAny_written hreact hrun hwritten.attached effect?
      rw [hbytes, List.append_assoc] at hsettled
      refine Ends.mono hsettled fun outcome middle hmiddle ↦ ?_
      rcases outcome with halt | _
      · exact .of_later (hwrites.brokenOff hturn) hmiddle
      · obtain ⟨further, hfurther, last, hlast, hlater⟩ := hmiddle.written
        refine ⟨hmiddle.attached, bytes ++ (Run.bytesOf effect? ++ further), ?_,
          last.resumeAt counter, ?_, hwrites.turn hturn hlater⟩
        · rw [Runner.changeRun, hfurther]
          simp only [List.append_assoc]
        · simp only [Runner.changeRun, Array.getElem?_modify, if_true, hlast, Option.map_some]
  execute {position} instruction hposition := by
    obtain ⟨⟨place, origin⟩, rfl, rfl⟩ := Option.map_eq_some_iff.mp hposition
    intro runner hwritten
    obtain ⟨bytes, hbytes, run, hrun, hwrites⟩ := hwritten.written
    refine (ends_execute hrun).mpr ?_
    cases haside : run.aside runner.bench.script instruction with
    | error error => exact hwritten
    | ok effect? =>
      have hsettled := yields_settleAny_written hreact hrun hwritten.attached effect?
      rw [hbytes, List.append_assoc] at hsettled
      have hlater := hwrites.beside haside
      exact Yields.allow (Yields.mono hsettled fun _ _ ↦ .of_later hlater) fun _ _ ↦
        .of_later hlater
  fed place content hwritten := hwritten.changeRun fun _ _ _ _ ↦ .feed content
  taken hwritten hrun htake := hwritten.changeRun fun run hfound _ _ hwrites ↦ by
    obtain rfl := Option.some.inj (hrun.symm.trans hfound)
    exact hwrites.take htake
  react := hreact writer? before

end Written

/-! ### Either side of a start -/

section Conducted

variable {conduct : Nat → Runner → Conduct} {patience depth : Nat}
variable (hconduct : ∀ position runner,
  (conduct position runner).Gives (fun _ ↦ Order.Continues) runner)
include hconduct

/-- Observers who neither start a session nor clear the output leave it to the writer, to whatever
depth orders are given inside of orders. -/
theorem worked_conducted (patience depth : Nat) (writer? : Option (Nat × Run))
    (before : List UInt8) : Worked (.conducted conduct patience depth) (writer?.map Prod.fst)
      (WrittenBy writer? before) := by
  refine worked_writtenBy (fun writer? before sink ↦ ?_) writer? before
  induction depth generalizing writer? before sink with
  | zero => exact fun _ hwritten ↦ hwritten
  | succ depth ih =>
    rw [← Audience.conductedUntil_never]
    refine preserves_react_of_gives (fun _ _ hwritten ↦ hwritten.rests ⟨rfl, rfl, .inl rfl⟩)
      (fun order runner hwritten hcontinues ↦ ?_) hconduct sink
    rw [Audience.conductedUntil_never]
    exact (worked_writtenBy ih writer? before).preserves_obey hcontinues runner hwritten

theorem writtenBy_carryOut {orders : List Order} (hcontinue : ∀ order ∈ orders, order.Continues)
    (hwritten : WrittenBy writer? before runner) :
    WrittenBy writer? before (carryOut (.conducted conduct patience depth) orders runner).2 :=
  preserved_carryOut (fun order horder ↦
    (worked_conducted hconduct patience depth writer? before).preserves_obey
      (hcontinue order horder)) hwritten

/-- Without an attached engine, the output stays empty once it is cleared. -/
theorem output_cleared_of_none (hfounded : runner.Founded) (hnone : runner.run? = none)
    {orders : List Order} (hcontinue : ∀ order ∈ orders, order.Continues) :
    (carryOut (.conducted conduct patience depth) (.clearOutput :: orders) runner).2.output =
      .empty := by
  have hattached : runner.attached = none := by
    cases hattached : runner.attached with
    | none => rfl
    | some position =>
      have hrun := Array.getElem?_eq_getElem (hfounded.attached_lt position hattached)
      cases hnone.symm.trans (run?_eq_some hattached hrun)
  have hnobody : WrittenBy none [] { runner with output := .empty } :=
    ⟨fun _ hposition ↦ (nomatch hattached.symm.trans hposition), [], rfl, rfl⟩
  obtain ⟨bytes, hbytes, rfl⟩ := (writtenBy_carryOut hconduct hcontinue hnobody).written
  exact congrArg Output.mk (Array.toList_eq_nil_iff.mp hbytes)

/-- Once it is cleared, the output has what the attached engine has written since. -/
theorem exists_writes_cleared {origin : Run} (hrun : runner.run? = some origin)
    {orders : List Order} (hcontinue : ∀ order ∈ orders, order.Continues) :
    ∃ left, origin.Writes (carryOut (.conducted conduct patience depth) (.clearOutput :: orders)
      runner).2.output.bytes.toList left := by
  obtain ⟨position, hattached, hplace⟩ := Option.bind_eq_some_iff.mp hrun
  have hwriter : WrittenBy (some (position, origin)) [] { runner with output := .empty } :=
    ⟨fun place hplace ↦ hattached.symm.trans hplace, [], rfl, origin, hplace, .nothing origin⟩
  obtain ⟨bytes, hbytes, left, -, hwrites⟩ :=
    (writtenBy_carryOut hconduct hcontinue hwriter).written
  exact ⟨left, (show _ = bytes from hbytes) ▸ hwrites⟩

/-- What is written from a start on is written by the engine that is built for it. -/
theorem writtenBy_start (patience depth : Nat) {program : String} (options : StartOptions)
    {newcomer : Run} (hbuild : runner.bench.build program = .ok newcomer)
    (hbound : runner.journal.context.Plain) :
    WrittenBy (some (runner.runs.size, newcomer)) runner.output.bytes.toList
      (runFrom (obey (.conducted conduct patience depth) (.start program options)) runner).2 := by
  have hworked := worked_conducted hconduct patience depth (some (runner.runs.size, newcomer))
    runner.output.bytes.toList
  have hbegun : WrittenBy (some (runner.runs.size, newcomer)) runner.output.bytes.toList
      (runner.begun options newcomer) := by
    refine ⟨fun place hplace ↦ hplace, [], (List.append_nil _).symm, newcomer, ?_, .nothing _⟩
    simp only [begun, Array.getElem?_push_size]
  have hstart : Yields (fun _ ↦ WrittenBy (some (runner.runs.size, newcomer))
      runner.output.bytes.toList) (start (.conducted conduct patience depth) program options) runner
      fun _ ↦ WrittenBy (some (runner.runs.size, newcomer)) runner.output.bytes.toList := by
    refine yields_start hbuild hbound fun lines ↦ ?_
    exact (hworked.interim.keeps_log _ _ _).bind (fun _ ↦
      (hworked.interim.keeps_tell .started).bind fun _ ↦ hworked.interim.keeps_rearm) _
        (hbegun.rests ⟨rfl, rfl, .inl rfl⟩)
  have hobey : Yields (fun _ ↦ WrittenBy (some (runner.runs.size, newcomer))
      runner.output.bytes.toList) (obey (.conducted conduct patience depth)
        (.start program options)) runner
      fun _ ↦ WrittenBy (some (runner.runs.size, newcomer)) runner.output.bytes.toList :=
    hstart.bind fun _ _ hlast ↦ hlast
  exact hobey.last

end Conducted

end Runner

end TapeRunner
