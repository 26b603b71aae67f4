import TapeRunner.Proofs.Session.Candor
import TapeRunner.Proofs.Session.Misreport

/-!
# When a completion is the truth

Every order keeps a session honest, unless it is a blocking run that does not fit
(`Runner.preserves_obey`). So whatever observers and callers do, as long as they give no such order,
everyone who is said to have finished has done so. A blocking run that does not fit is reported as
finished in the middle of its program (`Runner.truthful_unless_stopped_short`).
-/

set_option autoImplicit false
set_option relaxedAutoImplicit false

namespace TapeRunner

open Activity

/-! ### Orders to the surroundings -/

/-- An order that leaves the session alone. -/
def Order.Discreet : Order → Prop
  | .feed _ | .readInput | .setClock _ _ | .setMemory _ | .setScript _ _ _ | .clearOutput
  | .raise _ | .look => True
  | _ => False

namespace Runner

variable {sinks : List Nat} {audience : Audience} {base : Runner}

/-- Whatever is beside every runner is beside those that are beside a given one. -/
theorem preserves_beside {Result : Type} {activity : Action Result} (hends : ∀ runner,
    Yields (fun _ ↦ Beside runner) activity runner fun _ ↦ Beside runner) (base : Runner) :
    Preserves (Beside base) activity := by
  have htrans {runner last : Runner} (hrunner : Beside base runner) (hlast : Beside runner last) :
      Beside base last :=
    ⟨hlast.1.trans hrunner.1, hlast.2.trans hrunner.2, hlast.3.trans hrunner.3,
      hlast.4.trans hrunner.4, fun position ↦ (hlast.5 position).trans (hrunner.5 position)⟩
  intro runner hrunner
  exact Yields.allow (Yields.mono (hends runner) fun _ _ ↦ htrans hrunner) fun _ _ ↦ htrans hrunner

theorem beside_modify {change : Runner → Runner}
    (hchange : ∀ runner, Beside runner (change runner)) (base : Runner) :
    Preserves (Beside base) (modify change) := by
  refine preserves_beside (fun runner ↦ ?_) base
  exact hchange runner

theorem beside_changeSupply (position : Nat) (supplyOf : Run → Supply) (base : Runner) :
    Preserves (Beside base) (modifyRun position fun run ↦ { run with supply := supplyOf run }) := by
  refine beside_modify (fun runner ↦ ?_) base
  exact beside_changeRun runner fun _ _ ↦ rfl

/-- Orders to the surroundings leave the session alone. -/
theorem beside_obey {order : Order} (hdiscreet : order.Discreet) (base : Runner) :
    Preserves (Beside base) (obey audience order) := by
  have hbench (change : Bench → Bench) : Preserves (Beside base) (modifyBench change) := by
    refine beside_modify (fun runner ↦ ?_) base
    exact ⟨rfl, rfl, rfl, rfl, fun _ ↦ rfl⟩
  cases order with
  | feed content =>
    refine Keeps.bind (Keeps.get_bind fun runner hrunner ↦ ?_) fun _ ↦ Keeps.pure _
    split
    · exact hrunner
    · exact beside_changeSupply _ _ base runner hrunner
  | readInput =>
    refine Keeps.bind (Keeps.get_bind fun runner hrunner ↦ ?_) fun byte ↦ Keeps.pure _
    split
    · exact hrunner
    · refine Keeps.bind (Keeps.get_bind fun runner hrunner ↦ ?_) (fun run ↦ ?_) runner hrunner
      · split <;> exact hrunner
      · split
        · exact Preserves.fail _
        · exact (beside_changeSupply _ _ base).bind fun _ ↦ Keeps.pure _
  | setClock numerator denominator =>
    refine Keeps.bind ?_ fun _ ↦ Keeps.pure _
    unfold setClock
    split
    · exact hbench _
    · exact Preserves.fail _
  | setMemory size => exact (hbench _).bind fun _ ↦ Keeps.pure _
  | setScript faults crashes rejects => exact (hbench _).bind fun _ ↦ Keeps.pure _
  | clearOutput =>
    refine Keeps.bind (beside_modify (fun _ ↦ ?_) base) fun _ ↦ Keeps.pure _
    exact ⟨rfl, rfl, rfl, rfl, fun _ ↦ rfl⟩
  | raise message => exact Preserves.fail _
  | look => exact Keeps.get_bind fun runner hrunner ↦ hrunner
  | _ => exact hdiscreet.elim

end Runner

/-! ### Orders -/

/-- An order that fits a runner: a blocking run is asked for only at the blocking speed or at the
end of the program, and no speed is below the blocking one. -/
def Order.Fitting (runner : Runner) : Order → Prop
  | .runBlocking => runner.Fits
  | .setSpeed speed | .pokeSpeed speed | .drain speed => Speed.blocking ≤ speed
  | _ => True

/-- Every order fits the runner to which it is given. -/
def Conduct.Fitting : Conduct → Runner → Prop
  | .rest, _ | .raise _, _ => True
  | .give order next, runner =>
    order.Fitting runner ∧ ∀ outcome after, (next outcome after).Fitting after

/-- No order is given but to the surroundings. -/
def Conduct.Discreet : Conduct → Prop
  | .rest | .raise _ => True
  | .give order next => order.Discreet ∧ ∀ outcome after, (next outcome after).Discreet

namespace Runner

variable {sinks : List Nat} {audience : Audience} {runner start : Runner}

/-- Every order that fits keeps the session honest, in whatever way it ends. -/
theorem preserves_obey (hcandid : audience.Candid sinks) {order : Order}
    (hfits : order.Fitting runner) (hhonest : Honest sinks runner) :
    Yields (fun _ ↦ Honest sinks) (obey audience order) runner fun _ ↦ Honest sinks := by
  have hanswer {Result : Type} {activity : Action Result}
      (hpreserves : Preserves (Honest sinks) activity) (reply : Result → Reply) :
      Yields (fun _ ↦ Honest sinks) (do return reply (← activity)) runner
        fun _ ↦ Honest sinks :=
    hpreserves.bind (fun result ↦ Keeps.pure (reply result)) runner hhonest
  have hdiscreet {order : Order} (h : order.Discreet) :
      Yields (fun _ ↦ Honest sinks) (obey audience order) runner fun _ ↦ Honest sinks :=
    Yields.allow (Yields.mono (beside_obey h runner runner (.refl runner))
      fun _ _ ↦ hhonest.of_beside) fun _ _ ↦ hhonest.of_beside
  cases order with
  | start program options =>
    exact hanswer (preserves_start hcandid program options) fun _ ↦ .nothing
  | stop => exact hanswer (preserves_stop hcandid) fun _ ↦ .nothing
  | step => exact hanswer (preserves_step hcandid) fun _ ↦ .nothing
  | runBlocking =>
    refine Yields.bind ?_ fun _ _ hlast ↦ hlast
    rw [Yields, runBlocking, ends_bind, ends_requireRun]
    cases hattached : runner.attached with
    | none => exact hhonest
    | some position =>
      exact yields_blockingRun_honest hcandid (preserves_rearm hcandid) ⟨hhonest, hattached, hfits⟩
  | faster =>
    refine hanswer (Keeps.get_bind fun runner h ↦ ?_) fun _ ↦ .nothing
    exact preserves_setSpeed hcandid (Speed.blocking_le_clamp _) runner h
  | slower =>
    refine hanswer (Keeps.get_bind fun runner h ↦ ?_) fun _ ↦ .nothing
    by_cases hrunning : Speed.idle < runner.session.speed
    · simp only [if_pos hrunning]
      refine preserves_setSpeed hcandid ?_ runner h
      unfold Speed.blocking Speed.idle at *
      omega
    · simp only [if_neg hrunning]
      exact h
  | pause => exact hanswer (preserves_setSpeed hcandid (by decide)) fun _ ↦ .nothing
  | superSpeed => exact hanswer (preserves_setSpeed hcandid (by decide)) fun _ ↦ .nothing
  | shutdown =>
    exact hanswer ((preserves_stop hcandid).bind fun _ ↦ preserves_detach) fun _ ↦ .nothing
  | setSpeed speed => exact hanswer (preserves_setSpeed hcandid hfits) fun _ ↦ .nothing
  | inject instruction => exact hanswer (preserves_inject hcandid instruction) .accepted
  | fire rounds => exact hanswer (keeps_fire (preserves_step hcandid) rounds) .calls
  | callTimer index =>
    refine ((preserves_timerAt index).bind fun position ↦ ?_) runner hhonest
    exact (preserves_callTimer hcandid position).bind fun _ ↦ Keeps.pure _
  | cancelTimer index =>
    refine ((preserves_timerAt index).bind fun position ↦ ?_) runner hhonest
    exact (preserves_cancel position).bind fun _ ↦ Keeps.pure _
  | rearm => exact hanswer (preserves_rearm hcandid) fun _ ↦ .nothing
  | pokeSpeed speed =>
    refine hanswer (Keeps.modify ?_) fun _ ↦ .nothing
    exact fun _ h ↦ ⟨h.1, hfits, h.3, h.4⟩
  | pokeActive active =>
    refine hanswer (Keeps.modify ?_) fun _ ↦ .nothing
    exact fun _ h ↦ ⟨h.1, h.2, h.3, h.4⟩
  | drain speed =>
    exact ((preserves_setSpeed hcandid hfits).bind fun _ ↦
      (preserves_drainWithin hcandid _).bind fun _ ↦ Keeps.pure _) runner hhonest
  | _ => exact hdiscreet trivial

/-! ### Observers and callers -/

/-- Whoever gives fitting orders only keeps the session honest. -/
theorem yields_perform_honest (hcandid : audience.Candid sinks) {conduct : Conduct}
    (hfits : conduct.Fitting runner) (hhonest : Honest sinks runner) :
    Yields (fun _ ↦ Honest sinks) (conduct.perform audience) runner fun _ ↦ Honest sinks := by
  induction conduct generalizing runner with
  | rest => exact hhonest
  | raise error => exact hhonest
  | give order next ih =>
    rw [Yields, Conduct.perform, ends_bind, ends_caught]
    refine Ends.mono (preserves_obey hcandid hfits.1 hhonest) ?_
    intro outcome last hlast
    rcases outcome with halt | reply
    · rcases halt with error | _
      · exact ih _ last (hfits.2 _ last) hlast
      · exact hlast
    · exact ih _ last (hfits.2 _ last) hlast

/-- Whoever gives discreet orders only leaves the session alone. -/
theorem beside_perform {conduct : Conduct} (hdiscreet : conduct.Discreet) (base : Runner) :
    Preserves (Beside base) (conduct.perform audience) := by
  induction conduct with
  | rest => exact Keeps.pure ()
  | raise error => exact Preserves.fail error
  | give order next ih =>
    intro runner hbeside
    rw [Yields, Conduct.perform, ends_bind, ends_caught]
    refine Ends.mono (beside_obey hdiscreet.1 base runner hbeside) ?_
    intro outcome last hlast
    rcases outcome with halt | reply
    · rcases halt with error | _
      · exact ih _ last (hdiscreet.2 _ last) last hlast
      · exact hlast
    · exact ih _ last (hdiscreet.2 _ last) last hlast

end Runner

/-- Observers that give fitting orders, and those of the output discreet ones, are candid to
whatever depth orders are given inside of orders. -/
theorem Audience.candid_conducted {sinks : List Nat} {conduct : Nat → Runner → Conduct}
    (hfits : ∀ position runner, (conduct position runner).Fitting runner)
    (hdiscreet : ∀ position ∈ sinks, ∀ runner, (conduct position runner).Discreet)
    (patience depth : Nat) : (Audience.conducted conduct patience depth).Candid sinks := by
  induction depth with
  | zero => exact ⟨fun _ _ h ↦ h, fun _ _ _ _ h ↦ h⟩
  | succ depth ih =>
    constructor
    · refine fun position ↦ Keeps.bind (Keeps.modify ?_) fun _ ↦ Keeps.get_bind fun runner h ↦ ?_
      · exact fun _ h ↦ ⟨h.1, h.2, h.3, h.4⟩
      · exact Runner.yields_perform_honest ih (hfits position runner) h
    · refine fun sink hsink base ↦
        Keeps.bind (Keeps.modify ?_) fun _ ↦ Keeps.get_bind fun runner h ↦ ?_
      · exact fun _ h ↦ ⟨h.1, h.2, h.3, h.4, h.5⟩
      · exact Runner.beside_perform (hdiscreet sink hsink runner) base runner h

namespace Runner

variable {start : Runner}

theorem honest_of_fresh {bench : Bench} {hooks : List Hook} {journal : Journal}
    (hstart : fresh bench hooks journal = .ok start) : Honest start.sinks start := by
  obtain ⟨_, -, rfl⟩ := exists_of_fresh hstart
  refine ⟨rfl, by show Speed.blocking ≤ Speed.idle; decide, ?_, fun _ ↦ nofun⟩
  exact fun _ hevent ↦ absurd hevent (Array.not_mem_empty _)

/-- When completions are told truthfully. As long as every blocking run that is asked for fits,
whoever is said to have finished is at the end of the program, whatever callers and observers do,
if those of the output leave the session alone. A blocking run whose loop stops short, for whatever
reason, is reported as finished in the middle of the program, and so is every one that does not
fit. -/
theorem truthful_unless_stopped_short {bench : Bench} {hooks : List Hook} {journal : Journal}
    {start : Runner} (hstart : fresh bench hooks journal = .ok start) :
    (∀ (conduct : Nat → Runner → Conduct) (caller : Conduct) (patience depth : Nat),
      (∀ position runner, (conduct position runner).Fitting runner) →
      (∀ position ∈ start.sinks, ∀ runner, (conduct position runner).Discreet) →
      caller.Fitting start →
      let last := (runFrom (caller.perform (.conducted conduct patience depth)) start).2
      (∀ event ∈ last.recorded, event.Truthful) ∧
        ∀ elapsed, last.session.status = some (.finished elapsed) →
          ∀ run, last.run? = some run → run.atEnd = true) ∧
    (∀ audience runner position, StopsShort audience position runner →
      Yields cutOff (blockingRun audience (rearm audience) position) runner
        fun _ last ↦ last.Misreported ∧ ∃ event ∈ last.recorded, ¬ event.Truthful) ∧
    (∀ audience runner, ¬ runner.Fits → runner.Midway audience →
      Yields cutOff (runBlocking audience) runner
        fun _ last ↦ last.Misreported ∧ ∃ event ∈ last.recorded, ¬ event.Truthful) := by
  refine ⟨?_, ?_, ?_⟩
  · intro conduct caller patience depth hfits hdiscreet hcaller last
    have hhonest : Honest start.sinks last :=
      (yields_perform_honest (Audience.candid_conducted hfits hdiscreet patience depth) hcaller
        (honest_of_fresh hstart)).last
    exact ⟨hhonest.events, hhonest.status⟩
  · exact fun _ _ _ hstops ↦ yields_blockingRun_false hstops
  · exact fun _ _ hfits hmidway ↦ yields_runBlocking_false hfits hmidway

/-- The answer to an order for a blocking run changes nothing after it. -/
theorem last_obey_runBlocking (audience : Audience) (runner : Runner) :
    (runFrom (obey audience .runBlocking) runner).2 =
      (runFrom (runBlocking audience) runner).2 := by
  rw [obey, runFrom_bind]
  rcases runFrom (runBlocking audience) runner with ⟨halt | _, last⟩ <;> rfl

/-- A program of five characters is truly finished once it is run through, and is reported as
finished as well when a blocking run is asked for right after an idle start. -/
theorem truthful_unless_stopped_short_idle :
    ∃ start, fresh ⟨.scripted, 1, "", 0, .empty⟩ [] .initial = .ok start ∧
      (∀ event ∈ (runFrom ((Conduct.inTurn [.start "xxxxx" ⟨true, true⟩]).perform
        (.conducted (fun _ _ ↦ .rest) 10 1)) start).2.recorded, event.Truthful) ∧
      ∃ event ∈ (carryOut (.conducted (fun _ _ ↦ .rest) 10 1)
        [.start "xxxxx" ⟨false, false⟩, .runBlocking] start).2.recorded, ¬ event.Truthful := by
  obtain ⟨start, hstart⟩ : ∃ start, fresh ⟨.scripted, 1, "", 0, .empty⟩ [] .initial = .ok start :=
    ⟨_, rfl⟩
  obtain ⟨hfitting, -, hunfitting⟩ := truthful_unless_stopped_short hstart
  refine ⟨start, hstart, ?_, ?_⟩
  · refine (hfitting (fun _ _ ↦ .rest) _ 10 1 (fun _ _ ↦ trivial) (fun _ _ _ ↦ trivial) ?_).1
    refine ⟨trivial, fun outcome _ ↦ ?_⟩
    rcases outcome with error | _
    · show Conduct.Fitting (if error.isRefusal then _ else _) _
      split <;> trivial
    · trivial
  · generalize hmidway : (runFrom (obey (.conducted (fun _ _ ↦ .rest) 10 1)
      (.start "xxxxx" ⟨false, false⟩)) start).2 = midway
    have hrun : (midway.session.speed = Speed.idle && midway.run?.map Run.atEnd = some false &&
        midway.bus.recipients "session.finished" = [.recorder] &&
        (runFrom (runBlocking (.conducted (fun _ _ ↦ .rest) 10 1)) midway).1.isOk) = true := by
      cases hstart
      rw [← hmidway]
      decide +kernel
    simp only [Bool.and_eq_true, decide_eq_true_eq] at hrun
    obtain ⟨⟨⟨hidle, hrun?⟩, hheard⟩, hok⟩ := hrun
    obtain ⟨run, hrun?, hend⟩ := Option.map_eq_some_iff.mp hrun?
    have hfits : ¬ midway.Fits := by
      rintro (hspeed | hatEnd)
      · exact absurd (hidle.symm.trans hspeed) (by decide)
      · exact absurd (hend.symm.trans (hatEnd run hrun?)) Bool.false_ne_true
    have hstands : midway.Midway (.conducted (fun _ _ ↦ .rest) 10 1) := by
      refine ⟨⟨run, hrun?, hend⟩, ?_, fun position hposition ↦ ?_⟩
      · rw [hheard]
        exact List.mem_singleton_self _
      · rw [hheard] at hposition
        exact absurd (List.mem_singleton.mp hposition) nofun
    have hfalse := hunfitting _ midway hfits hstands
    have hlast : (carryOut (.conducted (fun _ _ ↦ .rest) 10 1)
        [.start "xxxxx" ⟨false, false⟩, .runBlocking] start).2 =
          (runFrom (runBlocking (.conducted (fun _ _ ↦ .rest) 10 1)) midway).2 := by
      simp only [carryOut, hmidway]
      exact last_obey_runBlocking _ midway
    unfold Yields Ends at hfalse
    rw [hlast]
    generalize runFrom (runBlocking (.conducted (fun _ _ ↦ .rest) 10 1)) midway = ended at *
    obtain ⟨halt | _, last⟩ := ended
    · cases hok
    · exact hfalse.2

end Runner

end TapeRunner
