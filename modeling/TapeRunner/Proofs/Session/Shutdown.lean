import TapeRunner.Proofs.Session.Generations
import TapeRunner.Proofs.Session.Repose

/-!
# What a shutdown leaves

A shutdown is a stop and then a detachment, and between the two the handlers of the stop have been
told. The detachment takes away the engine and the timer that it finds, whoever has put them there
(`Runner.exists_detached`), but it knows nothing of the session. So a shutdown always leaves no
engine and no live timer, and leaves an inactive session without supply and status; but a session
that a handler has started meanwhile stays active, with its supply and without its engine
(`Runner.shutdown_quiet_unless_restarted`).
-/

set_option autoImplicit false
set_option relaxedAutoImplicit false

namespace TapeRunner

open Activity

namespace Runner

variable {runner last start : Runner} {audience : Audience}

/-! ### The parts of a shutdown -/

/-- The runner without its engine and its current timer. -/
def detached (runner : Runner) : Runner := { runner.cleared with attached := none }

/-- To detach is to let go of the engine and the timer, and of nothing else. -/
theorem exists_detached (hplain : runner.journal.context.Plain) :
    ∃ lines, runFrom detach runner = (.ok (), runner.detached.withLines lines) := by
  have hdetach : Yields (fun _ _ ↦ False) detach runner
      fun _ last ↦ ∃ lines, last = runner.detached.withLines lines := by
    refine Yields.bind (yields_clear (writes_of_plain hplain Fields.plain_nil)) ?_
    rintro _ _ ⟨lines, rfl⟩
    exact ⟨lines, rfl⟩
  rcases hdetach.reached.ended with ⟨_, -, hrun, lines, hlast⟩ | ⟨_, -, hfalse⟩
  · exact ⟨lines, hlast ▸ hrun⟩
  · exact hfalse.elim

/-- A shutdown goes on where its stop has led. -/
theorem runFrom_shutdown_of_stopped {stopped : Runner}
    (hstop : runFrom (stop audience) runner = (.ok (), stopped)) :
    runFrom (shutdown audience) runner = runFrom detach stopped := by
  rw [shutdown, runFrom_bind, hstop]

/-- A shutdown that returns has made its stop. -/
theorem exists_stopped (hshutdown : runFrom (shutdown audience) runner = (.ok (), last)) :
    ∃ stopped, runFrom (stop audience) runner = (.ok (), stopped) := by
  rw [shutdown, runFrom_bind] at hshutdown
  generalize runFrom (stop audience) runner = ended at hshutdown ⊢
  obtain ⟨halt | _, stopped⟩ := ended
  · cases hshutdown
  · exact ⟨stopped, rfl⟩

/-- The session is not active. -/
def Inactive (runner : Runner) : Prop := runner.session.active = false

/-- If the handlers of a stop leave an inactive session inactive, there is one after the stop. -/
theorem yields_stop_inactive (hplain : runner.journal.context.Plain)
    (hreact : ∀ position, .hook position ∈ runner.bus.recipients EventKind.stopped.type →
      Preserves Inactive (audience.react position)) :
    Yields (fun _ ↦ Inactive) (stop audience) runner fun _ ↦ Inactive := by
  cases hactive : runner.session.active with
  | false => exact (ends_stop_of_inactive hactive).mpr hactive
  | true =>
    refine yields_stop hactive hplain fun lines ↦ ?_
    have hended : Inactive (runner.ended.withLines lines) := rfl
    refine Yields.bind (writes_of_refusal (fun _ _ ↦ hended) _ _) ?_
    rintro _ _ ⟨written, rfl⟩
    have htell : Yields (fun _ ↦ Inactive) (tell audience .stopped)
        ((runner.ended.withLines lines).withLines written) fun _ ↦ Inactive :=
      yields_tell_of_recipients (fun _ hinactive ↦ writes_of_refusal fun _ _ ↦ hinactive)
        (fun _ _ hinactive ↦ hinactive) (fun _ _ hinactive ↦ hinactive) hreact rfl
    exact htell.bind fun _ _ hlast ↦ hlast

/-! ### Shutdowns -/

/-- What a shutdown leaves, wherever in a run it is given and whatever its handlers do. There is no
engine and no live timer, and if the session is inactive, it has no supply either, and no status if
the observers of the output are tactful. But whether it is active is left to the handlers of the
stop: the session is the one that they have left, with the supply that it had, and it is inactive
if each of them leaves an inactive session so. -/
theorem shutdown_quiet_unless_restarted {bench : Bench} {hooks : List Hook} {journal : Journal}
    (hstart : fresh bench hooks journal = .ok start) (hbound : journal.context.Plain) {cast : Cast}
    (hgenuine : cast.Genuine start) (cut : Runner → Bool) (patience depth : Nat) :
    let runner := cast.moment start cut
    let audience := Audience.conducted cast.conduct patience depth
    (∀ stopped, runFrom (stop audience) runner = (.ok (), stopped) →
      ∃ last, runFrom (shutdown audience) runner = (.ok (), last)) ∧
    ∀ last, runFrom (shutdown audience) runner = (.ok (), last) →
      last.attached = none ∧ Timer.live last.timers = [] ∧
      (last.session.active = false → last.supplied = none ∧
        (cast.Tactful start.sinks → last.session.status = none)) ∧
      ((∀ position, .hook position ∈ runner.bus.recipients EventKind.stopped.type →
          Preserves Inactive (audience.react position)) → last.session.active = false) ∧
      ∃ stopped, runFrom (stop audience) runner = (.ok (), stopped) ∧
        last.session = stopped.session ∧ last.supplied = stopped.supplied := by
  intro runner audience
  have hreposeful : audience.Reposeful (cast.Tactful start.sinks) start.sinks :=
    reposeful_conducted hgenuine.conduct id patience depth
  have hreposed := cast.reposed_moment hstart hbound hgenuine cut
  have hsole : runner.Sole :=
    upheldThroughout_sole.reachable ⟨cast, cut, rfl⟩ (sole_of_fresh hstart)
  have hreact (position : Nat) : Preserves Sole (audience.react position) := by
    have hkept := upheldThroughout_sole.preserves_react (fun _ ↦ false) cast.conduct patience depth
    rw [Audience.conductedUntil_never] at hkept
    exact hkept position
  have hstopped {stopped : Runner} (hstop : runFrom (stop audience) runner = (.ok (), stopped)) :
      Reposed (cast.Tactful start.sinks) False start.sinks stopped ∧ stopped.Sole := by
    have hlast := ((hreposeful.preserves_stop).and
      (upheldThroughout_sole.preserves_stop hreact) runner ⟨hreposed, hsole⟩).last
    rwa [hstop] at hlast
  refine ⟨fun stopped hstop ↦ ?_, fun last hshutdown ↦ ?_⟩
  · obtain ⟨lines, hdetach⟩ := exists_detached (hstopped hstop).1.plain
    exact ⟨_, (runFrom_shutdown_of_stopped hstop).trans hdetach⟩
  · obtain ⟨stopped, hstop⟩ := exists_stopped hshutdown
    obtain ⟨hleft, hone⟩ := hstopped hstop
    obtain ⟨lines, hdetach⟩ := exists_detached hleft.plain
    rw [runFrom_shutdown_of_stopped hstop, hdetach] at hshutdown
    obtain rfl : stopped.detached.withLines lines = last := congrArg Prod.snd hshutdown
    have hcleared : (stopped.detached.withLines lines).Sole := { hone.cleared with }
    refine ⟨rfl, hcleared.live_eq_nil rfl, fun hinactive ↦ ?_, fun hquiet ↦ ?_,
      stopped, hstop, rfl, rfl⟩
    · exact ⟨hleft.supplied_eq hinactive, fun htactful ↦ hleft.status_eq htactful hinactive⟩
    · have hends := (yields_stop_inactive hreposed.plain hquiet).last
      rwa [hstop] at hends

/-- Starts another session at its first call, or rests. -/
def restartsAtFirst (restarts : Bool) (_ : Nat) (runner : Runner) : Conduct :=
  if restarts ∧ runner.hookCalls = #[1] then .inTurn [.start "+" ⟨false, false⟩] else .rest

/-- A caller who starts a session before an observer who may restart it. -/
def restartingCast (restarts : Bool) : Cast :=
  ⟨restartsAtFirst restarts, 10, 2, .inTurn [.start "++" ⟨true, false⟩]⟩

theorem genuine_restartingCast (restarts : Bool) (start : Runner) :
    (restartingCast restarts).Genuine start where
  conduct position runner := by
    show (restartsAtFirst restarts position runner).Gives (fun _ ↦ Order.Genuine) runner
    unfold restartsAtFirst
    split
    · exact Conduct.gives_inTurn (by simp [Order.Genuine]) runner
    · trivial
  caller := Conduct.gives_inTurn (by simp [Order.Genuine]) start

/-- A session is shut down before a handler of its stop. If the handler starts another session, that
one is active afterwards, with a supply and without an engine; if it rests, nothing is left. -/
theorem shutdown_quiet_unless_restarted_inside :
    ∃ start left rested, fresh ⟨.tape, 2, "", 0, .empty⟩
        [⟨.event "session.stopped", [], []⟩] .initial = .ok start ∧
      runFrom (shutdown (.conducted (restartsAtFirst true) 10 2))
        ((restartingCast true).moment start fun _ ↦ false) = (.ok (), left) ∧
      left.session.active = true ∧ left.supplied = some 1 ∧ left.attached = none ∧
        Timer.live left.timers = [] ∧
      runFrom (shutdown (.conducted (restartsAtFirst false) 10 2))
        ((restartingCast false).moment start fun _ ↦ false) = (.ok (), rested) ∧
      rested.session.active = false ∧ rested.supplied = none ∧ rested.session.status = none := by
  obtain ⟨start, hstart⟩ : ∃ start, fresh ⟨.tape, 2, "", 0, .empty⟩
      [⟨.event "session.stopped", [], []⟩] .initial = .ok start := ⟨_, rfl⟩
  have hreturns (restarts : Bool) : ∃ last,
      runFrom (shutdown (.conducted (restartsAtFirst restarts) 10 2))
        ((restartingCast restarts).moment start fun _ ↦ false) = (.ok (), last) ∧
      (restarts = true → last.session.active = true ∧ last.supplied = some 1) := by
    have hended : (
        let ended := runFrom (shutdown (.conducted (restartsAtFirst restarts) 10 2))
          ((restartingCast restarts).moment start fun _ ↦ false);
        ended.1.isOk && (!restarts ||
          ended.2.session.active && decide (ended.2.supplied = some 1))) = true := by
      cases hstart
      cases restarts <;> decide +kernel
    generalize runFrom (shutdown (.conducted (restartsAtFirst restarts) 10 2))
      ((restartingCast restarts).moment start fun _ ↦ false) = ended at hended
    obtain ⟨halt | _, last⟩ := ended
    · cases hended
    · refine ⟨last, rfl, ?_⟩
      rintro rfl
      simp only [Bool.not_true, Bool.false_or, Bool.and_eq_true, decide_eq_true_eq] at hended
      exact hended.2
  obtain ⟨left, hleft, hrestarted⟩ := hreturns true
  obtain ⟨rested, hrested, -⟩ := hreturns false
  obtain ⟨hactive, hsupplied⟩ := hrestarted rfl
  obtain ⟨hdetached, hlive, -⟩ := (shutdown_quiet_unless_restarted hstart Fields.plain_nil
    (genuine_restartingCast true start) (fun _ ↦ false) 10 2).2 left hleft
  have hquiet (position : Nat) : Preserves Inactive
      ((Audience.conducted (restartsAtFirst false) 10 2).react position) := by
    refine keeps_react_of_passive (fun runner ↦ ?_) fun _ _ hinactive ↦ hinactive
    simp only [Audience.conducted, restartsAtFirst]
    exact ⟨_, rfl⟩
  obtain ⟨-, -, hbare, hover, -⟩ := (shutdown_quiet_unless_restarted hstart Fields.plain_nil
    (genuine_restartingCast false start) (fun _ ↦ false) 10 2).2 rested hrested
  have hinactive := hover fun position _ ↦ hquiet position
  have htactful : (restartingCast false).Tactful start.sinks := fun _ _ _ ↦ trivial
  exact ⟨start, left, rested, hstart, hleft, hactive, hsupplied, hdetached, hlive, hrested,
    hinactive, (hbare hinactive).1, (hbare hinactive).2 htactful⟩

end Runner

end TapeRunner
