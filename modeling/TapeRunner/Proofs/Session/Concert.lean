import TapeRunner.Proofs.Session.Kindred

/-!
# Kindred sessions in concert

Before observers that only listen, whatever is asked of two kindred sessions is done by both alike:
it is answered alike or fails alike, and it leaves them kindred. This is so for every operation but
a start, which brings runs and places of its own.
-/

set_option autoImplicit false
set_option relaxedAutoImplicit false

namespace TapeRunner

open Activity

namespace Runner

variable {pasts : Pasts} {left right : Runner} {audience other : Audience}

namespace Kindred

theorem alike_runAt (hkindred : Kindred pasts left right) :
    Alike (Kindred pasts) (runAt pasts.place) (runAt pasts.spot) left right := by
  obtain ⟨run, hleft, hright⟩ := hkindred.run
  exact .of_ends (fun _ ↦ ends_runAt hleft) (fun _ ↦ ends_runAt hright)
    (Lockstep.pure run left right hkindred)

/-- A session that changes on both sides is still the same but for its number. -/
theorem alike_modifySession (hkindred : Kindred pasts left right) {change : Session → Session}
    (hchange : ∀ session number, change { session with number } = { change session with number })
    (hnumber : ∀ session, (change session).number = session.number) :
    Alike (Kindred pasts) (modifySession change) (modifySession change) left right := by
  refine ⟨rfl, ?_⟩
  refine { hkindred with session_eq := ?_ }
  change change left.session = { change right.session with number := (change left.session).number }
  rw [hnumber, ← hchange]
  exact congrArg change hkindred.session_eq

theorem lockstep_againUnless {again further : Action Unit}
    (hagain : Lockstep (Kindred pasts) again further) (speed : Int) :
    Lockstep (Kindred pasts) (againUnless speed again) (againUnless speed further) := by
  apply Lockstep.get_bind
  intro left right hkindred
  rw [hkindred.speed_eq]
  split
  · exact hagain left right hkindred
  · exact Lockstep.pure () left right hkindred

theorem lockstep_requireRun_bind {Result : Type} (operation : String)
    {next further : Nat → Action Result}
    (hnext : ∀ left right, Kindred pasts left right → left.attached = some pasts.place →
      right.attached = some pasts.spot →
        Alike (Kindred pasts) (next pasts.place) (further pasts.spot) left right) :
    Lockstep (Kindred pasts) (requireRun operation >>= next)
      (requireRun operation >>= further) := by
  intro left right hkindred
  rcases hkindred.attached with ⟨hone, hanother⟩ | ⟨hone, hanother⟩
  · refine .of_ends (fun _ ↦ ?_) (fun _ ↦ ?_)
      (Lockstep.fail (.noSession operation) left right hkindred)
    · rw [ends_bind, ends_requireRun, hone]
      exact Iff.rfl
    · rw [ends_bind, ends_requireRun, hanother]
      exact Iff.rfl
  · refine .of_ends (fun _ ↦ ?_) (fun _ ↦ ?_) (hnext left right hkindred hone hanother)
    · rw [ends_bind, ends_requireRun, hone]
    · rw [ends_bind, ends_requireRun, hanother]

theorem lockstep_acceptance (instruction : String) (outcome : Except Fault Unit) :
    Lockstep (Kindred pasts) (acceptance instruction outcome) (acceptance instruction outcome) := by
  rcases outcome with fault | _
  · have hfree :
        Fields.Free [("instruction", .text instruction), ("reason", .text fault.message)] :=
      Fields.free_cons (by decide) (Fields.free_cons (by decide) Fields.free_nil)
    exact Lockstep.bind (fun _ _ hkindred ↦ hkindred.alike_log _ _ hfree hfree fun _ ↦ rfl)
      fun _ ↦ Lockstep.pure false
  · exact Lockstep.pure true

/-- The engine is let go on both sides. -/
theorem lockstep_detach : Lockstep (Kindred pasts) detach detach :=
  Lockstep.bind (fun _ _ hkindred ↦ hkindred.alike_disarm) fun _ _ _ hkindred ↦
    ⟨rfl, hkindred.detached⟩

/-- What the next start finds is changed on both sides. -/
theorem lockstep_modifyBench (change : Bench → Bench) :
    Lockstep (Kindred pasts) (modifyBench change) (modifyBench change) :=
  Lockstep.modify fun _ _ hkindred ↦ { hkindred with bench_eq := congrArg change hkindred.bench_eq }

theorem lockstep_setClock (numerator denominator : Int) :
    Lockstep (Kindred pasts) (setClock numerator denominator) (setClock numerator denominator) := by
  unfold setClock
  cases Number.ratio numerator denominator with
  | error fault => exact Lockstep.fail _
  | ok clock => exact lockstep_modifyBench _

/-- A glance shows the same. -/
theorem lockstep_look : Lockstep (Kindred pasts) (obey audience .look) (obey other .look) := by
  apply Lockstep.get_bind
  intro left right hkindred
  have hattached : left.attached.isSome = right.attached.isSome := by
    rcases hkindred.attached with ⟨hone, hanother⟩ | ⟨hone, hanother⟩ <;> simp [hone, hanother]
  rw [hkindred.session_eq, hattached]
  exact Lockstep.pure _ left right hkindred

/-- What is fed to the input of one is fed to that of the other. -/
theorem lockstep_feed (content : String) :
    Lockstep (Kindred pasts) (feed content) (feed content) := by
  apply Lockstep.get_bind
  intro left right hkindred
  rcases hkindred.supplied with ⟨hone, hanother⟩ | ⟨hone, hanother⟩
  · simp only [hone, hanother]
    exact Lockstep.fail _ left right hkindred
  · simp only [hone, hanother]
    exact ⟨rfl, hkindred.changeRun _⟩

/-- A byte is taken from the input of one as from that of the other. -/
theorem lockstep_readInput : Lockstep (Kindred pasts) readInput readInput := by
  apply Lockstep.get_bind
  intro left right hkindred
  rcases hkindred.supplied with ⟨hone, hanother⟩ | ⟨hone, hanother⟩
  · simp only [hone, hanother]
    exact Lockstep.fail _ left right hkindred
  · simp only [hone, hanother]
    refine hkindred.alike_runAt.bind fun run left right hfound ↦ ?_
    cases run.supply.take with
    | error fault => exact Lockstep.fail _ left right hfound
    | ok taken => exact ⟨rfl, hfound.changeRun _⟩

section Passive

variable (hpassive : audience.Passive) (hother : other.Passive)
include hpassive hother

theorem lockstep_blockingSteps (patience : Nat) : Lockstep (Kindred pasts)
    (blockingSteps audience pasts.place patience) (blockingSteps other pasts.spot patience) := by
  induction patience with
  | zero => exact Lockstep.giveUp
  | succ patience ih =>
    intro left right hkindred
    refine hkindred.alike_runAt.bind fun run left right hfound ↦ ?_
    refine Lockstep.get_bind (fun left right hkindred ↦ ?_) left right hfound
    rw [hkindred.speed_eq]
    split
    · refine (hkindred.alike_advance hpassive hother).bind fun _ left right hadvanced ↦ ?_
      exact Alike.bind (hadvanced.alike_modifySession (fun _ _ ↦ rfl) fun _ ↦ rfl) fun _ ↦ ih
    · exact Lockstep.pure () left right hkindred

theorem alike_concludeStep (hkindred : Kindred pasts left right) (outcome : Except Fault Unit) :
    Alike (Kindred pasts) (concludeStep audience pasts.place outcome)
      (concludeStep other pasts.spot outcome) left right := by
  rcases outcome with fault | _
  · exact hkindred.alike_conclude hpassive hother (.error fault)
  · refine Alike.bind (hkindred.alike_modifySession (fun _ _ ↦ rfl) fun _ ↦ rfl)
      fun _ left right hcounted ↦ ?_
    refine hcounted.alike_runAt.bind fun run left right hfound ↦ ?_
    split
    · exact hfound.alike_conclude hpassive hother (.ok ())
    · exact Lockstep.pure () left right hfound

theorem lockstep_tellChange (previous : Int) :
    Lockstep (Kindred pasts) (tellChange audience previous) (tellChange other previous) := by
  apply Lockstep.get_bind
  intro left right hkindred
  rw [hkindred.active_eq]
  split
  · exact hkindred.alike_tell hpassive hother _
  · exact Lockstep.pure () left right hkindred

theorem lockstep_inject (instruction : String) :
    Lockstep (Kindred pasts) (inject audience instruction) (inject other instruction) := by
  rw [inject_eq, inject_eq]
  refine lockstep_requireRun_bind "inject_instruction" fun left right hkindred _ _ ↦ ?_
  refine (hkindred.alike_execute hpassive hother instruction).attempt.bind fun outcome ↦ ?_
  refine (lockstep_acceptance instruction outcome).bind fun accepted left right haccepted ↦ ?_
  exact (haccepted.alike_tell hpassive hother _).bind fun _ ↦ Lockstep.pure accepted

/-- A session is stopped alike. -/
theorem lockstep_stop : Lockstep (Kindred pasts) (stop audience) (stop other) := by
  intro left right hkindred
  cases hactive : right.session.active with
  | false =>
    exact .of_ends (fun _ ↦ ends_stop_of_inactive (hkindred.active_eq.trans hactive))
      (fun _ ↦ ends_stop_of_inactive hactive) (Lockstep.pure () left right hkindred)
  | true =>
    refine Alike.of_rest
      (fun _ _ ↦ yields_stop (hkindred.active_eq.trans hactive) hkindred.boundLeft)
      (fun _ _ ↦ yields_stop hactive hkindred.boundRight) fun lines further ↦ ?_
    have hsteps : left.session.steps = right.session.steps := by rw [hkindred.session_eq]
    rw [hsteps]
    have hfree : Fields.Free [("steps", .ofNat right.session.steps)] :=
      Fields.free_cons (by decide) Fields.free_nil
    refine Alike.bind ((hkindred.ended.withLines lines further).alike_log_named _ _ hfree)
      fun _ left right hlogged ↦ ?_
    refine (hlogged.alike_tell hpassive hother .stopped).bind fun _ left right htold ↦ ?_
    exact ⟨rfl, htold.unbound⟩

/-- So is the engine let go, if there is one. -/
theorem lockstep_shutdown : Lockstep (Kindred pasts) (shutdown audience) (shutdown other) :=
  (lockstep_stop hpassive hother).bind fun _ ↦ lockstep_detach

variable (hpatience : audience.patience = other.patience)
include hpatience

theorem lockstep_blockingRun {again further : Action Unit}
    (hagain : Lockstep (Kindred pasts) again further) : Lockstep (Kindred pasts)
      (blockingRun audience again pasts.place) (blockingRun other further pasts.spot) := by
  rw [blockingRun_eq, blockingRun_eq]
  apply Lockstep.get_bind
  intro left right hkindred
  rw [hkindred.speed_eq, hpatience]
  refine (hkindred.alike_log_named .info "session.blocking_run" Fields.free_nil).bind
    fun _ ↦ (lockstep_blockingSteps hpassive hother other.patience).attempt.bind ?_
  intro outcome
  refine Lockstep.bind (fun left right hrun ↦ hrun.alike_conclude hpassive hother outcome) ?_
  exact fun _ ↦ lockstep_againUnless hagain _

theorem lockstep_engage {again further : Action Unit}
    (hagain : Lockstep (Kindred pasts) again further) : Lockstep (Kindred pasts)
      (engage audience again) (engage other further) := by
  apply Lockstep.get_bind
  intro left right hkindred
  have hpure := Lockstep.pure () left right hkindred
  rcases hkindred.attached with ⟨hone, hanother⟩ | ⟨hone, hanother⟩
  · simp only [hone, hanother]
    exact hpure
  · simp only [hone, hanother, hkindred.active_eq, hkindred.speed_eq]
    split
    · split
      · exact hkindred.alike_arm _ _
      · split
        · exact hpure
        · exact lockstep_blockingRun hpassive hother hpatience hagain left right hkindred
    · exact hpure

theorem lockstep_rearm : Lockstep (Kindred pasts) (rearm audience) (rearm other) := by
  have hwithin (bound : Nat) :
      Lockstep (Kindred pasts) (rearmWithin audience bound) (rearmWithin other bound) := by
    induction bound with
    | zero => exact Lockstep.giveUp
    | succ bound ih =>
      rw [rearmWithin_succ, rearmWithin_succ]
      refine Lockstep.bind (fun _ _ hkindred ↦ hkindred.alike_disarm) ?_
      exact fun _ ↦ lockstep_engage hpassive hother hpatience ih
  rw [rearm, rearm, hpatience]
  exact hwithin other.patience

theorem lockstep_runBlocking :
    Lockstep (Kindred pasts) (runBlocking audience) (runBlocking other) :=
  lockstep_requireRun_bind "run_blocking" fun left right hkindred _ _ ↦
    lockstep_blockingRun hpassive hother hpatience
      (lockstep_rearm hpassive hother hpatience) left right hkindred

theorem lockstep_step : Lockstep (Kindred pasts) (step audience) (step other) := by
  rw [step_eq, step_eq]
  refine lockstep_requireRun_bind "step" fun left right hkindred _ _ ↦ ?_
  refine Lockstep.get_bind (fun left right hkindred ↦ ?_) left right hkindred
  rw [hkindred.speed_eq]
  refine Alike.bind (hkindred.alike_modifySession (fun _ _ ↦ rfl) fun _ ↦ rfl)
    fun _ left right hwiped ↦ ?_
  refine (hwiped.alike_advance hpassive hother).attempt.bind fun outcome left right hstepped ↦ ?_
  have hconcluded := hstepped.alike_concludeStep hpassive hother outcome
  refine hconcluded.bind fun _ left right hreported ↦ ?_
  exact (hreported.alike_tell hpassive hother .stepped).bind fun _ ↦
    lockstep_againUnless (lockstep_rearm hpassive hother hpatience) _

theorem lockstep_setSpeed (speed : Int) :
    Lockstep (Kindred pasts) (setSpeed audience speed) (setSpeed other speed) := by
  rw [setSpeed_eq, setSpeed_eq]
  apply Lockstep.get_bind
  intro left right hkindred
  rw [hkindred.speed_eq]
  have hfree (previous : Int) :
      Fields.Free [("previous_speed", .whole previous), ("speed", .whole speed)] :=
    Fields.free_cons (by decide) (Fields.free_cons (by decide) Fields.free_nil)
  have htold (previous : Int) : Lockstep (Kindred pasts)
      (tellChange audience previous >>= fun _ ↦ rearm audience)
      (tellChange other previous >>= fun _ ↦ rearm other) :=
    (lockstep_tellChange hpassive hother previous).bind fun _ ↦
      lockstep_rearm hpassive hother hpatience
  split
  · refine Alike.bind (hkindred.alike_modifySession (fun _ _ ↦ rfl) fun _ ↦ rfl)
      fun _ left right hchanged ↦ ?_
    exact (hchanged.alike_log _ _ (hfree _) (hfree _) fun _ ↦ rfl).bind fun _ ↦ htold _
  · exact Lockstep.pure () left right hkindred

theorem lockstep_faster : Lockstep (Kindred pasts) (faster audience) (faster other) := by
  apply Lockstep.get_bind
  intro left right hkindred
  rw [hkindred.speed_eq]
  exact lockstep_setSpeed hpassive hother hpatience _ left right hkindred

theorem lockstep_slower : Lockstep (Kindred pasts) (slower audience) (slower other) := by
  apply Lockstep.get_bind
  intro left right hkindred
  simp only [hkindred.speed_eq]
  split
  · exact lockstep_setSpeed hpassive hother hpatience _ left right hkindred
  · exact Lockstep.pure () left right hkindred

end Passive

end Kindred

end Runner

end TapeRunner
