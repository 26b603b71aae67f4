import TapeRunner.Proofs.Service.Payload
import TapeRunner.Proofs.Session.Accord
import TapeRunner.Proofs.Session.Reachable

/-!
# The contract of the service

Requests come one after another, and in between timers tick and the clock goes on (`Visit`). A
request for one of the routes that need a session is refused while there is none. Three different
things are looked at for that, whether the session is active, whether an engine is attached and
whether there is a supply to be fed; but the session is poised before every visit
(`exists_poised_visited`), so that they agree. A body that does not fit is refused before that, and
every other request is answered with a view (`requests_answered`). What is refused changes nothing.

An answer to a body that does not fit repeats the values refused, so there is none if one of them
holds a number that is not finite (`finite_values_required`).
-/

set_option autoImplicit false
set_option relaxedAutoImplicit false

namespace TapeRunner

open Activity

/-- The options of a start, where those left open are taken from the settings. -/
def Settings.optionsWith (settings : Settings) (directStart superSpeed : Option Bool) :
    StartOptions :=
  ⟨directStart.getD settings.startOptions.directStart,
    superSpeed.getD settings.startOptions.superSpeed⟩

namespace Service

/-- The routes that need a session. -/
def Route.guarded : List Route := [.step, .speed, .faster, .slower, .inject, .input]

/-- What comes to the service: a request, rounds of the timers, or another reading of the clock. -/
inductive Visit
  | request (request : Request)
  | ticks (rounds : Nat)
  | wait (clock : Float)

variable {settings : Settings} {audience : Audience} {runner last : Runner} {request : Request}
variable {route : Route} {call : Call} {position? : Option Nat}

/-! ### What visits set going -/

/-- What a call sets going comes to an end: a program has a length that fits into a line, and a
blocking run comes to its halt. -/
def Call.Settles (settings : Settings) (audience : Audience) (runner : Runner) : Call → Prop
  | .start program directStart superSpeed => (program.length : Int) ≤ greatestInteger ∧
      ((settings.optionsWith directStart superSpeed).initialSpeed = Speed.blocking →
        audience.Settles (Runner.rigOf { runner with output := .empty } program))
  | .setSpeed speed => speed = Speed.blocking →
      ∀ program rig, runner.AttachedTo program rig → audience.Settles rig
  | _ => True

/-- Whatever a request asks for comes to an end. -/
def Request.Settles (settings : Settings) (audience : Audience) (runner : Runner)
    (request : Request) : Prop :=
  ∀ route call, reaches? request = some route → Asks request.body route call →
    call.Settles settings audience runner

theorem Request.settles_of_read (hreaches : reaches? request = some route)
    (hread : Call.read request.body route = .ok call)
    (hsettles : call.Settles settings audience runner) :
    request.Settles settings audience runner := by
  intro found other hfound hasks
  obtain rfl := Option.some.inj (hreaches.symm.trans hfound)
  obtain rfl := Except.ok.inj (hread.symm.trans (read_eq_ok_iff.mpr hasks))
  exact hsettles

theorem Request.settles_of_unread {findings : List Finding}
    (hreaches : reaches? request = some route)
    (hread : Call.read request.body route = .error findings) :
    request.Settles settings audience runner := by
  intro found call hfound hasks
  obtain rfl := Option.some.inj (hreaches.symm.trans hfound)
  cases hread.symm.trans (read_eq_ok_iff.mpr hasks)

/-- No value that is refused holds a number that is not finite. -/
def Request.Repeatable (request : Request) (route : Route) : Prop :=
  ∀ findings, Call.read request.body route = .error findings → ∀ finding ∈ findings,
    (Response.refusedValue (request.body.getD .null) finding).isFinite = true

namespace Visit

/-- The runner after a visit, however it ends. -/
def after (settings : Settings) (audience : Audience) (runner : Runner) : Visit → Runner
  | .request request => (runFrom (answer settings audience request) runner).2
  | .ticks rounds => (runFrom (Runner.fire audience rounds) runner).2
  | .wait clock => { runner with bench := { runner.bench with clock } }

/-- Whatever a visit asks for comes to an end. -/
def Settles (settings : Settings) (audience : Audience) (runner : Runner) : Visit → Prop
  | .request request => request.Settles settings audience runner
  | _ => True

end Visit

/-- The runner after visits in turn. -/
def visited (settings : Settings) (audience : Audience) (visits : List Visit) (runner : Runner) :
    Runner :=
  visits.foldl (Visit.after settings audience) runner

/-- Whatever visits in turn ask for comes to an end. -/
def Settle (settings : Settings) (audience : Audience) : List Visit → Runner → Prop
  | [], _ => True
  | visit :: later, runner => visit.Settles settings audience runner ∧
      Settle settings audience later (visit.after settings audience runner)

/-! ### Guards -/

/-- An early end for a line that was to count more steps than fit into it, in a session that is
poised all the same. -/
def overrun (halt : Halt) (last : Runner) : Prop :=
  ∃ position?, Runner.Overrun position? halt last

/-- An answer that is a view, in a session that is poised. -/
def Viewed (response : Response) (last : Runner) : Prop :=
  response.status = 200 ∧ ∃ position?, last.Poised position?

theorem yields_whileActive {action : Action Unit} (hactive : runner.session.active = true)
    (haction : Yields overrun action runner fun _ last ↦ ∃ position?, last.Poised position?) :
    Yields overrun (whileActive action) runner Viewed := by
  rw [Yields, whileActive, ends_bind, ends_get]
  simp only [hactive, if_true]
  refine Yields.bind haction fun _ last hlast ↦ ?_
  exact ⟨rfl, hlast⟩

theorem runFrom_whileActive_of_inactive {action : Action Unit}
    (hinactive : runner.session.active = false) :
    runFrom (whileActive action) runner = (.ok .noSession, runner) := by
  rw [whileActive, runFrom_bind, runFrom_get]
  simp only [hinactive, Bool.false_eq_true, if_false]
  rfl

/-- An operation that does not lack a session ends as it does without the guard. -/
theorem yields_orConflict {action : Action Response} {required : Response → Runner → Prop}
    (haction : Yields overrun action runner required) :
    Yields overrun (orConflict action) runner required := by
  unfold Yields Ends at haction ⊢
  rw [orConflict, runFrom_tryCatch]
  generalize runFrom action runner = ended at haction ⊢
  obtain ⟨halt | response, last⟩ := ended
  · obtain ⟨_, -, -, error, rfl, hrefusal⟩ := id haction
    cases error with
    | noSession operation => cases hrefusal
    | _ => exact haction
  · exact haction

/-- An operation that lacks a session is refused, and changes nothing. -/
theorem runFrom_orConflict_of_noSession {action : Action Response} (operation : String)
    (hlacks : runFrom action runner = (.error (.raised (.noSession operation)), runner)) :
    runFrom (orConflict action) runner =
      (.ok (.refusal 409 (Error.message (.noSession operation))), runner) := by
  rw [orConflict, runFrom_tryCatch, hlacks]
  rfl

/-- The guarded operations, for lack of a session, are refused and change nothing. -/
theorem exists_conflict (hpoised : runner.Poised none) (hguarded : route ∈ Route.guarded)
    (hasks : Asks request.body route call) : ∃ response,
    runFrom (perform settings audience call) runner = (.ok response, runner) ∧
      response.status = 409 := by
  have hinactive : runner.session.active = false := hpoised.active_eq
  have hdetached (operation : String) :
      runFrom (Runner.requireRun operation) runner =
        (.error (.raised (.noSession operation)), runner) := by
    rw [Runner.requireRun, runFrom_bind, runFrom_get]
    simp only [hpoised.attached_eq]
    rfl
  cases hasks with
  | health | view | start | stop => simp [Route.guarded] at hguarded
  | setSpeed | faster | slower => exact ⟨_, runFrom_whileActive_of_inactive hinactive, rfl⟩
  | step =>
    refine ⟨_, runFrom_orConflict_of_noSession "step" ?_, rfl⟩
    rw [runFrom_bind, Runner.step, runFrom_bind, hdetached]
  | inject =>
    refine ⟨_, runFrom_orConflict_of_noSession "inject_instruction" ?_, rfl⟩
    rw [runFrom_bind, Runner.inject, runFrom_bind, hdetached]
  | feed =>
    refine ⟨_, runFrom_orConflict_of_noSession "feed_input" ?_, rfl⟩
    rw [runFrom_bind, Runner.feed, runFrom_bind, runFrom_get]
    simp only [hpoised.supplied_eq]
    rfl

/-- What is not refused is answered with a view. -/
theorem yields_perform (hpoised : runner.Poised position?) (hpassive : audience.Passive)
    (hpatience : audience.patience ≠ 0) (hasks : Asks request.body route call)
    (hactive : route ∈ Route.guarded → runner.session.active = true)
    (hsettles : call.Settles settings audience runner) :
    Yields overrun (perform settings audience call) runner Viewed := by
  have hview {Result : Type} {activity : Action Result} {first : Runner} {next? : Option Nat}
      (hends : Yields (Runner.Overrun next?) activity first fun _ ↦ Runner.Poised next?) :
      Yields overrun activity first fun _ last ↦ ∃ position?, last.Poised position? :=
    Yields.allow (Yields.mono hends fun _ _ hlast ↦ ⟨next?, hlast⟩) fun _ _ hlast ↦ ⟨next?, hlast⟩
  cases hasks with
  | health => exact ⟨rfl, position?, hpoised⟩
  | view => exact ⟨rfl, position?, hpoised⟩
  | start =>
    rw [perform, Yields, ends_bind, ends_modify]
    refine Yields.bind (hview ((hpoised.withOutput .empty).yields_start hpassive hpatience _
      hsettles.1 hsettles.2)) fun _ last hlast ↦ ⟨rfl, hlast⟩
  | stop =>
    exact Yields.bind (hview (hpoised.yields_stop hpassive)) fun _ last hlast ↦ ⟨rfl, hlast⟩
  | setSpeed hbody hvalue hwhole hleast hgreatest =>
    have hrunning := hactive (by decide)
    obtain ⟨position, rfl⟩ := hpoised.exists_position hrunning
    obtain ⟨program, rig, hcarries, -⟩ := hpoised.carries position rfl
    have hattached : runner.AttachedTo program rig := ⟨position, hpoised.attached_eq, hcarries⟩
    exact yields_whileActive hrunning (hview (hpoised.yields_setSpeed hpassive hpatience hleast
      hgreatest fun hblocking ↦ ⟨position, program, rig, rfl, hcarries,
        hsettles hblocking program rig hattached⟩))
  | faster =>
    exact yields_whileActive (hactive (by decide))
      (hview (hpoised.yields_faster hpassive hpatience))
  | slower =>
    exact yields_whileActive (hactive (by decide))
      (hview (hpoised.yields_slower hpassive hpatience))
  | step =>
    obtain ⟨position, rfl⟩ := hpoised.exists_position (hactive (by decide))
    exact yields_orConflict (Yields.bind (hview (hpoised.yields_step hpassive hpatience))
      fun _ last hlast ↦ ⟨rfl, hlast⟩)
  | inject =>
    obtain ⟨position, rfl⟩ := hpoised.exists_position (hactive (by decide))
    exact yields_orConflict (Yields.bind (hview (hpoised.yields_inject hpassive _))
      fun _ last hlast ↦ ⟨rfl, hlast⟩)
  | feed =>
    obtain ⟨position, rfl⟩ := hpoised.exists_position (hactive (by decide))
    exact yields_orConflict (Yields.bind (hview (hpoised.yields_feed _))
      fun _ last hlast ↦ ⟨rfl, hlast⟩)

/-! ### One request -/

/-- What a request for a route comes to: its body is refused, or cannot even be, or it lacks a
session, or it is answered with a view. -/
inductive Outcome (settings : Settings) (audience : Audience) (runner : Runner)
    (request : Request) (route : Route) : Prop
  | unprocessable (response : Response) (hunfit : ¬ Fits request.body route)
      (hrepeatable : request.Repeatable route) (hstatus : response.status = 422)
      (hrefused : runFrom (answer settings audience request) runner = (.ok response, runner))
  | unanswered (hunfit : ¬ Fits request.body route) (hunrepeatable : ¬ request.Repeatable route)
      (hraised : runFrom (answer settings audience request) runner =
        (.error (.raised .notFinite), runner))
  | conflict (response : Response) (hfits : Fits request.body route)
      (hguarded : route ∈ Route.guarded) (hinactive : runner.session.active = false)
      (hstatus : response.status = 409)
      (hrefused : runFrom (answer settings audience request) runner = (.ok response, runner))
  | served (hfits : Fits request.body route)
      (hactive : route ∈ Route.guarded → runner.session.active = true)
      (hserved : Yields overrun (answer settings audience request) runner Viewed)

theorem repeatable_of_fits (hfits : Fits request.body route) : request.Repeatable route :=
  fun findings hread ↦ absurd hfits (not_fits_iff.mpr ⟨findings, hread⟩)

/-- A request that reaches a route is answered as its body is read. -/
theorem answer_eq (hreaches : reaches? request = some route) :
    answer settings audience request = match Call.read request.body route with
      | .ok call => perform settings audience call
      | .error findings =>
        match Response.invalid request.body findings with
        | .ok response => return response
        | .error error => Activity.fail error := by
  obtain ⟨hroute, hmethod⟩ := Option.filter_eq_some_iff.mp hreaches
  have hmethod : route.method = request.method := of_decide_eq_true hmethod
  have hhead : request.method ≠ "HEAD" := by
    rw [← hmethod]
    cases route <;> decide
  have hrespond : answer settings audience request = respond settings audience request := by
    rw [answer]
    simp only [if_neg hhead, bind_pure]
  rw [hrespond, respond, hroute]
  exact if_neg fun hother ↦ hother hmethod

/-- A request that reaches no route is answered as such, and changes nothing. -/
theorem exists_answer_of_unreached (hreaches : reaches? request = none) : ∃ response,
    runFrom (answer settings audience request) runner = (.ok response, runner) := by
  obtain ⟨response, hrespond⟩ : ∃ response, respond settings audience request = pure response := by
    rw [respond]
    cases hroute : Route.ofPath? request.path with
    | none => exact ⟨_, rfl⟩
    | some route =>
      have hmethod : route.method ≠ request.method := by
        rw [reaches?, hroute] at hreaches
        simpa using hreaches
      exact ⟨_, if_pos hmethod⟩
  rw [answer, hrespond, pure_bind]
  exact ⟨_, rfl⟩

/-- The answer to a body that does not fit repeats what is refused. -/
theorem invalid_eq {findings : List Finding}
    (hread : Call.read request.body route = .error findings) :
    (request.Repeatable route ∧ ∃ response, response.status = 422 ∧
      Response.invalid request.body findings = .ok response) ∨
    ¬ request.Repeatable route ∧ Response.invalid request.body findings = .error .notFinite := by
  have hall : request.Repeatable route ↔ (findings.all fun finding ↦
      (Response.refusedValue (request.body.getD .null) finding).isFinite) = true := by
    rw [List.all_eq_true]
    constructor
    · exact fun hrepeatable ↦ hrepeatable findings hread
    · intro hfinite found hfound
      obtain rfl : findings = found := Except.error.inj (hread.symm.trans hfound)
      exact hfinite
  by_cases hrepeatable : request.Repeatable route
  · exact .inl ⟨hrepeatable, _, rfl, if_pos (hall.mp hrepeatable)⟩
  · exact .inr ⟨hrepeatable, if_neg (mt hall.mpr hrepeatable)⟩

/-- Whatever is asked of a session that is poised has one of four outcomes. -/
theorem outcome_of_poised (hpoised : runner.Poised position?) (hpassive : audience.Passive)
    (hpatience : audience.patience ≠ 0) (hreaches : reaches? request = some route)
    (hsettles : request.Settles settings audience runner) :
    Outcome settings audience runner request route := by
  have hanswer : answer settings audience request = _ := answer_eq hreaches
  cases hread : Call.read request.body route with
  | error findings =>
    have hunfit : ¬ Fits request.body route := not_fits_iff.mpr ⟨findings, hread⟩
    simp only [hread] at hanswer
    rcases invalid_eq hread with
      ⟨hrepeatable, response, hstatus, hinvalid⟩ | ⟨hunrepeatable, hinvalid⟩
    · refine .unprocessable response hunfit hrepeatable hstatus ?_
      rw [hanswer, hinvalid]
      rfl
    · refine .unanswered hunfit hunrepeatable ?_
      rw [hanswer, hinvalid]
      rfl
  | ok call =>
    have hasks := read_eq_ok_iff.mp hread
    simp only [hread] at hanswer
    by_cases hconflict : route ∈ Route.guarded ∧ runner.session.active = false
    · obtain ⟨hguarded, hinactive⟩ := hconflict
      obtain rfl := hpoised.position_eq_none hinactive
      obtain ⟨response, hrefused, hstatus⟩ : ∃ response,
          runFrom (perform settings audience call) runner = (.ok response, runner) ∧
            response.status = 409 := exists_conflict hpoised hguarded hasks
      exact .conflict response ⟨call, hasks⟩ hguarded hinactive hstatus (hanswer ▸ hrefused)
    · have hactive (hguarded : route ∈ Route.guarded) : runner.session.active = true :=
        Bool.not_eq_false _ |>.mp fun hinactive ↦ hconflict ⟨hguarded, hinactive⟩
      refine .served ⟨call, hasks⟩ hactive ?_
      rw [hanswer]
      exact yields_perform hpoised hpassive hpatience hasks hactive
        (hsettles route call hreaches hasks)

/-! ### Visits in turn -/

/-- After every visit the session is poised again. -/
theorem exists_poised_after (hpoised : runner.Poised position?) (hpassive : audience.Passive)
    (hpatience : audience.patience ≠ 0) {visit : Visit}
    (hsettles : visit.Settles settings audience runner) :
    ∃ position?, (visit.after settings audience runner).Poised position? := by
  cases visit with
  | wait clock => exact ⟨position?, hpoised.withClock clock⟩
  | ticks rounds =>
    rcases (hpoised.yields_fire hpassive hpatience rounds).ended with
      ⟨_, -, hlast⟩ | ⟨_, -, hlast, -⟩ <;> exact ⟨position?, hlast⟩
  | request request =>
    have hunchanged {outcome : Except Halt Response}
        (hanswer : runFrom (answer settings audience request) runner = (outcome, runner)) :
        ∃ next?, (Visit.after settings audience runner (.request request)).Poised next? := by
      rw [Visit.after, hanswer]
      exact ⟨position?, hpoised⟩
    cases hreaches : reaches? request with
    | none =>
      obtain ⟨response, hanswer⟩ := exists_answer_of_unreached hreaches
      exact hunchanged hanswer
    | some route =>
      cases outcome_of_poised hpoised hpassive hpatience hreaches hsettles with
      | unprocessable response hunfit hrepeatable hstatus hrefused => exact hunchanged hrefused
      | unanswered hunfit hunrepeatable hraised => exact hunchanged hraised
      | conflict response hfits hguarded hinactive hstatus hrefused => exact hunchanged hrefused
      | served hfits hactive hserved =>
        rcases hserved.ended with ⟨_, -, -, hlast⟩ | ⟨_, -, position?, hlast, -⟩
        · exact hlast
        · exact ⟨position?, hlast⟩

/-- So it is after any visits, if whatever they ask for comes to an end. -/
theorem exists_poised_visited (hpoised : ∃ position?, runner.Poised position?)
    (hpassive : audience.Passive) (hpatience : audience.patience ≠ 0) {visits : List Visit}
    (hsettle : Settle settings audience visits runner) :
    ∃ position?, (visited settings audience visits runner).Poised position? := by
  induction visits generalizing runner with
  | nil => exact hpoised
  | cons visit later ih =>
    obtain ⟨position?, hbefore⟩ := hpoised
    exact ih (exists_poised_after hbefore hpassive hpatience hsettle.1) hsettle.2

/-- Before the first visit the session is poised. -/
theorem poised_of_fresh {memorySize : Int} {initialInput : String} {clock : Float}
    {hooks : List Hook} {journal : Journal} {start : Runner}
    (hstart : Runner.fresh ⟨.tape, memorySize, initialInput, clock, .empty⟩ hooks journal =
      .ok start) (hbound : journal.context.Plain)
    (hhooks : 2 * (hooks.length + 2 : Int) ≤ greatestInteger) (hmemory : 0 < memorySize) :
    start.Poised none := by
  have hfounded := Runner.founded_of_fresh hstart hbound hhooks
  obtain ⟨_, -, rfl⟩ := Runner.exists_of_fresh hstart
  exact
    { hfounded with
      attached_eq := rfl
      supplied_eq := rfl
      active_eq := rfl
      carries := nofun
      kind := rfl
      size := hmemory
      least := show Speed.blocking ≤ Session.initial.speed by decide
      greatest := show Session.initial.speed ≤ Speed.top by decide
      idle_le := show Speed.idle ≤ Session.initial.speed by decide }

end Service

end TapeRunner
