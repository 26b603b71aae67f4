import TapeRunner.Proofs.Session.Protocol

/-!
# What was seen last

The last event that a recorder heard shows the session and its engine as they are, between any two
orders while a session is active, and right after the order that stopped it
(`Runner.seen_last`). An order inside of a session shows what it has left behind, or leaves alone
what was shown before it (`Runner.UpToDate.of_accounted`). A change of speed is not shown if its
line is refused, so the speeds asked for have to be within the limits; and nobody is told of the
end of a stretch that has made more steps than fit into a line.
-/

set_option autoImplicit false
set_option relaxedAutoImplicit false

namespace TapeRunner

open Activity

/-- An order that asks for no speed beyond the limits. -/
def Order.Moderate : Order → Prop
  | .setSpeed speed => Speed.blocking ≤ speed ∧ speed ≤ Speed.top
  | _ => True

namespace Runner

variable {runner last : Runner} {audience : Audience} {order : Order}

/-- The last event shows the runner as it is, unless more steps have been made than fit into a
line. -/
def Seen (runner : Runner) : Prop :=
  runner.Shown ∨ greatestInteger < (runner.session.steps : Int)

/-- Regular, at a speed within the limits, and seen as it is while a session is active. -/
structure UpToDate (runner : Runner) : Prop extends runner.Regular where
  least : Speed.blocking ≤ runner.session.speed
  greatest : runner.session.speed ≤ Speed.top
  seen : runner.session.active = true → runner.Seen

/-- Every speed that a moderate order asks for is within the limits. -/
theorem UpToDate.speed_mem (huptodate : runner.UpToDate) (hmoderate : order.Moderate) {speed : Int}
    (hasks : order.speed? runner = some speed) :
    Speed.blocking ≤ speed ∧ speed ≤ Speed.top := by
  have hleast := huptodate.least
  have hgreatest := huptodate.greatest
  cases order with
  | setSpeed asked =>
    obtain rfl := Option.some.inj hasks
    exact hmoderate
  | faster =>
    obtain rfl := Option.some.inj hasks
    unfold Speed.clamp Speed.blocking Speed.top
    omega
  | slower =>
    by_cases hfast : Speed.idle < runner.session.speed
    · obtain rfl := Option.some.inj ((if_pos hfast).symm.trans hasks)
      unfold Speed.idle at hfast
      unfold Speed.blocking
      omega
    · cases (if_neg hfast).symm.trans hasks
  | pause =>
    obtain rfl := Option.some.inj hasks
    decide
  | superSpeed =>
    obtain rfl := Option.some.inj hasks
    decide
  | _ => cases hasks

/-- What an order tells that asks for a speed. -/
theorem tells_of_speed {kinds : List EventKind} {speed : Int}
    (hasks : order.speed? runner = some speed) :
    Tells audience runner order kinds ↔ runner.SpeedTells speed kinds := by
  cases order with
  | setSpeed | faster | slower | pause | superSpeed => simp only [Tells, hasks]
  | _ => cases hasks

/-- What is on record as expected leaves the session up to date, if the last event shows it then,
unless there were too many steps already. -/
theorem UpToDate.of_accounted {Result : Type} {outcome : Except Halt Result} {blocking : Prop}
    {expected : List EventKind → Runner → Prop} (hregular : runner.Regular)
    (hleast : Speed.blocking ≤ runner.session.speed) (hgreatest : runner.session.speed ≤ Speed.top)
    (haccounted : runner.Accounted blocking expected outcome last)
    (hexpected : ∀ kinds, expected kinds last → runner.session.active = true →
      last.Shown ∨ greatestInteger < (runner.session.steps : Int))
    (hends : outcome ≠ .error .unfinished) : last.UpToDate := by
  obtain ⟨kinds, hrecords, htold⟩ := haccounted
  have hspeed : Speed.blocking ≤ last.session.speed ∧ last.session.speed ≤ Speed.top := by
    rcases hrecords.speed_eq with hsame | hidle
    · rw [hsame]
      exact ⟨hleast, hgreatest⟩
    · rw [hidle]
      decide
  refine ⟨hrecords.regular hregular, hspeed.1, hspeed.2, fun hactive ↦ ?_⟩
  rcases htold with hkinds | ⟨halt, hhalt, hlong | ⟨-, hgave⟩⟩
  · refine (hexpected kinds hkinds (hrecords.active_eq.symm.trans hactive)).imp_right fun hlong ↦ ?_
    exact Int.lt_of_lt_of_le hlong (Int.ofNat_le.mpr hrecords.steps_le)
  · exact .inr hlong.1
  · exact absurd (hgave ▸ hhalt) hends

/-- Nobody has to see a session that has ended. -/
theorem UpToDate.of_closed {kinds : List EventKind} (huptodate : runner.UpToDate)
    (hclosed : Closed kinds runner last) : last.UpToDate :=
  ⟨hclosed.regular, hclosed.speed_eq ▸ huptodate.least, hclosed.speed_eq ▸ huptodate.greatest,
    fun hactive ↦ absurd (hclosed.inactive.symm.trans hactive) Bool.false_ne_true⟩

/-- The end of a session is seen, if it has told of it. -/
theorem Closed.seen {kinds : List EventKind} {outcome : Except Halt Unit}
    (hclosed : Closed kinds runner last)
    (hkinds : kinds = [.stopped] ∨ kinds = [] ∧ ∃ halt, outcome = .error halt ∧
      halt.Overflows runner.session.steps) : last.Seen := by
  rcases hkinds with rfl | ⟨-, _, -, hlong, -⟩
  · exact .inl (hclosed.shown (List.cons_ne_nil _ _))
  · rw [← hclosed.steps_eq] at hlong
    exact .inr hlong

/-- Unless it gave up, what ended early has left the session up to date. -/
def UpToDateUnlessGivenUp (halt : Halt) (last : Runner) : Prop :=
  halt ≠ .unfinished → last.UpToDate

/-- What ends up to date unless it gives up does so regularly or early. -/
theorem yields_upToDate {Result : Type} {activity : Action Result}
    {required : Except Halt Result → Runner → Prop} (hends : Ends activity runner required)
    (hrequired : ∀ outcome last, required outcome last → outcome ≠ .error .unfinished →
      last.UpToDate) :
    Yields UpToDateUnlessGivenUp activity runner fun _ ↦ UpToDate := by
  refine Ends.mono hends fun outcome last hlast ↦ ?_
  rcases outcome with halt | result
  · exact fun hother ↦ hrequired _ last hlast fun hgave ↦ hother (Except.error.inj hgave)
  · exact hrequired _ last hlast nofun

namespace UpToDate

variable (huptodate : runner.UpToDate) (hpassive : audience.Passive)
include huptodate hpassive

/-- A change of speed within the limits is seen while a session is active. -/
theorem yields_obey_speed (hmoderate : order.Moderate) {speed : Int}
    (hasks : order.speed? runner = some speed) :
    Yields UpToDateUnlessGivenUp (obey audience order) runner fun _ ↦ UpToDate := by
  obtain ⟨hleast, hgreatest⟩ := huptodate.speed_mem hmoderate hasks
  have hchanged : (runner.withSpeed speed).Regular := { huptodate.toRegular with }
  refine yields_upToDate (huptodate.accounts_obey_speed hpassive hasks) fun _ last haccounted ↦ ?_
  refine of_accounted hchanged hleast hgreatest haccounted ?_
  rintro kinds ⟨htells, hstays⟩ hactive
  by_cases hsame : speed = runner.session.speed
  · subst hsame
    exact (huptodate.seen hactive).imp_left fun hshown ↦ hstays (.inr hshown)
  · refine .inl (hstays (.inl ?_))
    have hholds : runner.HoldsSpeeds speed :=
      ⟨Value.simple_speed huptodate.least huptodate.greatest, Value.simple_speed hleast hgreatest⟩
    rw [tells_of_speed hasks, SpeedTells, if_neg hsame] at htells
    rcases htells with ⟨hunfit, -⟩ | ⟨further, -, rfl⟩
    · exact absurd hholds hunfit
    · have hstill : runner.session.active = true := hactive
      rw [if_pos hstill]
      exact List.cons_ne_nil _ _

theorem yields_start {program : String} (options : StartOptions)
    (hlength : (program.length : Int) ≤ greatestInteger) :
    Yields UpToDateUnlessGivenUp (start audience program options) runner fun _ ↦ UpToDate := by
  cases hbuild : runner.bench.build program with
  | error error => exact (ends_start_of_unbuilt hbuild).mpr fun _ ↦ huptodate
  | ok run =>
    refine yields_upToDate (huptodate.ends_start hpassive options hbuild hlength) ?_
    rintro outcome last ⟨opened, hopened, haccounted⟩
    obtain ⟨hleast, hgreatest⟩ := options.initialSpeed_mem_range
    rw [← hopened.speed_eq] at hleast hgreatest
    exact of_accounted hopened.regular hleast hgreatest haccounted
      fun _ hexpected _ ↦ .inl hexpected.2

theorem yields_stop : Yields UpToDateUnlessGivenUp (stop audience) runner fun _ ↦ UpToDate := by
  cases hactive : runner.session.active with
  | false => exact (ends_stop_of_inactive hactive).mpr huptodate
  | true =>
    refine yields_upToDate (huptodate.ends_stop hpassive hactive) ?_
    rintro _ _ ⟨_, hclosed, -⟩ -
    exact huptodate.of_closed hclosed

theorem yields_shutdown :
    Yields UpToDateUnlessGivenUp (shutdown audience) runner fun _ ↦ UpToDate := by
  cases hactive : runner.session.active with
  | false =>
    have hdetached : Yields UpToDateUnlessGivenUp detach runner fun _ ↦ UpToDate := by
      refine Yields.mono (huptodate.yields_detach hactive) ?_
      rintro _ _ ⟨lines, rfl⟩
      exact { huptodate with }
    exact (ends_bind _ _).mpr ((ends_stop_of_inactive hactive).mpr hdetached)
  | true =>
    refine yields_upToDate (huptodate.ends_shutdown hpassive hactive) ?_
    rintro _ _ ⟨_, hclosed, -⟩ -
    exact huptodate.of_closed hclosed

/-- Every order within the limits leaves the session up to date, unless it gives up. -/
theorem yields_obey (hpatience : audience.patience ≠ 0) (horder : order.Regular)
    (hmoderate : order.Moderate) :
    Yields UpToDateUnlessGivenUp (obey audience order) runner fun _ ↦ UpToDate := by
  have hanswer {Result : Type} {activity : Action Result} (reply : Result → Reply)
      (hyields : Yields UpToDateUnlessGivenUp activity runner fun _ ↦ UpToDate) :
      Yields UpToDateUnlessGivenUp (do return reply (← activity)) runner fun _ ↦ UpToDate :=
    hyields.bind fun _ _ hlast ↦ hlast
  cases hasks : order.speed? runner with
  | some speed => exact huptodate.yields_obey_speed hpassive hmoderate hasks
  | none =>
    cases order with
    | start program options =>
      exact hanswer (fun _ ↦ Reply.nothing) (huptodate.yields_start hpassive options horder)
    | stop => exact hanswer (fun _ ↦ Reply.nothing) (huptodate.yields_stop hpassive)
    | shutdown => exact hanswer (fun _ ↦ Reply.nothing) (huptodate.yields_shutdown hpassive)
    | _ =>
      refine yields_upToDate
        (huptodate.recounts_obey hpassive hpatience horder ⟨hasks, trivial⟩) ?_
      intro outcome last haccounted
      refine of_accounted huptodate.toRegular huptodate.least huptodate.greatest haccounted ?_
      rintro kinds ⟨-, hstays⟩ hactive
      exact (huptodate.seen hactive).imp_left fun hshown ↦ hstays (.inr hshown)

end UpToDate

/-! ### Lists of orders -/

/-- Over a list of orders none of which gives up, the session stays up to date. -/
theorem UpToDate.carryOut (huptodate : runner.UpToDate) (hpassive : audience.Passive)
    (hpatience : audience.patience ≠ 0) {orders : List Order}
    (horders : ∀ order ∈ orders, order.Regular ∧ order.Moderate)
    (hends : ∀ outcome ∈ (carryOut audience orders runner).1, outcome ≠ .error .unfinished) :
    (carryOut audience orders runner).2.UpToDate := by
  induction orders generalizing runner with
  | nil => exact huptodate
  | cons order later ih =>
    obtain ⟨horder, hmoderate⟩ := horders order List.mem_cons_self
    have hlater : (runFrom (obey audience order) runner).2.UpToDate := by
      rcases (huptodate.yields_obey hpassive hpatience horder hmoderate).ended with
        ⟨_, -, hlast⟩ | ⟨halt, hhalt, hlast⟩
      · exact hlast
      · refine hlast ?_
        rintro rfl
        exact hends _ List.mem_cons_self hhalt
    exact ih hlater (fun other hother ↦ horders other (List.mem_cons_of_mem _ hother))
      fun outcome houtcome ↦ hends outcome (List.mem_cons_of_mem _ houtcome)

/-- A runner before its first start is up to date if its engines do not crash. -/
theorem upToDate_of_fresh {bench : Bench} {hooks : List Hook} {journal : Journal} {start : Runner}
    (hstart : fresh bench hooks journal = .ok start) (hbound : journal.context.Plain)
    (hhooks : 2 * (hooks.length + 2 : Int) ≤ greatestInteger)
    (hcrashes : bench.script.crashes = []) : start.UpToDate := by
  have hregular := regular_of_fresh hstart hbound hhooks hcrashes
  obtain ⟨_, -, rfl⟩ := exists_of_fresh hstart
  have hidle : Speed.blocking ≤ Speed.idle ∧ Speed.idle ≤ Speed.top := by decide
  exact ⟨hregular, hidle.1, hidle.2, nofun⟩

/-- Observers that only listen are never left with a stale view. After every list of orders that
come to an end, with speeds within the limits, the last event shows the session and its engine as
they are if the session is active, and so it does after the order that stops the session then. Only
of more steps than fit into a line nobody is told. -/
theorem seen_last {bench : Bench} {hooks : List Hook} {journal : Journal} {start : Runner}
    (hstart : fresh bench hooks journal = .ok start) (hbound : journal.context.Plain)
    (hhooks : 2 * (hooks.length + 2 : Int) ≤ greatestInteger)
    (hcrashes : bench.script.crashes = []) (hpassive : audience.Passive)
    (hpatience : audience.patience ≠ 0) {orders : List Order}
    (horders : ∀ order ∈ orders, order.Regular ∧ order.Moderate)
    (hends : ∀ outcome ∈ (carryOut audience orders start).1, outcome ≠ .error .unfinished) :
    let last := (carryOut audience orders start).2
    last.session.active = true → last.Seen ∧
      (runFrom (stop audience) last).2.Seen ∧ (runFrom (shutdown audience) last).2.Seen := by
  intro last hactive
  have huptodate : last.UpToDate :=
    (upToDate_of_fresh hstart hbound hhooks hcrashes).carryOut hpassive hpatience horders hends
  obtain ⟨_, hstopped, hkinds⟩ := huptodate.ends_stop hpassive hactive
  obtain ⟨_, hshut, hlast⟩ := huptodate.ends_shutdown hpassive hactive
  exact ⟨huptodate.seen hactive, hstopped.seen hkinds, hshut.seen hlast⟩

/-- A session that is fed, reads, is brought to an end by a blocking run and refuses an instruction
is seen with its status and its tape, and when it is stopped it is seen without. -/
theorem seen_last_finished :
    ∃ start last, fresh ⟨.tape, 2, "", 0, .empty⟩ [] .initial = .ok start ∧
      last = (carryOut (.conducted (fun _ _ ↦ .rest) 10 1)
        [.start ",+" ⟨true, false⟩, .feed "A", .fire 1, .superSpeed, .inject "<"] start).2 ∧
      last.session.active = true ∧ last.session.status = some (.finished 0) ∧ last.Shown ∧
      (runFrom (stop (.conducted (fun _ _ ↦ .rest) 10 1)) last).2.Shown := by
  obtain ⟨start, hstart⟩ :
      ∃ start, fresh ⟨.tape, 2, "", 0, .empty⟩ [] .initial = .ok start := ⟨_, rfl⟩
  obtain ⟨orders, horders⟩ : ∃ orders : List Order, orders =
    [.start ",+" ⟨true, false⟩, .feed "A", .fire 1, .superSpeed, .inject "<"] := ⟨_, rfl⟩
  obtain ⟨carried, hcarried⟩ : ∃ carried,
    carried = carryOut (.conducted (fun _ _ ↦ .rest) 10 1) orders start := ⟨_, rfl⟩
  obtain ⟨ended, hended⟩ : ∃ ended,
    ended = runFrom (stop (.conducted (fun _ _ ↦ .rest) 10 1)) carried.2 := ⟨_, rfl⟩
  have hfinished : (decide ((∀ outcome ∈ carried.1, outcome.isOk = true) ∧
      carried.2.session.active = true ∧ carried.2.session.status = some (.finished 0) ∧
      carried.2.session.steps = 2 ∧ ended.2.session.steps = 2)) = true := by
    rw [hended, hcarried, horders]
    cases hstart
    decide +kernel
  obtain ⟨hanswers, hactive, hstatus, hfew, hstopped⟩ := of_decide_eq_true hfinished
  have hregular : ∀ order ∈ orders, order.Regular ∧ order.Moderate := by
    simp only [horders, List.forall_mem_cons, Order.Regular, Order.Moderate, List.not_mem_nil,
      false_implies, implies_true, and_true]
    decide
  have hends (outcome : Except Halt Reply) (houtcome : outcome ∈ carried.1) :
      outcome ≠ .error .unfinished := by
    have hanswer := hanswers outcome houtcome
    rintro rfl
    cases hanswer
  have hseen := seen_last hstart Fields.plain_nil (by decide) rfl (passive_conducted_rest 10 0)
    (by decide) hregular
  simp only [← hcarried, ← hended] at hseen
  obtain ⟨hlast, hstop, -⟩ := hseen hends hactive
  refine ⟨start, carried.2, hstart, ?_, hactive, hstatus, hlast.resolve_right ?_, ?_⟩
  · rw [hcarried, horders]
  · rw [hfew]
    decide
  · rw [← hended]
    refine hstop.resolve_right ?_
    rw [hstopped]
    decide

end Runner

end TapeRunner
