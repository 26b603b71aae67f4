import TapeRunner.Proofs.Session.Steadiness

/-!
# When a timer fits the speed

Every lawful order leaves the gear that it finds, or one that suits (`Runner.leaves_obey`).
Observers who only give lawful orders, and raise what they may, do so in their turn, by induction on
the depth to which orders are given inside of orders (`Runner.keeps_react_conducted`). If they raise
nothing of their own, what suits is a settled gear, and between the orders of a caller the timer
fits the speed (`Runner.timer_fits_speed`).
-/

set_option autoImplicit false
set_option relaxedAutoImplicit false

namespace TapeRunner

open Activity

/-! ### Orders -/

/-- An order to a session within its limits, that neither reaches around the operations nor lets an
engine crash. -/
def Order.Lawful : Order → Prop
  | .setSpeed speed => Speed.blocking ≤ speed ∧ speed ≤ Speed.top
  | .setScript _ crashes _ => crashes.getD [] = []
  | .pokeSpeed _ | .pokeActive _ | .cancelTimer _ | .drain _ => False
  | _ => True

/-- An observer that gives lawful orders and raises nothing of its own: only the refusal of a line
is passed on, and at once. -/
def Conduct.Lawful : Conduct → Prop
  | .rest => True
  | .raise error => error.isRefusal = true
  | .give order next => order.Lawful ∧ (∀ outcome runner, (next outcome runner).Lawful) ∧
      ∀ error runner, error.isRefusal = true → next (.error error) runner = .raise error

/-- An observer that gives lawful orders, passes on the refusal of a line at once, and raises what
it may, by the runner that it finds. -/
def Conduct.Minds (may : Error → Runner → Prop) : Conduct → Runner → Prop
  | .rest, _ => True
  | .raise error, runner => may error runner
  | .give order next, _ => order.Lawful ∧ (∀ outcome after, (next outcome after).Minds may after) ∧
      ∀ error after, error.isRefusal = true → next (.error error) after = .raise error

theorem Conduct.Lawful.minds {conduct : Conduct} (hlawful : conduct.Lawful) (runner : Runner) :
    conduct.Minds (fun error _ ↦ error.isRefusal = true) runner := by
  induction conduct generalizing runner with
  | rest => exact trivial
  | raise error => exact hlawful
  | give order next ih =>
    obtain ⟨horder, hnext, hpasses⟩ := hlawful
    exact ⟨horder, fun outcome after ↦ ih outcome after (hnext outcome after) after, hpasses⟩

theorem Conduct.lawful_inTurn {orders : List Order} (horders : ∀ order ∈ orders, order.Lawful) :
    (Conduct.inTurn orders).Lawful := by
  induction orders with
  | nil => exact trivial
  | cons order later ih =>
    have hlater := ih fun other hother ↦ horders other (List.mem_cons_of_mem _ hother)
    refine ⟨horders order List.mem_cons_self, fun outcome _ ↦ ?_,
      fun error _ hrefusal ↦ if_pos hrefusal⟩
    rcases outcome with error | _
    · by_cases hrefusal : error.isRefusal = true
      · simp only [if_pos hrefusal]
        exact hrefusal
      · simp only [if_neg hrefusal]
        exact hlater
    · exact hlater

namespace Runner

variable {audience : Audience} {runner : Runner} {suits : Gear → Prop}

theorem leaves_timerAt (index : Int) : LeavesAs suits (timerAt index) := by
  apply LeavesAs.get_bind
  intro runner
  split
  · exact leaves_pure _
  · exact leaves_fail _

/-- A change of what the next start finds that lets no engine crash. -/
theorem leaves_modifyBench {change : Bench → Bench} (hcrashes : ∀ bench : Bench,
    bench.script.crashes = [] → (change bench).script.crashes = []) :
    LeavesAs suits (modifyBench change) :=
  leaves_modify (fun _ ↦ rfl) fun runner horderly ↦
    ⟨horderly.sinks_nil, hcrashes runner.bench horderly.crashes_nil, horderly.speed_mem,
      horderly.run_sound, horderly.attached_lt⟩

/-- Every lawful order leaves the gear that it finds, or one that suits. -/
theorem leaves_obey (hsteady : audience.SteadyAs suits) {order : Order}
    (hlawful : order.Lawful) : LeavesAs suits (obey audience order) := by
  have hanswer {Result : Type} {activity : Action Result} (hleaves : LeavesAs suits activity)
      (reply : Result → Reply) : LeavesAs suits (do return reply (← activity)) :=
    hleaves.bind fun result ↦ leaves_pure (reply result)
  cases order with
  | start program options => exact hanswer (leaves_start hsteady program options) fun _ ↦ .nothing
  | stop => exact hanswer (leaves_stop hsteady) fun _ ↦ .nothing
  | step => exact hanswer (leaves_step hsteady) fun _ ↦ .nothing
  | runBlocking => exact hanswer (leaves_runBlocking hsteady) fun _ ↦ .nothing
  | faster => exact hanswer (leaves_faster hsteady) fun _ ↦ .nothing
  | slower => exact hanswer (leaves_slower hsteady) fun _ ↦ .nothing
  | pause => exact hanswer (leaves_setSpeed hsteady (by decide)) fun _ ↦ .nothing
  | superSpeed => exact hanswer (leaves_setSpeed hsteady (by decide)) fun _ ↦ .nothing
  | shutdown => exact hanswer (leaves_shutdown hsteady) fun _ ↦ .nothing
  | setSpeed speed => exact hanswer (leaves_setSpeed hsteady hlawful) fun _ ↦ .nothing
  | inject instruction => exact hanswer (leaves_inject hsteady instruction) .accepted
  | feed content => exact hanswer (leaves_feed content) fun _ ↦ .nothing
  | readInput => exact hanswer leaves_readInput .byte
  | fire rounds => exact hanswer (leaves_fire hsteady rounds) .calls
  | callTimer index =>
    exact (leaves_timerAt index).bind fun position ↦
      hanswer (leaves_callTimer hsteady position) fun _ ↦ .nothing
  | rearm => exact hanswer (leaves_rearm hsteady) fun _ ↦ .nothing
  | setClock numerator denominator =>
    refine LeavesAs.bind ?_ fun _ ↦ leaves_pure _
    unfold setClock
    split
    · exact leaves_modifyBench fun _ hcrashes ↦ hcrashes
    · exact leaves_fail _
  | setMemory size =>
    refine LeavesAs.bind (leaves_modifyBench ?_) fun _ ↦ leaves_pure _
    exact fun _ hcrashes ↦ hcrashes
  | setScript faults crashes rejects =>
    refine LeavesAs.bind (leaves_modifyBench fun bench hcrashes ↦ ?_) fun _ ↦ leaves_pure _
    cases crashes with
    | none => exact hcrashes
    | some crashes => exact hlawful
  | clearOutput =>
    refine LeavesAs.bind (leaves_modify ?_ ?_) fun _ ↦ leaves_pure _
    · exact fun _ ↦ rfl
    · exact fun _ horderly ↦ horderly.of_same rfl rfl rfl rfl rfl
  | raise message => exact leaves_fail _
  | look => exact LeavesAs.get_bind fun _ ↦ leaves_pure _
  | pokeSpeed _ | pokeActive _ | cancelTimer _ | drain _ => exact hlawful.elim

/-! ### Observers and callers -/

section Observers

variable {halted : Halt → Runner → Prop} {may : Error → Runner → Prop} {gear : Gear}

/-- An observer that minds what it does leaves the gear that it finds, or one that suits; what its
orders raise, it has caught. -/
theorem yields_perform
    (hobey : ∀ order : Order, order.Lawful → LeavesAs suits (obey audience order))
    (hcut : ∀ halt last, halt.CutsOff → halted halt last)
    (hmay : ∀ error last, Orderly last → may error last → halted (.raised error) last)
    {conduct : Conduct} (hminds : conduct.Minds may runner) (hwithin : WithinAs suits gear runner) :
    Yields halted (conduct.perform audience) runner fun _ ↦ WithinAs suits gear := by
  induction conduct generalizing runner with
  | rest => exact hwithin
  | raise error => exact hmay error runner hwithin.1 hminds
  | give order next ih =>
    obtain ⟨horder, hnext, hpasses⟩ := hminds
    rw [Yields, Conduct.perform, ends_bind, ends_caught]
    refine Ends.mono (hobey order horder gear runner hwithin) ?_
    intro outcome last hends
    rcases outcome with halt | reply
    · rcases halt with error | _
      · simp only [ends_bind, ends_get]
        by_cases hrefusal : error.isRefusal = true
        · rw [hpasses error last hrefusal]
          exact hcut _ last hrefusal
        · exact ih _ _ (hnext _ last) (hends.resolve_left hrefusal)
      · exact hcut _ last trivial
    · exact ih _ _ (hnext _ last) hends

/-- Observers that mind what they do leave the gear that they find, or one that suits, to whatever
depth orders are given inside of orders. -/
theorem keeps_react_conducted (hsuits : ∀ gear : Gear, gear.Settled → suits gear)
    (hcut : ∀ halt last, halt.CutsOff → halted halt last)
    (hmay : ∀ error last, Orderly last → may error last → halted (.raised error) last)
    (hspared : ∀ halt last, halted halt last → spared suits halt last)
    {conduct : Nat → Runner → Conduct}
    (hminds : ∀ position runner, (conduct position runner).Minds may runner)
    (patience depth position : Nat) (gear : Gear) :
    Keeps (WithinAs suits gear) halted
      ((Audience.conducted conduct patience depth).react position) := by
  induction depth generalizing position gear with
  | zero => exact fun runner _ ↦ hcut .unfinished runner trivial
  | succ depth ih =>
    have hsteady : (Audience.conducted conduct patience depth).SteadyAs suits :=
      ⟨hsuits, fun position gear runner hwithin ↦ (ih position gear runner hwithin).allow hspared⟩
    intro runner hwithin
    refine ends_react_conducted.mpr ?_
    exact yields_perform (fun _ hlawful ↦ leaves_obey hsteady hlawful) hcut hmay
      (hminds position _) ⟨hwithin.1.of_same rfl rfl rfl rfl rfl, hwithin.2⟩

end Observers

end Runner

/-- Lawful observers are steady, to whatever depth orders are given inside of orders. -/
theorem Audience.steady_conducted {conduct : Nat → Runner → Conduct}
    (hlawful : ∀ position runner, (conduct position runner).Lawful) (patience depth : Nat) :
    (Audience.conducted conduct patience depth).Steady :=
  Runner.keeps_react_conducted (fun _ hsettled ↦ hsettled) (fun _ _ hcut ↦ hcut)
    (fun _ _ _ hrefusal ↦ hrefusal) (fun _ _ hcut ↦ .inl hcut)
    (fun position runner ↦ (hlawful position runner).minds runner) patience depth

namespace Runner

variable {audience : Audience} {runner start : Runner} {suits : Gear → Prop}

/-- The gear suits after every lawful order of a caller, whether it has failed or not. -/
theorem suited_carryOut (hsteady : audience.SteadyAs suits) {orders : List Order}
    (horders : ∀ order ∈ orders, order.Lawful) (hsuited : runner.Suited suits)
    (hwhole : ∀ halt, .error halt ∈ (carryOut audience orders runner).1 → ¬ halt.CutsOff) :
    (carryOut audience orders runner).2.Suited suits := by
  induction orders generalizing runner with
  | nil => exact hsuited
  | cons order later ih =>
    have hafter : (runFrom (obey audience order) runner).2.Suited suits := by
      have hends := leaves_obey hsteady (horders order List.mem_cons_self) runner.gear runner
        hsuited.1.within
      unfold Yields Ends at hends
      refine WithinAs.suited ?_ hsuited.2
      cases houtcome : (runFrom (obey audience order) runner).1 with
      | error halt =>
        rw [houtcome] at hends
        have hmem : .error halt ∈ (carryOut audience (order :: later) runner).1 :=
          houtcome ▸ List.mem_cons_self
        exact hends.resolve_left (hwhole halt hmem)
      | ok reply =>
        rw [houtcome] at hends
        exact hends
    exact ih (fun other hother ↦ horders other (List.mem_cons_of_mem _ hother)) hafter
      fun halt hhalt ↦ hwhole halt (List.mem_cons_of_mem _ hhalt)

/-- The gear is settled after every lawful order of a caller, whether it was refused or not. -/
theorem ready_carryOut (hsteady : audience.Steady) {orders : List Order}
    (horders : ∀ order ∈ orders, order.Lawful) (hready : runner.Ready)
    (hwhole : ∀ halt, .error halt ∈ (carryOut audience orders runner).1 → ¬ halt.CutsOff) :
    (carryOut audience orders runner).2.Ready :=
  have hsuited := suited_carryOut hsteady.steadyAs horders ⟨hready.orderly, hready.settled⟩ hwhole
  ⟨hsuited.1, hsuited.2⟩

theorem ready_of_fresh {bench : Bench} {hooks : List Hook} {journal : Journal}
    (hstart : fresh bench hooks journal = .ok start)
    (hplain : ∀ hook ∈ hooks, hook.trigger ≠ .output) (hcrashes : bench.script.crashes = []) :
    start.Ready := by
  obtain ⟨_, -, rfl⟩ := exists_of_fresh hstart
  have hspeed : Speed.blocking ≤ Speed.idle ∧ Speed.idle ≤ Speed.top := by decide
  refine ⟨⟨?_, hcrashes, hspeed, ?_, nofun⟩, .of_off rfl rfl⟩
  · apply List.filterMap_eq_nil_iff.mpr
    intro entry hentry
    exact if_neg (hplain entry.1 (List.fst_mem_of_mem_zipIdx hentry))
  · exact fun _ _ hrun ↦ by simp at hrun

theorem armed_eq (runner : Runner) : runner.armed = runner.beat?.isSome := by
  unfold armed beat? Timer.isLive
  cases runner.current with
  | none => rfl
  | some index =>
    cases htimer : runner.timers[index]? with
    | none => simp [htimer]
    | some timer => cases hcancelled : timer.cancelled <;> simp [htimer, hcancelled]

theorem isSome_cadence?_iff (speed : Int) : (Speed.cadence? speed).isSome = true ↔ 0 < speed :=
  (Speed.isSome_cadence? speed).trans (Speed.regimeOf_eq_stepped_iff speed)

/-- A timer is live just if the session is active, attached and stepped, and it has the interval of
the current speed. -/
structure InTime (runner : Runner) : Prop where
  armed_iff : runner.armed = true ↔
    runner.session.active = true ∧ runner.attached.isSome = true ∧ 0 < runner.session.speed
  interval_eq : ∀ index timer, runner.current = some index → runner.timers[index]? = some timer →
    timer.cancelled = false →
      (Speed.cadence? runner.session.speed).map Speed.interval = some timer.interval

theorem beat?_of_live {index : Nat} {timer : Timer Nat} (hcurrent : runner.current = some index)
    (htimer : runner.timers[index]? = some timer) (hlive : timer.cancelled = false) :
    runner.beat? = some timer.interval := by
  simp only [beat?, hcurrent, Option.bind_some, htimer, Option.filter, hlive]
  rfl

theorem exists_live_of_beat? {interval : Float} (hbeat : runner.beat? = some interval) :
    ∃ index timer, runner.current = some index ∧ runner.timers[index]? = some timer ∧
      timer.cancelled = false ∧ timer.interval = interval := by
  obtain ⟨timer, hfiltered, hinterval⟩ := Option.map_eq_some_iff.mp hbeat
  obtain ⟨hfound, hlive⟩ := Option.filter_eq_some_iff.mp hfiltered
  obtain ⟨index, hcurrent, htimer⟩ := Option.bind_eq_some_iff.mp hfound
  exact ⟨index, timer, hcurrent, htimer, by simpa using hlive, hinterval⟩

/-- To be in time is to have a timer that fits. -/
theorem inTime_iff_fits : runner.InTime ↔ runner.gear.Fits := by
  have hfits : runner.gear.Fits ↔ runner.beat? =
      if runner.session.active && runner.attached.isSome then
        (Speed.cadence? runner.session.speed).map Speed.interval else none := Iff.rfl
  have hstepped : (runner.armed = true ↔ runner.session.active = true ∧
        runner.attached.isSome = true ∧ 0 < runner.session.speed) ↔
      (runner.beat?.isSome = true ↔ (runner.session.active && runner.attached.isSome) = true ∧
        (Speed.cadence? runner.session.speed).isSome = true) := by
    rw [armed_eq, ← isSome_cadence?_iff, ← and_assoc, ← Bool.and_eq_true]
  rw [hfits]
  constructor
  · rintro ⟨harmed, hinterval⟩
    rw [hstepped] at harmed
    cases hbeat : runner.beat? with
    | none =>
      rw [hbeat] at harmed
      split
      · next hon =>
        cases hcadence : Speed.cadence? runner.session.speed with
        | none => rfl
        | some cadence => exact absurd (harmed.mpr ⟨hon, hcadence ▸ rfl⟩) Bool.false_ne_true
      · rfl
    | some interval =>
      obtain ⟨index, timer, hcurrent, htimer, hlive, rfl⟩ := exists_live_of_beat? hbeat
      rw [if_pos (harmed.mp (hbeat ▸ rfl)).1]
      exact (hinterval index timer hcurrent htimer hlive).symm
  · intro hbeat
    refine ⟨hstepped.mpr ?_, fun index timer hcurrent htimer hlive ↦ ?_⟩
    · rw [hbeat]
      split
      · next hon => simp [hon]
      · next hoff => simp [hoff]
    · rw [beat?_of_live hcurrent htimer hlive] at hbeat
      split at hbeat
      · exact hbeat.symm
      · cases hbeat

/-- Between the orders of a caller, a timer is live just if the session is active, attached and
stepped; it has the interval of the current speed, and no active session that is attached waits for
a blocking run. Observers may give lawful orders at any time, and orders may fail. -/
theorem timer_fits_speed {bench : Bench} {hooks : List Hook} {journal : Journal}
    (hstart : fresh bench hooks journal = .ok start)
    (hplain : ∀ hook ∈ hooks, hook.trigger ≠ .output) (hcrashes : bench.script.crashes = [])
    {conduct : Nat → Runner → Conduct}
    (hconduct : ∀ position runner, (conduct position runner).Lawful) (patience depth : Nat)
    {orders : List Order} (horders : ∀ order ∈ orders, order.Lawful)
    (hwhole : ∀ halt, .error halt ∈
      (carryOut (.conducted conduct patience depth) orders start).1 → ¬ halt.CutsOff) :
    let last := (carryOut (.conducted conduct patience depth) orders start).2
    (last.armed = true ↔ last.session.active = true ∧ last.attached.isSome = true ∧
        0 < last.session.speed) ∧
      (∀ index timer, last.current = some index → last.timers[index]? = some timer →
        timer.cancelled = false →
          (Speed.cadence? last.session.speed).map Speed.interval = some timer.interval) ∧
      (last.session.active = true → last.attached.isSome = true → 0 ≤ last.session.speed) := by
  intro last
  have hsettled : last.gear.Settled :=
    (ready_carryOut (Audience.steady_conducted hconduct patience depth) horders
      (ready_of_fresh hstart hplain hcrashes) hwhole).settled
  have hinTime : last.InTime := inTime_iff_fits.mpr hsettled.fits
  refine ⟨hinTime.armed_iff, hinTime.interval_eq, fun hactive hattached ↦ ?_⟩
  exact hsettled.speed_nonneg ((Bool.and_eq_true _ _).mpr ⟨hactive, hattached⟩)

/-- Lowers the speed when it is called for the first time. -/
def lowersOnce (_ : Nat) (runner : Runner) : Conduct :=
  .inTurn (if runner.hookCalls = #[1] then [.setSpeed 7] else [])

theorem lawful_lowersOnce (position : Nat) (runner : Runner) :
    (lowersOnce position runner).Lawful := by
  apply Conduct.lawful_inTurn
  intro order horder
  split at horder
  · obtain rfl := List.mem_singleton.mp horder
    exact ⟨by decide, by decide⟩
  · exact absurd horder List.not_mem_nil

/-- An observer of the first step lowers the speed, in the middle of the first call of the timer,
and there is a timer afterwards. -/
theorem timer_fits_speed_lowered_inside :
    ∃ start, fresh ⟨.tape, 2, "", 0, .empty⟩ [⟨.event "session.stepped", [], []⟩] .initial =
        .ok start ∧
      let last := (carryOut (.conducted lowersOnce 10 2)
        [.start "+++" ⟨true, false⟩, .fire 1] start).2
      last.session.speed = 7 ∧ last.armed = true := by
  obtain ⟨start, hstart⟩ : ∃ start, fresh ⟨.tape, 2, "", 0, .empty⟩
      [⟨.event "session.stepped", [], []⟩] .initial = .ok start := ⟨_, rfl⟩
  have hrun : (
      let carried := carryOut (.conducted lowersOnce 10 2)
        [.start "+++" ⟨true, false⟩, .fire 1] start
      carried.1.all (·.isOk) && carried.2.session.active && carried.2.attached.isSome &&
        carried.2.session.speed = 7) = true := by
    cases hstart
    decide +kernel
  simp only [Bool.and_eq_true, decide_eq_true_eq, List.all_eq_true] at hrun
  obtain ⟨⟨⟨hall, hactive⟩, hattached⟩, hspeed⟩ := hrun
  refine ⟨start, hstart, hspeed, ?_⟩
  refine (timer_fits_speed hstart (by decide) rfl lawful_lowersOnce 10 2 (by simp [Order.Lawful])
    fun halt hhalt ↦ ?_).1.mpr ⟨hactive, hattached, ?_⟩
  · exact absurd (hall _ hhalt) Bool.false_ne_true
  · rw [hspeed]
    decide

end Runner

end TapeRunner
