import TapeRunner.Proofs.Session.Moments

/-!
# One timer at most counts

A timer counts only in the generation in which it was made, and whatever replaces it begins another
generation first. So at every moment all timers but the current one are cancelled and of earlier
generations (`Runner.upheldThroughout_sole`), and as generations only grow
(`Runner.upheldThroughout_outlasts`), none of them ever becomes the current one again. A timer that
is not the current one changes nothing when it calls, and the current one only if the session is
active and stepped (`Runner.one_timer_counts`).
-/

set_option autoImplicit false
set_option relaxedAutoImplicit false

namespace TapeRunner

open Activity

/-! ### Live timers -/

namespace Timer

variable {Task : Type} {timers : Array (Timer Task)} {index : Nat}

theorem live_eq_nil (hnone : ∀ index, isLive timers index = false) : live timers = [] :=
  List.filter_eq_nil_iff.mpr fun index _ ↦ Bool.eq_false_iff.mp (hnone index)

/-- A timer that is live and alone in it is all that is listed. -/
theorem live_eq_singleton (hlive : isLive timers index = true)
    (honly : ∀ other, isLive timers other = true → other = index) : live timers = [index] := by
  have hsorted : (live timers).Pairwise (· < ·) := List.pairwise_lt_range.filter _
  have hmem := (mem_live_iff timers index).mpr hlive
  have hall (other : Nat) (hother : other ∈ live timers) : other = index :=
    honly other ((mem_live_iff timers other).mp hother)
  generalize live timers = listed at hsorted hmem hall
  match listed with
  | [] => exact absurd hmem List.not_mem_nil
  | [first] => rw [hall first List.mem_cons_self]
  | first :: second :: _ =>
    have hless := List.rel_of_pairwise_cons hsorted List.mem_cons_self
    rw [hall first (by simp), hall second (by simp)] at hless
    exact absurd hless (Nat.lt_irrefl index)

/-- Cancelling keeps the tasks, and no timer comes back from it. -/
theorem exists_of_getElem?_cancel {place : Nat} {timer : Timer Task}
    (hfound : (cancel timers place)[index]? = some timer) : ∃ old, timers[index]? = some old ∧
      timer.task = old.task ∧ (old.cancelled = true ∨ place = index → timer.cancelled = true) := by
  simp only [cancel, Array.getElem?_modify] at hfound
  split at hfound
  · obtain ⟨old, hold, rfl⟩ := Option.map_eq_some_iff.mp hfound
    exact ⟨old, hold, rfl, fun _ ↦ rfl⟩
  · next hother => exact ⟨timer, hfound, rfl, fun h ↦ h.resolve_right hother⟩

theorem getElem?_cancel_of_some {place : Nat} {timer : Timer Task}
    (hfound : timers[index]? = some timer) :
    ∃ later, (cancel timers place)[index]? = some later ∧ later.task = timer.task := by
  simp only [cancel, Array.getElem?_modify, hfound]
  split <;> exact ⟨_, rfl, rfl⟩

end Timer

namespace Runner

variable {runner start middle last base : Runner} {audience : Audience}

/-! ### The current timer -/

/-- Every timer but the current one is cancelled and of an earlier generation, and the current one
is of this generation. -/
structure Sole (runner : Runner) : Prop where
  retired : ∀ (index : Nat) (timer : Timer Nat), runner.timers[index]? = some timer →
    runner.current ≠ some index → timer.cancelled = true ∧ timer.task < runner.generation
  current : ∀ index, runner.current = some index →
    ∃ timer, runner.timers[index]? = some timer ∧ timer.task = runner.generation

theorem Sole.cancelled (hsole : runner.Sole) (index : Nat) :
    Sole { runner with timers := Timer.cancel runner.timers index } where
  retired := by
    intro place timer htimer hother
    obtain ⟨old, hold, htask, hcancelled⟩ := Timer.exists_of_getElem?_cancel htimer
    have hretired := hsole.retired place old hold hother
    exact ⟨hcancelled (.inl hretired.1), htask ▸ hretired.2⟩
  current := by
    intro place hcurrent
    obtain ⟨timer, htimer, htask⟩ := hsole.current place hcurrent
    obtain ⟨later, hlater, hsame⟩ := Timer.getElem?_cancel_of_some htimer
    exact ⟨later, hlater, hsame.trans htask⟩

/-- What was the current timer is cancelled and of the generation before. -/
theorem Sole.cleared (hsole : runner.Sole) : runner.cleared.Sole where
  retired := by
    intro index timer htimer _
    change _ ∧ timer.task < runner.generation + 1
    simp only [Runner.cleared, disarmed] at htimer
    cases hcurrent : runner.current with
    | none =>
      rw [hcurrent] at htimer
      have hretired := hsole.retired index timer htimer (hcurrent ▸ nofun)
      exact ⟨hretired.1, Nat.lt_succ_of_lt hretired.2⟩
    | some place =>
      simp only [hcurrent] at htimer
      obtain ⟨old, hold, htask, hcancelled⟩ := Timer.exists_of_getElem?_cancel htimer
      rw [htask]
      by_cases hsame : place = index
      · obtain ⟨found, hfound, hgeneration⟩ := hsole.current place hcurrent
        obtain rfl : old = found := Option.some.inj (hold.symm.trans (hsame ▸ hfound))
        exact ⟨hcancelled (.inr hsame), hgeneration ▸ Nat.lt_succ_self _⟩
      · have hretired := hsole.retired index old hold (by simpa [hcurrent] using hsame)
        exact ⟨hcancelled (.inl hretired.1), Nat.lt_succ_of_lt hretired.2⟩
  current := nofun

/-- Where there is no current timer, a fresh one takes its place. -/
theorem Sole.armedAt (hsole : runner.Sole) (hcurrent : runner.current = none) (cadence : Float) :
    (runner.armedAt cadence).Sole where
  retired := by
    intro index timer htimer hother
    simp only [Runner.armedAt] at htimer hother
    rw [Array.getElem?_push, if_neg fun hlast ↦ hother (congrArg some hlast.symm)] at htimer
    exact hsole.retired index timer htimer (hcurrent ▸ nofun)
  current := by
    rintro _ ⟨⟩
    exact ⟨_, Array.getElem?_push_size, rfl⟩

theorem upheldThroughout_sole : UpheldThroughout Sole where
  noted := by
    rintro _ _ hsole ⟨_, _, _, _, rfl⟩
    exact { hsole with }
  session _ hsole _ := { hsole with }
  surroundings _ _ _ hsole := { hsole with }
  context _ hsole _ _ := { hsole with }
  changeRun _ _ hsole _ := { hsole with }
  cancelled index hsole := hsole.cancelled index
  cleared hsole := hsole.cleared
  armedAt cadence hsole hcurrent _ := hsole.armedAt hcurrent cadence
  detached hsole := { hsole with }
  anySession _ hsole := { hsole with }
  pushed hsole _ := { hsole with }
  attachedTo _ hsole _ := { hsole with }

/-- The live timer, if there is one, is the current one. -/
theorem Sole.live_eq (hsole : runner.Sole) :
    Timer.live runner.timers = if runner.armed then runner.current.toList else [] := by
  have honly (index : Nat) (hlive : Timer.isLive runner.timers index = true) :
      runner.current = some index := by
    refine Decidable.byContradiction fun hother ↦ ?_
    unfold Timer.isLive at hlive
    cases htimer : runner.timers[index]? with
    | none => simp [htimer] at hlive
    | some timer => simp [htimer, (hsole.retired index timer htimer hother).1] at hlive
  unfold armed
  cases hcurrent : runner.current with
  | none =>
    exact Timer.live_eq_nil fun index ↦ Bool.eq_false_iff.mpr fun hlive ↦
      absurd (hcurrent.symm.trans (honly index hlive)) nofun
  | some index =>
    simp only
    split
    · next hlive =>
      refine Timer.live_eq_singleton hlive fun other hother ↦ ?_
      exact (Option.some.inj (hcurrent.symm.trans (honly other hother))).symm
    · next hdead =>
      refine Timer.live_eq_nil fun other ↦ Bool.eq_false_iff.mpr fun hlive ↦ hdead ?_
      rw [Option.some.inj (hcurrent.symm.trans (honly other hlive))]
      exact hlive

/-- Whoever is armed has one live timer, the current one. -/
theorem Sole.exists_live (hsole : runner.Sole) (harmed : runner.armed = true) :
    ∃ index, runner.current = some index ∧ Timer.live runner.timers = [index] := by
  rw [hsole.live_eq, if_pos harmed]
  cases hcurrent : runner.current with
  | none =>
    rw [armed, hcurrent] at harmed
    cases harmed
  | some index => exact ⟨index, rfl, rfl⟩

/-- Without a current timer, none is live. -/
theorem Sole.live_eq_nil (hsole : runner.Sole) (hnone : runner.current = none) :
    Timer.live runner.timers = [] := by
  rw [hsole.live_eq, hnone]
  exact ite_self _

/-! ### Generations grow -/

/-- The timers of an earlier moment are still there, of the same generations, and the generation is
no earlier than it was. -/
structure Outlasts (base runner : Runner) : Prop where
  generation_le : base.generation ≤ runner.generation
  kept : ∀ (index : Nat) (timer : Timer Nat), base.timers[index]? = some timer →
    ∃ later, runner.timers[index]? = some later ∧ later.task = timer.task

theorem Outlasts.refl (runner : Runner) : Outlasts runner runner :=
  ⟨Nat.le_refl _, fun _ timer htimer ↦ ⟨timer, htimer, rfl⟩⟩

theorem Outlasts.cancelled (houtlasts : base.Outlasts runner) (index : Nat) :
    base.Outlasts { runner with timers := Timer.cancel runner.timers index } where
  generation_le := houtlasts.generation_le
  kept := by
    intro place timer htimer
    obtain ⟨later, hlater, htask⟩ := houtlasts.kept place timer htimer
    obtain ⟨latest, hlatest, hsame⟩ := Timer.getElem?_cancel_of_some hlater
    exact ⟨latest, hlatest, hsame.trans htask⟩

theorem upheldThroughout_outlasts (base : Runner) : UpheldThroughout base.Outlasts where
  noted := by
    rintro _ _ houtlasts ⟨_, _, _, _, rfl⟩
    exact { houtlasts with }
  session _ houtlasts _ := { houtlasts with }
  surroundings _ _ _ houtlasts := { houtlasts with }
  context _ houtlasts _ _ := { houtlasts with }
  changeRun _ _ houtlasts _ := { houtlasts with }
  cancelled index houtlasts := houtlasts.cancelled index
  cleared := by
    intro runner houtlasts
    have hlater := Nat.le_succ_of_le houtlasts.generation_le
    simp only [cleared, disarmed]
    cases runner.current with
    | none => exact ⟨hlater, houtlasts.kept⟩
    | some index => exact ⟨hlater, (houtlasts.cancelled index).kept⟩
  armedAt := by
    intro runner cadence houtlasts _ _
    refine ⟨houtlasts.generation_le, fun index timer htimer ↦ ?_⟩
    obtain ⟨later, hlater, htask⟩ := houtlasts.kept index timer htimer
    have hinside := (Array.getElem?_eq_some_iff.mp hlater).1
    refine ⟨later, ?_, htask⟩
    rw [armedAt, Array.getElem?_push, if_neg (Nat.ne_of_lt hinside), hlater]
  detached houtlasts := { houtlasts with }
  anySession _ houtlasts := { houtlasts with }
  pushed houtlasts _ := { houtlasts with }
  attachedTo _ houtlasts _ := { houtlasts with }

theorem enduring_outlasts : Enduring Outlasts where
  refl := .refl
  upheld := upheldThroughout_outlasts
  context _ houtlasts := { houtlasts with }

/-! ### Calls of timers -/

/-- The call of a timer of another generation changes nothing. -/
theorem runFrom_callTimer_of_stale {index : Nat} {timer : Timer Nat}
    (htimer : runner.timers[index]? = some timer) (hstale : timer.task ≠ runner.generation) :
    runFrom (callTimer audience index) runner = (.ok (), runner) := by
  rw [callTimer, runFrom_bind, runFrom_get]
  simp only [htimer, tick, runFrom_bind, runFrom_get, hstale, decide_false, Bool.false_and]
  rfl

/-- The call of a timer changes nothing while the session is inactive or not stepped. -/
theorem runFrom_callTimer_of_resting {index : Nat} {timer : Timer Nat}
    (htimer : runner.timers[index]? = some timer)
    (hresting : ¬ (runner.session.active = true ∧ 0 < runner.session.speed)) :
    runFrom (callTimer audience index) runner = (.ok (), runner) := by
  have hidle : ¬ (decide (timer.task = runner.generation) && runner.session.active &&
      decide (Speed.regimeOf runner.session.speed = .stepped)) = true := by
    simp only [Bool.and_eq_true, decide_eq_true_eq, Speed.regimeOf_eq_stepped_iff]
    exact fun hcounts ↦ hresting ⟨hcounts.1.2, hcounts.2⟩
  rw [callTimer, runFrom_bind, runFrom_get]
  simp only [htimer, tick, runFrom_bind, runFrom_get, if_neg hidle]
  rfl

/-- The call of the current timer is a step if the session is active and stepped. -/
theorem Sole.ends_callTimer (hsole : runner.Sole) {index : Nat}
    (hcurrent : runner.current = some index) {required : Except Halt Unit → Runner → Prop} :
    Ends (callTimer audience index) runner required ↔
      Ends (if runner.session.active && decide (Speed.regimeOf runner.session.speed = .stepped) then
        step audience else pure ()) runner required := by
  obtain ⟨timer, htimer, htask⟩ := hsole.current index hcurrent
  rw [callTimer, ends_bind, ends_get]
  simp only [htimer]
  rw [tick, ends_bind, ends_get]
  simp only [htask, decide_true, Bool.true_and]

/-- At most one timer counts: the others are cancelled, and whoever makes one of them call changes
nothing; the current one changes something only if the session is active and stepped. -/
structure OneTimer (runner : Runner) : Prop where
  cancelled : ∀ (index : Nat) (timer : Timer Nat), runner.timers[index]? = some timer →
    runner.current ≠ some index → timer.cancelled = true
  live : (Timer.live runner.timers).length ≤ 1
  stale : ∀ (audience : Audience) (index : Nat), index < runner.timers.size →
    runner.current ≠ some index → runFrom (callTimer audience index) runner = (.ok (), runner)
  resting : ∀ (audience : Audience) (index : Nat), runner.current = some index →
    ¬ (runner.session.active = true ∧ 0 < runner.session.speed) →
      runFrom (callTimer audience index) runner = (.ok (), runner)

theorem Sole.oneTimer (hsole : runner.Sole) : runner.OneTimer where
  cancelled index timer htimer hother := (hsole.retired index timer htimer hother).1
  live := by
    rw [hsole.live_eq]
    split
    · cases runner.current <;> simp
    · simp
  stale audience index hinside hother := by
    have htimer := Array.getElem?_eq_getElem hinside
    exact runFrom_callTimer_of_stale htimer (Nat.ne_of_lt (hsole.retired _ _ htimer hother).2)
  resting audience index hcurrent hresting := by
    obtain ⟨timer, htimer, -⟩ := hsole.current index hcurrent
    exact runFrom_callTimer_of_resting htimer hresting

/-- A timer that is not the current one at some moment is not so at any later one. -/
theorem Sole.not_current (hsole : base.Sole) (houtlasts : base.Outlasts runner)
    (hlater : runner.Sole) {index : Nat} (hinside : index < base.timers.size)
    (hother : base.current ≠ some index) : runner.current ≠ some index := by
  intro hcurrent
  have htimer := Array.getElem?_eq_getElem hinside
  obtain ⟨later, hfound, htask⟩ := houtlasts.kept index _ htimer
  obtain ⟨timer, hsame, hgeneration⟩ := hlater.current index hcurrent
  obtain rfl : later = timer := Option.some.inj (hfound.symm.trans hsame)
  have hold := (hsole.retired index _ htimer hother).2
  have hgrown := houtlasts.generation_le
  omega

theorem sole_of_fresh {bench : Bench} {hooks : List Hook} {journal : Journal}
    (hstart : fresh bench hooks journal = .ok start) : start.Sole := by
  obtain ⟨_, -, rfl⟩ := exists_of_fresh hstart
  exact ⟨fun _ _ htimer ↦ by simp at htimer, nofun⟩

/-- One timer at most counts, at every moment of every run: in the midst of an order, at the call of
an observer and after an error as well. And a timer that is not the current one at some moment of a
run never is again, so that whoever makes it call later in the run changes nothing. -/
theorem one_timer_counts {bench : Bench} {hooks : List Hook} {journal : Journal}
    (hstart : fresh bench hooks journal = .ok start) (htraverses : start.Traverses middle last) :
    middle.OneTimer ∧ last.OneTimer ∧ ∀ index < middle.timers.size,
      middle.current ≠ some index → last.current ≠ some index ∧
        ∀ audience, runFrom (callTimer audience index) last = (.ok (), last) := by
  obtain ⟨hmiddle, hlast⟩ := htraverses.reachable
  have hsole := upheldThroughout_sole.reachable hmiddle (sole_of_fresh hstart)
  have hlater := upheldThroughout_sole.reachable hlast (sole_of_fresh hstart)
  have houtlasts := enduring_outlasts.traverses htraverses
  refine ⟨hsole.oneTimer, hlater.oneTimer, fun index hinside hother ↦ ?_⟩
  have hgone := hsole.not_current houtlasts hlater hinside hother
  obtain ⟨_, hfound, -⟩ := houtlasts.kept index _ (Array.getElem?_eq_getElem hinside)
  have hthere := (Array.getElem?_eq_some_iff.mp hfound).1
  exact ⟨hgone, fun audience ↦ hlater.oneTimer.stale audience index hthere hgone⟩

/-- Starts another session when it is called for the first time. -/
def restartsOnce (_ : Nat) (runner : Runner) : Conduct :=
  .inTurn (if runner.hookCalls = #[1] then [.start "+++" ⟨true, false⟩] else [])

/-- An observer of the first step starts another session. While it still has its turn, the timer
that made the step is not the current one any more, and it does not come back by what the caller
does afterwards. -/
theorem one_timer_counts_restarted_inside :
    ∃ start middle last, fresh ⟨.tape, 2, "", 0, .empty⟩
        [⟨.event "session.stepped", [], []⟩] .initial = .ok start ∧
      start.Traverses middle last ∧ middle.hookCalls = #[1] ∧ middle.current = some 1 ∧
      last.current = some 2 ∧ middle.OneTimer ∧ last.OneTimer ∧
        ∀ audience, runFrom (callTimer audience 0) last = (.ok (), last) := by
  obtain ⟨start, hstart⟩ : ∃ start, fresh ⟨.tape, 2, "", 0, .empty⟩
      [⟨.event "session.stepped", [], []⟩] .initial = .ok start := ⟨_, rfl⟩
  let cast : Cast := ⟨restartsOnce, 10, 2, .inTurn [.start "+" ⟨true, false⟩, .fire 1, .setSpeed 7]⟩
  let restarted (runner : Runner) : Bool := runner.timers.size = 2
  let middle := cast.moment start fun runner ↦ restarted runner || false
  let last := cast.moment start fun _ ↦ false
  have htraverses : start.Traverses middle last := ⟨cast, restarted, fun _ ↦ false, rfl, rfl⟩
  have hmoments : (decide (middle.hookCalls = #[1] ∧ middle.current = some 1 ∧
      last.current = some 2 ∧ 0 < middle.timers.size)) = true := by
    cases hstart
    decide +kernel
  obtain ⟨hcalls, hcurrent, hlater, hinside⟩ := of_decide_eq_true hmoments
  obtain ⟨hone, hother, hgone⟩ := one_timer_counts hstart htraverses
  exact ⟨start, middle, last, hstart, htraverses, hcalls, hcurrent, hlater, hone, hother,
    (hgone 0 hinside (hcurrent ▸ by decide)).2⟩

end Runner

end TapeRunner
