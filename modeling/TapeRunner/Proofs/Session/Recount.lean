import TapeRunner.Proofs.Session.Record

/-!
# What moving on leaves on record

Before observers that only listen, a blocking run tells how it ended and nothing else
(`Runner.Regular.yields_blockingRun`), and to rearm is to tell of a blocking run or of nothing
(`Runner.Regular.accounts_rearm`). The call of a timer tells what a step tells, if its tick is
effective, and nothing otherwise (`Runner.Regular.yields_call`); rounds of timers tell what their
calls tell, each from where the one before has led (`Runner.CallsTell`).
-/

set_option autoImplicit false
set_option relaxedAutoImplicit false

namespace TapeRunner

open Activity

/-- A live timer is there. -/
theorem Timer.exists_of_isLive {Task : Type} {timers : Array (Timer Task)} {index : Nat}
    (hlive : isLive timers index = true) : ∃ timer, timers[index]? = some timer := by
  unfold isLive at hlive
  cases htimer : timers[index]? with
  | none => simp [htimer] at hlive
  | some timer => exact ⟨timer, rfl⟩

namespace Runner

variable {runner middle last : Runner} {audience : Audience} {kinds further : List EventKind}
variable {blocking : Prop}

namespace Regular

variable {position : Nat} {run : Run}

/-! ### Blocking runs -/

/-- The loop of a blocking run tells nothing, and ends early for want of patience only. -/
theorem yields_loop (hregular : runner.Regular) (hpassive : audience.Passive)
    (hattached : runner.attached = some position) (patience : Nat) :
    Yields (runner.BrokenOff True) (attempt (blockingSteps audience position patience)) runner
      fun _ ↦ Records [] runner := by
  have hloop : Yields (orFault (Records [] runner) (runner.BrokenOff True))
      (blockingSteps audience position patience) runner fun _ ↦ Records [] runner := by
    refine Yields.mono (yields_blockingSteps (fun last hlast ↦ ?_) (fun last hlast hlost ↦ ?_)
      (fun last run hlast hrun _ _ ↦ ?_) patience (.refl runner)) fun _ _ ↦ And.left
    · exact ⟨[], hlast, .inr ⟨trivial, rfl⟩⟩
    · obtain ⟨run, hrun⟩ :=
        (hlast.regular hregular).exists_run (hlast.attached_eq.trans hattached)
      cases hlost.symm.trans hrun
    · have hstill := hlast.regular hregular
      rcases (hstill.sound position run hrun).turn_cases hstill.crashes_nil with
        ⟨fault, hfault⟩ | ⟨effect?, counter, hturn, -⟩
      · refine (ends_advance hrun).mpr ?_
        rw [hfault]
        exact hlast
      · refine Yields.mono (hstill.yields_turn hpassive hrun hturn) ?_
        rintro _ after ⟨hafter, -⟩
        exact (hlast.nil_trans hafter).nil_trans (records_stepCounted after)
  exact hloop.attempt

/-- A blocking run tells how it ended and nothing else, and shows the runner as it is then. -/
theorem yields_blockingRun (hregular : runner.Regular) (hpassive : audience.Passive)
    (hattached : runner.attached = some position) (bound : Nat) :
    Yields (runner.BrokenOff True) (blockingRun audience (rearmWithin audience bound) position)
      runner fun _ last ↦ ∃ kind, kind.Closes ∧ Records [kind] runner last ∧ last.Shown := by
  rw [Yields, blockingRun_eq, ends_bind, ends_get]
  have hplain := plain_nameField runner Fields.plain_nil
  refine Yields.bind (writes_of_plain hregular.bound hplain .info "session.blocking_run") ?_
  rintro _ _ ⟨lines, rfl⟩
  have hwritten := records_withLines runner lines
  refine yields_after hwritten ?_
  refine Yields.bind ((hwritten.regular hregular).yields_loop hpassive hattached _) ?_
  intro outcome looped hlooped
  have hthrough := hwritten.nil_trans hlooped
  have hactive : looped.session.active = true :=
    hthrough.active_eq.trans (hregular.active_of_attached hattached)
  refine yields_after hlooped ?_
  refine Yields.bind ((hthrough.regular hregular).yields_conclude hpassive hactive outcome) ?_
  rintro _ closed ⟨hclosed, hshown, hidle⟩
  have hreport := hthrough.nil_trans hclosed
  refine Yields.mono (yields_after hclosed
    ((hreport.regular hregular).yields_again (.inr hidle) fun _ ↦ trivial)) ?_
  rintro _ last ⟨hlast, hstill⟩
  exact ⟨_, looped.closes_closing outcome, hreport.trans hlast, hstill hshown⟩

end Regular

/-- What rearming tells: how a blocking run ended, if the speed of an active session asks for one,
and nothing otherwise. -/
def RearmTells (runner : Runner) (kinds : List EventKind) : Prop :=
  if runner.session.active = true ∧ runner.session.speed < 0 then
    ∃ kind, EventKind.Closes kind ∧ kinds = [kind]
  else kinds = []

/-- However it ends, an activity that tells nothing accounts for no event. -/
theorem accounts_of_unheard {Result : Type} {activity : Action Result}
    (hunheard : Preserves runner.Unheard activity) :
    Recounts blocking (· = []) activity runner := by
  refine Ends.mono (hunheard runner (.refl runner)) fun outcome last hends ↦ ?_
  have hlast : runner.Unheard last := by
    rcases outcome with halt | _ <;> exact hends
  exact ⟨[], hlast.1, .inl ⟨rfl, fun hshown ↦ hlast.2 (hshown.resolve_left (· rfl))⟩⟩

theorem unheard_log (base : Runner) (level : Level) (event : String) (fields : Fields) :
    Preserves base.Unheard (log level event fields) :=
  keeps_log level event (fun _ hunheard ↦ writes_of_refusal fun _ _ ↦ hunheard)
    fun runner lines hunheard ↦ hunheard.trans (unheard_withLines runner lines)

/-- To arm a timer tells nothing, whether the timers and the journal accept it or not. -/
theorem unheard_arm (base : Runner) (speed : Int) (cadence : Float) :
    Preserves base.Unheard (arm speed cadence) := by
  apply Keeps.get_bind
  intro runner hunheard
  cases hevery : Timer.every runner.timers (Speed.interval cadence) runner.generation with
  | error error =>
    simp only [hevery]
    exact hunheard
  | ok timers =>
    have hset : runner.Unheard { runner with timers, current := some runner.timers.size } :=
      ⟨records_nil (fun hregular ↦ { hregular with }) rfl rfl rfl (Nat.le_refl _) (.inl rfl)
        rfl rfl, id⟩
    simp only [hevery]
    rw [Yields, ends_bind, ends_set]
    exact unheard_log base _ _ _ _ (hunheard.trans hset)

namespace Regular

/-- What follows once there is no timer tells of a blocking run or of nothing. -/
theorem accounts_engage (hregular : runner.Regular) (hpassive : audience.Passive) (bound : Nat) :
    Recounts True runner.RearmTells (engage audience (rearmWithin audience bound)) runner := by
  have hnone (hnot : ¬ (runner.session.active = true ∧ runner.session.speed < 0)) :
      runner.RearmTells [] := by
    rw [RearmTells, if_neg hnot]
  have hsilent (hnot : ¬ (runner.session.active = true ∧ runner.session.speed < 0)) :
      runner.Accounted True
        (fun kinds last ↦ runner.RearmTells kinds ∧ runner.StaysShown kinds last)
        (.ok () : Except Halt Unit) runner :=
    ⟨[], .refl runner, .inl ⟨hnone hnot, fun hshown ↦ hshown.resolve_left (· rfl)⟩⟩
  refine ends_engage (fun hoff ↦ hsilent ?_) (fun hidle ↦ hsilent ?_) (fun hstepped cadence _ ↦ ?_)
    fun hblocking position hactive hattached ↦ ?_
  · rintro ⟨hactive, -⟩
    rw [hactive, hregular.active_iff.mp hactive] at hoff
    cases hoff
  · rintro ⟨-, hspeed⟩
    exact absurd hidle (Int.ne_of_lt hspeed)
  · have hnot : ¬ (runner.session.active = true ∧ runner.session.speed < 0) :=
      fun hblocks ↦ Int.lt_asymm hblocks.2 hstepped
    refine accounts_mono (accounts_of_unheard (unheard_arm runner _ cadence)) ?_
    rintro _ last ⟨rfl, hstays⟩
    exact ⟨hnone hnot, hstays⟩
  · refine accounts_of_yields (hregular.yields_blockingRun hpassive hattached bound) ?_
    rintro _ last ⟨kind, hcloses, hrecords, hshown⟩
    refine ⟨[kind], hrecords, ?_, fun _ ↦ hshown⟩
    rw [RearmTells, if_pos ⟨hactive, hblocking⟩]
    exact ⟨kind, hcloses, rfl⟩

/-- To rearm is to tell of a blocking run or of nothing. -/
theorem accounts_rearm (hregular : runner.Regular) (hpassive : audience.Passive) :
    Recounts True runner.RearmTells (rearm audience) runner := by
  unfold rearm
  cases audience.patience with
  | zero => exact ⟨[], .refl runner, .inr ⟨.unfinished, rfl, .inr ⟨trivial, rfl⟩⟩⟩
  | succ bound =>
    rw [rearmWithin_succ]
    refine accounts_bind (yields_clear (writes_of_plain hregular.bound Fields.plain_nil)) ?_
    rintro _ _ ⟨lines, rfl⟩
    have hcleared := (records_cleared runner).nil_trans (records_withLines runner.cleared lines)
    exact ⟨[], hcleared, (hcleared.regular hregular).accounts_engage hpassive bound⟩

theorem recounts_runBlocking (hregular : runner.Regular) (hpassive : audience.Passive) :
    Recounts True (fun kinds ↦ if runner.attached.isSome then
      ∃ kind, EventKind.Closes kind ∧ kinds = [kind] else kinds = [])
      (runBlocking audience) runner := by
  rw [runBlocking]
  refine (ends_bind _ _).mpr ((ends_requireRun _).mpr ?_)
  cases hattached : runner.attached with
  | none => exact ⟨[], .refl runner, .inl ⟨rfl, fun hshown ↦ hshown.resolve_left (· rfl)⟩⟩
  | some position =>
    refine accounts_of_yields (hregular.yields_blockingRun hpassive hattached audience.patience) ?_
    rintro _ last ⟨kind, hcloses, hrecords, hshown⟩
    exact ⟨[kind], hrecords, ⟨kind, hcloses, rfl⟩, fun _ ↦ hshown⟩

end Regular

/-! ### Ticks -/

/-- A tick of a timer is effective: the timer has been armed in the current generation, and the
session is active and stepped. -/
def Effective (runner : Runner) (generation : Nat) : Prop :=
  generation = runner.generation ∧ runner.session.active = true ∧
    Speed.regimeOf runner.session.speed = .stepped

/-- What the call of a timer tells: what a step tells, if its tick is effective, and nothing
otherwise. -/
def CallTells (runner : Runner) (index : Nat) (kinds : List EventKind) : Prop :=
  match runner.timers[index]? with
  | some timer => (runner.Effective timer.task ∧ runner.StepTells kinds) ∨
    ¬ runner.Effective timer.task ∧ kinds = []
  | none => kinds = []

/-- A number of calls of live timers, each from where the one before has led, tell these events and
lead to the last runner. -/
inductive CallsTell (audience : Audience) : Nat → Runner → List EventKind → Runner → Prop
  | none (runner : Runner) : CallsTell audience 0 runner [] runner
  | call {runner middle last : Runner} {index count : Nat} {kinds further : List EventKind}
      (hlive : Timer.isLive runner.timers index = true) (htells : runner.CallTells index kinds)
      (hcall : runFrom (callTimer audience index) runner = (.ok (), middle))
      (hlater : CallsTell audience count middle further last) :
      CallsTell audience (count + 1) runner (kinds ++ further) last

theorem CallsTell.trans {count more : Nat} (hfirst : CallsTell audience count runner kinds middle)
    (hsecond : CallsTell audience more middle further last) :
    CallsTell audience (count + more) runner (kinds ++ further) last := by
  induction hfirst with
  | none runner =>
    rw [Nat.zero_add]
    exact hsecond
  | call hlive htells hcall _ ih =>
    rw [Nat.add_right_comm, List.append_assoc]
    exact .call hlive htells hcall (ih hsecond)

namespace Regular

/-- The call of a timer tells what its tick tells. -/
theorem yields_call (hregular : runner.Regular) (hpassive : audience.Passive) {index : Nat}
    {timer : Timer Nat} (htimer : runner.timers[index]? = some timer)
    (hpatience : audience.patience ≠ 0) :
    Yields (runner.BrokenOff False) (callTimer audience index) runner fun _ last ↦
      ∃ kinds, Records kinds runner last ∧ runner.CallTells index kinds ∧
        runner.StaysShown kinds last := by
  have heffective : (timer.task = runner.generation && runner.session.active &&
      Speed.regimeOf runner.session.speed = .stepped) = true ↔ runner.Effective timer.task := by
    simp only [Effective, Bool.and_eq_true, decide_eq_true_eq, and_assoc]
  rw [Yields, callTimer, ends_bind, ends_get]
  simp only [htimer]
  rw [tick, ends_bind, ends_get]
  by_cases hcounts : runner.Effective timer.task
  · simp only [if_pos (heffective.mpr hcounts)]
    refine Yields.mono (hregular.yields_step hpassive hcounts.2.1 hpatience) ?_
    rintro _ last ⟨kinds, hrecords, htells, hshown⟩
    refine ⟨kinds, hrecords, ?_, fun _ ↦ hshown⟩
    rw [CallTells, htimer]
    exact .inl ⟨hcounts, htells⟩
  · simp only [if_neg (mt heffective.mp hcounts)]
    refine ⟨[], .refl runner, ?_, .refl runner⟩
    rw [CallTells, htimer]
    exact .inr ⟨hcounts, rfl⟩

/-- A number of calls of live timers, each from where the one before has led. -/
def Called (audience : Audience) (count : Nat) (runner last : Runner) : Prop :=
  ∃ kinds, Records kinds runner last ∧ CallsTell audience count runner kinds last ∧
    runner.StaysShown kinds last

theorem Called.trans {count more : Nat} (hfirst : Called audience count runner middle)
    (hsecond : Called audience more middle last) : Called audience (count + more) runner last := by
  obtain ⟨kinds, hrecords, htell, hstays⟩ := hfirst
  obtain ⟨further, hlater, hmore, hstill⟩ := hsecond
  exact ⟨kinds ++ further, hrecords.trans hlater, htell.trans hmore, hstays.trans hstill⟩

theorem yields_fireListed (hregular : runner.Regular) (hpassive : audience.Passive)
    (hpatience : audience.patience ≠ 0) (listed : List Nat) (fired : Nat) :
    Yields (runner.BrokenOff False)
      (Timer.fireListed (·.timers) (callTimer audience) listed fired) runner fun total last ↦
        ∃ count, total = fired + count ∧ Called audience count runner last := by
  induction listed generalizing runner fired with
  | nil => exact ⟨0, rfl, [], .refl runner, .none runner, .refl runner⟩
  | cons index later ih =>
    rw [Timer.fireListed, Yields, ends_bind, ends_get]
    by_cases hlive : Timer.isLive runner.timers index = true
    · obtain ⟨timer, htimer⟩ := Timer.exists_of_isLive hlive
      simp only [if_pos hlive]
      refine Yields.bind (hregular.yields_call hpassive htimer hpatience).reached ?_
      rintro _ middle ⟨hcall, kinds, hrecords, htells, hstays⟩
      have hone : Called audience 1 runner middle :=
        ⟨kinds ++ [], hrecords.trans (.refl middle), .call hlive htells hcall (.none middle),
          hstays.trans (.refl middle)⟩
      refine Yields.mono (yields_after hrecords (ih (hrecords.regular hregular) (fired + 1))) ?_
      rintro total last ⟨count, rfl, hcalled⟩
      exact ⟨1 + count, Nat.add_assoc _ _ _, hone.trans hcalled⟩
    · simp only [if_neg hlive]
      exact ih hregular fired

theorem yields_fireRounds (hregular : runner.Regular) (hpassive : audience.Passive)
    (hpatience : audience.patience ≠ 0) (rounds fired : Nat) :
    Yields (runner.BrokenOff False)
      (Timer.fireRounds (·.timers) (callTimer audience) rounds fired) runner fun total last ↦
        ∃ count, total = fired + count ∧ Called audience count runner last := by
  induction rounds generalizing runner fired with
  | zero => exact ⟨0, rfl, [], .refl runner, .none runner, .refl runner⟩
  | succ rounds ih =>
    rw [Timer.fireRounds, Yields, ends_bind, ends_get]
    refine Yields.bind (hregular.yields_fireListed hpassive hpatience _ fired) ?_
    rintro _ middle ⟨count, rfl, hcalled⟩
    obtain ⟨kinds, hrecords, -, -⟩ := id hcalled
    refine Yields.mono (yields_after hrecords (ih (hrecords.regular hregular) _)) ?_
    rintro total last ⟨more, rfl, hmore⟩
    exact ⟨count + more, Nat.add_assoc _ _ _, hcalled.trans hmore⟩

end Regular

end Runner

end TapeRunner
