import TapeRunner.Proofs.Session.Passive

/-!
# What is heard

Where the recorder hears every event once and nobody does more than listen, an event that is told is
recorded once, as the next of its sequence (`Runner.Attended.yields_tell`), and so is the report of
the end of a stretch (`Runner.Attended.yields_conclude`) and the end of a session
(`Runner.Attended.yields_stopped`). What is told in turn is heard in turn (`Runner.Heard.trans`).
`Runner.Brought` says what can be seen of a stretch as a whole: where it has brought the run, what
the session is after it, and which events have been recorded.
-/

set_option autoImplicit false
set_option relaxedAutoImplicit false

namespace TapeRunner

open Activity

/-- An end for a line that was to count more steps than fit into it. -/
def Halt.Overflows (halt : Halt) (steps : Nat) : Prop :=
  greatestInteger < steps ∧ ∃ error, halt = .raised error ∧ error.isRefusal = true

theorem Halt.not_overflows_fault {steps : Nat} (fault : Fault) :
    ¬ (Halt.raised (.fault fault)).Overflows steps := by
  rintro ⟨-, _, ⟨⟩, ⟨⟩⟩

namespace Runner

/-- Events of these kinds have been told and heard in turn, and nothing else has changed but the
calls of observers and the lines of the journal. -/
def Heard (kinds : List EventKind) (runner last : Runner) : Prop :=
  ∃ events hookCalls lines, events.toList.map Event.kind = kinds ∧ last =
    { runner with
      session := { runner.session with sequence := runner.session.sequence + kinds.length }
      recorded := runner.recorded ++ events
      hookCalls
      journal := { runner.journal with lines } }

/-- The journal takes lines about events, and the recorder hears every event once. -/
structure Attended (runner : Runner) : Prop extends runner.Chronicled where
  recorder : ∀ kind : EventKind, (runner.bus.recipients kind.type).count .recorder = 1

variable {halted : Halt → Runner → Prop} {runner middle last : Runner} {audience : Audience}
variable {kinds further : List EventKind}

theorem Heard.trans (hfirst : runner.Heard kinds middle) (hsecond : middle.Heard further last) :
    runner.Heard (kinds ++ further) last := by
  obtain ⟨events, _, _, rfl, rfl⟩ := hfirst
  obtain ⟨later, hookCalls, lines, rfl, rfl⟩ := hsecond
  refine ⟨events ++ later, hookCalls, lines, by simp, ?_⟩
  simp only [Array.append_assoc, List.length_append, Nat.add_assoc]

theorem Attended.of_heard (hattended : runner.Attended) (hheard : runner.Heard kinds last) :
    last.Attended := by
  obtain ⟨_, _, _, _, rfl⟩ := hheard
  exact { hattended with }

/-- Nothing has changed but the calls of observers and the lines of the journal. -/
def Traced (runner last : Runner) : Prop :=
  ∃ hookCalls lines, last = { runner with hookCalls, journal := { runner.journal with lines } }

/-- The runner once an event has been told and recorded. -/
def told (runner : Runner) (kind : EventKind) : Runner :=
  runner.counted.withEvent (runner.counted.eventOf kind)

/-- An event is recorded as often as the recorder is among those who hear it. -/
theorem yields_hear_all (event : Event) {observers : List Observer}
    (hpassive : ∀ position, .hook position ∈ observers → audience.PassiveAt position) :
    Yields halted (observers.forM (hear audience event)) runner fun _ last ↦ ∃ hookCalls, last =
      { runner with
        recorded := runner.recorded ++ Array.replicate (observers.count .recorder) event
        hookCalls } := by
  induction observers generalizing runner with
  | nil =>
    refine ⟨runner.hookCalls, ?_⟩
    rw [List.count_nil, Array.replicate_zero, Array.append_empty]
    rfl
  | cons observer later ih =>
    have hlater := fun position hposition ↦
      hpassive position (List.mem_cons_of_mem _ hposition)
    cases observer with
    | registrar =>
      rw [List.count_cons_of_ne (by decide)]
      exact ih hlater
    | recorder =>
      have hfirst : Yields halted (hear audience event .recorder) runner
          fun _ after ↦ after = runner.withEvent event := rfl
      refine hfirst.bind fun _ _ hafter ↦ ?_
      subst hafter
      refine Yields.mono (ih hlater) ?_
      rintro _ _ ⟨hookCalls, rfl⟩
      refine ⟨hookCalls, ?_⟩
      have happend (count : Nat) : runner.recorded.push event ++ Array.replicate count event =
          runner.recorded ++ Array.replicate (count + 1) event := by grind
      rw [List.count_cons_self, ← happend]
      rfl
    | hook position =>
      have hfirst : Yields halted (hear audience event (.hook position)) runner
          fun _ after ↦ ∃ hookCalls, after = { runner with hookCalls } := by
        refine keeps_react_of_passive (hpassive position List.mem_cons_self) ?_ runner
          ⟨runner.hookCalls, rfl⟩
        rintro _ hookCalls ⟨_, rfl⟩
        exact ⟨hookCalls, rfl⟩
      rw [List.count_cons_of_ne (Observer.noConfusion ·)]
      refine hfirst.bind fun _ _ hafter ↦ ?_
      obtain ⟨_, rfl⟩ := hafter
      exact ih hlater

/-- What is told is recorded once, with what there is to see at that moment. -/
theorem Attended.yields_told (hattended : runner.Attended)
    (hpassive : audience.PassiveIn runner.bus) (kind : EventKind) :
    Yields halted (tell audience kind) runner fun _ ↦ (runner.told kind).Traced := by
  refine (ends_tell kind).mpr ?_
  have hcounted : runner.counted.Chronicled := ⟨hattended.bound, hattended.heard⟩
  rw [publish, ends_bind, ends_get]
  refine Yields.bind (hcounted.writes_published kind _ _) ?_
  rintro _ _ ⟨lines, rfl⟩
  refine Yields.mono (yields_hear_all _ (hpassive _)) ?_
  rintro _ _ ⟨hookCalls, rfl⟩
  refine ⟨hookCalls, lines, ?_⟩
  have honce : (runner.counted.bus.recipients kind.type).count .recorder = 1 :=
    hattended.recorder kind
  rw [show (runner.counted.eventOf kind).kind.type = kind.type from rfl, honce]
  rfl

/-- What is told is heard once. -/
theorem Attended.yields_tell (hattended : runner.Attended) (hpassive : audience.Passive)
    (kind : EventKind) : Yields halted (tell audience kind) runner fun _ ↦ runner.Heard [kind] := by
  refine Yields.mono (hattended.yields_told (hpassive.passiveIn _) kind) ?_
  rintro _ _ ⟨hookCalls, lines, rfl⟩
  exact ⟨#[runner.counted.eventOf kind], hookCalls, lines, rfl, rfl⟩

/-- The report of the end of a stretch is recorded once, with what there is to see then, unless too
many steps have been made for the line about it. -/
theorem Attended.yields_concluded (hattended : runner.Attended)
    (hpassive : audience.PassiveIn runner.bus) (outcome : Except Fault Unit)
    (hlong : greatestInteger < runner.session.steps → ∀ error, error.isRefusal = true →
      halted (.raised error) (runner.idledWith (runner.verdict outcome))) :
    Yields halted (conclude audience outcome) runner fun _ ↦
      ((runner.idledWith (runner.verdict outcome)).told (runner.closing outcome)).Traced := by
  refine hattended.yields_conclude_of_tell outcome hlong fun lines ↦ ?_
  have hidled : ((runner.idledWith (runner.verdict outcome)).withLines lines).Attended :=
    { hattended with }
  refine Yields.mono (hidled.yields_told hpassive (runner.closing outcome)) ?_
  rintro _ _ ⟨hookCalls, lines, rfl⟩
  exact ⟨hookCalls, lines, rfl⟩

/-- So it is heard once. -/
theorem Attended.yields_conclude (hattended : runner.Attended) (hpassive : audience.Passive)
    (outcome : Except Fault Unit)
    (hlong : greatestInteger < runner.session.steps → ∀ error, error.isRefusal = true →
      halted (.raised error) (runner.idledWith (runner.verdict outcome))) :
    Yields halted (conclude audience outcome) runner
      fun _ ↦ (runner.idledWith (runner.verdict outcome)).Heard [runner.closing outcome] := by
  refine Yields.mono (hattended.yields_concluded (hpassive.passiveIn _) outcome hlong) ?_
  rintro _ _ ⟨hookCalls, lines, rfl⟩
  exact ⟨#[_], hookCalls, lines, rfl, rfl⟩

/-! ### The end of a session -/

/-- An active session ends and is told to have ended, and nothing stays bound, unless too many steps
have been made for the line about it. -/
theorem Attended.yields_stopped (hattended : runner.Attended)
    (hpassive : audience.PassiveIn runner.bus) (hactive : runner.session.active = true)
    (hlong : greatestInteger < runner.session.steps → ∀ error, error.isRefusal = true → ∀ lines,
      halted (.raised error) (runner.ended.withLines lines)) :
    Yields halted (stop audience) runner fun _ last ↦ ∃ hookCalls lines, last =
      { runner.ended.told .stopped with
        hookCalls
        journal := { runner.journal with context := [], lines } } := by
  refine yields_stop hactive hattended.bound fun lines ↦ ?_
  have hended : (runner.ended.withLines lines).Attended := { hattended with }
  have hnamed : Fields.Plain [runner.nameField] := plain_nameField runner Fields.plain_nil
  have hlines := fun hmany error hrefusal ↦ hlong hmany error hrefusal lines
  refine Yields.bind (hended.writes_steps hnamed hlines .info "session.stopped") ?_
  rintro _ _ ⟨written, rfl⟩
  have hlogged : ((runner.ended.withLines lines).withLines written).Attended := { hended with }
  refine Yields.bind (hlogged.yields_told hpassive .stopped) ?_
  rintro _ _ ⟨hookCalls, further, rfl⟩
  exact ⟨hookCalls, further, rfl⟩

/-! ### What a stretch brings about -/

/-- The session is attached to a run that has come as far with a program as a rig that shares its
output. -/
def AttachedTo (runner : Runner) (program : String) (rig : Rig) : Prop :=
  ∃ position, runner.attached = some position ∧ runner.Carries position program rig

/-- A stretch has brought the attached run to where a rig stands and the session to what it is,
events of these kinds have been recorded in turn, and the clock and its surroundings are as they
were. -/
structure Brought (program : String) (goal : Rig) (session : Session) (kinds : List EventKind)
    (runner last : Runner) : Prop where
  attachedTo : last.AttachedTo program goal
  session_eq : last.session = session
  bench_eq : last.bench = runner.bench
  recorded : ∃ events : Array Event, last.recorded = runner.recorded ++ events ∧
    events.toList.map Event.kind = kinds

/-- What a second stretch brings about, it does after the first. -/
theorem Brought.trans {program : String} {rig goal : Rig} {session final : Session}
    (hfirst : Brought program rig session kinds runner middle)
    (hsecond : Brought program goal final further middle last) :
    Brought program goal final (kinds ++ further) runner last := by
  obtain ⟨events, hevents, rfl⟩ := hfirst.recorded
  obtain ⟨later, hlater, rfl⟩ := hsecond.recorded
  refine ⟨hsecond.attachedTo, hsecond.session_eq, hsecond.bench_eq.trans hfirst.bench_eq,
    events ++ later, ?_, by simp⟩
  rw [hlater, hevents, Array.append_assoc]

/-- The session after a stretch of some steps and events that has been reported with its outcome. -/
def sessionClosed (runner : Runner) (outcome : Except Fault Unit) (steps events : Nat) : Session :=
  { runner.session with
    speed := Speed.idle
    status := some (runner.verdict outcome)
    steps := runner.session.steps + steps
    sequence := runner.session.sequence + events }

/-- Within a session, what comes after a stretch is reported as it would have been before it. -/
theorem Brought.report_eq {program : String} {rig : Rig} {session : Session}
    (hbrought : Brought program rig session kinds runner middle)
    (hbegun : session.startedAt = runner.session.startedAt) (outcome : Except Fault Unit) :
    middle.verdict outcome = runner.verdict outcome ∧
      middle.closing outcome = runner.closing outcome := by
  have helapsed : middle.elapsed = runner.elapsed := by
    rw [elapsed, elapsed, hbrought.bench_eq, hbrought.session_eq, hbegun]
  cases outcome with
  | error fault => exact ⟨rfl, rfl⟩
  | ok _ => exact ⟨congrArg Status.finished helapsed, congrArg EventKind.finished helapsed⟩

end Runner

end TapeRunner
