import TapeRunner.Proofs.Session.Reachable

/-!
# What an operation leaves on record

Before observers that only listen, every part of an operation inside of a session adds events to the
record, under the next numbers of the session (`Runner.Records`), and whatever is told last shows
the runner as it is (`Runner.Shown`). A step tells the fault that it found or the end that it came
to, if it did, and then of itself (`Runner.Regular.yields_step`). An operation may be cut short, for
want of patience or for a line that cannot hold the number of steps, and has recorded a part of
these events then (`Runner.Recounts`).
-/

set_option autoImplicit false
set_option relaxedAutoImplicit false

namespace TapeRunner

open Activity

/-- An event that is neither the first nor the last of a session. -/
def EventKind.Inner (kind : EventKind) : Prop := kind ≠ .started ∧ kind ≠ .stopped

/-- An event that reports the end of a stretch. -/
def EventKind.Closes : EventKind → Prop
  | .finished _ | .failed _ => True
  | _ => False

theorem EventKind.Closes.inner {kind : EventKind} (hcloses : kind.Closes) : kind.Inner := by
  cases kind <;> first | exact hcloses.elim | exact ⟨nofun, nofun⟩

/-- An operation ends before its time: for a line that was to count more steps than fit into it, or,
if it may come to a blocking run, for want of patience. -/
def Halt.CutsShort (halt : Halt) (blocking : Prop) (steps : Nat) : Prop :=
  halt.Overflows steps ∨ blocking ∧ halt = .unfinished

/-- The run after a turn, with the effect that the turn had, if any. -/
def Run.turned (run : Run) (effect? : Option Effect) (counter : Nat) : Run :=
  (effect?.elim run run.settle).resumeAt counter

namespace Runner

/-- Founded, with engines that fail by a fault only, and attached just while active. -/
structure Regular (runner : Runner) : Prop extends runner.Founded where
  crashes_nil : runner.bench.script.crashes = []
  active_iff : runner.session.active = true ↔ runner.attached.isSome = true

/-- The last event on record shows the session and its engine as they are now. -/
def Shown (runner : Runner) : Prop := ∃ event, runner.recorded.back? = some event ∧
  event.session = runner.session.view ∧ event.engine = runner.engineView

/-- After any event, and otherwise if it was so before, the last event shows what there is. -/
def StaysShown (runner : Runner) (kinds : List EventKind) (last : Runner) : Prop :=
  kinds ≠ [] ∨ runner.Shown → last.Shown

/-- Events of these kinds have come on record in turn, under the next numbers of the session. -/
structure Appends (kinds : List EventKind) (runner last : Runner) : Prop where
  number_eq : last.session.number = runner.session.number
  sequence_eq : last.session.sequence = runner.session.sequence + kinds.length
  recorded : ∃ events : List Event, last.recorded.toList = runner.recorded.toList ++ events ∧
    events.map Event.kind = kinds ∧
    events.map Event.sequence = List.range' (runner.session.sequence + 1) kinds.length ∧
    ∀ event ∈ events, event.session.number = runner.session.number

/-- Events of these kinds have come on record inside of a session that goes on as it was, save that
it may have turned idle and have made more steps. -/
structure Records (kinds : List EventKind) (runner last : Runner) : Prop
    extends Appends kinds runner last where
  regular : runner.Regular → last.Regular
  active_eq : last.session.active = runner.session.active
  attached_eq : last.attached = runner.attached
  steps_le : runner.session.steps ≤ last.session.steps
  speed_eq : last.session.speed = runner.session.speed ∨ last.session.speed = Speed.idle
  active : kinds ≠ [] → runner.session.active = true
  inner : ∀ kind ∈ kinds, kind.Inner

variable {runner middle last : Runner} {audience : Audience} {kinds further : List EventKind}
variable {blocking : Prop}

namespace StaysShown

theorem refl (runner : Runner) : runner.StaysShown [] runner :=
  fun hshown ↦ hshown.resolve_left (· rfl)

theorem trans (hfirst : runner.StaysShown kinds middle) (hsecond : middle.StaysShown further last) :
    runner.StaysShown (kinds ++ further) last := by
  intro hshown
  by_cases hlater : further = []
  · subst hlater
    rw [List.append_nil] at hshown
    exact hsecond (.inr (hfirst hshown))
  · exact hsecond (.inl hlater)

end StaysShown

/-! ### Records -/

theorem Appends.trans (hfirst : Appends kinds runner middle)
    (hsecond : Appends further middle last) : Appends (kinds ++ further) runner last where
  number_eq := hsecond.number_eq.trans hfirst.number_eq
  sequence_eq := by
    rw [hsecond.sequence_eq, hfirst.sequence_eq, List.length_append, Nat.add_assoc]
  recorded := by
    obtain ⟨events, hevents, hkinds, hsequence, hnumber⟩ := hfirst.recorded
    obtain ⟨later, hlater, hfurther, hnext, hsame⟩ := hsecond.recorded
    refine ⟨events ++ later, ?_, ?_, ?_, fun event hevent ↦ ?_⟩
    · rw [hlater, hevents, List.append_assoc]
    · rw [List.map_append, hkinds, hfurther]
    · rw [List.map_append, hsequence, hnext, hfirst.sequence_eq, List.length_append,
        ← List.range'_append_1, Nat.add_right_comm]
    · rcases List.mem_append.mp hevent with hearly | hlate
      · exact hnumber event hearly
      · rw [hsame event hlate, hfirst.number_eq]

theorem appends_nil (hnumber : last.session.number = runner.session.number)
    (hsequence : last.session.sequence = runner.session.sequence)
    (hrecorded : last.recorded = runner.recorded) : Appends [] runner last where
  number_eq := hnumber
  sequence_eq := hsequence
  recorded := ⟨[], by rw [hrecorded, List.append_nil], rfl, rfl,
    fun _ hevent ↦ absurd hevent List.not_mem_nil⟩

/-- What has been told is on record. -/
theorem appends_told {kind : EventKind} (hsession : last.session = (runner.told kind).session)
    (hrecorded : last.recorded = (runner.told kind).recorded) : Appends [kind] runner last where
  number_eq := by rw [hsession]; rfl
  sequence_eq := by rw [hsession]; rfl
  recorded := by
    refine ⟨[runner.counted.eventOf kind], ?_, rfl, rfl, fun _ hevent ↦ ?_⟩
    · rw [hrecorded]
      exact Array.toList_push
    · rw [List.mem_singleton.mp hevent]
      rfl

/-- Where nothing has come on record and the session is still the same, no event has. -/
theorem records_nil (hregular : runner.Regular → last.Regular)
    (hnumber : last.session.number = runner.session.number)
    (hactive : last.session.active = runner.session.active)
    (hattached : last.attached = runner.attached)
    (hsteps : runner.session.steps ≤ last.session.steps)
    (hspeed : last.session.speed = runner.session.speed ∨ last.session.speed = Speed.idle)
    (hsequence : last.session.sequence = runner.session.sequence)
    (hrecorded : last.recorded = runner.recorded) : Records [] runner last where
  toAppends := appends_nil hnumber hsequence hrecorded
  regular := hregular
  active_eq := hactive
  attached_eq := hattached
  steps_le := hsteps
  speed_eq := hspeed
  active hsome := absurd rfl hsome
  inner _ hkind := absurd hkind List.not_mem_nil

namespace Records

theorem refl (runner : Runner) : Records [] runner runner :=
  records_nil id rfl rfl rfl (Nat.le_refl _) (.inl rfl) rfl rfl

theorem trans (hfirst : Records kinds runner middle) (hsecond : Records further middle last) :
    Records (kinds ++ further) runner last where
  toAppends := hfirst.toAppends.trans hsecond.toAppends
  regular hregular := hsecond.regular (hfirst.regular hregular)
  active_eq := hsecond.active_eq.trans hfirst.active_eq
  attached_eq := hsecond.attached_eq.trans hfirst.attached_eq
  steps_le := Nat.le_trans hfirst.steps_le hsecond.steps_le
  speed_eq := by
    rcases hsecond.speed_eq with hsame | hidle
    · rw [hsame]
      exact hfirst.speed_eq
    · exact .inr hidle
  active hsome := by
    by_cases hbefore : kinds = []
    · subst hbefore
      exact hfirst.active_eq ▸ hsecond.active hsome
    · exact hfirst.active hbefore
  inner kind hkind := (List.mem_append.mp hkind).elim (hfirst.inner kind) (hsecond.inner kind)

/-- After a part that tells nothing, what is on record is what follows. -/
theorem nil_trans (hfirst : Records [] runner middle) (hsecond : Records kinds middle last) :
    Records kinds runner last :=
  hfirst.trans hsecond

end Records

theorem records_withLines (runner : Runner) (lines : Array Line) :
    Records [] runner (runner.withLines lines) :=
  records_nil (fun hregular ↦ { hregular with }) rfl rfl rfl (Nat.le_refl _) (.inl rfl) rfl rfl

theorem records_cleared (runner : Runner) : Records [] runner runner.cleared :=
  records_nil (fun hregular ↦ { hregular with }) rfl rfl rfl (Nat.le_refl _) (.inl rfl) rfl rfl

theorem records_idledWith (runner : Runner) (status : Status) :
    Records [] runner (runner.idledWith status) :=
  records_nil (fun hregular ↦ { hregular with }) rfl rfl rfl (Nat.le_refl _) (.inr rfl) rfl rfl

theorem records_stepCounted (runner : Runner) : Records [] runner runner.stepCounted :=
  records_nil (fun hregular ↦ { hregular with }) rfl rfl rfl (Nat.le_succ _) (.inl rfl) rfl rfl

/-- Nothing has come on record, and what the last event showed it shows still. -/
def Unheard (runner last : Runner) : Prop := Records [] runner last ∧ (runner.Shown → last.Shown)

theorem Unheard.refl (runner : Runner) : runner.Unheard runner := ⟨.refl runner, id⟩

theorem Unheard.trans (hfirst : runner.Unheard middle) (hsecond : middle.Unheard last) :
    runner.Unheard last :=
  ⟨hfirst.1.nil_trans hsecond.1, hsecond.2 ∘ hfirst.2⟩

theorem unheard_withLines (runner : Runner) (lines : Array Line) :
    runner.Unheard (runner.withLines lines) := ⟨records_withLines runner lines, id⟩

theorem unheard_cleared (runner : Runner) : runner.Unheard runner.cleared :=
  ⟨records_cleared runner, id⟩

/-- What has been told is on record, and shows the runner as it is. -/
theorem records_told {kind : EventKind} (hinner : kind.Inner)
    (hactive : runner.session.active = true) (htraced : (runner.told kind).Traced last) :
    Records [kind] runner last ∧ last.Shown := by
  obtain ⟨hookCalls, lines, rfl⟩ := htraced
  refine ⟨?_, runner.counted.eventOf kind, Array.back?_push, rfl, rfl⟩
  exact
    { toAppends := appends_told rfl rfl
      regular := fun hregular ↦ { hregular with }
      active_eq := rfl
      attached_eq := rfl
      steps_le := Nat.le_refl _
      speed_eq := .inl rfl
      active := fun _ ↦ hactive
      inner := fun _ hkind ↦ List.mem_singleton.mp hkind ▸ hinner }

/-! ### Accounts -/

/-- An activity is cut short with some events on record. -/
def BrokenOff (runner : Runner) (blocking : Prop) (halt : Halt) (last : Runner) : Prop :=
  ∃ kinds, Records kinds runner last ∧ halt.CutsShort blocking last.session.steps

theorem BrokenOff.after {halt : Halt} (hrecords : Records kinds runner middle)
    (hcut : middle.BrokenOff blocking halt last) : runner.BrokenOff blocking halt last := by
  obtain ⟨further, hfurther, hshort⟩ := hcut
  exact ⟨kinds ++ further, hrecords.trans hfurther, hshort⟩

/-- What is cut short after some events is cut short with those and some more. -/
theorem yields_after {Result : Type} {activity : Action Result} {required : Result → Runner → Prop}
    (hrecords : Records kinds runner middle)
    (hyields : Yields (middle.BrokenOff blocking) activity middle required) :
    Yields (runner.BrokenOff blocking) activity middle required :=
  hyields.allow fun _ _ hcut ↦ hcut.after hrecords

/-- The events on record are as expected, or an activity was cut short. -/
def Accounted {Result : Type} (runner : Runner) (blocking : Prop)
    (expected : List EventKind → Runner → Prop) (outcome : Except Halt Result) (last : Runner) :
    Prop :=
  ∃ kinds, Records kinds runner last ∧
    (expected kinds last ∨ ∃ halt, outcome = .error halt ∧
      halt.CutsShort blocking last.session.steps)

/-- An activity leaves events on record as expected, unless it is cut short. -/
abbrev Accounts {Result : Type} (blocking : Prop) (expected : List EventKind → Runner → Prop)
    (activity : Action Result) (runner : Runner) : Prop :=
  Ends activity runner (runner.Accounted blocking expected)

/-- An activity tells what it is said to tell, and shows the last of it, unless it is cut short. -/
abbrev Recounts {Result : Type} (blocking : Prop) (tells : List EventKind → Prop)
    (activity : Action Result) (runner : Runner) : Prop :=
  Accounts blocking (fun kinds last ↦ tells kinds ∧ runner.StaysShown kinds last) activity runner

section Accounts

variable {Result Next : Type} {expected : List EventKind → Runner → Prop}

theorem Accounted.after {outcome : Except Halt Result} (hrecords : Records kinds runner middle)
    (haccounted : middle.Accounted blocking (fun later ↦ expected (kinds ++ later)) outcome last) :
    runner.Accounted blocking expected outcome last := by
  obtain ⟨further, hfurther, hexpected⟩ := haccounted
  exact ⟨kinds ++ further, hrecords.trans hfurther, hexpected⟩

/-- An answer makes no difference to what is on record. -/
theorem ends_reply {activity : Action Result} {state : Runner} (reply : Result → Next)
    (hends : Ends activity state (runner.Accounted blocking expected)) :
    Ends (do return reply (← activity)) state (runner.Accounted blocking expected) := by
  refine (ends_bind _ _).mpr (Ends.mono hends ?_)
  rintro (halt | result) last ⟨kinds, hrecords, htold⟩
  · refine ⟨kinds, hrecords, htold.imp_right ?_⟩
    rintro ⟨_, ⟨⟩, hshort⟩
    exact ⟨halt, rfl, hshort⟩
  · exact ⟨kinds, hrecords, .inl (htold.resolve_right nofun)⟩

theorem accounts_mono {activity : Action Result} {weaker : List EventKind → Runner → Prop}
    (haccounts : Accounts blocking expected activity runner)
    (hweaker : ∀ kinds last, expected kinds last → weaker kinds last) :
    Accounts blocking weaker activity runner := by
  refine Ends.mono haccounts ?_
  rintro outcome last ⟨kinds, hrecords, hexpected⟩
  exact ⟨kinds, hrecords, hexpected.imp_left (hweaker kinds last)⟩

/-- What is an excuse can be more. -/
theorem accounts_allow {activity : Action Result} {allowed : Prop}
    (haccounts : Accounts blocking expected activity runner) (hallowed : blocking → allowed) :
    Accounts allowed expected activity runner := by
  refine Ends.mono haccounts ?_
  rintro outcome last ⟨kinds, hrecords, hexpected⟩
  refine ⟨kinds, hrecords, hexpected.imp_right ?_⟩
  rintro ⟨halt, hhalt, hshort⟩
  exact ⟨halt, hhalt, hshort.imp_right (And.imp_left hallowed)⟩

theorem accounts_of_yields {activity : Action Result} {required : Result → Runner → Prop}
    (hyields : Yields (runner.BrokenOff blocking) activity runner required)
    (hrequired : ∀ result last, required result last →
      ∃ kinds, Records kinds runner last ∧ expected kinds last) :
    Accounts blocking expected activity runner := by
  refine Ends.mono hyields fun outcome last hlast ↦ ?_
  rcases outcome with halt | result
  · obtain ⟨kinds, hrecords, hshort⟩ := hlast
    exact ⟨kinds, hrecords, .inr ⟨halt, rfl, hshort⟩⟩
  · obtain ⟨kinds, hrecords, hexpected⟩ := hrequired result last hlast
    exact ⟨kinds, hrecords, .inl hexpected⟩

/-- After a part with some events on record, the rest has to account for the others. -/
theorem accounts_bind {first : Action Result} {next : Result → Action Next}
    {required : Result → Runner → Prop}
    (hfirst : Yields (runner.BrokenOff blocking) first runner required)
    (hnext : ∀ result after, required result after → ∃ kinds, Records kinds runner after ∧
      Accounts blocking (fun later ↦ expected (kinds ++ later)) (next result) after) :
    Accounts blocking expected (first >>= next) runner := by
  refine (ends_bind first next).mpr (Ends.mono hfirst fun outcome after hafter ↦ ?_)
  rcases outcome with halt | result
  · obtain ⟨kinds, hrecords, hshort⟩ := hafter
    exact ⟨kinds, hrecords, .inr ⟨halt, rfl, hshort⟩⟩
  · obtain ⟨kinds, hrecords, hrest⟩ := hnext result after hafter
    exact Ends.mono hrest fun _ _ ↦ Accounted.after hrecords

end Accounts

/-! ### The end of a stretch -/

theorem closes_closing (runner : Runner) (outcome : Except Fault Unit) :
    (runner.closing outcome).Closes := by
  rcases outcome with fault | _ <;> trivial

namespace Regular

variable {position : Nat} {run : Run}

theorem active_of_attached (hregular : runner.Regular)
    (hattached : runner.attached = some position) : runner.session.active = true :=
  hregular.active_iff.mpr (hattached ▸ rfl)

theorem exists_run (hregular : runner.Regular) (hattached : runner.attached = some position) :
    ∃ run, runner.runs[position]? = some run :=
  ⟨_, Array.getElem?_eq_getElem (hregular.attached_lt position hattached)⟩

/-- The report of the end of a stretch is all that it tells, of a session that is idle then. -/
theorem yields_conclude (hregular : runner.Regular) (hpassive : audience.Passive)
    (hactive : runner.session.active = true) (outcome : Except Fault Unit) :
    Yields (runner.BrokenOff blocking) (conclude audience outcome) runner fun _ last ↦
      Records [runner.closing outcome] runner last ∧ last.Shown ∧
        last.session.speed = Speed.idle := by
  have hidled := records_idledWith runner (runner.verdict outcome)
  refine Yields.mono (hregular.yields_concluded (hpassive.passiveIn _) outcome ?_) ?_
  · exact fun hlong error hrefusal ↦ ⟨[], hidled, .inl ⟨hlong, error, rfl, hrefusal⟩⟩
  · intro _ last htraced
    have hinner := EventKind.Closes.inner (runner.closes_closing outcome)
    have hstill : (runner.idledWith (runner.verdict outcome)).session.active = true := hactive
    obtain ⟨hrecords, hshown⟩ := records_told hinner hstill htraced
    refine ⟨hidled.nil_trans hrecords, hshown, ?_⟩
    obtain ⟨_, _, rfl⟩ := htraced
    rfl


/-! ### Steps -/

/-- Whoever attempts a turn that is a fault finds everything as it was. -/
theorem yields_attempt_advance_of_fault (hrun : runner.runs[position]? = some run) {fault : Fault}
    (hturn : run.turn runner.bench.script = .error (.fault fault))
    {halted : Halt → Runner → Prop} :
    Yields halted (attempt (advance audience position)) runner
      fun outcome last ↦ outcome = .error fault ∧ last = runner := by
  refine ends_attempt.mpr ((ends_advance hrun).mpr ?_)
  rw [hturn]
  exact ⟨rfl, rfl⟩

/-- A change of a run that leaves it sound, in whatever surroundings. -/
theorem changeRun (hregular : runner.Regular) {change : Run → Run}
    (hchange : ∀ run, runner.runs[position]? = some run → run.Sound → (change run).Sound) :
    (runner.changeRun position change).Regular :=
  { upheldThroughout_founded.changeRun position change hregular.toFounded hchange with
    crashes_nil := hregular.crashes_nil
    active_iff := hregular.active_iff }

theorem settledAny (hregular : runner.Regular) {effect? : Option Effect}
    (htouches : ∀ effect ∈ effect?, ∀ run, runner.runs[position]? = some run → run.Touches effect) :
    (runner.settledAny position effect?).Regular := by
  cases effect? with
  | none => exact hregular
  | some effect =>
    have hsettled : (runner.changeRun position (·.settle effect)).Regular :=
      hregular.changeRun fun run hrun hsound ↦ hsound.settle (htouches effect rfl run hrun)
    exact { hsettled with }

theorem records_settledAny (hregular : runner.Regular) {effect? : Option Effect}
    (htouches : ∀ effect ∈ effect?, ∀ run, runner.runs[position]? = some run → run.Touches effect)
    (hookCalls : Array Nat) :
    Records [] runner { runner.settledAny position effect? with hookCalls } := by
  have hsettled := hregular.settledAny htouches
  cases effect? <;>
    exact records_nil (fun _ ↦ { hsettled with }) rfl rfl rfl (Nat.le_refl _) (.inl rfl) rfl rfl

/-- Before observers that only listen, the turn of a run is taken within the session. -/
theorem yields_turn (hregular : runner.Regular) (hpassive : audience.Passive)
    (hrun : runner.runs[position]? = some run) {effect? : Option Effect} {counter : Nat}
    (hturn : run.turn runner.bench.script = .ok (effect?, counter))
    {halted : Halt → Runner → Prop} :
    Yields halted (advance audience position) runner fun _ last ↦
      Records [] runner last ∧ last.runs[position]? = some (run.turned effect? counter) ∧
        last.session = runner.session ∧ last.bench = runner.bench := by
  refine Yields.mono (yields_advance_of_turn hpassive hrun hturn) ?_
  rintro _ _ ⟨hookCalls, rfl⟩
  have htouches : ∀ effect ∈ effect?, ∀ found, runner.runs[position]? = some found →
      found.Touches effect := by
    intro effect heffect found hfound
    obtain rfl := Option.some.inj (hrun.symm.trans hfound)
    obtain rfl := Option.mem_def.mp heffect
    exact (hregular.sound position run hrun).touches_of_turn hturn
  have hsettled := hregular.records_settledAny htouches hookCalls
  have hplace : (runner.settledAny position effect?).runs[position]? =
      some (effect?.elim run run.settle) := by
    cases effect? with
    | none => exact hrun
    | some effect =>
      rw [Runner.settledAny, settled, Array.getElem?_modify, if_pos rfl, hrun]
      rfl
  refine ⟨hsettled.nil_trans (records_nil (fun hregular ↦ ?_) rfl rfl rfl (Nat.le_refl _) (.inl rfl)
    rfl rfl), ?_, ?_, ?_⟩
  · exact hregular.changeRun fun _ _ hsound ↦ hsound.resumeAt counter
  · rw [Runner.changeRun, Array.getElem?_modify, if_pos rfl, hplace]
    rfl
  · cases effect? <;> rfl
  · cases effect? <;> rfl

theorem yields_attempt_turn (hregular : runner.Regular) (hpassive : audience.Passive)
    (hrun : runner.runs[position]? = some run) {effect? : Option Effect} {counter : Nat}
    (hturn : run.turn runner.bench.script = .ok (effect?, counter))
    {halted : Halt → Runner → Prop} :
    Yields halted (attempt (advance audience position)) runner fun outcome last ↦
      outcome = .ok () ∧ Records [] runner last ∧
        last.runs[position]? = some (run.turned effect? counter) ∧
          last.session = runner.session ∧ last.bench = runner.bench := by
  have hadvance : Yields (fun _ _ ↦ False) (attempt (advance audience position)) runner _ :=
    (hregular.yields_turn hpassive hrun hturn).attempt_ok fun _ _ ↦ id
  refine Yields.allow (Yields.mono hadvance ?_) fun _ _ ↦ False.elim
  rintro _ last ⟨_, rfl, hlast⟩
  exact ⟨rfl, hlast⟩

/-- To rearm an idle session tells nothing. -/
theorem yields_rearm_of_idle (hregular : runner.Regular) (hidle : runner.session.speed = Speed.idle)
    {bound : Nat} (hbound : bound = 0 → blocking) :
    Yields (runner.BrokenOff blocking) (rearmWithin audience bound) runner
      fun _ ↦ runner.Unheard := by
  cases bound with
  | zero => exact ⟨[], .refl runner, .inr ⟨hbound rfl, rfl⟩⟩
  | succ bound =>
    refine Yields.mono (hregular.toChronicled.yields_rearm_of_idle hidle bound) ?_
    rintro _ _ ⟨lines, rfl⟩
    exact (unheard_cleared runner).trans (unheard_withLines _ lines)

/-- Nor is anything told after a stretch that has left the speed alone or the session idle. -/
theorem yields_again (hregular : runner.Regular) {speed : Int}
    (hspeed : runner.session.speed = speed ∨ runner.session.speed = Speed.idle) {bound : Nat}
    (hbound : bound = 0 → blocking) :
    Yields (runner.BrokenOff blocking) (againUnless speed (rearmWithin audience bound)) runner
      fun _ ↦ runner.Unheard := by
  by_cases hsame : runner.session.speed = speed
  · exact (ends_againUnless_of_same hsame).mpr (.refl runner)
  · exact (ends_againUnless_of_other hsame).mpr
      (hregular.yields_rearm_of_idle (hspeed.resolve_left hsame) hbound)

/-- What is told is on record, and shows the runner as it is. -/
theorem yields_tell (hregular : runner.Regular) (hpassive : audience.Passive)
    (hactive : runner.session.active = true) (kind : EventKind) (hinner : kind.Inner)
    {halted : Halt → Runner → Prop} :
    Yields halted (tell audience kind) runner fun _ last ↦
      Records [kind] runner last ∧ last.Shown ∧ last.session.speed = runner.session.speed := by
  refine Yields.mono (hregular.yields_told (hpassive.passiveIn _) kind) fun _ last htraced ↦ ?_
  obtain ⟨hrecords, hshown⟩ := records_told hinner hactive htraced
  obtain ⟨_, _, rfl⟩ := htraced
  exact ⟨hrecords, hshown, rfl⟩

/-- A step that is over tells of itself last. -/
theorem yields_stepped (hregular : runner.Regular) (hpassive : audience.Passive)
    (hactive : runner.session.active = true) {speed : Int}
    (hspeed : runner.session.speed = speed ∨ runner.session.speed = Speed.idle)
    (hpatience : audience.patience ≠ 0) :
    Yields (runner.BrokenOff False)
      (do tell audience .stepped; againUnless speed (rearm audience)) runner fun _ last ↦
        Records [.stepped] runner last ∧ last.Shown := by
  refine Yields.bind (hregular.yields_tell hpassive hactive .stepped ⟨nofun, nofun⟩) ?_
  rintro _ after ⟨hrecords, hshown, hsame⟩
  have hafter : after.session.speed = speed ∨ after.session.speed = Speed.idle := by rwa [hsame]
  refine Yields.mono (yields_after hrecords
    ((hrecords.regular hregular).yields_again hafter hpatience)) ?_
  rintro _ last ⟨hlast, hstill⟩
  exact ⟨hrecords.trans hlast, hstill hshown⟩

end Regular

/-- What a step tells: the fault that it found or the end that it came to, if it did, and then of
itself. Without an engine it tells nothing. -/
def StepTells (runner : Runner) (kinds : List EventKind) : Prop :=
  match runner.run? with
  | none => kinds = []
  | some run =>
    match run.turn runner.bench.script with
    | .error error => ∃ fault, error = .fault fault ∧ kinds = [.failed fault, .stepped]
    | .ok (effect?, counter) => kinds =
      if (run.turned effect? counter).atEnd then [.finished runner.elapsed, .stepped]
      else [.stepped]

namespace Regular

variable {position : Nat} {run : Run}

/-- What a step reports before it tells of itself. -/
def stepReport (runner : Runner) (run : Run) (outcome : Except Fault Unit) : List EventKind :=
  if outcome.isOk && !run.atEnd then [] else [runner.closing outcome]

/-- A step is counted, and reported where it came to a fault or to the end. -/
theorem yields_concludeStep (hregular : runner.Regular) (hpassive : audience.Passive)
    (hactive : runner.session.active = true) (hrun : runner.runs[position]? = some run)
    (outcome : Except Fault Unit) :
    Yields (runner.BrokenOff blocking) (concludeStep audience position outcome) runner fun _ last ↦
      Records (stepReport runner run outcome) runner last := by
  rcases outcome with fault | _
  · exact Yields.mono (hregular.yields_conclude hpassive hactive (.error fault)) fun _ _ ↦ And.left
  · have hcounted := records_stepCounted runner
    refine (ends_concludeStep hrun).mpr ?_
    unfold stepReport
    cases hend : run.atEnd with
    | false => exact hcounted
    | true =>
      have hstart := hcounted.regular hregular
      exact Yields.mono (yields_after hcounted (hstart.yields_conclude hpassive hactive (.ok ())))
        fun _ _ hlast ↦ hcounted.nil_trans hlast.1

/-- Once its run has been stepped, a step tells its report and of itself. -/
theorem yields_reported (hregular : runner.Regular) (hpassive : audience.Passive)
    (hactive : runner.session.active = true) (hrun : runner.runs[position]? = some run)
    (hpatience : audience.patience ≠ 0) (outcome : Except Fault Unit) :
    Yields (runner.BrokenOff False) (do
      concludeStep audience position outcome
      tell audience .stepped
      againUnless runner.session.speed (rearm audience)) runner fun _ last ↦
        Records (stepReport runner run outcome ++ [.stepped]) runner last ∧ last.Shown := by
  refine Yields.bind (hregular.yields_concludeStep hpassive hactive hrun outcome) ?_
  intro _ after hafter
  have hstill : after.session.active = true := hafter.active_eq.trans hactive
  refine Yields.mono (yields_after hafter
    ((hafter.regular hregular).yields_stepped hpassive hstill hafter.speed_eq hpatience)) ?_
  rintro _ last ⟨hlast, hshown⟩
  exact ⟨hafter.trans hlast, hshown⟩

/-- A step tells of a fault or of the end, and of itself, after which the last event shows the
runner as it is. -/
theorem yields_step (hregular : runner.Regular) (hpassive : audience.Passive)
    (hactive : runner.session.active = true) (hpatience : audience.patience ≠ 0) :
    Yields (runner.BrokenOff False) (step audience) runner fun _ last ↦
      ∃ kinds, Records kinds runner last ∧ runner.StepTells kinds ∧ last.Shown := by
  obtain ⟨position, hattached⟩ := Option.isSome_iff_exists.mp (hregular.active_iff.mp hactive)
  obtain ⟨run, hrun⟩ := hregular.exists_run hattached
  have hsame : runner.run? = some run := run?_eq_some hattached hrun
  have hwiped : Records [] runner runner.wiped :=
    records_nil (fun hregular ↦ { hregular with }) rfl rfl rfl (Nat.le_refl _) (.inl rfl) rfl rfl
  have hstart := hwiped.regular hregular
  have hplace : runner.wiped.runs[position]? = some run := hrun
  refine (ends_step hattached).mpr (yields_after hwiped ?_)
  rcases (hregular.sound position run hrun).turn_cases hregular.crashes_nil with
    ⟨fault, hfault⟩ | ⟨effect?, counter, hturn, -⟩
  · refine Yields.bind (yields_attempt_advance_of_fault hplace hfault) ?_
    rintro _ _ ⟨rfl, rfl⟩
    refine Yields.mono (hstart.yields_reported hpassive hactive hrun hpatience
      (.error fault)) ?_
    rintro _ last ⟨hlast, hshown⟩
    refine ⟨_, hwiped.nil_trans hlast, ?_, hshown⟩
    rw [StepTells, hsame]
    simp only [hfault]
    exact ⟨fault, rfl, rfl⟩
  · refine Yields.bind (hstart.yields_attempt_turn hpassive hrun hturn) ?_
    rintro _ middle ⟨rfl, hmiddle, hturned, hsession, hbench⟩
    have hstill : middle.session.active = true := hmiddle.active_eq.trans hactive
    have hreported := (hmiddle.regular hstart).yields_reported hpassive hstill hturned hpatience
      (.ok ())
    rw [hsession] at hreported
    refine Yields.mono (yields_after hmiddle hreported) ?_
    rintro _ last ⟨hlast, hshown⟩
    refine ⟨_, hwiped.nil_trans (hmiddle.nil_trans hlast), ?_, hshown⟩
    have helapsed : middle.elapsed = runner.elapsed := by
      rw [elapsed, hbench, hsession]
      rfl
    rw [StepTells, hsame]
    simp only [hturn, stepReport, closing, helapsed]
    cases (run.turned effect? counter).atEnd <;> rfl

end Regular

end Runner

end TapeRunner
