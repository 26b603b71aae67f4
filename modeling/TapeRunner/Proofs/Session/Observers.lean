import TapeRunner.Proofs.Journal
import TapeRunner.Session.Order

/-!
# Observers that take part

What an observer does may depend on everything that has happened, and what it does next on how its
last order came out. `Conduct` is the tree of these decisions, and `Audience.conducted` the audience
of observers that conduct themselves so, each call of an observer counted, and with orders given
inside of orders down to a depth. A caller from outside gives its orders one after the other
(`Runner.carryOut`).

An event is told as soon as a line of the journal, the recorder and the observers keep an invariant
(`Runner.keeps_tell`).
-/

set_option autoImplicit false
set_option relaxedAutoImplicit false

namespace TapeRunner

open Activity

/-! ### Conducts -/

/-- What an observer does with a call: nothing more, an error of its own, or an order, whose outcome
and the runner after it decide what comes next. -/
inductive Conduct
  | rest
  | raise (error : Error)
  | give (order : Order) (next : Except Error Reply → Runner → Conduct)

/-- Carries out a conduct before an audience. -/
def Conduct.perform (audience : Audience) : Conduct → Action Unit
  | .rest => pure ()
  | .raise error => fail error
  | .give order next => do
    let outcome ← caught (Runner.obey audience order)
    let runner ← get
    perform audience (next outcome runner)

/-- Gives orders in turn, whether they fail or not; only the refusal of a line is passed on. -/
def Conduct.inTurn : List Order → Conduct
  | [] => .rest
  | order :: later => .give order fun outcome _ ↦
    match outcome with
    | .ok _ => inTurn later
    | .error error => if error.isRefusal then .raise error else inTurn later

/-- Observers that conduct themselves by their position and by the runner that they find, in which
their own call is counted. Their orders may call observers again, down to a depth. -/
def Audience.conducted (conduct : Nat → Runner → Conduct) (patience : Nat) : Nat → Audience
  | 0 => ⟨fun _ ↦ giveUp, patience⟩
  | depth + 1 =>
    ⟨fun position ↦ do
      modify fun runner ↦ { runner with hookCalls := runner.hookCalls.modify position (· + 1) }
      let runner ← get
      (conduct position runner).perform (Audience.conducted conduct patience depth),
    patience⟩

/-- An observer that does nothing but count its calls. -/
def Audience.PassiveAt (audience : Audience) (position : Nat) : Prop :=
  ∀ runner, ∃ hookCalls, runFrom (audience.react position) runner =
    (.ok (), { runner with hookCalls })

/-- An operation is cut off if it gives up or if the journal refuses a line. -/
def Halt.CutsOff : Halt → Prop
  | .unfinished => True
  | .raised error => error.isRefusal = true

namespace Runner

/-- To be cut off is the only early end. -/
abbrev cutOff (halt : Halt) (_ : Runner) : Prop := halt.CutsOff

theorem writes_cutOff (runner : Runner) (fields : Fields) : runner.Writes cutOff fields :=
  writes_of_refusal fun _ hrefusal ↦ hrefusal

/-- A caller gives orders one after the other. An error ends the order that raised it and no
more. -/
def carryOut (audience : Audience) : List Order → Runner → List (Except Halt Reply) × Runner
  | [], runner => ([], runner)
  | order :: later, runner =>
    let (outcome, after) := runFrom (obey audience order) runner
    let (outcomes, last) := carryOut audience later after
    (outcome :: outcomes, last)

/-- The runner with one call more of an observer. -/
def calledAt (runner : Runner) (position : Nat) : Runner :=
  { runner with hookCalls := runner.hookCalls.modify position (· + 1) }

/-- An observer that is called conducts itself by the runner in which its call is counted. -/
theorem ends_react_conducted {conduct : Nat → Runner → Conduct} {patience depth position : Nat}
    {runner : Runner} {required : Except Halt Unit → Runner → Prop} :
    Ends ((Audience.conducted conduct patience (depth + 1)).react position) runner required ↔
      Ends ((conduct position (runner.calledAt position)).perform
        (.conducted conduct patience depth)) (runner.calledAt position) required := by
  simp only [Audience.conducted, ends_bind, ends_modify, ends_get]
  exact Iff.rfl

/-- Whoever gives a single order comes to where it leads, if no error of it is passed over. -/
theorem yields_perform_single {audience : Audience} {order : Order} {runner : Runner}
    {halted : Halt → Runner → Prop} {required : Runner → Prop}
    (hobey : Yields halted (obey audience order) runner fun _ ↦ required)
    (hraised : ∀ error last, halted (.raised error) last → error.isRefusal = true) :
    Yields halted ((Conduct.inTurn [order]).perform audience) runner fun _ ↦ required := by
  rw [Conduct.inTurn, Conduct.perform, Yields, ends_bind, ends_caught]
  refine Ends.mono hobey fun outcome last hlast ↦ ?_
  rcases outcome with halt | reply
  · rcases halt with error | _
    · simp only [ends_bind, ends_get, if_pos (hraised error last hlast)]
      exact hlast
    · exact hlast
  · exact hlast

/-- Further orders start from where the earlier ones have led. -/
theorem carryOut_append (audience : Audience) (orders later : List Order) (runner : Runner) :
    carryOut audience (orders ++ later) runner =
      let (outcomes, after) := carryOut audience orders runner
      let (further, last) := carryOut audience later after
      (outcomes ++ further, last) := by
  induction orders generalizing runner with
  | nil => rfl
  | cons order orders ih => simp only [List.cons_append, carryOut, ih]

/-- What every order preserves is preserved by all of them. -/
theorem preserved_carryOut {inv : Runner → Prop} {audience : Audience} {orders : List Order}
    {runner : Runner} (hobey : ∀ order ∈ orders, Preserves inv (obey audience order))
    (hinv : inv runner) : inv (carryOut audience orders runner).2 := by
  induction orders generalizing runner with
  | nil => exact hinv
  | cons order later ih =>
    have hafter := (hobey order List.mem_cons_self runner hinv).last
    exact ih (fun other hother ↦ hobey other (List.mem_cons_of_mem _ hother)) hafter

/-- A runner before its first start has nothing but its surroundings and its subscriptions. -/
theorem exists_of_fresh {bench : Bench} {hooks : List Hook} {journal : Journal} {start : Runner}
    (hstart : fresh bench hooks journal = .ok start) :
    ∃ bus, (subscriptions hooks).foldlM Bus.subscribe .empty = .ok bus ∧ start =
      { session := .initial
        runs := #[]
        attached := none
        supplied := none
        timers := #[]
        current := none
        generation := 0
        output := .empty
        bench, journal, bus
        sinks := hooks.zipIdx.filterMap fun (hook, position) ↦
          if hook.trigger = .output then some position else none
        recorded := #[]
        hookCalls := Array.replicate hooks.length 0 } := by
  unfold fresh at hstart
  cases hbus : (subscriptions hooks).foldlM Bus.subscribe .empty with
  | error error =>
    rw [hbus] at hstart
    cases hstart
  | ok bus =>
    rw [hbus] at hstart
    cases hstart
    exact ⟨bus, rfl, rfl⟩

/-! ### Telling -/

/-- The runner whose recorder has heard one event more. -/
def withEvent (runner : Runner) (event : Event) : Runner :=
  { runner with recorded := runner.recorded.push event }

/-- The event of a kind, with the views of this moment. -/
def eventOf (runner : Runner) (kind : EventKind) : Event :=
  ⟨kind, runner.session.sequence, runner.session.view, runner.engineView⟩

section Telling

variable {inv : Runner → Prop} {halted : Halt → Runner → Prop} {audience : Audience}

/-- The fields of the line about an event that is published. -/
def publishedFields (runner : Runner) (kind : EventKind) : Fields :=
  [("event_type", .text kind.type), ("handlers", .ofNat (runner.bus.recipients kind.type).length)]

/-- A line of the journal is kept if its lines do not matter. -/
theorem keeps_log (level : Level) (event : String) {fields : Fields}
    (hwrites : ∀ runner, inv runner → runner.Writes halted fields)
    (hlines : ∀ runner lines, inv runner → inv (runner.withLines lines)) :
    Keeps inv halted (log level event fields) := by
  intro runner hinv
  refine Yields.mono (hwrites runner hinv level event) ?_
  rintro _ _ ⟨lines, rfl⟩
  exact hlines runner lines hinv

/-- What a passive observer keeps is whatever does not depend on the calls of observers. -/
theorem keeps_react_of_passive {position : Nat} (hpassive : audience.PassiveAt position)
    (hcalls : ∀ runner hookCalls, inv runner → inv { runner with hookCalls }) :
    Keeps inv halted (audience.react position) := by
  intro runner hinv
  obtain ⟨hookCalls, hrun⟩ := hpassive runner
  rw [Yields, Ends, hrun]
  exact hcalls runner hookCalls hinv

/-- What is published is kept if the observers and the recorder keep it. -/
theorem keeps_publish (event : Event)
    (hwrites : ∀ runner, inv runner → runner.Writes halted (runner.publishedFields event.kind))
    (hlines : ∀ runner lines, inv runner → inv (runner.withLines lines))
    (hrecorded : ∀ runner, inv runner → inv (runner.withEvent event))
    (hreact : ∀ position, Keeps inv halted (audience.react position)) :
    Keeps inv halted (publish audience event) := by
  apply Keeps.get_bind
  intro runner hinv
  refine Yields.bind (hwrites runner hinv _ _) ?_
  rintro _ _ ⟨lines, rfl⟩
  refine Keeps.forM _ (fun observer _ ↦ ?_) _ (hlines runner lines hinv)
  cases observer with
  | registrar => exact Keeps.pure ()
  | recorder => exact Keeps.modify hrecorded
  | hook position => exact hreact position

/-- The runner with one event more in its sequence. -/
def counted (runner : Runner) : Runner :=
  { runner with session := { runner.session with sequence := runner.session.sequence + 1 } }

/-- To tell something is to publish an event that shows the runner at that moment. -/
theorem ends_tell {runner : Runner} (kind : EventKind)
    {required : Except Halt Unit → Runner → Prop} :
    Ends (tell audience kind) runner required ↔
      Ends (publish audience (runner.counted.eventOf kind)) runner.counted required := by
  simp only [tell, modifySession, ends_bind, ends_modify, ends_get]
  rfl

theorem yields_tell {runner : Runner} (kind : EventKind)
    (hwrites : ∀ runner, inv runner → runner.Writes halted (runner.publishedFields kind))
    (hlines : ∀ runner lines, inv runner → inv (runner.withLines lines))
    (hcounted : inv runner.counted)
    (hrecorded : ∀ later, inv later → inv (later.withEvent (runner.counted.eventOf kind)))
    (hreact : ∀ position, Keeps inv halted (audience.react position)) :
    Yields halted (tell audience kind) runner fun _ ↦ inv := by
  have hpublish := keeps_publish (runner.counted.eventOf kind) hwrites hlines hrecorded hreact
  exact (ends_tell kind).mpr (hpublish runner.counted hcounted)

/-- What is told is kept if it is kept by the count of events as well. -/
theorem keeps_tell (kind : EventKind)
    (hwrites : ∀ runner, inv runner → runner.Writes halted (runner.publishedFields kind))
    (hlines : ∀ runner lines, inv runner → inv (runner.withLines lines))
    (hcounted : ∀ runner, inv runner → inv runner.counted)
    (hrecorded : ∀ shown later, inv shown → inv later →
      inv (later.withEvent (shown.eventOf kind)))
    (hreact : ∀ position, Keeps inv halted (audience.react position)) :
    Keeps inv halted (tell audience kind) :=
  fun runner hinv ↦ yields_tell kind hwrites hlines (hcounted runner hinv)
    (fun later ↦ hrecorded _ later (hcounted runner hinv)) hreact

/-- What the handlers of an event keep is kept when it is told. -/
theorem yields_tell_of_recipients {runner : Runner} {kind : EventKind}
    (hwrites : ∀ runner, inv runner → runner.Writes halted (runner.publishedFields kind))
    (hlines : ∀ runner lines, inv runner → inv (runner.withLines lines))
    (hrecorded : ∀ runner event, inv runner → inv (runner.withEvent event))
    (hreact : ∀ position, .hook position ∈ runner.bus.recipients kind.type →
      Keeps inv halted (audience.react position))
    (hcounted : inv runner.counted) :
    Yields halted (tell audience kind) runner fun _ ↦ inv := by
  refine (ends_tell kind).mpr ?_
  rw [publish, ends_bind, ends_get]
  refine Yields.bind (hwrites runner.counted hcounted _ _) ?_
  rintro _ _ ⟨lines, rfl⟩
  refine Keeps.forM _ (fun observer hobserver ↦ ?_) _ (hlines _ lines hcounted)
  cases observer with
  | registrar => exact Keeps.pure ()
  | recorder => exact Keeps.modify fun runner hinv ↦ hrecorded runner _ hinv
  | hook position => exact hreact position hobserver

end Telling

end Runner

end TapeRunner
