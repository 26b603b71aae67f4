import TapeRunner.Proofs.Session.Interim
import TapeRunner.Proofs.Session.Shutdown

/-!
# The labels of lines

A start binds the name of its session in the journal, so that every later line carries it, and a
stop forgets what is bound. Everything else leaves alone what is bound, which session there is and
whether it is active (`Runner.Alongside`). So an invariant that says no more than that is kept by
every order if starts and stops keep it, whatever the observers do (`Runner.Renewed.keeps_obey`).
Excepted are the orders that reach around the operations: to say from outside whether a session is
active, and to let timers call on a thread of their own, where other fields are bound.

A stop forgets what is bound as the last thing that it does, after its handlers have been told. So
what is bound is always the label of the latest session or nothing, but it is the right one of the
two only as long as the handlers of a stop leave the session over and raise nothing
(`Runner.labelled_unless_disturbed`): a session that they start is active without a label, and an
error of theirs leaves the label of a session that is over.
-/

set_option autoImplicit false
set_option relaxedAutoImplicit false

namespace TapeRunner

open Activity

/-- An order that neither says from outside whether a session is active nor has timers call on a
thread of their own. -/
def Order.Direct : Order → Prop
  | .pokeActive _ | .drain _ => False
  | _ => True

/-- What the lines about a session carry: its name, and the part of the program that they are
from. -/
def Session.label (number : Nat) : Fields :=
  [("session_id", .text (nameOf number)), ("component", .text "session")]

/-- A label takes the place of whichever was bound before. -/
theorem Session.join_label {context : Fields} {number : Nat}
    (hcontext : context = [] ∨ ∃ old, context = label old) :
    context.join (label number) = label number := by
  rcases hcontext with rfl | ⟨old, rfl⟩ <;>
    simp [label, Fields.join, Fields.put]

theorem Session.plain_label (number : Nat) : (label number).Plain := by
  rw [← join_label (.inl rfl)]
  exact Fields.plain_nil.named number

/-- What is appended wins. -/
theorem Fields.get?_append (fields further : Fields) (name : String) :
    Fields.get? (fields ++ further) name = (further.get? name).or (fields.get? name) := by
  rw [get?, List.reverse_append, List.find?_append, Option.map_or]
  rfl

theorem Fields.get?_eq_none {fields : Fields} {name : String}
    (hnone : ∀ field ∈ fields, field.1 ≠ name) : fields.get? name = none := by
  rw [get?, Option.map_eq_none_iff, List.find?_eq_none]
  simpa using hnone

/-- A line that does not name a session by itself carries the one whose label is bound. -/
theorem Line.get?_label (level : Level) (event : String) {own : Fields}
    (hown : ∀ field ∈ own, field.1 ≠ "session_id") (number : Nat) :
    (Line.of level event own (Session.label number)).fields.get? "session_id" =
      some (.text (Session.nameOf number)) := by
  have hfree : own.any (·.1 = "session_id") = false := by simpa using hown
  have hmine : Fields.get? (own.without requests) "session_id" = none :=
    Fields.get?_eq_none fun field hfield ↦ hown field (List.mem_filter.mp hfield).1
  have hbound : Fields.get? (Fields.without ((Session.label number).filter fun field ↦
      !own.any (·.1 = field.1)) requests) "session_id" =
        some (.text (Session.nameOf number)) := by
    cases hcomponent : own.any (·.1 = "component") <;>
      simp [Session.label, hfree, hcomponent, Fields.without, requests, Fields.get?]
  have hfields : (Line.of level event own (Session.label number)).fields =
      own.without requests ++ Fields.without ((Session.label number).filter fun field ↦
        !own.any (·.1 = field.1)) requests :=
    List.filter_append _ _
  rw [hfields, Fields.get?_append, hbound, hmine]
  rfl

/-- Called while a session is over, an observer leaves it over and raises nothing. -/
def Audience.CalmAt (audience : Audience) (position : Nat) : Prop :=
  ∀ runner : Runner, runner.Chronicled → runner.Inactive →
    Yields (fun halt _ ↦ halt = .unfinished) (audience.react position) runner
      fun _ ↦ Runner.Inactive

namespace Runner

variable {runner last base : Runner} {audience : Audience} {inv : Runner → Prop}
variable {halted : Halt → Runner → Prop} {position : Nat}

/-! ### What leaves labels alone -/

/-- The session is the same one, as active as it was and bound in the journal as it was, with at
least as many steps and with the same observers. -/
structure Alongside (base runner : Runner) : Prop where
  bus_eq : runner.bus = base.bus
  number_eq : runner.session.number = base.session.number
  active_eq : runner.session.active = base.session.active
  context_eq : runner.journal.context = base.journal.context
  steps_le : base.session.steps ≤ runner.session.steps

theorem Minor.alongside (hminor : base.Minor runner) : base.Alongside runner :=
  { hminor with }

/-! ### What starts and stops sustain -/

/-- An invariant that observers keep and that nothing touches but starts and stops. An error ends an
operation in the invariant; how it ends when it is given up is another matter. -/
structure Unaffected (audience : Audience) (inv : Runner → Prop)
    (halted : Halt → Runner → Prop) : Prop where
  plain {runner : Runner} : inv runner → runner.journal.context.Plain
  alongside {runner last : Runner} : inv runner → runner.Alongside last → inv last
  allowed {runner : Runner} (halt : Halt) : inv runner → halted halt runner
  raised {runner : Runner} {error : Error} : halted (.raised error) runner → inv runner
  react (position : Nat) : Keeps inv halted (audience.react position)

/-- An invariant that starts and stops sustain as well. -/
structure Renewed (audience : Audience) (inv : Runner → Prop)
    (halted : Halt → Runner → Prop) : Prop extends Unaffected audience inv halted where
  begun {runner : Runner} (options : StartOptions) (run : Run) : inv runner →
    inv (runner.begun options run)
  stop : Keeps inv halted (stop audience)

namespace Unaffected

variable (hunaffected : Unaffected audience inv halted)
include hunaffected

theorem yields_settleAny (hinv : inv runner) (effect? : Option Effect) :
    Yields halted (settleAny audience position effect?) runner fun _ ↦ inv :=
  Runner.yields_settleAny (fun _ ↦ hinv)
    (fun _ _ ↦ hunaffected.alongside hinv ⟨rfl, rfl, rfl, rfl, Nat.le_refl _⟩)
    fun sink _ ↦ hunaffected.react sink

theorem keeps_advance (position : Nat) : Keeps inv halted (advance audience position) := by
  intro runner hinv
  cases hrun : runner.runs[position]? with
  | none =>
    rw [Yields, advance, ends_bind, ends_runAt_iff, hrun]
    exact hunaffected.allowed _ hinv
  | some run =>
    refine (ends_advance hrun).mpr ?_
    cases run.turn runner.bench.script with
    | error error => exact hunaffected.allowed _ hinv
    | ok turn =>
      refine Ends.mono (hunaffected.yields_settleAny hinv turn.1) fun outcome middle hmiddle ↦ ?_
      rcases outcome with halt | _
      · exact hmiddle
      · exact hunaffected.alongside hmiddle ⟨rfl, rfl, rfl, rfl, Nat.le_refl _⟩

theorem keeps_execute (position : Nat) (instruction : String) :
    Keeps inv halted (execute audience position instruction) := by
  intro runner hinv
  cases hrun : runner.runs[position]? with
  | none =>
    rw [Yields, execute, ends_bind, ends_runAt_iff, hrun]
    exact hunaffected.allowed _ hinv
  | some run =>
    refine (ends_execute hrun).mpr ?_
    cases run.aside runner.bench.script instruction with
    | error error => exact hunaffected.allowed _ hinv
    | ok effect? => exact hunaffected.yields_settleAny hinv effect?

/-- So it is kept between starts and stops. -/
theorem interim : Interim audience (fun _ ↦ True) inv halted where
  minor hinv hminor := hunaffected.alongside hinv hminor.alongside
  allowed := hunaffected.allowed
  raised := hunaffected.raised
  attached _ _ := trivial
  advance {position} _ := hunaffected.keeps_advance position
  execute {position} instruction _ := hunaffected.keeps_execute position instruction
  react := hunaffected.react

end Unaffected

namespace Renewed

variable (hrenewed : Renewed audience inv halted)
include hrenewed

theorem keeps_start (program : String) (options : StartOptions) :
    Keeps inv halted (start audience program options) := by
  have hinterim := hrenewed.interim
  intro runner hinv
  cases hbuild : runner.bench.build program with
  | error error => exact (ends_start_of_unbuilt hbuild).mpr (hrenewed.allowed _ hinv)
  | ok run =>
    refine yields_start hbuild (hrenewed.plain hinv) fun lines ↦ ?_
    refine (hinterim.keeps_log _ _ _).bind (fun _ ↦
      (hinterim.keeps_tell .started).bind fun _ ↦ hinterim.keeps_rearm) _ ?_
    exact hrenewed.alongside (hrenewed.begun options run hinv)
      ⟨rfl, rfl, rfl, rfl, Nat.le_refl _⟩

theorem keeps_feed (content : String) : Keeps inv halted (feed content) := by
  refine Keeps.get_bind fun runner hinv ↦ ?_
  split
  · exact hrenewed.allowed _ hinv
  · exact hrenewed.alongside hinv ⟨rfl, rfl, rfl, rfl, Nat.le_refl _⟩

theorem keeps_readInput : Keeps inv halted readInput := by
  refine Keeps.get_bind fun runner hinv ↦ ?_
  split
  · exact hrenewed.allowed _ hinv
  · next place _ =>
    rw [Yields, ends_bind, ends_runAt_iff]
    cases hrun : runner.runs[place]? with
    | none => exact hrenewed.allowed _ hinv
    | some run =>
      simp only
      cases run.supply.take with
      | error fault => exact hrenewed.allowed _ hinv
      | ok taken => exact hrenewed.alongside hinv ⟨rfl, rfl, rfl, rfl, Nat.le_refl _⟩

/-- Every direct order keeps what starts and stops sustain. -/
theorem keeps_obey {order : Order} (hdirect : order.Direct) :
    Keeps inv halted (obey audience order) := by
  have hanswer {Result : Type} {activity : Action Result} (hactivity : Keeps inv halted activity)
      (reply : Result → Reply) : Keeps inv halted (do return reply (← activity)) :=
    hactivity.bind fun result ↦ Keeps.pure (reply result)
  have hcleared : Keeps inv halted (modify ({ · with output := Output.empty })) :=
    Keeps.modify fun _ hinv ↦ hrenewed.alongside hinv ⟨rfl, rfl, rfl, rfl, Nat.le_refl _⟩
  cases order with
  | start program options => exact hanswer (hrenewed.keeps_start program options) fun _ ↦ .nothing
  | stop => exact hanswer hrenewed.stop fun _ ↦ .nothing
  | shutdown =>
    exact hanswer (hrenewed.stop.bind fun _ ↦ hrenewed.interim.keeps_detach) fun _ ↦ .nothing
  | feed content => exact hanswer (hrenewed.keeps_feed content) fun _ ↦ .nothing
  | readInput => exact hanswer hrenewed.keeps_readInput .byte
  | clearOutput => exact hanswer hcleared fun _ ↦ .nothing
  | pokeActive active => exact hdirect.elim
  | drain speed => exact hdirect.elim
  | _ => exact hrenewed.interim.keeps_obey trivial

/-- So does whoever gives direct orders only, until the run is cut off. -/
theorem yields_performUntil {cut : Runner → Bool} {conduct : Conduct}
    (hgives : conduct.Gives (fun _ ↦ Order.Direct) runner) (hinv : inv runner) :
    Yields halted (conduct.performUntil cut audience) runner fun _ ↦ inv :=
  yields_performUntil_of_allowed (fun halt _ ↦ hrenewed.allowed halt)
    (fun _ _ ↦ hrenewed.raised) (fun _ _ hlast hdirect ↦ hrenewed.keeps_obey hdirect _ hlast) cut
    hgives hinv

end Renewed

/-- In a run, nobody gives orders that reach around the operations. -/
structure Cast.Direct (cast : Cast) (start : Runner) : Prop where
  conduct : ∀ position runner,
    (cast.conduct position runner).Gives (fun _ ↦ Order.Direct) runner
  caller : cast.caller.Gives (fun _ ↦ Order.Direct) start

section Conducted

variable {conduct : Nat → Runner → Conduct} {patience depth : Nat} {cut : Runner → Bool}
variable (hdirect : ∀ position runner,
  (conduct position runner).Gives (fun _ ↦ Order.Direct) runner)
include hdirect

/-- What starts and stops sustain is sustained to whatever depth orders are given inside of
orders. -/
theorem renewed_conductedUntil (hallowed : ∀ runner, inv runner → halted .unfinished runner)
    (hrenewed : ∀ depth, (∀ position,
      Keeps inv halted ((Audience.conductedUntil cut conduct patience depth).react position)) →
        Renewed (.conductedUntil cut conduct patience depth) inv halted) (depth : Nat) :
    Renewed (.conductedUntil cut conduct patience depth) inv halted := by
  refine hrenewed depth ?_
  induction depth with
  | zero => exact fun _ ↦ hallowed
  | succ depth ih =>
    intro position runner hinv
    have hcalled : inv (runner.calledAt position) :=
      (hrenewed depth ih).alongside hinv ⟨rfl, rfl, rfl, rfl, Nat.le_refl _⟩
    rw [Audience.react_conductedUntil, Yields, ends_bind, ends_modify]
    simp only
    rw [ends_bind, ends_get]
    show Ends (if cut (runner.calledAt position) then giveUp else _) _ _
    split
    · exact hallowed _ hcalled
    · exact (hrenewed depth ih).yields_performUntil (hdirect position _) hcalled

end Conducted

/-! ### The label of the latest session -/

/-- Nothing is bound but the label of the latest session, if that is. -/
def LatestLabelled (runner : Runner) : Prop :=
  runner.journal.context = [] ∨
    ∃ number, runner.session.number = some number ∧ runner.journal.context = Session.label number

theorem LatestLabelled.plain (hlatest : runner.LatestLabelled) :
    runner.journal.context.Plain := by
  rcases hlatest with hempty | ⟨number, -, hlabel⟩
  · exact hempty ▸ Fields.plain_nil
  · exact hlabel ▸ Session.plain_label number

/-- A session begins with its label. -/
theorem LatestLabelled.context_begun (hlatest : runner.LatestLabelled) (options : StartOptions)
    (run : Run) : (runner.begun options run).journal.context =
      Session.label (runner.session.number.getD 0 + 1) := by
  refine Session.join_label ?_
  rcases hlatest with hempty | ⟨number, -, hlabel⟩
  · exact .inl hempty
  · exact .inr ⟨number, hlabel⟩

/-- The observers are those of a bus, and nothing is bound but the label of the latest session. -/
structure LatestFor (bus : Bus Observer) (runner : Runner) : Prop where
  bus_eq : runner.bus = bus
  latest : runner.LatestLabelled

theorem LatestFor.alongside {bus : Bus Observer} (hlatest : LatestFor bus runner)
    (halongside : runner.Alongside last) : LatestFor bus last := by
  refine ⟨halongside.bus_eq.trans hlatest.bus_eq, ?_⟩
  unfold LatestLabelled
  rw [halongside.context_eq, halongside.number_eq]
  exact hlatest.latest

theorem unaffected_latestFor {bus : Bus Observer}
    (hreact : ∀ position, Preserves (LatestFor bus) (audience.react position)) :
    Unaffected audience (LatestFor bus) fun _ ↦ LatestFor bus where
  plain hlatest := hlatest.latest.plain
  alongside := LatestFor.alongside
  allowed _ := id
  raised := id
  react := hreact

/-- A start binds the label of the latest session, and a stop at most forgets it. -/
theorem renewed_latestFor {bus : Bus Observer}
    (hreact : ∀ position, Preserves (LatestFor bus) (audience.react position)) :
    Renewed audience (LatestFor bus) fun _ ↦ LatestFor bus where
  toUnaffected := unaffected_latestFor hreact
  begun options run hlatest :=
    { hlatest with latest := .inr ⟨_, rfl, hlatest.latest.context_begun options run⟩ }
  stop := by
    have hinterim := (unaffected_latestFor hreact).interim
    intro runner hlatest
    cases hactive : runner.session.active with
    | false => exact (ends_stop_of_inactive hactive).mpr hlatest
    | true =>
      have hforgotten : Preserves (LatestFor bus)
          (modify fun runner : Runner ↦ { runner with journal := runner.journal.clear }) :=
        Keeps.modify fun _ hlast ↦ { hlast with latest := .inl rfl }
      refine yields_stop hactive hlatest.latest.plain fun lines ↦ ?_
      refine (hinterim.keeps_log _ _ _).bind (fun _ ↦
        (hinterim.keeps_tell .stopped).bind fun _ ↦ hforgotten) _ ?_
      exact { hlatest with }

/-! ### The right label -/

/-- What is bound is the label of the session if it is active, and nothing otherwise. -/
structure Labelled (runner : Runner) : Prop where
  active : runner.session.active = true → ∃ number,
    runner.session.number = some number ∧ runner.journal.context = Session.label number
  inactive : runner.session.active = false → runner.journal.context = []

/-- Where the right label is bound, a line that does not name a session by itself carries the name
of the session if it is active, and no name otherwise. -/
theorem Labelled.get?_line (hlabelled : runner.Labelled) (level : Level) (event : String)
    {own : Fields} (hown : ∀ field ∈ own, field.1 ≠ "session_id") :
    (Line.of level event own runner.journal.context).fields.get? "session_id" =
      if runner.session.active then some (.ofText? runner.session.view.name?) else none := by
  cases hactive : runner.session.active with
  | true =>
    obtain ⟨number, hnumber, hlabel⟩ := hlabelled.active hactive
    have hname : runner.session.view.name? = some (Session.nameOf number) :=
      congrArg (Option.map Session.nameOf) hnumber
    rw [hlabel, Line.get?_label level event hown, hname]
    rfl
  | false =>
    rw [hlabelled.inactive hactive]
    refine Fields.get?_eq_none fun field hfield ↦ ?_
    have hmem := (List.mem_filter.mp hfield).1
    rw [Fields.fill, List.filter_nil, List.append_nil] at hmem
    exact hown field hmem

/-- The right label is bound, save that the one of a session with too many steps to be counted in a
line may be left when it is over. -/
structure LabelledFor (bus : Bus Observer) (runner : Runner) : Prop extends
    LatestFor bus runner where
  active : runner.session.active = true → runner.journal.context ≠ []
  inactive : runner.session.active = false →
    runner.journal.context = [] ∨ greatestInteger < (runner.session.steps : Int)

theorem LabelledFor.labelled_or {bus : Bus Observer} (hlabelled : LabelledFor bus runner) :
    runner.Labelled ∨
      runner.session.active = false ∧ greatestInteger < (runner.session.steps : Int) := by
  cases hactive : runner.session.active with
  | true =>
    have hlatest := hlabelled.latest.resolve_left (hlabelled.active hactive)
    exact .inl ⟨fun _ ↦ hlatest, fun hinactive ↦ nomatch hactive.symm.trans hinactive⟩
  | false =>
    refine (hlabelled.inactive hactive).imp (fun hempty ↦ ?_) fun hlong ↦ ⟨rfl, hlong⟩
    exact ⟨fun hagain ↦ (nomatch hagain.symm.trans hactive), fun _ ↦ hempty⟩

/-- An operation that is given up may leave any label. -/
def labelledOrGivenUp (bus : Bus Observer) (halt : Halt) (runner : Runner) : Prop :=
  halt = .unfinished ∨ LabelledFor bus runner

section Calm

variable {bus : Bus Observer}
variable (hheard : ∀ type, ((bus.recipients type).length : Int) ≤ greatestInteger)
variable (hcalm : ∀ position, .hook position ∈ bus.recipients EventKind.stopped.type →
  audience.CalmAt position)
variable (hlatest : ∀ position, Preserves (LatestFor bus) (audience.react position))
include hheard hcalm hlatest

/-- If its handlers are calm, a stop comes to forget the label of its session. -/
theorem keeps_stop_of_calm : Keeps (LabelledFor bus) (labelledOrGivenUp bus) (stop audience) := by
  intro runner hlabelled
  cases hactive : runner.session.active with
  | false => exact (ends_stop_of_inactive hactive).mpr hlabelled
  | true =>
    refine yields_stop hactive hlabelled.latest.plain fun lines ↦ ?_
    have hended : LatestFor bus (runner.ended.withLines lines) := { hlabelled.toLatestFor with }
    have hchronicled {last : Runner} (hlast : LatestFor bus last) : last.Chronicled :=
      ⟨hlast.latest.plain, hlast.bus_eq ▸ hheard⟩
    -- The line is refused if the steps are too many, and then the label is not forgotten.
    have hlong (hsteps : greatestInteger < (runner.session.steps : Int)) (error : Error)
        (_ : error.isRefusal = true) :
        labelledOrGivenUp bus (.raised error) (runner.ended.withLines lines) :=
      .inr { hended with active := nofun, inactive := fun _ ↦ .inr hsteps }
    refine Yields.bind ((hchronicled hended).writes_steps
      (plain_nameField runner Fields.plain_nil) hlong .info "session.stopped") ?_
    rintro _ _ ⟨written, rfl⟩
    have htell : Yields (labelledOrGivenUp bus) (tell audience .stopped)
        ((runner.ended.withLines lines).withLines written)
        fun _ last ↦ last.Inactive ∧ LatestFor bus last := by
      refine yields_tell_of_recipients (fun last hlast ↦ ?_)
        (fun _ _ hlast ↦ ⟨hlast.1, { hlast.2 with }⟩) (fun _ _ hlast ↦ ⟨hlast.1, { hlast.2 with }⟩)
        (fun position hposition last hlast ↦ ?_) ⟨rfl, { hended with }⟩
      · exact (hchronicled hlast.2).writes_published .stopped
      · have hmem : .hook position ∈ bus.recipients EventKind.stopped.type :=
          hlabelled.bus_eq ▸ hposition
        have hover := hcalm position hmem last (hchronicled hlast.2) hlast.1
        exact (Yields.allow hover fun _ _ ↦ .inl).and_last (hlatest position last hlast.2)
    refine htell.bind fun _ last hlast ↦ ?_
    exact { bus_eq := hlast.2.bus_eq
            latest := .inl rfl
            active := fun hagain ↦ nomatch hagain.symm.trans hlast.1
            inactive := fun _ ↦ .inl rfl }

theorem renewed_labelledFor
    (hreact : ∀ position,
      Keeps (LabelledFor bus) (labelledOrGivenUp bus) (audience.react position)) :
    Renewed audience (LabelledFor bus) (labelledOrGivenUp bus) where
  plain hlabelled := hlabelled.latest.plain
  alongside hlabelled halongside :=
    { hlabelled.toLatestFor.alongside halongside with
      active := by
        rw [halongside.active_eq, halongside.context_eq]
        exact hlabelled.active
      inactive := by
        rw [halongside.active_eq, halongside.context_eq]
        refine fun hinactive ↦ (hlabelled.inactive hinactive).imp_right fun hlong ↦ ?_
        exact Int.lt_of_lt_of_le hlong (Int.ofNat_le.mpr halongside.steps_le) }
  allowed _ := .inr
  raised hraised := hraised.resolve_left nofun
  react := hreact
  begun options run hlabelled :=
    { hlabelled.toLatestFor with
      latest := .inr ⟨_, rfl, hlabelled.latest.context_begun options run⟩
      active := fun _ ↦ hlabelled.latest.context_begun options run ▸ nofun
      inactive := nofun }
  stop := keeps_stop_of_calm hheard hcalm hlatest

end Calm

/-- A stop that returns has forgotten what was bound, whatever its handlers have done. -/
theorem context_eq_of_stop (hactive : runner.session.active = true)
    (hstop : runFrom (stop audience) runner = (.ok (), last)) : last.journal.context = [] := by
  have hforgotten : Yields (fun _ _ ↦ True) (stop audience) runner
      fun _ last ↦ last.journal.context = [] := by
    refine yields_stop_of_writes hactive (fun _ _ ↦ writes_of_refusal fun _ _ ↦ trivial)
      fun lines ↦ ?_
    exact (yields_true _ _).bind fun _ _ _ ↦ (yields_true _ _).bind fun _ _ _ ↦ rfl
  exact hforgotten.of_runFrom hstop

variable {start : Runner}

/-- What is bound follows the session unless its handlers disturb a stop. At every moment of every
run it is the label of the latest session or nothing, whatever the observers do. A stop that returns
has forgotten the label, so this is right only if there is no active session by then. And if the
handlers of stops leave a session over and raise nothing, then whatever order is the last one to
have come out, the label of the session is bound if it is active and none otherwise, and so every
line to come carries its name; only if the steps of a session are too many for a line may its label
be left by its stop. -/
theorem labelled_unless_disturbed {bench : Bench} {hooks : List Hook} {journal : Journal}
    (hstart : fresh bench hooks journal = .ok start) (hbound : journal.context = [])
    (hhooks : 2 * (hooks.length + 2 : Int) ≤ greatestInteger) {cast : Cast}
    (hdirect : cast.Direct start) :
    (∀ cut, (cast.moment start cut).LatestLabelled) ∧
    (∀ cut audience last, (cast.moment start cut).session.active = true →
      runFrom (stop audience) (cast.moment start cut) = (.ok (), last) →
        (last.Labelled ↔ last.session.active = false)) ∧
    ((∀ depth position, .hook position ∈ start.bus.recipients EventKind.stopped.type →
        (Audience.conducted cast.conduct cast.patience depth).CalmAt position) →
      ∀ outcome last,
        runFrom (cast.caller.perform (.conducted cast.conduct cast.patience cast.depth)) start =
          (outcome, last) → outcome ≠ .error .unfinished →
        last.Labelled ∧ (∀ level event (own : Fields), (∀ field ∈ own, field.1 ≠ "session_id") →
          (Line.of level event own last.journal.context).fields.get? "session_id" =
            if last.session.active then some (.ofText? last.session.view.name?) else none) ∨
        last.session.active = false ∧ greatestInteger < (last.session.steps : Int)) := by
  have hplain : journal.context.Plain := hbound ▸ Fields.plain_nil
  have hheard : ∀ type, ((start.bus.recipients type).length : Int) ≤ greatestInteger :=
    (founded_of_fresh hstart hplain hhooks).heard
  obtain ⟨hempty, hinactive⟩ :
      start.journal.context = [] ∧ start.session.active = false := by
    obtain ⟨_, -, rfl⟩ := exists_of_fresh hstart
    exact ⟨hbound, rfl⟩
  have hlatest : LatestFor start.bus start := ⟨rfl, .inl hempty⟩
  have hrenewed (cut : Runner → Bool) (depth : Nat) :
      Renewed (.conductedUntil cut cast.conduct cast.patience depth) (LatestFor start.bus)
        fun _ ↦ LatestFor start.bus := by
    refine renewed_conductedUntil hdirect.conduct ?_ (fun _ ↦ renewed_latestFor) depth
    exact fun _ ↦ id
  refine ⟨fun cut ↦ ?_, fun cut audience last hactive hstop ↦ ?_,
    fun hcalm outcome last hrun hfinished ↦ ?_⟩
  · exact ((hrenewed cut cast.depth).yields_performUntil hdirect.caller hlatest).last.latest
  · have hforgotten := context_eq_of_stop hactive hstop
    refine ⟨fun hlabelled ↦ ?_, fun hover ↦ ⟨fun hagain ↦ ?_, fun _ ↦ hforgotten⟩⟩
    · refine Bool.eq_false_iff.mpr fun hagain ↦ ?_
      obtain ⟨number, -, hlabel⟩ := hlabelled.active hagain
      exact nomatch hlabel.symm.trans hforgotten
    · exact nomatch hagain.symm.trans hover
  · have hcalmed (depth : Nat) : Renewed
        (.conductedUntil (fun _ ↦ false) cast.conduct cast.patience depth)
          (LabelledFor start.bus) (labelledOrGivenUp start.bus) := by
      refine renewed_conductedUntil hdirect.conduct (fun _ ↦ .inr) (fun depth hreact ↦ ?_) depth
      refine renewed_labelledFor hheard (fun position hposition ↦ ?_)
        (hrenewed _ depth).react hreact
      rw [Audience.conductedUntil_never]
      exact hcalm depth position hposition
    have hlabelled : LabelledFor start.bus start :=
      { hlatest with
        active := fun hactive ↦ nomatch hactive.symm.trans hinactive
        inactive := fun _ ↦ .inl hempty }
    have hended : Yields (labelledOrGivenUp start.bus)
        (cast.caller.perform (.conducted cast.conduct cast.patience cast.depth)) start
        fun _ ↦ LabelledFor start.bus := by
      rw [← Conduct.performUntil_never, ← Audience.conductedUntil_never]
      exact (hcalmed cast.depth).yields_performUntil hdirect.caller hlabelled
    have hlast : LabelledFor start.bus last := by
      have hreached := Ends.of_runFrom hended hrun
      rcases outcome with halt | _
      · exact hreached.resolve_left fun hgiven ↦ hfinished (congrArg _ hgiven)
      · exact hreached
    exact hlast.labelled_or.imp_left fun hright ↦ ⟨hright, fun level event _ hown ↦
      hright.get?_line level event hown⟩

/-- Looks around and does nothing. -/
def looks : Conduct := .give .look fun _ _ ↦ .rest

/-- Disturbs the first stop, and looks around at later ones. -/
def disturbsFirst (disturbance : Conduct) (_ : Nat) (runner : Runner) : Conduct :=
  if runner.hookCalls = #[1] then disturbance else looks

/-- A caller who starts a session and stops it, and an observer who may disturb that. -/
def disturbedCast (disturbance : Conduct) : Cast :=
  ⟨disturbsFirst disturbance, 10, 3, .inTurn [.start "++" ⟨true, false⟩, .stop]⟩

theorem direct_disturbedCast (disturbance : Conduct)
    (hdirect : ∀ runner, disturbance.Gives (fun _ ↦ Order.Direct) runner) (start : Runner) :
    (disturbedCast disturbance).Direct start where
  conduct position runner := by
    show (disturbsFirst disturbance position runner).Gives (fun _ ↦ Order.Direct) runner
    unfold disturbsFirst
    split
    · exact hdirect runner
    · exact ⟨trivial, fun _ _ ↦ trivial⟩
  caller := Conduct.gives_inTurn (by simp [Order.Direct]) start

/-- Who only looks around is calm. -/
theorem calmAt_looks (patience depth position : Nat) :
    (Audience.conducted (disturbsFirst looks) patience depth).CalmAt position := by
  intro runner _ hinactive
  cases depth with
  | zero => exact rfl
  | succ depth =>
    refine ends_react_conducted.mpr ?_
    have hlooks : disturbsFirst looks position (runner.calledAt position) = looks := ite_self _
    rw [hlooks]
    exact hinactive

/-- A session is stopped before a handler of its stop. If the handler looks around, nothing is bound
afterwards. If it starts another session, that one is active without a label; and if it raises an
error, the label of the session that is over stays. -/
theorem labelled_unless_disturbed_inside : ∃ start calm restarted raised,
    fresh ⟨.tape, 2, "", 0, .empty⟩ [⟨.event "session.stopped", [], []⟩] .initial = .ok start ∧
    runFrom ((disturbedCast looks).caller.perform (.conducted (disturbsFirst looks) 10 3)) start =
        (.ok (), calm) ∧
      calm.Labelled ∧
    runFrom (stop (.conducted (disturbsFirst (.inTurn [.start "+" ⟨false, false⟩])) 10 3))
        ((disturbedCast .rest).moment start (·.session.active)) = (.ok (), restarted) ∧
      restarted.session.active = true ∧ ¬ restarted.Labelled ∧
    raised = (disturbedCast (.raise (.raised "boom"))).moment start (fun _ ↦ false) ∧
      raised.session.active = false ∧ raised.LatestLabelled ∧ ¬ raised.Labelled := by
  obtain ⟨start, hstart⟩ : ∃ start, fresh ⟨.tape, 2, "", 0, .empty⟩
      [⟨.event "session.stopped", [], []⟩] .initial = .ok start := ⟨_, rfl⟩
  obtain ⟨calm, hcalm, hsteps⟩ : ∃ calm,
      runFrom ((disturbedCast looks).caller.perform (.conducted (disturbsFirst looks) 10 3)) start =
        (.ok (), calm) ∧ calm.session.steps = 0 := by
    have hended : (
        let ended := runFrom ((disturbedCast looks).caller.perform
          (.conducted (disturbsFirst looks) 10 3)) start;
        ended.1.isOk && decide (ended.2.session.steps = 0)) = true := by
      cases hstart
      decide +kernel
    generalize runFrom ((disturbedCast looks).caller.perform
      (.conducted (disturbsFirst looks) 10 3)) start = ended at hended
    obtain ⟨halt | _, calm⟩ := ended
    · cases hended
    · exact ⟨calm, rfl, of_decide_eq_true hended⟩
  have hon : ((disturbedCast .rest).moment start (·.session.active)).session.active = true := by
    cases hstart
    decide +kernel
  obtain ⟨restarted, hrestarted, hagain⟩ : ∃ restarted,
      runFrom (stop (.conducted (disturbsFirst (.inTurn [.start "+" ⟨false, false⟩])) 10 3))
        ((disturbedCast .rest).moment start (·.session.active)) = (.ok (), restarted) ∧
      restarted.session.active = true := by
    have hended : (
        let ended := runFrom (stop (.conducted
          (disturbsFirst (.inTurn [.start "+" ⟨false, false⟩])) 10 3))
            ((disturbedCast .rest).moment start (·.session.active));
        ended.1.isOk && ended.2.session.active) = true := by
      cases hstart
      decide +kernel
    generalize runFrom (stop (.conducted
      (disturbsFirst (.inTurn [.start "+" ⟨false, false⟩])) 10 3))
        ((disturbedCast .rest).moment start (·.session.active)) = ended at hended
    obtain ⟨halt | _, restarted⟩ := ended
    · cases hended
    · exact ⟨restarted, rfl, hended⟩
  obtain ⟨hover, hleft⟩ :
      ((disturbedCast (.raise (.raised "boom"))).moment start fun _ ↦ false).session.active =
        false ∧
      ((disturbedCast (.raise (.raised "boom"))).moment start
        fun _ ↦ false).journal.context.isEmpty = false := by
    cases hstart
    decide +kernel
  have hlooks := labelled_unless_disturbed hstart rfl (by decide)
    (direct_disturbedCast looks (fun _ ↦ ⟨trivial, fun _ _ ↦ trivial⟩) start)
  have hrests := labelled_unless_disturbed hstart rfl (by decide)
    (direct_disturbedCast .rest (fun _ ↦ trivial) start)
  have hraises := labelled_unless_disturbed hstart rfl (by decide)
    (direct_disturbedCast (.raise (.raised "boom")) (fun _ ↦ trivial) start)
  refine ⟨start, calm, restarted, _, hstart, hcalm, ?_, hrestarted, hagain, fun hlabelled ↦ ?_,
    rfl, hover, hraises.1 _, fun hlabelled ↦ ?_⟩
  · have hlast := hlooks.2.2 (fun depth position _ ↦ calmAt_looks 10 depth position) _ _ hcalm nofun
    refine (hlast.resolve_right fun hlong ↦ ?_).1
    rw [hsteps] at hlong
    exact absurd hlong.2 (by decide)
  · have hinactive := (hrests.2.1 _ _ _ hon hrestarted).mp hlabelled
    exact nomatch hagain.symm.trans hinactive
  · rw [hlabelled.inactive hover] at hleft
    cases hleft

end Runner

end TapeRunner
