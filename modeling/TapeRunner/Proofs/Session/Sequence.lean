import TapeRunner.Proofs.Session.Publication

/-!
# The order in which events are received

An event takes its number when it is told, and is received when its turn comes among the handlers.
So whatever handlers ask for, no two events of a session are received under one number; and they
are received in the order of their numbers if those leave the session alone who hear of an event
before the recorder does (`Runner.received_in_order`). A handler that is called before the recorder
and has the session tell something has that received first (`Runner.received_out_of_order`).
-/

set_option autoImplicit false
set_option relaxedAutoImplicit false

namespace TapeRunner

open Activity

namespace Event

/-- An event that has been told by a session or before it. -/
def Until (event : Event) (session : Session) : Prop :=
  event.session.number.getD 0 < session.number.getD 0 ∨
    event.session.number = session.number ∧ event.sequence ≤ session.sequence

/-- Events of one session have different numbers. -/
def Distinct (event other : Event) : Prop :=
  event.session.number = other.session.number → event.sequence ≠ other.sequence

/-- Events of one session are in the order of their numbers. -/
def Before (event other : Event) : Prop :=
  event.session.number = other.session.number → event.sequence < other.sequence

instance : DecidableRel Before := fun _ _ ↦ inferInstanceAs (Decidable (_ → _))

theorem Distinct.symm {event other : Event} (hdistinct : event.Distinct other) :
    other.Distinct event :=
  fun hsame ↦ (hdistinct hsame.symm).symm

end Event

namespace Runner

variable {runner last : Runner} {audience : Audience} {bus : Bus Observer} {pending : List Event}

/-- The events that have been received, and then those that are on their way. -/
def events (runner : Runner) (pending : List Event) : List Event :=
  runner.recorded.toList ++ pending

/-- What is received next was the first of what was on its way. -/
theorem events_withEvent (runner : Runner) (event : Event) (pending : List Event) :
    (runner.withEvent event).events pending = runner.events (event :: pending) := by
  rw [events, withEvent, Array.toList_push, List.append_assoc]
  rfl

/-- No event that has been received or is on its way is newer than what the session has told. -/
structure Reached (bus : Bus Observer) (pending : List Event) (runner : Runner) : Prop where
  bus_eq : runner.bus = bus
  bound : runner.journal.context.Plain
  told : ∀ event ∈ runner.events pending, event.Until runner.session

/-- What has been told before is not the event that the session tells now. -/
theorem Reached.before (hreached : Reached bus pending runner) (kind : EventKind) {event : Event}
    (hevent : event ∈ runner.events pending) : event.Before (runner.counted.eventOf kind) := by
  intro hsame
  have hcurrent : event.session.number = runner.session.number := hsame
  rcases hreached.told event hevent with hearlier | ⟨-, hle⟩
  · rw [hcurrent] at hearlier
    exact absurd hearlier (Nat.lt_irrefl _)
  · exact Nat.lt_succ_of_le hle

namespace Reached

theorem aside (hreached : Reached bus pending runner) (haside : runner.Aside last) :
    Reached bus pending last where
  bus_eq := haside.bus_eq.trans hreached.bus_eq
  bound := haside.plain hreached.bound
  told event hevent := by
    rw [events, haside.recorded_eq] at hevent
    rw [Event.Until, haside.number_eq, haside.sequence_eq]
    exact hreached.told event hevent

theorem dropped {event : Event} (hreached : Reached bus (event :: pending) runner) :
    Reached bus pending runner :=
  { hreached with
    told := fun other hother ↦ hreached.told other
      (((List.sublist_cons_self event pending).append_left _).subset hother) }

theorem begun (hreached : Reached bus pending runner) (options : StartOptions) (run : Run) :
    Reached bus pending (runner.begun options run) where
  bus_eq := hreached.bus_eq
  bound := hreached.bound.named _
  told event hevent := by
    refine .inl ?_
    have hle : event.session.number.getD 0 ≤ runner.session.number.getD 0 := by
      rcases hreached.told event hevent with hearlier | ⟨hsame, -⟩
      · exact Nat.le_of_lt hearlier
      · exact Nat.le_of_eq (congrArg (·.getD 0) hsame)
    exact Nat.lt_succ_of_le hle

/-- Once it has taken its number, an event is on its way. -/
theorem counted (hreached : Reached bus pending runner) (kind : EventKind) :
    Reached bus (runner.counted.eventOf kind :: pending) runner.counted where
  bus_eq := hreached.bus_eq
  bound := hreached.bound
  told event hevent := by
    rcases List.mem_append.mp hevent with hold | hcoming
    · exact (hreached.told event (List.mem_append_left _ hold)).imp_right
        fun hsame ↦ ⟨hsame.1, Nat.le_succ_of_le hsame.2⟩
    · rcases List.mem_cons.mp hcoming with rfl | hlater
      · exact .inr ⟨rfl, Nat.le_refl _⟩
      · exact (hreached.told event (List.mem_append_right _ hlater)).imp_right
          fun hsame ↦ ⟨hsame.1, Nat.le_succ_of_le hsame.2⟩

/-- What was on its way has been received. -/
theorem withEvent {event : Event} (hreached : Reached bus (event :: pending) runner) :
    Reached bus pending (runner.withEvent event) where
  bus_eq := hreached.bus_eq
  bound := hreached.bound
  told other hother := hreached.told other (events_withEvent runner event pending ▸ hother)

end Reached

/-- Whatever a handler does, it gives orders of some kind. -/
theorem gives_any (conduct : Nat → Runner → Conduct) (position : Nat) (runner : Runner) :
    (conduct position runner).Gives (fun _ _ ↦ True) runner :=
  .of_forall fun _ _ ↦ trivial

/-- An invariant that nothing can break but what is told. -/
structure Lasting (inv : Runner → Prop) : Prop where
  plain : ∀ runner, inv runner → runner.journal.context.Plain
  aside : KeptAside inv
  begun : ∀ runner options run, inv runner → inv (runner.begun options run)
  ended : ∀ runner, inv runner → inv runner.ended
  detached : ∀ runner, inv runner → inv { runner with attached := none }
  poked : ∀ runner active, inv runner →
    inv { runner with session := { runner.session with active } }

namespace Lasting

variable {inv : Runner → Prop}

theorem narrated (hlasting : Lasting inv)
    (hreact : ∀ position, Preserves inv (audience.react position))
    (htell : ∀ kind, Preserves inv (tell audience kind)) :
    Narrated audience inv fun _ _ _ ↦ True where
  plain := hlasting.plain _
  aside := hlasting.aside
  stays _ _ _ _ := trivial
  entered _ _ := trivial
  sink _ _ := by simpa only [and_true] using hreact _
  told kind hinv _ _ := htell kind _ hinv
  reported kind _ := by simpa only [and_true] using htell kind
  begun options run hinv := hlasting.begun _ options run hinv
  ended hinv _ := hlasting.ended _ hinv
  stopped hinv _ haside := htell .stopped _ (hlasting.aside _ _ (hlasting.ended _ hinv) haside)
  detached hinv := hlasting.detached _ hinv

/-- If it is not broken by what is told, no order breaks it. -/
theorem preserves_obey (hlasting : Lasting inv)
    (hreact : ∀ position, Preserves inv (audience.react position))
    (htell : ∀ kind, Preserves inv (tell audience kind)) (order : Order) :
    Preserves inv (obey audience order) :=
  (hlasting.narrated hreact htell).preserves_obey fun active _ runner hinv ↦
    hlasting.poked runner active hinv

end Lasting

/-- If what is told keeps a family of such invariants as long as all handlers keep it, then they do
keep it, to whatever depth orders are given inside of orders. -/
theorem preserves_react_of_tell {Index : Type} {inv : Index → Runner → Prop}
    (hlasting : ∀ index, Lasting (inv index)) {conduct : Nat → Runner → Conduct} {patience : Nat}
    (htell : ∀ depth,
      (∀ index position,
        Preserves (inv index) ((Audience.conducted conduct patience depth).react position)) →
      ∀ index kind, Preserves (inv index) (tell (.conducted conduct patience depth) kind))
    (depth : Nat) (index : Index) (position : Nat) :
    Preserves (inv index) ((Audience.conducted conduct patience depth).react position) := by
  induction depth generalizing index position with
  | zero => exact fun _ hinv ↦ hinv
  | succ depth ih =>
    -- Handlers are obeyed in front of those of the depth below.
    have hobey (order : Order) (_ : True) :
        Preserves (inv index) (obey (.conducted conduct patience depth) order) :=
      (hlasting index).preserves_obey (ih index) (htell depth ih index) order
    exact preserves_react_of_obey (hlasting index).aside hobey (gives_any conduct) position

/-! ### One number for every event -/

/-- No two events of a session that have been received or are on their way have one number. -/
structure Numbered (bus : Bus Observer) (pending : List Event) (runner : Runner) : Prop
    extends Reached bus pending runner where
  distinct : (runner.events pending).Pairwise Event.Distinct

namespace Numbered

theorem lasting (bus : Bus Observer) (pending : List Event) : Lasting (Numbered bus pending) where
  plain _ hnumbered := hnumbered.bound
  aside runner last hnumbered haside := by
    refine ⟨hnumbered.toReached.aside haside, ?_⟩
    rw [events, haside.recorded_eq]
    exact hnumbered.distinct
  begun _ options run hnumbered := ⟨hnumbered.toReached.begun options run, hnumbered.distinct⟩
  ended _ hnumbered := { hnumbered with }
  detached _ hnumbered := { hnumbered with }
  poked _ _ hnumbered := { hnumbered with }

/-- Whatever handlers do, the numbers stay distinct when an event is told. -/
theorem preserves_tell
    (honce : ∀ kind : EventKind, (bus.recipients kind.type).count .recorder = 1)
    (hreact : ∀ pending position, Preserves (Numbered bus pending) (audience.react position))
    (pending : List Event) (kind : EventKind) :
    Preserves (Numbered bus pending) (tell audience kind) := by
  intro runner hnumbered
  have hbus := hnumbered.bus_eq
  let event := runner.counted.eventOf kind
  have hcounted : Numbered bus (event :: pending) runner.counted := by
    refine ⟨hnumbered.toReached.counted kind, ?_⟩
    refine (List.pairwise_middle Event.Distinct.symm).mpr (List.pairwise_cons.mpr ⟨?_, ?_⟩)
    · intro other hother hsame
      exact Nat.ne_of_gt (hnumbered.toReached.before kind hother hsame.symm)
    · exact hnumbered.distinct
  have hrecorded (last : Runner) (hlast : Numbered bus (event :: pending) last) :
      Numbered bus pending (last.withEvent event) :=
    ⟨hlast.toReached.withEvent, events_withEvent last event pending ▸ hlast.distinct⟩
  have hdropped (last : Runner) (hlast : Numbered bus (event :: pending) last) :
      Numbered bus pending last :=
    ⟨hlast.toReached.dropped,
      hlast.distinct.sublist ((List.sublist_cons_self event pending).append_left _)⟩
  refine yields_tell_among (hbus ▸ honce kind) (fun position _ ↦ hreact _ position)
    (fun position _ ↦ hreact _ position) hrecorded hdropped (fun _ ↦ id) fun lines ↦ ?_
  exact (lasting bus _).aside _ _ hcounted (aside_withLines _ lines)

/-- Handlers keep the numbers distinct, to whatever depth orders are given inside of orders. -/
theorem preserves_react
    (honce : ∀ kind : EventKind, (bus.recipients kind.type).count .recorder = 1)
    (conduct : Nat → Runner → Conduct) (patience depth : Nat) (pending : List Event)
    (position : Nat) :
    Preserves (Numbered bus pending)
      ((Audience.conducted conduct patience depth).react position) :=
  preserves_react_of_tell (lasting bus) (fun _ ↦ preserves_tell honce) depth pending position

end Numbered

end Runner

/-! ### The order of the numbers -/

/-- Whoever hears of an event before the recorder does leaves the session alone. -/
def Audience.MuteAhead (bus : Bus Observer) (audience : Audience) : Prop :=
  ∀ (kind : EventKind) position,
    .hook position ∈ (bus.recipients kind.type).takeWhile (· ≠ .recorder) →
      audience.MuteAt position

namespace Runner

variable {runner last : Runner} {audience : Audience} {bus : Bus Observer}

/-- The events of every session have been received in the order of their numbers. -/
structure Ordered (bus : Bus Observer) (runner : Runner) : Prop
    extends Reached bus [] runner where
  ordered : runner.recorded.toList.Pairwise Event.Before

namespace Ordered

theorem lasting (bus : Bus Observer) : Lasting (Ordered bus) where
  plain _ hordered := hordered.bound
  aside runner last hordered haside := by
    refine ⟨hordered.toReached.aside haside, ?_⟩
    rw [haside.recorded_eq]
    exact hordered.ordered
  begun _ options run hordered := ⟨hordered.toReached.begun options run, hordered.ordered⟩
  ended _ hordered := { hordered with }
  detached _ hordered := { hordered with }
  poked _ _ hordered := { hordered with }

/-- What is told is received in order if those who hear it before the recorder leave the session
alone. -/
theorem preserves_tell
    (honce : ∀ kind : EventKind, (bus.recipients kind.type).count .recorder = 1)
    (hmute : audience.MuteAhead bus)
    (hreact : ∀ position, Preserves (Ordered bus) (audience.react position)) (kind : EventKind) :
    Preserves (Ordered bus) (tell audience kind) := by
  intro runner hordered
  have hbus := hordered.bus_eq
  let event := runner.counted.eventOf kind
  have hcounted : Reached bus [event] runner.counted := hordered.toReached.counted kind
  have hrecorded (last : Runner) (haside : runner.counted.Aside last) :
      Ordered bus (last.withEvent event) := by
    refine ⟨(hcounted.aside haside).withEvent, ?_⟩
    rw [withEvent, Array.toList_push, haside.recorded_eq]
    refine List.pairwise_append.mpr ⟨hordered.ordered, List.pairwise_singleton _ _, ?_⟩
    intro earlier hearlier later hlater
    rw [List.mem_singleton.mp hlater]
    exact hordered.toReached.before kind (List.mem_append_left _ hearlier)
  have hdropped (last : Runner) (haside : runner.counted.Aside last) : Ordered bus last :=
    (lasting bus).aside _ _ ⟨hcounted.dropped, hordered.ordered⟩ haside
  refine yields_tell_among (hbus ▸ honce kind) (fun position hposition ↦ ?_)
    (fun position _ ↦ hreact position) hrecorded hdropped (fun _ ↦ id) (aside_withLines _)
  exact hmute kind position (hbus ▸ hposition) runner.counted

theorem preserves_react
    (honce : ∀ kind : EventKind, (bus.recipients kind.type).count .recorder = 1)
    {conduct : Nat → Runner → Conduct} {patience : Nat}
    (hmute : ∀ depth, (Audience.conducted conduct patience depth).MuteAhead bus)
    (depth position : Nat) :
    Preserves (Ordered bus) ((Audience.conducted conduct patience depth).react position) :=
  preserves_react_of_tell (fun _ : Unit ↦ lasting bus)
    (fun depth hreact _ ↦ preserves_tell honce (hmute depth) (hreact ())) depth () position

end Ordered

/-! ### What a recorder receives -/

/-- In what order events are received, wherever among the handlers of a bus the recorder stands.
Whatever callers and handlers ask for, and whether they fail or not, no two events of a session are
received under one number. If those who hear of an event before the recorder does leave the session
alone, the events of every session are received in the order of their numbers, whatever the others
ask for; so the last one that has been received is the newest. -/
theorem received_in_order {bench : Bench} {hooks : List Hook} {journal : Journal} {start : Runner}
    (hstart : fresh bench hooks journal = .ok start) (hbound : journal.context.Plain)
    (honce : ∀ kind : EventKind, (bus.recipients kind.type).count .recorder = 1)
    (conduct : Nat → Runner → Conduct) (caller : Conduct) (patience depth : Nat) :
    let last :=
      (runFrom (caller.perform (.conducted conduct patience depth)) { start with bus }).2
    last.recorded.toList.Pairwise Event.Distinct ∧
      ((∀ depth, (Audience.conducted conduct patience depth).MuteAhead bus) →
        last.recorded.toList.Pairwise Event.Before) := by
  intro last
  have hnone : start.recorded = #[] ∧ start.journal = journal := by
    obtain ⟨_, -, rfl⟩ := exists_of_fresh hstart
    exact ⟨rfl, rfl⟩
  have hreached : Reached bus [] { start with bus } := by
    refine ⟨rfl, hnone.2 ▸ hbound, fun event hevent ↦ ?_⟩
    rw [events, hnone.1] at hevent
    cases hevent
  have hempty : start.recorded.toList = [] := congrArg Array.toList hnone.1
  have hcaller : caller.Gives (fun _ _ ↦ True) { start with bus } :=
    .of_forall fun _ _ ↦ trivial
  refine ⟨?_, fun hmute ↦ ?_⟩
  · have hnumbered : Numbered bus [] { start with bus } :=
      ⟨hreached, by rw [events, hempty]; exact .nil⟩
    have hreact := Numbered.preserves_react honce conduct patience depth
    have htell := Numbered.preserves_tell honce hreact []
    have hlast : Numbered bus [] last := preserves_perform_of_gives
      (fun order _ ↦ (Numbered.lasting bus []).preserves_obey (hreact []) htell order)
        hcaller hnumbered
    have hdistinct := hlast.distinct
    rwa [events, List.append_nil] at hdistinct
  · have hordered : Ordered bus { start with bus } := ⟨hreached, by rw [hempty]; exact .nil⟩
    have hreact := Ordered.preserves_react honce hmute depth
    have htell := Ordered.preserves_tell honce (hmute depth) hreact
    have hlast : Ordered bus last := preserves_perform_of_gives
      (fun order _ ↦ (Ordered.lasting bus).preserves_obey hreact htell order) hcaller hordered
    exact hlast.ordered

/-- The first handler feeds the program at every call, and the others ask for the next speed up to
the second. -/
def feedsAndSpeeds (position : Nat) (runner : Runner) : Conduct :=
  if position = 0 then .inTurn [.feed "A"]
  else if runner.session.speed < 2 then .inTurn [.setSpeed (runner.session.speed + 1)]
  else .rest

/-- A handler of steps that feeds the program comes before the recorder, and one of every event that
changes the speed, and hears of that change in the midst of its order, comes after it. -/
theorem received_in_order_fed :
    ∃ start last, fresh ⟨.tape, 2, "", 0, .empty⟩
        [⟨.event "session.stepped", [], []⟩, ⟨.event everyEvent, [], []⟩] .initial = .ok start ∧
      last = (runFrom ((Conduct.inTurn [.start "+," ⟨false, false⟩, .step]).perform
        (.conducted feedsAndSpeeds 10 3)) start).2 ∧
      last.recorded.toList.map Event.kind =
        [.started, .speedChanged 0, .speedChanged 1, .stepped] ∧
      last.recorded.toList.Pairwise Event.Before := by
  obtain ⟨start, hstart⟩ : ∃ start, fresh ⟨.tape, 2, "", 0, .empty⟩
    [⟨.event "session.stepped", [], []⟩, ⟨.event everyEvent, [], []⟩] .initial = .ok start :=
      ⟨_, rfl⟩
  obtain ⟨caller, hcaller⟩ : ∃ caller, caller =
    Conduct.inTurn [.start "+," ⟨false, false⟩, .step] := ⟨_, rfl⟩
  have honce (kind : EventKind) : (start.bus.recipients kind.type).count .recorder = 1 :=
    (founded_of_fresh hstart Fields.plain_nil (by decide)).recorder kind
  have hreceived := (received_in_order hstart Fields.plain_nil honce feedsAndSpeeds caller 10 3).2
  obtain ⟨last, hlast⟩ : ∃ last,
    last = (runFrom (caller.perform (.conducted feedsAndSpeeds 10 3)) start).2 := ⟨_, rfl⟩
  have hkinds : last.recorded.toList.map Event.kind =
      [.started, .speedChanged 0, .speedChanged 1, .stepped] := by
    rw [hlast, hcaller]
    cases hstart
    decide +kernel
  refine ⟨start, last, hstart, hcaller ▸ hlast, hkinds, hlast ▸ hreceived ?_⟩
  intro depth kind position hposition
  have hearly : ((start.bus.recipients kind.type).takeWhile (· ≠ .recorder)).all
      (fun observer ↦ observer = .registrar || observer = .hook 0) = true := by
    cases hstart
    cases kind <;> rfl
  obtain rfl : position = 0 := by simpa using List.all_eq_true.mp hearly _ hposition
  have hmute (runner : Runner) : (feedsAndSpeeds 0 runner).Mute :=
    Conduct.mute_inTurn fun order horder ↦ List.mem_singleton.mp horder ▸ trivial
  exact muteAt_conducted hmute 10 depth

/-- Where a handler of steps asks for another speed, the recorder receives the change of speed
before it receives the step. -/
theorem received_out_of_order :
    ∃ start, fresh ⟨.tape, 2, "", 0, .empty⟩
        [⟨.event "session.stepped", [1], [.setSpeed 5]⟩] .initial = .ok start ∧
      let carried := carryOut (.ofHooks #[⟨.event "session.stepped", [1], [.setSpeed 5]⟩] 10 2)
        [.start "++" ⟨false, false⟩, .step] start
      (∀ outcome ∈ carried.1, outcome.isOk = true) ∧
        carried.2.recorded.toList.map (fun event ↦ (event.kind, event.sequence)) =
          [(.started, 1), (.speedChanged 0, 3), (.stepped, 2)] ∧
        ¬ carried.2.recorded.toList.Pairwise Event.Before := by
  obtain ⟨start, hstart⟩ : ∃ start, fresh ⟨.tape, 2, "", 0, .empty⟩
    [⟨.event "session.stepped", [1], [.setSpeed 5]⟩] .initial = .ok start := ⟨_, rfl⟩
  refine ⟨start, hstart, ?_⟩
  cases hstart
  decide +kernel

end Runner

end TapeRunner
