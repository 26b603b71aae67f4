import TapeRunner.Proofs.Session.Misreport
import TapeRunner.Proofs.Session.Sequence

/-!
# Events and the sessions they belong to

A step tells of itself after those have heard its report who can ask for anything. As long as they
leave the session on, a step tells of the session that it has stepped, and nothing is told of a
session after its stop, whatever all the other handlers ask for. But a step does not look again: if
the session is over after its report, or another one has begun, the step is told of that
(`Runner.belongs_unless_left`).
-/

set_option autoImplicit false
set_option relaxedAutoImplicit false

namespace TapeRunner

open Activity

namespace Runner

/-- The session with a number is active, and attached to the run at a position. -/
structure On (position : Nat) (number : Option Nat) (runner : Runner) : Prop where
  attached_eq : runner.attached = some position
  number_eq : runner.session.number = number
  active : runner.session.active = true

theorem On.kept (position : Nat) (number : Option Nat) : KeptAside (On position number) :=
  fun _ _ hon haside ↦ ⟨haside.attached_eq.trans hon.attached_eq,
    haside.number_eq.trans hon.number_eq, haside.active_eq.trans hon.active⟩

end Runner

/-- Whoever hears of the end of a stretch leaves the session on that it is told of. -/
def Audience.LeavesOn (bus : Bus Observer) (audience : Audience) : Prop :=
  ∀ (kind : EventKind) hook, kind.Closes → .hook hook ∈ bus.recipients kind.type →
    ∀ position number, Preserves (Runner.On position number) (audience.react hook)

namespace Runner

variable {runner last : Runner} {audience : Audience} {bus : Bus Observer} {sinks : List Nat}
variable {pending : List Event} {position : Nat} {number : Option Nat}

/-! ### Stories -/

/-- Of the events that have been received or are on their way, those of steps show an active
session, and none is newer than the stop of its session. There is no stop of the current session
while it is active, and no engine is attached to one that is not. -/
structure Belongs (bus : Bus Observer) (sinks : List Nat) (pending : List Event)
    (runner : Runner) : Prop extends Reached bus pending runner where
  sinks_eq : runner.sinks = sinks
  active_of_attached : runner.attached.isSome = true → runner.session.active = true
  stepped : ∀ event ∈ runner.events pending, event.kind = .stepped → event.session.active = true
  stopped : ∀ stop ∈ runner.events pending, stop.kind = .stopped →
    ∀ event ∈ runner.events pending, event.session.number = stop.session.number →
      event.sequence ≤ stop.sequence
  unstopped : runner.session.active = true → ∀ stop ∈ runner.events pending,
    stop.kind = .stopped → stop.session.number ≠ runner.session.number

namespace Belongs

theorem kept (bus : Bus Observer) (sinks : List Nat) (pending : List Event) :
    KeptAside (Belongs bus sinks pending) := by
  intro runner last hbelongs haside
  have hevents : last.events pending = runner.events pending := by
    rw [events, events, haside.recorded_eq]
  refine ⟨hbelongs.toReached.aside haside, haside.sinks_eq.trans hbelongs.sinks_eq, ?_, ?_, ?_, ?_⟩
  · rw [haside.attached_eq, haside.active_eq]
    exact hbelongs.active_of_attached
  · rw [hevents]
    exact hbelongs.stepped
  · rw [hevents]
    exact hbelongs.stopped
  · rw [hevents, haside.active_eq, haside.number_eq]
    exact hbelongs.unstopped

/-- What will not be received any more does not matter. -/
theorem dropped {event : Event} (hbelongs : Belongs bus sinks (event :: pending) runner) :
    Belongs bus sinks pending runner := by
  have hsub := ((List.sublist_cons_self event pending).append_left runner.recorded.toList).subset
  exact
    { hbelongs with
      toReached := hbelongs.toReached.dropped
      stepped := fun other hother ↦ hbelongs.stepped other (hsub hother)
      stopped := fun stop hstop hkind other hother ↦
        hbelongs.stopped stop (hsub hstop) hkind other (hsub hother)
      unstopped := fun hactive stop hstop ↦ hbelongs.unstopped hactive stop (hsub hstop) }

theorem withEvent {event : Event} (hbelongs : Belongs bus sinks (event :: pending) runner) :
    Belongs bus sinks pending (runner.withEvent event) := by
  have hevents := events_withEvent runner event pending
  refine ⟨hbelongs.toReached.withEvent, hbelongs.sinks_eq, hbelongs.active_of_attached, ?_, ?_, ?_⟩
  · rw [hevents]
    exact hbelongs.stepped
  · rw [hevents]
    exact hbelongs.stopped
  · rw [hevents]
    exact hbelongs.unstopped

/-- An event that is told as long as there is no stop of its session, of an active session unless it
is the stop. -/
theorem counted (hbelongs : Belongs bus sinks pending runner)
    (hunstopped : ∀ stop ∈ runner.events pending, stop.kind = .stopped →
      stop.session.number ≠ runner.session.number)
    {kind : EventKind} (hkind : kind ≠ .stopped ↔ runner.session.active = true) :
    Belongs bus sinks (runner.counted.eventOf kind :: pending) runner.counted := by
  have hevents (other : Event)
      (hother : other ∈ runner.counted.events (runner.counted.eventOf kind :: pending)) :
      other = runner.counted.eventOf kind ∨ other ∈ runner.events pending := by
    rcases List.mem_append.mp hother with hold | hcoming
    · exact .inr (List.mem_append_left _ hold)
    · exact (List.mem_cons.mp hcoming).imp_right (List.mem_append_right _)
  refine ⟨hbelongs.toReached.counted kind, hbelongs.sinks_eq, hbelongs.active_of_attached,
    ?_, ?_, ?_⟩
  · intro other hother hstepped
    rcases hevents other hother with rfl | hold
    · exact hkind.mp fun hstopped ↦ by cases hstopped.symm.trans hstepped
    · exact hbelongs.stepped other hold hstepped
  · intro stop hstop hstopped other hother hsame
    rcases hevents stop hstop with rfl | hstop
    · rcases hevents other hother with rfl | hother
      · exact Nat.le_refl _
      · exact Nat.le_of_lt (hbelongs.toReached.before kind hother hsame)
    · rcases hevents other hother with rfl | hother
      · exact absurd hsame.symm (hunstopped stop hstop hstopped)
      · exact hbelongs.stopped stop hstop hstopped other hother hsame
  · intro hactive stop hstop hstopped
    rcases hevents stop hstop with rfl | hstop
    · exact absurd hstopped (hkind.mpr hactive)
    · exact hunstopped stop hstop hstopped

theorem begun (hbelongs : Belongs bus sinks pending runner) (options : StartOptions) (run : Run) :
    Belongs bus sinks pending (runner.begun options run) := by
  refine ⟨hbelongs.toReached.begun options run, hbelongs.sinks_eq, fun _ ↦ rfl, hbelongs.stepped,
    hbelongs.stopped, fun _ stop hstop _ hsame ↦ ?_⟩
  have hnext : stop.session.number.getD 0 = runner.session.number.getD 0 + 1 :=
    congrArg (·.getD 0) hsame
  rcases hbelongs.told stop hstop with hearlier | ⟨hcurrent, -⟩
  · omega
  · rw [hcurrent] at hnext
    omega

theorem ended (hbelongs : Belongs bus sinks pending runner) :
    Belongs bus sinks pending runner.ended :=
  ⟨{ hbelongs.toReached with }, hbelongs.sinks_eq, nofun, hbelongs.stepped, hbelongs.stopped, nofun⟩

theorem detached (hbelongs : Belongs bus sinks pending runner) :
    Belongs bus sinks pending { runner with attached := none } :=
  { hbelongs with active_of_attached := nofun }

end Belongs

/-! ### Handlers that leave a session on -/

/-- What is assumed of those who hear events: the recorder does once, those of the output are mute,
and whoever hears of the end of a stretch leaves the session on. -/
structure Faithful (bus : Bus Observer) (sinks : List Nat) (audience : Audience) : Prop where
  once : ∀ kind : EventKind, (bus.recipients kind.type).count .recorder = 1
  mute : ∀ sink ∈ sinks, audience.MuteAt sink
  leavesOn : audience.LeavesOn bus

namespace Faithful

variable (hfaithful : Faithful bus sinks audience)
include hfaithful

/-- What is told of a session as it should be is received so. -/
theorem yields_tell
    (hreact : ∀ pending position, Preserves (Belongs bus sinks pending) (audience.react position))
    (hbelongs : Belongs bus sinks pending runner)
    (hunstopped : ∀ stop ∈ runner.events pending, stop.kind = .stopped →
      stop.session.number ≠ runner.session.number)
    {kind : EventKind} (hkind : kind ≠ .stopped ↔ runner.session.active = true) :
    Yields (fun _ ↦ Belongs bus sinks pending) (tell audience kind) runner
      fun _ ↦ Belongs bus sinks pending :=
  yields_tell_among (hbelongs.bus_eq ▸ hfaithful.once kind) (fun position _ ↦ hreact _ position)
    (fun position _ ↦ hreact _ position) (fun _ ↦ Belongs.withEvent) (fun _ ↦ Belongs.dropped)
    (fun _ ↦ id) fun lines ↦
      Belongs.kept _ _ _ _ _ (hbelongs.counted hunstopped hkind) (aside_withLines _ lines)

/-- A session is left on when the end of a stretch is told. -/
theorem yields_report {before after : Runner → Prop} {kind : EventKind} (hcloses : kind.Closes)
    (hbus : runner.bus = bus) (hon : On position number runner)
    (hearly : ∀ hook, Preserves before (audience.react hook))
    (hlate : ∀ hook, Preserves after (audience.react hook))
    (hrecorded : ∀ last, before last → after (last.withEvent (runner.counted.eventOf kind)))
    (hdropped : ∀ last, before last → after last)
    (hbefore : ∀ lines, before (runner.counted.withLines lines)) :
    Yields (fun _ last ↦ after last ∧ On position number last) (tell audience kind) runner
      fun _ last ↦ after last ∧ On position number last := by
  have hleaves (hook : Nat) (hhook : .hook hook ∈ runner.bus.recipients kind.type) :
      Preserves (On position number) (audience.react hook) :=
    hfaithful.leavesOn kind hook hcloses (hbus ▸ hhook) _ _
  have hrecorded (last : Runner) (hlast : before last ∧ On position number last) :
      after (last.withEvent (runner.counted.eventOf kind)) ∧
        On position number (last.withEvent (runner.counted.eventOf kind)) :=
    ⟨hrecorded last hlast.1, { hlast.2 with }⟩
  refine yields_tell_among (hbus ▸ hfaithful.once kind) (fun hook hhook ↦ ?_) (fun hook hhook ↦ ?_)
    hrecorded (fun last ↦ And.imp_left (hdropped last)) (fun _ ↦ id) fun lines ↦
      ⟨hbefore lines, { hon with }⟩
  · exact (hearly hook).and (hleaves hook ((List.takeWhile_sublist _).subset hhook))
  · exact (hlate hook).and (hleaves hook hhook)

/-- What is told, started and stopped leaves every event with the session that it belongs to. -/
theorem narrated
    (hreact : ∀ pending position, Preserves (Belongs bus sinks pending) (audience.react position))
    (pending : List Event) : Narrated audience (Belongs bus sinks pending) On where
  plain hbelongs := hbelongs.bound
  aside := Belongs.kept bus sinks pending
  stays := On.kept _ _
  entered hbelongs hattached := ⟨hattached, rfl, hbelongs.active_of_attached (hattached ▸ rfl)⟩
  sink := by
    intro runner sink position number hbelongs hsink
    have hmute := hfaithful.mute sink (hbelongs.sinks_eq ▸ hsink)
    exact hmute.preserves ((Belongs.kept bus sinks pending).and (On.kept position number))
  told := by
    intro runner kind hbelongs hkind hon
    have hactive : runner.session.active = true := by
      rcases hon with hactive | ⟨_, _, hon⟩
      · exact hactive
      · exact hon.active
    exact hfaithful.yields_tell hreact hbelongs (hbelongs.unstopped hactive)
      ⟨fun _ ↦ hactive, fun _ ↦ hkind⟩
  reported := by
    rintro position number kind hcloses runner ⟨hbelongs, hon⟩
    have hkind : kind ≠ .stopped ↔ runner.session.active = true :=
      ⟨fun _ ↦ hon.active, fun _ ↦ hcloses.inner.2⟩
    have hcounted := hbelongs.counted (hbelongs.unstopped hon.active) hkind
    exact hfaithful.yields_report hcloses hbelongs.bus_eq hon (hreact _) (hreact _)
      (fun _ ↦ Belongs.withEvent) (fun _ ↦ Belongs.dropped)
      fun lines ↦ Belongs.kept _ _ _ _ _ hcounted (aside_withLines _ lines)
  begun options run hbelongs := hbelongs.begun options run
  ended hbelongs _ := hbelongs.ended
  stopped := by
    intro runner last hbelongs hactive haside
    have hended := Belongs.kept _ _ _ _ _ hbelongs.ended haside
    have hinactive : ¬ last.session.active = true :=
      fun hstill ↦ Bool.false_ne_true (haside.active_eq.symm.trans hstill)
    refine hfaithful.yields_tell hreact hended (fun stop hstop hkind ↦ ?_)
      ⟨fun hother ↦ absurd rfl hother, fun hstill ↦ absurd hstill hinactive⟩
    rw [events, haside.recorded_eq] at hstop
    rw [haside.number_eq]
    exact hbelongs.unstopped hactive stop hstop hkind
  detached hbelongs := hbelongs.detached

end Faithful

end Runner

/-- An order that does not say from outside whether a session is active. -/
def Order.Genuine : Order → Prop
  | .pokeActive _ => False
  | _ => True

namespace Runner

variable {runner last : Runner} {audience : Audience} {bus : Bus Observer} {sinks : List Nat}
variable {position : Nat} {number : Option Nat}
variable {conduct : Nat → Runner → Conduct} {patience : Nat}

theorem Faithful.preserves_obey (hfaithful : Faithful bus sinks audience)
    (hreact : ∀ pending position, Preserves (Belongs bus sinks pending) (audience.react position))
    (pending : List Event) {order : Order} (hgenuine : order.Genuine) :
    Preserves (Belongs bus sinks pending) (obey audience order) := by
  refine (hfaithful.narrated hreact pending).preserves_obey fun active hpoked ↦ ?_
  subst hpoked
  exact hgenuine.elim

/-- Handlers leave every event with its session, to whatever depth orders are given inside of
orders. -/
theorem preserves_react_belongs
    (hfaithful : ∀ depth, Faithful bus sinks (.conducted conduct patience depth))
    (hgenuine : ∀ position runner, (conduct position runner).Gives (fun _ ↦ Order.Genuine) runner)
    (depth : Nat) (pending : List Event) (position : Nat) :
    Preserves (Belongs bus sinks pending)
      ((Audience.conducted conduct patience depth).react position) := by
  induction depth generalizing pending position with
  | zero => exact fun _ hbelongs ↦ hbelongs
  | succ depth ih =>
    exact preserves_react_of_obey (Belongs.kept bus sinks pending)
      (fun order ↦ (hfaithful depth).preserves_obey ih pending) hgenuine position

/-! ### What a step tells of -/

/-- The observers are the ones that they were, and these events are on record. -/
structure Retains (bus : Bus Observer) (sinks : List Nat) (events : List Event)
    (runner : Runner) : Prop where
  bus_eq : runner.bus = bus
  sinks_eq : runner.sinks = sinks
  bound : runner.journal.context.Plain
  recorded : ∀ event ∈ events, event ∈ runner.recorded

namespace Retains

variable {events : List Event}

theorem of_nil (hbus : runner.bus = bus) (hsinks : runner.sinks = sinks)
    (hbound : runner.journal.context.Plain) : Retains bus sinks [] runner :=
  ⟨hbus, hsinks, hbound, fun _ hevent ↦ absurd hevent List.not_mem_nil⟩

/-- What is on record stays so, when sessions begin and end as well. -/
theorem lasting (bus : Bus Observer) (sinks : List Nat) (events : List Event) :
    Lasting (Retains bus sinks events) where
  plain _ hretains := hretains.bound
  aside _ _ hretains haside := ⟨haside.bus_eq.trans hretains.bus_eq,
    haside.sinks_eq.trans hretains.sinks_eq, haside.plain hretains.bound,
    haside.recorded_eq ▸ hretains.recorded⟩
  begun _ _ _ hretains := { hretains with bound := hretains.bound.named _ }
  ended _ hretains := { hretains with }
  detached _ hretains := { hretains with }
  poked _ _ hretains := { hretains with }

/-- What is recorded in addition is on record as well. -/
theorem withEvent (hretains : Retains bus sinks events runner) (event : Event) :
    Retains bus sinks (event :: events) (runner.withEvent event) := by
  refine { hretains with recorded := fun other hother ↦ ?_ }
  rcases List.mem_cons.mp hother with rfl | hearlier
  · exact Array.mem_push_self
  · exact Array.mem_push_of_mem _ (hretains.recorded other hearlier)

theorem preserves_tell (hreact : ∀ position, Preserves (Retains bus sinks events)
    (audience.react position)) (kind : EventKind) :
    Preserves (Retains bus sinks events) (tell audience kind) := by
  refine keeps_tell kind (fun _ hretains ↦ writes_of_refusal fun _ _ ↦ hretains) ?_ ?_ ?_ hreact
  · exact fun _ _ hretains ↦ { hretains with }
  · exact fun _ hretains ↦ { hretains with }
  · intro shown later _ hretains
    exact { hretains with
      recorded := fun event hevent ↦ Array.mem_push_of_mem _ (hretains.recorded event hevent) }

theorem preserves_react (conduct : Nat → Runner → Conduct) (patience depth position : Nat) :
    Preserves (Retains bus sinks events)
      ((Audience.conducted conduct patience depth).react position) :=
  preserves_react_of_tell (lasting bus sinks) (fun _ hreact events ↦ preserves_tell (hreact events))
    depth events position

end Retains

variable {depth : Nat}

/-- Before it tells of itself, a step leaves the session on that it steps. -/
theorem Faithful.preserves_lead (hfaithful : Faithful bus sinks audience)
    (hreact : ∀ position, Preserves (Retains bus sinks []) (audience.react position)) :
    Preserves (fun runner ↦ Retains bus sinks [] runner ∧ On position number runner)
      (lead audience position) := by
  have hkept := (Retains.lasting bus sinks []).aside.and (On.kept position number)
  refine preserves_lead_kept hkept (fun runner hrunner sink hsink ↦ ?_)
    (fun kind hcloses runner hrunner ↦ ?_) position
  · exact (hfaithful.mute sink (hrunner.1.sinks_eq ▸ hsink)).preserves hkept
  · exact hfaithful.yields_report hcloses hrunner.1.bus_eq hrunner.2 hreact hreact
      (fun _ hlast ↦ .of_nil hlast.bus_eq hlast.sinks_eq hlast.bound) (fun _ ↦ id)
      fun _ ↦ .of_nil hrunner.1.bus_eq hrunner.1.sinks_eq hrunner.1.bound

/-- A step that ends regularly has told of itself, with what was left when its report had been
heard. -/
theorem Retains.stepped_of_lead
    (honce : ∀ kind : EventKind, (bus.recipients kind.type).count .recorder = 1)
    (hreact : ∀ events position, Preserves (Retains bus sinks events) (audience.react position))
    (hretains : Retains bus sinks [] runner) (hattached : runner.attached = some position)
    (hregular : (runFrom (step audience) runner).1.isOk = true) :
    (runFrom (lead audience position) runner.wiped).2.counted.eventOf .stepped ∈
      (runFrom (step audience) runner).2.recorded := by
  have hkept := (Retains.lasting bus sinks []).aside
  have hlead : Preserves (Retains bus sinks []) (lead audience position) :=
    preserves_lead_kept hkept (fun _ _ sink _ ↦ hreact [] sink)
      (fun kind _ ↦ Retains.preserves_tell (hreact []) kind) position
  have hyields : Yields (fun _ _ ↦ True) (step audience) runner fun _ last ↦
      (runFrom (lead audience position) runner.wiped).2.counted.eventOf .stepped ∈
        last.recorded := by
    refine (ends_step_of_lead hattached).mpr ?_
    have hled := (hlead runner.wiped { hretains with }).reached
    refine (Yields.allow hled fun _ _ _ ↦ trivial).bind fun _ middle hmiddle ↦ ?_
    obtain ⟨hreached, hmiddle⟩ := hmiddle
    rw [hreached]
    have htold : Yields (fun _ _ ↦ True) (tell audience .stepped) middle
        fun _ ↦ Retains bus sinks [middle.counted.eventOf .stepped] :=
      yields_tell_among (hmiddle.bus_eq ▸ honce .stepped) (fun hook _ ↦ hreact [] hook)
        (fun hook _ ↦ hreact _ hook) (fun _ hlast ↦ hlast.withEvent _) (fun _ _ ↦ trivial)
        (fun _ _ ↦ trivial) fun _ ↦ { hmiddle with }
    refine htold.bind fun _ after hafter ↦ ?_
    have hnarrated := (Retains.lasting bus sinks _).narrated (hreact _)
      (Retains.preserves_tell (hreact [middle.counted.eventOf .stepped]))
    have hagain := preserves_again hnarrated.preserves_rearm runner.session.speed after hafter
    exact Yields.allow (Yields.mono hagain fun _ last hlast ↦
      hlast.recorded _ List.mem_cons_self) fun _ _ _ ↦ trivial
  rcases hyields.ended with ⟨_, -, hrecorded⟩ | ⟨_, hhalted, -⟩
  · exact hrecorded
  · rw [hhalted] at hregular
    cases hregular

/-! ### What belongs to a session -/

/-- Before its first start a runner has nothing to belong to. -/
theorem belongs_of_fresh {bench : Bench} {hooks : List Hook} {journal : Journal}
    {start : Runner} (hstart : fresh bench hooks journal = .ok start)
    (hbound : journal.context.Plain) : Belongs bus start.sinks [] { start with bus } := by
  obtain ⟨subscribed, -, rfl⟩ := exists_of_fresh hstart
  have hnone {event : Event} (hevent : event ∈ ([] : List Event)) : False :=
    List.not_mem_nil hevent
  exact ⟨⟨rfl, hbound, fun _ hevent ↦ (hnone hevent).elim⟩, rfl, nofun,
    fun _ hevent ↦ (hnone hevent).elim, fun _ hstop ↦ (hnone hstop).elim, nofun⟩

/-- To which session events belong, wherever among the handlers of a bus the recorder stands. If
those who hear of the end of a stretch leave the session on, then every step that is told of is one
of an active session, and nothing is told of a session after its stop, whatever callers and the
other handlers ask for; and a step leaves the session on until it tells of itself. But in any case
it tells of whatever is left then, be it a session that is over or another one. -/
theorem belongs_unless_left {bench : Bench} {hooks : List Hook} {journal : Journal}
    {start : Runner} (hstart : fresh bench hooks journal = .ok start)
    (hbound : journal.context.Plain)
    (honce : ∀ kind : EventKind, (bus.recipients kind.type).count .recorder = 1)
    (conduct : Nat → Runner → Conduct) (caller : Conduct) (patience depth : Nat)
    (hconduct : ∀ position runner, (conduct position runner).Gives (fun _ ↦ Order.Genuine) runner)
    (hcaller : caller.Gives (fun _ ↦ Order.Genuine) { start with bus })
    (hmute : ∀ sink ∈ start.sinks, ∀ depth,
      (Audience.conducted conduct patience depth).MuteAt sink) :
    let audience := Audience.conducted conduct patience depth
    let last := (runFrom (caller.perform audience) { start with bus }).2
    ((∀ depth, (Audience.conducted conduct patience depth).LeavesOn bus) →
      (∀ event ∈ last.recorded, event.kind = .stepped → event.session.active = true) ∧
      ∀ stop ∈ last.recorded, stop.kind = .stopped → ∀ event ∈ last.recorded,
        event.session.number = stop.session.number → event.sequence ≤ stop.sequence) ∧
    ∀ runner position, runner.bus = bus → runner.sinks = start.sinks →
      runner.journal.context.Plain → runner.attached = some position →
        let left := (runFrom (lead audience position) runner.wiped).2
        ((∀ depth, (Audience.conducted conduct patience depth).LeavesOn bus) →
          runner.session.active = true → On position runner.session.number left) ∧
        ((runFrom (step audience) runner).1.isOk = true →
          left.counted.eventOf .stepped ∈ (runFrom (step audience) runner).2.recorded) := by
  intro audience last
  have hfaithful (hleaves : ∀ depth, (Audience.conducted conduct patience depth).LeavesOn bus)
      (depth : Nat) : Faithful bus start.sinks (.conducted conduct patience depth) :=
    ⟨honce, fun sink hsink ↦ hmute sink hsink depth, hleaves depth⟩
  refine ⟨fun hleaves ↦ ?_, fun runner position hbus hsinks hplain hattached ↦ ?_⟩
  · have hreact := preserves_react_belongs (hfaithful hleaves) hconduct depth
    have hlast : Belongs bus start.sinks [] last := preserves_perform_of_gives
      (fun _ ↦ (hfaithful hleaves depth).preserves_obey hreact []) hcaller
        (belongs_of_fresh hstart hbound)
    have hevents (event : Event) (hevent : event ∈ last.recorded) : event ∈ last.events [] :=
      List.mem_append_left _ (Array.mem_toList_iff.mpr hevent)
    refine ⟨fun event hevent ↦ hlast.stepped event (hevents event hevent), ?_⟩
    intro stop hstop hkind event hevent
    exact hlast.stopped stop (hevents stop hstop) hkind event (hevents event hevent)
  · have hreact (events : List Event) (position : Nat) :
        Preserves (Retains bus start.sinks events) (audience.react position) :=
      Retains.preserves_react conduct patience depth position
    have hretains : Retains bus start.sinks [] runner := .of_nil hbus hsinks hplain
    refine ⟨fun hleaves hactive ↦ ?_, fun hregular ↦ ?_⟩
    · have hlead := (hfaithful hleaves depth).preserves_lead (hreact []) runner.wiped
        ⟨{ hretains with }, hattached, rfl, hactive⟩
      exact hlead.last.2
    · exact hretains.stepped_of_lead honce hreact hattached hregular

/-- One handler only feeds the program, and every other one stops the session. -/
def stopsUnless (feeding position : Nat) (_ : Runner) : Conduct :=
  .inTurn [if position = feeding then .feed "A" else .stop]

theorem genuine_stopsUnless (feeding position : Nat) (runner : Runner) :
    (stopsUnless feeding position runner).Gives (fun _ ↦ Order.Genuine) runner := by
  refine Conduct.gives_inTurn (fun order horder _ ↦ ?_) runner
  rw [List.mem_singleton.mp horder]
  split <;> trivial

/-- A handler of steps stops the session, and the step is told of once it has been stopped, but as
one of the session while it was active. A handler of failures that stops the session has the step
told of that is no longer active. -/
theorem belongs_unless_left_stopped :
    ∃ start last begun, fresh ⟨.tape, 2, "", 0, .empty⟩
        [⟨.event "session.failed", [], []⟩, ⟨.event "session.stepped", [], []⟩] .initial =
          .ok start ∧
      last = (runFrom ((Conduct.inTurn [.start "<" ⟨false, false⟩, .step]).perform
        (.conducted (stopsUnless 0) 10 2)) start).2 ∧
      last.recorded.toList.map (fun event ↦ (event.kind.type, event.sequence)) =
        [("session.started", 1), ("session.failed", 2), ("session.stopped", 4),
          ("session.stepped", 3)] ∧
      (∀ event ∈ last.recorded, event.kind = .stepped → event.session.active = true) ∧
      (∀ stop ∈ last.recorded, stop.kind = .stopped → ∀ event ∈ last.recorded,
        event.session.number = stop.session.number → event.sequence ≤ stop.sequence) ∧
      begun = (runFrom ((Conduct.inTurn [.start "<" ⟨false, false⟩]).perform
        (.conducted (stopsUnless 1) 10 2)) start).2 ∧
      ∃ event ∈ (runFrom (step (.conducted (stopsUnless 1) 10 2)) begun).2.recorded,
        event.kind = .stepped ∧ event.session.active = false := by
  obtain ⟨start, hstart⟩ : ∃ start, fresh ⟨.tape, 2, "", 0, .empty⟩
    [⟨.event "session.failed", [], []⟩, ⟨.event "session.stepped", [], []⟩] .initial =
      .ok start := ⟨_, rfl⟩
  obtain ⟨caller, hcaller⟩ : ∃ caller, caller =
    Conduct.inTurn [.start "<" ⟨false, false⟩, .step] := ⟨_, rfl⟩
  obtain ⟨starter, hstarter⟩ : ∃ starter, starter =
    Conduct.inTurn [.start "<" ⟨false, false⟩] := ⟨_, rfl⟩
  obtain ⟨last, hlast⟩ : ∃ last,
    last = (runFrom (caller.perform (.conducted (stopsUnless 0) 10 2)) start).2 := ⟨_, rfl⟩
  obtain ⟨begun, hbegun⟩ : ∃ begun,
    begun = (runFrom (starter.perform (.conducted (stopsUnless 1) 10 2)) start).2 := ⟨_, rfl⟩
  have hkinds : last.recorded.toList.map (fun event ↦ (event.kind.type, event.sequence)) =
      [("session.started", 1), ("session.failed", 2), ("session.stopped", 4),
        ("session.stepped", 3)] := by
    rw [hlast, hcaller]
    cases hstart
    decide +kernel
  have honce (kind : EventKind) : (start.bus.recipients kind.type).count .recorder = 1 :=
    (founded_of_fresh hstart Fields.plain_nil (by decide)).recorder kind
  have hsinks : ∀ sink ∈ start.sinks, ∀ (feeding depth : Nat),
      (Audience.conducted (stopsUnless feeding) 10 depth).MuteAt sink := by
    cases hstart
    exact fun _ hsink ↦ absurd hsink List.not_mem_nil
  have hgenuine (orders : List Order) (hall : ∀ order ∈ orders, order.Genuine) :
      (Conduct.inTurn orders).Gives (fun _ ↦ Order.Genuine) start :=
    Conduct.gives_inTurn (fun order horder _ ↦ hall order horder) start
  have hstarts : starter.Gives (fun _ ↦ Order.Genuine) start :=
    hstarter ▸ hgenuine _ (by simp [Order.Genuine])
  have hcalls : caller.Gives (fun _ ↦ Order.Genuine) start :=
    hcaller ▸ hgenuine _ (by simp [Order.Genuine])
  have hleaves (depth : Nat) :
      (Audience.conducted (stopsUnless 0) 10 depth).LeavesOn start.bus := by
    intro kind hook hcloses hhook position number
    have hmute (runner : Runner) : (stopsUnless 0 0 runner).Mute :=
      Conduct.mute_inTurn fun order horder ↦ List.mem_singleton.mp horder ▸ trivial
    obtain rfl : hook = 0 := by
      have hone : (start.bus.recipients kind.type).all
          (fun observer ↦ observer = .registrar || observer = .recorder || observer = .hook 0) =
            true := by
        cases hstart
        cases kind <;> first | exact hcloses.elim | rfl
      simpa using List.all_eq_true.mp hone _ hhook
    exact (muteAt_conducted hmute 10 depth).preserves (On.kept position number)
  have hbelongs := (belongs_unless_left hstart Fields.plain_nil honce (stopsUnless 0) caller 10 2
    (genuine_stopsUnless 0) hcalls fun sink hsink ↦ hsinks sink hsink 0).1 hleaves
  have hreachable : start.Reachable begun := hbegun ▸ reachable_perform _ 10 2 starter start
  have hsetUp := (upheldThroughout_setUpAs start).reachable hreachable ⟨rfl, rfl, rfl, rfl⟩
  have hfounded := upheldThroughout_founded.reachable hreachable
    (founded_of_fresh hstart Fields.plain_nil (by decide))
  have hover : (decide (begun.attached = some 0 ∧
      (runFrom (step (.conducted (stopsUnless 1) 10 2)) begun).1.isOk = true ∧
      (runFrom (lead (.conducted (stopsUnless 1) 10 2) 0) begun.wiped).2.session.active =
        false)) = true := by
    rw [hbegun, hstarter]
    cases hstart
    decide +kernel
  obtain ⟨hattached, hregular, hinactive⟩ := of_decide_eq_true hover
  have hafter := belongs_unless_left hstart Fields.plain_nil honce (stopsUnless 1) starter 10 2
    (genuine_stopsUnless 1) hstarts fun sink hsink ↦ hsinks sink hsink 1
  have htold := (hafter.2 begun 0 hsetUp.bus_eq hsetUp.sinks_eq hfounded.bound hattached).2 hregular
  exact ⟨start, last, begun, hstart, hcaller ▸ hlast, hkinds, hlast ▸ hbelongs.1,
    hlast ▸ hbelongs.2, hstarter ▸ hbegun, _, htold, rfl, hinactive⟩

end Runner

end TapeRunner
