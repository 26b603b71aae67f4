import TapeRunner.Proofs.Session.Hearing
import TapeRunner.Proofs.Session.Upkeep

/-!
# Reachable moments

A runner is reachable if it is there at some moment of a run: between two orders of the caller, or
inside of one, when an observer is called or has come out of an order of its own. The caller and
the observers conduct themselves in any way, with the orders that they like, in the order that they
like, and may raise errors at any time. A moment is picked by a test that cuts the run off there
(`Conduct.performUntil`, `Audience.conductedUntil`): nobody catches such a cut, and nothing is
changed on its way out.

What is upheld throughout is there at every moment (`Runner.UpheldThroughout.reachable`). So are
the foundations that operations rely on: runs that are sound, a journal that takes lines about
events, and a recorder that hears every event once (`Runner.founded_of_fresh`).
-/

set_option autoImplicit false
set_option relaxedAutoImplicit false

namespace TapeRunner

open Activity

/-- Carries out a conduct before an audience until, after some order, it is cut off. -/
def Conduct.performUntil (cut : Runner → Bool) (audience : Audience) : Conduct → Action Unit
  | .rest => pure ()
  | .raise error => fail error
  | .give order next => do
    let outcome ← caught (Runner.obey audience order)
    let runner ← get
    if cut runner then giveUp
    else performUntil cut audience (next outcome runner)

/-- Observers that conduct themselves as those of `Audience.conducted` do until, when one of them is
called or has given an order, they are cut off. -/
def Audience.conductedUntil (cut : Runner → Bool) (conduct : Nat → Runner → Conduct)
    (patience : Nat) : Nat → Audience
  | 0 => ⟨fun _ ↦ giveUp, patience⟩
  | depth + 1 =>
    ⟨fun position ↦ do
      modify fun runner ↦ { runner with hookCalls := runner.hookCalls.modify position (· + 1) }
      let runner ← get
      if cut runner then
        giveUp
      else
        (conduct position runner).performUntil cut
          (Audience.conductedUntil cut conduct patience depth),
    patience⟩

theorem Audience.patience_conductedUntil (cut : Runner → Bool) (conduct : Nat → Runner → Conduct)
    (patience depth : Nat) : (conductedUntil cut conduct patience depth).patience = patience := by
  cases depth <;> rfl

theorem Audience.react_conductedUntil (cut : Runner → Bool) (conduct : Nat → Runner → Conduct)
    (patience depth position : Nat) :
    (conductedUntil cut conduct patience (depth + 1)).react position = (do
      modify fun runner ↦ { runner with hookCalls := runner.hookCalls.modify position (· + 1) }
      let runner ← get
      if cut runner then
        giveUp
      else
        (conduct position runner).performUntil cut (conductedUntil cut conduct patience depth)) :=
  rfl

/-- A conduct that is never cut off is carried out as a whole. -/
theorem Conduct.performUntil_never (audience : Audience) (conduct : Conduct) :
    conduct.performUntil (fun _ ↦ false) audience = conduct.perform audience := by
  induction conduct with
  | rest => rfl
  | raise error => rfl
  | give order next ih =>
    rw [performUntil, perform]
    refine bind_congr fun outcome ↦ bind_congr fun runner ↦ ?_
    rw [if_neg Bool.false_ne_true, ih]

/-- Observers that are never cut off conduct themselves as they would. -/
theorem Audience.conductedUntil_never (conduct : Nat → Runner → Conduct) (patience depth : Nat) :
    conductedUntil (fun _ ↦ false) conduct patience depth = conducted conduct patience depth := by
  induction depth with
  | zero => rfl
  | succ depth ih =>
    rw [conductedUntil, conducted, ih]
    congr 1
    funext position
    refine bind_congr fun _ ↦ bind_congr fun runner ↦ ?_
    rw [if_neg Bool.false_ne_true, Conduct.performUntil_never]

/-- No event has the type that stands for every event. -/
theorem EventKind.everyEvent_ne_type (kind : EventKind) : everyEvent ≠ kind.type := by
  cases kind <;> simp [type, everyEvent]

namespace Runner

/-- Those who take part in a run: a caller, and observers with a bound on their blocking runs and on
the depth to which their orders call observers again. -/
structure Cast where
  conduct : Nat → Runner → Conduct
  patience : Nat
  depth : Nat
  caller : Conduct

/-- The runner at the moment at which a run from the start on is cut off. -/
def Cast.moment (cast : Cast) (start : Runner) (cut : Runner → Bool) : Runner :=
  (runFrom (cast.caller.performUntil cut
    (.conductedUntil cut cast.conduct cast.patience cast.depth)) start).2

/-- The last runner is there at some moment of a run from the start on. -/
def Reachable (start last : Runner) : Prop := ∃ (cast : Cast) (cut : Runner → Bool),
  last = cast.moment start cut

/-- Where a run ends is reachable. -/
theorem reachable_perform (conduct : Nat → Runner → Conduct) (patience depth : Nat)
    (caller : Conduct) (start : Runner) :
    start.Reachable (runFrom (caller.perform (.conducted conduct patience depth)) start).2 := by
  refine ⟨⟨conduct, patience, depth, caller⟩, fun _ ↦ false, ?_⟩
  rw [Cast.moment, Conduct.performUntil_never, Audience.conductedUntil_never]

/-! ### What is upheld at every moment -/

namespace UpheldThroughout

variable {inv : Runner → Prop} {audience : Audience} {start last : Runner}
variable (hupheld : UpheldThroughout inv)
include hupheld

theorem preserves_performUntil (hreact : ∀ position, Preserves inv (audience.react position))
    (cut : Runner → Bool) (conduct : Conduct) :
    Preserves inv (conduct.performUntil cut audience) := by
  induction conduct with
  | rest => exact Keeps.pure ()
  | raise error => exact Preserves.fail error
  | give order next ih =>
    refine (hupheld.preserves_obey hreact order).caught.bind fun outcome ↦ ?_
    apply Keeps.get_bind
    intro runner hinv
    split
    · exact hinv
    · exact ih outcome runner runner hinv

/-- Observers keep what is upheld, to whatever depth orders are given inside of orders. -/
theorem preserves_react (cut : Runner → Bool) (conduct : Nat → Runner → Conduct)
    (patience depth position : Nat) :
    Preserves inv ((Audience.conductedUntil cut conduct patience depth).react position) := by
  induction depth generalizing position with
  | zero => exact fun _ hinv ↦ hinv
  | succ depth ih =>
    refine Keeps.bind (Keeps.modify fun runner hinv ↦ ?_) fun _ ↦
      Keeps.get_bind fun runner hinv ↦ ?_
    · exact hupheld.noted hinv ⟨_, _, _, _, rfl⟩
    · split
      · exact hinv
      · exact hupheld.preserves_performUntil ih cut _ runner hinv

/-- What is upheld throughout holds at every moment. -/
theorem reachable (hreachable : start.Reachable last) (hinv : inv start) : inv last := by
  obtain ⟨cast, cut, rfl⟩ := hreachable
  exact (hupheld.preserves_performUntil
    (hupheld.preserves_react cut cast.conduct cast.patience cast.depth) cut cast.caller
      start hinv).last

/-- It holds after any orders, whatever the observers do. -/
theorem carryOut (conduct : Nat → Runner → Conduct) (patience depth : Nat) (orders : List Order)
    (hinv : inv start) : inv (carryOut (.conducted conduct patience depth) orders start).2 := by
  refine preserved_carryOut (fun order _ ↦ hupheld.preserves_obey (fun position ↦ ?_) order) hinv
  rw [← Audience.conductedUntil_never]
  exact hupheld.preserves_react _ conduct patience depth position

end UpheldThroughout

/-! ### What is kept by orders of some kind -/

end Runner

/-- Every order that is given is one of those allowed for the runner to which it is given. -/
def Conduct.Gives (allowed : Runner → Order → Prop) : Conduct → Runner → Prop
  | .rest, _ | .raise _, _ => True
  | .give order next, runner =>
    allowed runner order ∧ ∀ outcome after, (next outcome after).Gives allowed after

theorem Conduct.Gives.of_forall {allowed : Runner → Order → Prop} {conduct : Conduct}
    {runner : Runner} (hall : ∀ runner order, allowed runner order) :
    conduct.Gives allowed runner := by
  induction conduct generalizing runner with
  | rest => trivial
  | raise error => trivial
  | give order next ih => exact ⟨hall runner order, fun outcome after ↦ ih outcome after⟩

/-- Whoever gives orders in turn gives those of the list. -/
theorem Conduct.gives_inTurn {allowed : Runner → Order → Prop} {orders : List Order}
    (hallowed : ∀ order ∈ orders, ∀ runner, allowed runner order) (runner : Runner) :
    (inTurn orders).Gives allowed runner := by
  induction orders generalizing runner with
  | nil => trivial
  | cons order later ih =>
    have hlater := ih fun other hother ↦ hallowed other (List.mem_cons_of_mem _ hother)
    refine ⟨hallowed order List.mem_cons_self runner, fun outcome after ↦ ?_⟩
    rcases outcome with error | reply
    · show Gives allowed (if error.isRefusal then .raise error else inTurn later) after
      split
      · trivial
      · exact hlater after
    · exact hlater after

namespace Runner

section Gives

variable {inv : Runner → Prop} {allowed : Runner → Order → Prop} {audience : Audience}
variable {runner : Runner}

/-- What every allowed order keeps is kept by whoever gives no others, at every moment. An error
ends an order in the invariant; how an order ends that is given up is another matter. -/
theorem yields_performUntil_of_allowed {halted : Halt → Runner → Prop}
    (hallowed : ∀ halt runner, inv runner → halted halt runner)
    (hraised : ∀ error runner, halted (.raised error) runner → inv runner)
    (hobey : ∀ order runner, inv runner → allowed runner order →
      Yields halted (obey audience order) runner fun _ ↦ inv)
    (cut : Runner → Bool) {conduct : Conduct} (hgives : conduct.Gives allowed runner)
    (hinv : inv runner) :
    Yields halted (conduct.performUntil cut audience) runner fun _ ↦ inv := by
  induction conduct generalizing runner with
  | rest => exact hinv
  | raise error => exact hallowed _ _ hinv
  | give order next ih =>
    rw [Yields, Conduct.performUntil, ends_bind, ends_caught]
    have hrest (found : Except Error Reply) (last : Runner) (hlast : inv last) :
        Yields halted (do
          let runner ← get
          if cut runner then giveUp else (next found runner).performUntil cut audience) last
          fun _ ↦ inv := by
      rw [Yields, ends_bind, ends_get]
      by_cases hcut : cut last = true
      · simp only [if_pos hcut]
        exact hallowed _ _ hlast
      · simp only [if_neg hcut]
        exact ih found last (hgives.2 found last) hlast
    refine Ends.mono (hobey order runner hinv hgives.1) fun outcome last hlast ↦ ?_
    rcases outcome with halt | reply
    · rcases halt with error | _
      · exact hrest _ last (hraised error last hlast)
      · exact hlast
    · exact hrest _ last hlast

theorem yields_performUntil_of_gives
    (hobey : ∀ order runner, inv runner → allowed runner order →
      Yields (fun _ ↦ inv) (obey audience order) runner fun _ ↦ inv)
    (cut : Runner → Bool) {conduct : Conduct} (hgives : conduct.Gives allowed runner)
    (hinv : inv runner) :
    Yields (fun _ ↦ inv) (conduct.performUntil cut audience) runner fun _ ↦ inv :=
  yields_performUntil_of_allowed (fun _ _ ↦ id) (fun _ _ ↦ id) hobey cut hgives hinv

/-- Observers keep what the orders keep that they give. -/
theorem preserves_react_of_gives {cut : Runner → Bool} {conduct : Nat → Runner → Conduct}
    {patience depth : Nat}
    (hcalled : ∀ runner hookCalls, inv runner → inv { runner with hookCalls })
    (hobey : ∀ order runner, inv runner → allowed runner order →
      Yields (fun _ ↦ inv) (obey (.conductedUntil cut conduct patience depth) order) runner
        fun _ ↦ inv)
    (hgives : ∀ position runner, (conduct position runner).Gives allowed runner) (position : Nat) :
    Preserves inv ((Audience.conductedUntil cut conduct patience (depth + 1)).react position) := by
  refine Keeps.bind (Keeps.modify fun runner hinv ↦ ?_) fun _ ↦
    Keeps.get_bind fun runner hinv ↦ ?_
  · exact hcalled runner _ hinv
  · split
    · exact hinv
    · exact yields_performUntil_of_gives hobey cut (hgives position runner) hinv

end Gives

/-! ### Foundations -/

/-- What operations rely on: runs are sound, the attached one is there, the journal takes lines
about events, and the recorder hears every event once. -/
structure Founded (runner : Runner) : Prop extends runner.Attended where
  sound : ∀ (position : Nat) (run : Run), runner.runs[position]? = some run → run.Sound
  attached_lt : ∀ position, runner.attached = some position → position < runner.runs.size

theorem upheldThroughout_founded : UpheldThroughout Founded where
  noted := by
    rintro _ _ hfounded ⟨_, _, _, _, rfl⟩
    exact { hfounded with }
  session _ hfounded _ := { hfounded with }
  surroundings _ _ _ hfounded := { hfounded with }
  context := by
    intro _ _ context hfounded hbase hbinds
    refine { hfounded with bound := ?_ }
    rcases hbinds with rfl | rfl | ⟨number, rfl⟩
    · exact Fields.plain_nil
    · exact hbase.bound
    · exact hbase.bound.named number
  changeRun := by
    intro runner changed change hfounded hchange
    refine { hfounded with
      sound := RunsSound.changeRun hfounded.sound hchange
      attached_lt := fun position hattached ↦ ?_ }
    simpa only [changeRun, Array.size_modify] using hfounded.attached_lt position hattached
  cancelled _ hfounded := { hfounded with }
  cleared hfounded := { hfounded with }
  armedAt _ hfounded _ _ := { hfounded with }
  detached hfounded := { hfounded with attached_lt := nofun }
  anySession _ hfounded := { hfounded with }
  pushed := by
    intro runner added hfounded hsound
    refine { hfounded with
      sound := RunsSound.push hfounded.sound hsound
      attached_lt := fun position hattached ↦ ?_ }
    rw [Array.size_push]
    exact Nat.lt_succ_of_lt (hfounded.attached_lt position hattached)
  attachedTo := by
    intro runner position hfounded hinside
    refine { hfounded with attached_lt := fun found hfound ↦ ?_ }
    obtain rfl := Option.some.inj hfound
    exact hinside

/-- A runner is set up as another one: with the same observers, and with a journal of the same
settings. -/
structure SetUpAs (base runner : Runner) : Prop where
  bus_eq : runner.bus = base.bus
  sinks_eq : runner.sinks = base.sinks
  threshold_eq : runner.journal.threshold = base.journal.threshold
  form_eq : runner.journal.form = base.journal.form

/-- Nobody subscribes or unsubscribes in a run, and nobody configures the journal. -/
theorem upheldThroughout_setUpAs (base : Runner) : UpheldThroughout base.SetUpAs where
  noted := by
    rintro _ _ hsetUp ⟨_, _, _, _, rfl⟩
    exact { hsetUp with }
  session _ hsetUp _ := { hsetUp with }
  surroundings _ _ _ hsetUp := { hsetUp with }
  context _ hsetUp _ _ := { hsetUp with }
  changeRun _ _ hsetUp _ := { hsetUp with }
  cancelled _ hsetUp := { hsetUp with }
  cleared hsetUp := { hsetUp with }
  armedAt _ hsetUp _ _ := { hsetUp with }
  detached hsetUp := { hsetUp with }
  anySession _ hsetUp := { hsetUp with }
  pushed hsetUp _ := { hsetUp with }
  attachedTo _ hsetUp _ := { hsetUp with }

/-- Who subscribes in turn is subscribed in turn. -/
theorem subscriptions_eq_of_foldlM {later : List (Subscription Observer)} {bus last : Bus Observer}
    (hlast : later.foldlM Bus.subscribe bus = .ok last) :
    last.subscriptions = bus.subscriptions ++ later := by
  induction later generalizing bus with
  | nil =>
    cases hlast
    exact (List.append_nil _).symm
  | cons subscription later ih =>
    rw [List.foldlM_cons] at hlast
    unfold Bus.subscribe at hlast
    split at hlast
    · cases hlast
    · rw [ih hlast, List.append_assoc]
      rfl

/-- No subscription of a hook is one of the recorder. -/
theorem handler_ne_recorder {hooks : List Hook} {subscription : Subscription Observer}
    (hmem : subscription ∈ hooks.zipIdx.filterMap fun (hook, position) ↦
      subscriptionOf hook position) : subscription.handler ≠ .recorder := by
  obtain ⟨⟨hook, position⟩, -, hof⟩ := List.mem_filterMap.mp hmem
  simp only [subscriptionOf] at hof
  split at hof
  · cases hof
    nofun
  · cases hof

/-- Who watches the output is not subscribed to events. -/
theorem apart_of_fresh {bench : Bench} {hooks : List Hook} {journal : Journal} {start : Runner}
    (hstart : fresh bench hooks journal = .ok start) :
    ∀ sink ∈ start.sinks, ∀ type, .hook sink ∉ start.bus.recipients type := by
  obtain ⟨⟨subscribed⟩, hbus, rfl⟩ := exists_of_fresh hstart
  obtain rfl : subscribed = subscriptions hooks := subscriptions_eq_of_foldlM hbus
  intro sink hsink type hmem
  obtain ⟨⟨watcher, place⟩, hwatcher, hoff⟩ := List.mem_filterMap.mp hsink
  obtain ⟨houtput, rfl⟩ : watcher.trigger = .output ∧ place = sink := by simpa using hoff
  obtain ⟨subscription, hsubscribed, hhandler⟩ : ∃ subscription ∈ subscriptions hooks,
      subscription.handler = .hook place := by
    simp only [Bus.recipients, Bus.subscribersFor, List.mem_append, List.mem_map,
      List.mem_filter] at hmem
    rcases hmem with ⟨found, ⟨hfound, -⟩, hhandler⟩ | ⟨found, ⟨hfound, -⟩, hhandler⟩ <;>
      exact ⟨found, hfound, hhandler⟩
  simp only [subscriptions, List.mem_cons] at hsubscribed
  rcases hsubscribed with rfl | rfl | hhook
  · cases hhandler
  · cases hhandler
  · obtain ⟨⟨hook, other⟩, hlisted, hof⟩ := List.mem_filterMap.mp hhook
    simp only [subscriptionOf] at hof
    split at hof
    · next hevent =>
      obtain rfl := Option.some.inj hof
      obtain rfl : other = place := Observer.hook.inj hhandler
      have hfound := List.mk_mem_zipIdx_iff_getElem?.mp hwatcher
      obtain rfl : watcher = hook :=
        Option.some.inj (hfound.symm.trans (List.mk_mem_zipIdx_iff_getElem?.mp hlisted))
      cases houtput.symm.trans hevent
    · cases hof

/-- Nor is it so at any moment of a run. -/
theorem apart_of_reachable {bench : Bench} {hooks : List Hook} {journal : Journal}
    {start runner : Runner} (hstart : fresh bench hooks journal = .ok start)
    (hreachable : start.Reachable runner) :
    ∀ sink ∈ runner.sinks, ∀ type, .hook sink ∉ runner.bus.recipients type := by
  have hsetUp := (upheldThroughout_setUpAs start).reachable hreachable ⟨rfl, rfl, rfl, rfl⟩
  rw [hsetUp.sinks_eq, hsetUp.bus_eq]
  exact apart_of_fresh hstart

/-- The recorder is subscribed once, to every event. -/
theorem count_recorder (hooks : List Hook) (eventType : String) :
    ((⟨subscriptions hooks⟩ : Bus Observer).subscribersFor eventType).count .recorder =
      if everyEvent = eventType then 1 else 0 := by
  have hrest : ((⟨hooks.zipIdx.filterMap fun (hook, position) ↦ subscriptionOf hook position⟩ :
      Bus Observer).subscribersFor eventType).count .recorder = 0 := by
    rw [List.count_eq_zero]
    intro hmem
    obtain ⟨subscription, hfound, hrecorder⟩ := List.mem_map.mp hmem
    exact handler_ne_recorder (List.mem_filter.mp hfound).1 hrecorder
  unfold Bus.subscribersFor at hrest ⊢
  simp only [subscriptions, List.filter_cons]
  split <;> split <;> simp_all

/-- A runner before its first start is founded. -/
theorem founded_of_fresh {bench : Bench} {hooks : List Hook} {journal : Journal} {start : Runner}
    (hstart : fresh bench hooks journal = .ok start) (hbound : journal.context.Plain)
    (hhooks : 2 * (hooks.length + 2 : Int) ≤ greatestInteger) : start.Founded := by
  obtain ⟨⟨subscribed⟩, hbus, rfl⟩ := exists_of_fresh hstart
  obtain rfl : subscribed = subscriptions hooks := subscriptions_eq_of_foldlM hbus
  have hlength : (subscriptions hooks).length ≤ hooks.length + 2 := by
    have hle := List.length_filterMap_le
      (fun (hook, position) ↦ subscriptionOf hook position) hooks.zipIdx
    rw [List.length_zipIdx] at hle
    exact Nat.succ_le_succ (Nat.succ_le_succ hle)
  refine ⟨⟨⟨hbound, fun eventType ↦ ?_⟩, fun kind ↦ ?_⟩, fun _ _ hrun ↦ ?_, nofun⟩
  · have hle := Bus.length_recipients_le ⟨subscriptions hooks⟩ eventType
    change (((⟨subscriptions hooks⟩ : Bus Observer).recipients eventType).length : Int) ≤ _
    simp only at hle
    omega
  · change ((⟨subscriptions hooks⟩ : Bus Observer).recipients kind.type).count .recorder = 1
    rw [Bus.recipients, List.count_append, count_recorder, count_recorder,
      if_neg kind.everyEvent_ne_type, if_pos rfl]
  · simp at hrun

end Runner

end TapeRunner
