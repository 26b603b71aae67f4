import TapeRunner.Bus.Rehearsal
import TapeRunner.Proofs.Journal

/-!
# Publishing to handlers that take part

What a handler does may depend on everything that is on the stage, and what it does next on how its
last cue came out. `Reaction` is the tree of these decisions, and `Stage.react` calls a handler that
reacts so, with calls inside calls down to a depth. The handlers that follow rules are among them
(`Stage.callHandler_eq_react`).

A publication lists its handlers once, before it calls any of them, and calls those listed one after
the other, each on the stage that the one before it has left, until one of them ends in an error
(`Stage.exists_turns`). What is called during a turn, publications inside it included, is recorded
between its call and the next one (`Stage.exists_nested`). Together: a publication is the dispatch
of a snapshot (`Stage.publish_dispatches`).
-/

set_option autoImplicit false
set_option relaxedAutoImplicit false

namespace TapeRunner.BusRehearsal

open Activity

/-! ### Reactions -/

/-- What a handler does with a call: nothing more, an error of its own, or a cue, whose outcome and
the stage after it decide what comes next. -/
inductive Reaction
  | rest
  | raise (error : Error)
  | give (cue : Cue) (next : Except Error Reply → Stage → Reaction)

namespace Reaction

/-- Carries out a reaction; `call` is what calling a handler does. -/
def perform (call : Call → Activity Stage Unit) : Reaction → Activity Stage Unit
  | rest => pure ()
  | raise error => fail error
  | give cue next => do
    let outcome ← caught (Stage.perform call cue)
    let stage ← get
    perform call (next outcome stage)

/-- Gives cues in turn, up to the first that raises an error, which is passed on. -/
def inTurn : List Cue → Reaction
  | [] => rest
  | cue :: later => give cue fun outcome _ ↦
    match outcome with
    | .ok _ => inTurn later
    | .error error => raise error

end Reaction

/-- How the handlers of a cast react: at a call that is listed in a rule, with the cues of the
rule. -/
def Cast.react (cast : Cast) (call : Call) (stage : Stage) : Reaction :=
  let number := (stage.heard.toList.filter (·.handler = call.handler)).length
  .inTurn (((cast.lookup call.handler).getD []).flatMap fun rule ↦
    if number ∈ rule.calls then rule.cues else [])

namespace Stage

/-- Calls a handler that reacts by what is on the stage, its own call among it. Its cues may call
handlers again, down to a depth. -/
def react (reaction : Call → Stage → Reaction) : Nat → Call → Activity Stage Unit
  | 0, _ => giveUp
  | depth + 1, call => do
    modify fun stage ↦ { stage with heard := stage.heard.push call }
    let stage ← get
    (reaction call stage).perform (react reaction depth)

/-! ### Handlers that follow rules -/

/-- Cues in turn are carried out one after the other. -/
theorem perform_inTurn (call : Call → Activity Stage Unit) (cues : List Cue) :
    (Reaction.inTurn cues).perform call = cues.forM (fun cue ↦ do
      let _ ← perform call cue) := by
  induction cues with
  | nil => rfl
  | cons cue later ih =>
    -- An error that is caught and passed on ends the reaction as it ends the cue.
    have hcue : (Reaction.inTurn (cue :: later)).perform call =
        perform call cue >>= fun _ ↦ (Reaction.inTurn later).perform call := by
      funext stage
      change runFrom (caught (perform call cue) >>= _) stage = runFrom (_ >>= _) stage
      rw [runFrom_bind, runFrom_bind, runFrom_caught_eq]
      rcases runFrom (perform call cue) stage with ⟨halt | reply, last⟩
      · cases halt <;> rfl
      · rfl
    rw [hcue, ih]
    simp only [List.forM_eq_forM, List.forM_cons, bind_assoc, pure_bind]

/-- Handlers that follow rules are handlers that react. -/
theorem callHandler_eq_react (cast : Cast) (depth : Nat) :
    callHandler cast depth = react cast.react depth := by
  induction depth with
  | zero => rfl
  | succ depth ih =>
    have hrules (call : Call) (number : Nat) (rules : List Rule) :
        (rules.forM fun rule ↦ if number ∈ rule.calls then rule.cues.forM (fun cue ↦ do
            let _ ← perform (react cast.react depth) cue) else pure ()) =
          (Reaction.inTurn (rules.flatMap fun rule ↦
            if number ∈ rule.calls then rule.cues else [])).perform (react cast.react depth) := by
      rw [perform_inTurn]
      simp only [List.forM_eq_forM]
      induction rules with
      | nil => rfl
      | cons rule later ihRules =>
        rw [List.forM_cons, List.flatMap_cons, List.forM_append, ihRules]
        split <;> rfl
    funext call
    simp only [callHandler, react, Cast.react, ih, ← hrules call]

/-! ### What a turn records -/

/-- The calls recorded so far stay the first ones, whatever a reaction does. -/
def Keeping (base : List Call) (stage : Stage) : Prop := base <+: stage.heard.toList

variable {base : List Call}

theorem preserves_log (level : Level) (event : String) (fields : Fields) :
    Preserves (Keeping base) (log level event fields) := by
  refine Keeps.get_bind fun stage hbase ↦ ?_
  split
  · exact hbase
  · exact hbase

theorem preserves_perform {call : Call → Activity Stage Unit}
    (hcall : ∀ called, Preserves (Keeping base) (call called)) (cue : Cue) :
    Preserves (Keeping base) (perform call cue) := by
  cases cue with
  | subscribe eventType handler =>
    refine Keeps.get_bind fun stage hbase ↦ ?_
    split
    · exact hbase
    · rw [Yields, ends_bind, ends_set]
      exact Keeps.bind (preserves_log _ _ _) (fun _ ↦ Keeps.pure _) _ hbase
  | unsubscribe subscription =>
    refine Keeps.get_bind fun stage hbase ↦ ?_
    split
    · exact hbase
    · exact hbase
  | publish eventType sequence =>
    refine Keeps.get_bind fun stage hbase ↦ ?_
    refine Yields.bind (preserves_log _ _ _ stage hbase) fun _ middle hmiddle ↦ ?_
    refine Yields.bind (Keeps.forM _ (fun _ _ ↦ hcall _) middle hmiddle) fun _ last hlast ↦ ?_
    exact hlast
  | subscribers eventType => exact Keeps.get_bind fun stage hbase ↦ hbase
  | raise message => exact Preserves.fail _

theorem preserves_reaction {call : Call → Activity Stage Unit}
    (hcall : ∀ called, Preserves (Keeping base) (call called)) (reaction : Reaction) :
    Preserves (Keeping base) (reaction.perform call) := by
  induction reaction with
  | rest => exact Keeps.pure ()
  | raise error => exact Preserves.fail error
  | give cue next ih =>
    refine Keeps.bind (preserves_perform hcall cue).caught fun outcome ↦ ?_
    exact Keeps.get_bind fun stage hstage ↦ ih outcome stage stage hstage

/-- The induction is on how deep calls may be inside calls. -/
theorem preserves_react (reaction : Call → Stage → Reaction) (depth : Nat) (call : Call) :
    Preserves (Keeping base) (react reaction depth call) := by
  induction depth generalizing call with
  | zero => exact fun _ hbase ↦ hbase
  | succ depth ih =>
    refine Keeps.bind (Keeps.modify fun stage hbase ↦ ?_) fun _ ↦ ?_
    · rw [Keeping, Array.toList_push]
      exact hbase.trans (List.prefix_append _ _)
    · exact Keeps.get_bind fun stage hstage ↦ preserves_reaction ih _ stage hstage

/-- A turn records the call of its handler first, and behind it what is called meanwhile. -/
theorem exists_nested (reaction : Call → Stage → Reaction) (depth : Nat) (call : Call)
    (stage : Stage) :
    ∃ nested, (runFrom (react reaction (depth + 1) call) stage).2.heard.toList =
      stage.heard.toList ++ call :: nested := by
  have hkeeps : Yields (fun _ ↦ Keeping (stage.heard.toList ++ [call]))
      (react reaction (depth + 1) call) stage fun _ ↦
        Keeping (stage.heard.toList ++ [call]) := by
    rw [react, Yields, ends_bind, ends_modify]
    refine Keeps.get_bind (fun next hnext ↦ ?_) _ ?_
    · exact preserves_reaction (preserves_react reaction depth) _ next hnext
    · simp only [Keeping, Array.toList_push, List.prefix_rfl]
  obtain ⟨nested, hnested⟩ := hkeeps.last
  exact ⟨nested, by rw [← hnested, List.append_assoc, List.singleton_append]⟩

end Stage

/-! ### Turns -/

/-- The turn of a handler in a dispatch: its call, the stages before and after, how the call ended,
and the calls that were begun inside it. -/
structure Turn where
  call : Call
  before : Stage
  ended : Except Halt Unit
  after : Stage
  nested : List Call

/-- Turns follow one another from one stage to another: each begins on the stage that the one before
it has left. -/
def Consecutive : Stage → List Turn → Stage → Prop
  | first, [], last => last = first
  | first, turn :: later, last => turn.before = first ∧ Consecutive turn.after later last

/-- A dispatch of the calls listed, where `call` is what calling a handler does. The turns taken are
those of the calls listed, in order, and follow one another; each call is recorded, and behind it
what is called during the turn, before the next one. If the dispatch ends regularly, every call
listed has had its turn and all turns ended regularly. If it ends early, the last turn ended so, all
turns before it ended regularly, and the other calls listed have no turn. -/
structure Dispatch (call : Call → Activity Stage Unit) (listed : List Call) (first : Stage)
    (outcome : Except Halt Reply) (last : Stage) (turns : List Turn) : Prop where
  consecutive : Consecutive first turns last
  ran : ∀ turn ∈ turns, runFrom (call turn.call) turn.before = (turn.ended, turn.after)
  recorded : ∀ turn ∈ turns,
    turn.after.heard.toList = turn.before.heard.toList ++ turn.call :: turn.nested
  record : last.heard.toList =
    first.heard.toList ++ turns.flatMap fun turn ↦ turn.call :: turn.nested
  taken : match outcome with
    | .ok _ => turns.map (·.call) = listed ∧ ∀ turn ∈ turns, turn.ended = .ok ()
    | .error halt => ∃ earlier final spared, turns = earlier ++ [final] ∧
        turns.map (·.call) ++ spared = listed ∧ (∀ turn ∈ earlier, turn.ended = .ok ()) ∧
        final.ended = .error halt

namespace Dispatch

variable {call : Call → Activity Stage Unit} {called : Call} {listed nested : List Call}
variable {first middle last : Stage} {outcome : Except Halt Reply} {turns : List Turn}

/-- Nothing is listed. -/
theorem nil (call : Call → Activity Stage Unit) (first : Stage) (reply : Reply) :
    Dispatch call [] first (.ok reply) first [] where
  consecutive := rfl
  ran := fun _ hnone ↦ absurd hnone List.not_mem_nil
  recorded := fun _ hnone ↦ absurd hnone List.not_mem_nil
  record := (List.append_nil _).symm
  taken := ⟨rfl, fun _ hnone ↦ absurd hnone List.not_mem_nil⟩

/-- A turn that ends early is the last one. -/
theorem of_error {halt : Halt} (hran : runFrom (call called) first = (.error halt, last))
    (hnested : last.heard.toList = first.heard.toList ++ called :: nested)
    (listed : List Call) :
    Dispatch call (called :: listed) first (.error halt) last
      [⟨called, first, .error halt, last, nested⟩] where
  consecutive := ⟨rfl, rfl⟩
  ran := List.forall_mem_singleton.mpr hran
  recorded := List.forall_mem_singleton.mpr hnested
  record := by simpa using hnested
  taken := ⟨[], _, listed, rfl, rfl, fun _ hnone ↦ absurd hnone List.not_mem_nil, rfl⟩

/-- A turn that ends regularly comes before the turns of the other calls listed. -/
theorem cons (hran : runFrom (call called) first = (.ok (), middle))
    (hnested : middle.heard.toList = first.heard.toList ++ called :: nested)
    (hlater : Dispatch call listed middle outcome last turns) :
    Dispatch call (called :: listed) first outcome last
      (⟨called, first, .ok (), middle, nested⟩ :: turns) where
  consecutive := ⟨rfl, hlater.consecutive⟩
  ran := List.forall_mem_cons.mpr ⟨hran, hlater.ran⟩
  recorded := List.forall_mem_cons.mpr ⟨hnested, hlater.recorded⟩
  record := by
    rw [hlater.record, hnested, List.flatMap_cons, List.append_assoc]
  taken := by
    have htaken := hlater.taken
    cases outcome with
    | ok reply =>
      obtain ⟨hcalls, hregular⟩ := htaken
      exact ⟨congrArg (called :: ·) hcalls, List.forall_mem_cons.mpr ⟨rfl, hregular⟩⟩
    | error halt =>
      obtain ⟨earlier, final, spared, rfl, hcalls, hregular, hfinal⟩ := htaken
      exact ⟨_ :: earlier, final, spared, rfl, congrArg (called :: ·) hcalls,
        List.forall_mem_cons.mpr ⟨rfl, hregular⟩, hfinal⟩

end Dispatch

namespace Stage

/-- Calls in turn are a dispatch of the calls listed. The induction is on those that remain. -/
theorem exists_turns (reaction : Call → Stage → Reaction) (depth : Nat) (listed : List Call)
    (reply : Reply) (first : Stage) :
    let ended := runFrom (do listed.forM (react reaction (depth + 1)); return reply) first
    ∃ turns, Dispatch (react reaction (depth + 1)) listed first ended.1 ended.2 turns := by
  induction listed generalizing first with
  | nil => exact ⟨[], .nil _ first reply⟩
  | cons called later ih =>
    obtain ⟨nested, hnested⟩ := exists_nested reaction depth called first
    have hsplit : (do (called :: later).forM (react reaction (depth + 1)); return reply) =
        react reaction (depth + 1) called >>= fun _ ↦ do
          later.forM (react reaction (depth + 1)); return reply := by
      simp only [List.forM_eq_forM, List.forM_cons, bind_assoc]
    rw [hsplit, runFrom_bind]
    cases hran : runFrom (react reaction (depth + 1) called) first with
    | mk ended middle =>
      rw [hran] at hnested
      rcases ended with halt | _
      · exact ⟨_, .of_error hran hnested later⟩
      · obtain ⟨turns, hturns⟩ := ih middle
        exact ⟨_, .cons hran hnested hturns⟩

/-- A publication is the dispatch of a snapshot. Whatever the handlers do when they are called, and
however deep they publish, the handlers called are those subscribed to the type when the publication
begins and then those subscribed to every event, in the order of subscription, a handler once for
each of its subscriptions. Only the line of the publication comes before the first of them. -/
theorem publish_dispatches (reaction : Call → Stage → Reaction) (depth : Nat) (eventType : String)
    (sequence : Int) {stage : Stage} (hbound : stage.journal.context.Plain)
    (hcount : ((stage.bus.recipients eventType).length : Int) ≤ greatestInteger) :
    let listed := stage.bus.subscribersFor eventType ++ stage.bus.subscribersFor everyEvent
    let ended := runFrom (perform (react reaction (depth + 1)) (.publish eventType sequence)) stage
    ∃ lines turns, Dispatch (react reaction (depth + 1))
      (listed.map fun handler ↦ ⟨handler, eventType, sequence⟩)
      { stage with journal := { stage.journal with lines } } ended.1 ended.2 turns := by
  intro listed ended
  have hplain : Fields.Plain [("event_type", .text eventType),
      ("handlers", .ofNat (stage.bus.recipients eventType).length)] :=
    Fields.plain_cons (by decide) trivial
      (Fields.plain_cons (by decide) (Value.simple_ofNat hcount) Fields.plain_nil)
  obtain ⟨lines, hwrite⟩ := Journal.write_of_plain hbound .debug "bus.publish" hplain
  have hlog : runFrom (log .debug "bus.publish" [("event_type", .text eventType),
      ("handlers", .ofNat (stage.bus.recipients eventType).length)]) stage =
        (.ok (), { stage with journal := { stage.journal with lines } }) := by
    rw [log, runFrom_bind, runFrom_get]
    simp only [hwrite]
    rfl
  have hended : ended = runFrom
      (do (listed.map fun handler ↦ ⟨handler, eventType, sequence⟩).forM
            (react reaction (depth + 1))
          return .nothing)
      { stage with journal := { stage.journal with lines } } := by
    simp only [ended, perform, runFrom_bind, runFrom_get, hlog, List.forM_eq_forM, List.forM_map]
    rfl
  obtain ⟨turns, hturns⟩ := exists_turns reaction depth
    (listed.map fun handler ↦ ⟨handler, eventType, sequence⟩) .nothing
    { stage with journal := { stage.journal with lines } }
  rw [← hended] at hturns
  exact ⟨lines, turns, hturns⟩

/-- Two handlers of a type and two of every event, and one of another type. -/
def crowd : Stage :=
  let subscriptions : List (Subscription String) :=
    [⟨"x", "a"⟩, ⟨"x", "b"⟩, ⟨"y", "n"⟩, ⟨everyEvent, "c"⟩, ⟨everyEvent, "e"⟩]
  ⟨⟨subscriptions⟩, subscriptions.toArray, #[], .initial⟩

/-- The first handler ends the subscription of the second, makes one more and publishes an event of
the other type; a handler of every event raises at its second call. -/
def meddlers : Cast :=
  [("a", [⟨[1], [.unsubscribe 1, .subscribe "x" "d", .publish "y" 2]⟩]),
    ("c", [⟨[2], [.raise "no"]⟩])]

/-- The second handler is called all the same, after the publication inside the turn of the first;
the handler that subscribed too late is not, nor is the last one once the one before it has
raised. -/
theorem publish_dispatches_meddlers :
    let ended := runFrom (perform (callHandler meddlers 4) (.publish "x" 1)) crowd
    ended.1 = .error (.raised (.raised "no")) ∧
      ended.2.heard.toList.map (·.handler) = ["a", "n", "c", "e", "b", "c"] ∧
      ∃ lines turns, Dispatch (callHandler meddlers 4)
        [⟨"a", "x", 1⟩, ⟨"b", "x", 1⟩, ⟨"c", "x", 1⟩, ⟨"e", "x", 1⟩]
        { crowd with journal := { crowd.journal with lines } } ended.1 ended.2 turns := by
  intro ended
  refine ⟨by rfl, by decide +kernel, ?_⟩
  have hended := publish_dispatches meddlers.react 3 "x" 1
    (show crowd.journal.context.Plain from Fields.plain_nil) (by decide)
  rw [← callHandler_eq_react] at hended
  exact hended

end Stage

end TapeRunner.BusRehearsal
