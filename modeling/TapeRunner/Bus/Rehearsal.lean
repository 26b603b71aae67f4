import TapeRunner.Activity
import TapeRunner.Bus
import TapeRunner.Journal

/-!
# Rehearsing the bus

A bus alone, with named handlers that follow rules: at chosen calls of its own a handler carries out
cues, which may subscribe, unsubscribe, publish again or raise. The stage keeps every call in the
order in which it began.
-/

set_option autoImplicit false
set_option relaxedAutoImplicit false

namespace TapeRunner.BusRehearsal

/-- What can be asked of the bus. Subscriptions are named by the order in which they were made. -/
inductive Cue
  | subscribe (eventType handler : String)
  | unsubscribe (subscription : Int)
  | publish (eventType : String) (sequence : Int)
  | subscribers (eventType : String)
  | raise (message : String)
deriving DecidableEq

/-- Cues for the calls listed, counted from one. -/
structure Rule where
  calls : List Nat
  cues : List Cue
deriving DecidableEq

/-- The rules of every handler. -/
abbrev Cast := List (String × List Rule)

/-- One call of a handler. -/
structure Call where
  handler : String
  eventType : String
  sequence : Int
deriving DecidableEq

/-- The bus, the subscriptions ever made on it, the calls so far, and the journal. -/
structure Stage where
  bus : Bus String
  made : Array (Subscription String)
  heard : Array Call
  journal : Journal

/-- What a cue answers. -/
inductive Reply
  | nothing
  | subscription (number : Nat)
  | handlers (names : List String)
deriving DecidableEq

namespace Stage

/-- Nobody is subscribed. -/
def empty (journal : Journal) : Stage := ⟨.empty, #[], #[], journal⟩

/-- Writes a line of the journal. -/
def log (level : Level) (event : String) (fields : Fields) : Activity Stage Unit := do
  match (← get).journal.write level event fields with
  | .ok journal => modify ({ · with journal })
  | .error error => Activity.fail error

/-- Carries out a cue; `call` is what calling a handler does. -/
def perform (call : Call → Activity Stage Unit) : Cue → Activity Stage Reply
  | .subscribe eventType handler => do
    let stage ← get
    match stage.bus.subscribe ⟨eventType, handler⟩ with
    | .error error => Activity.fail error
    | .ok bus =>
      set { stage with bus, made := stage.made.push ⟨eventType, handler⟩ }
      log .debug "bus.subscribed" [("event_type", .text eventType), ("handler", .text handler)]
      return .subscription stage.made.size
  | .unsubscribe subscription => do
    let stage ← get
    match (positionOf stage.made.size subscription).bind (stage.made[·]?) with
    | none => Activity.fail .noEntry
    | some found =>
      set { stage with bus := stage.bus.unsubscribe found }
      return .nothing
  | .publish eventType sequence => do
    let recipients := (← get).bus.recipients eventType
    log .debug "bus.publish"
      [("event_type", .text eventType), ("handlers", .ofNat recipients.length)]
    recipients.forM fun handler ↦ call ⟨handler, eventType, sequence⟩
    return .nothing
  | .subscribers eventType => do return .handlers ((← get).bus.subscribersFor eventType)
  | .raise message => Activity.fail (.raised message)

/-- Calls a handler, with calls inside calls up to a depth. -/
def callHandler (cast : Cast) : Nat → Call → Activity Stage Unit
  | 0, _ => Activity.giveUp
  | depth + 1, call => do
    modify fun stage ↦ { stage with heard := stage.heard.push call }
    let number := ((← get).heard.toList.filter (·.handler = call.handler)).length
    ((cast.lookup call.handler).getD []).forM fun rule ↦ do
      if number ∈ rule.calls then
        rule.cues.forM fun cue ↦ do
          let _ ← perform (callHandler cast depth) cue

end Stage

end TapeRunner.BusRehearsal
