import TapeRunner.Error

/-!
# The event bus

Who hears an event: the handlers subscribed to its type, then those subscribed to every event, each
group in the order of subscription. A handler subscribed twice hears twice.
-/

set_option autoImplicit false
set_option relaxedAutoImplicit false

namespace TapeRunner

/-- The type whose subscribers hear every event. -/
def everyEvent : String := "*"

/-- A handler and the type of the events it hears. -/
structure Subscription (Handler : Type) where
  eventType : String
  handler : Handler
deriving DecidableEq

/-- The subscriptions in force, in the order in which they were made. -/
structure Bus (Handler : Type) where
  subscriptions : List (Subscription Handler)
deriving DecidableEq

namespace Bus

variable {Handler : Type}

/-- Nobody listens. -/
def empty : Bus Handler := ⟨[]⟩

/-- The handlers subscribed to exactly this type, in the order of subscription. -/
def subscribersFor (bus : Bus Handler) (eventType : String) : List Handler :=
  (bus.subscriptions.filter (·.eventType = eventType)).map (·.handler)

/-- Adds a subscription behind all others; the type has to be named. -/
def subscribe (bus : Bus Handler) (subscription : Subscription Handler) :
    Except Error (Bus Handler) :=
  if subscription.eventType = "" then .error .eventType
  else .ok ⟨bus.subscriptions ++ [subscription]⟩

/-- A new subscription is the last of its type and unseen by the others. -/
theorem subscribersFor_subscribe (bus next : Bus Handler) (subscription : Subscription Handler)
    (accepted : bus.subscribe subscription = .ok next) (eventType : String) :
    next.subscribersFor eventType = bus.subscribersFor eventType ++
      if subscription.eventType = eventType then [subscription.handler] else [] := by
  unfold subscribe at accepted
  split at accepted
  · contradiction
  · cases accepted
    simp only [subscribersFor, List.filter_append, List.map_append]
    split <;> simp_all

/-- Removes the first subscription of this handler to this type, if there is one. -/
def unsubscribe [DecidableEq Handler] (bus : Bus Handler) (subscription : Subscription Handler) :
    Bus Handler :=
  ⟨bus.subscriptions.erase subscription⟩

/-- The handlers that hear an event of a type, in the order in which they hear it. -/
def recipients (bus : Bus Handler) (eventType : String) : List Handler :=
  bus.subscribersFor eventType ++ bus.subscribersFor everyEvent

end Bus

end TapeRunner
