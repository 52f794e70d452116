import Indexer.Delivery.Sender
import Indexer.Simulation.Clock
import Indexer.Simulation.Reply

/-!
A delivery on a clock. The link keeps the timers that belong to the state of the delivery: the flush
interval while it runs, the rest of the sender, and the time a request may take.
-/
namespace Indexer.Simulation

structure Link where
  delivery : Delivery
  /-- The HTTP endpoint in use, unless replies are taken as they are. -/
  endpoint : Option HttpEndpoint
  flushAt : Option Float
  wakeAt : Option Float
  expireAt : Option Float
  /-- The answer that is held back, and the number of its request. -/
  held : Option (Nat × Reply)

namespace Link

/-- The link after its delivery has changed: timers that no longer belong to it are dropped, and
those that now do are set. -/
def update (clock : Float) (l : Link) (d : Delivery) : Link :=
  let s := d.settings
  { l with
    delivery := d
    flushAt :=
      if d.stage.isTimed then some (l.flushAt.getD (clock + s.flushInterval.toFloat)) else none
    wakeAt := match d.sender with
      | .pausing _ => some (l.wakeAt.getD (clock + d.restSeconds))
      | _ => none
    expireAt := match d.sender with
      | .sending _ => some (l.expireAt.getD (clock + s.requestTimeout.toFloat))
      | _ => none
    held := match d.sender with
      | .sending _ => l.held
      | _ => none }

/-- A link for a delivery without any timers yet. -/
def create (clock : Float) (d : Delivery) (endpoint : Option HttpEndpoint) : Link :=
  update clock ⟨d, endpoint, none, none, none, none⟩ d

/-- The sender hears a reply. -/
def hear (w : Surroundings) (l : Link) (reply : Reply) : Link :=
  match l.delivery.inFlight with
  | some batch => l.update w.clock (l.delivery.answer w.now (reply.result l.endpoint batch))
  | none => l

/-- The sender takes the next batch, which is answered as the script says. -/
def takeNext (w : Surroundings) (l : Link) : Surroundings × Link :=
  let l := l.update w.clock l.delivery.take
  match l.delivery.inFlight with
  | none => (w, l)
  | some _ =>
    let (reply, w) := w.nextReply
    match reply with
    | .atOnce r => (w, l.hear w r)
    | .held r => (w, { l with held := some (w.requests, r) })

/-- Closing can go on at once. When all that was flushed is settled its owner only wakes up, and a flush
timer that comes due in that instant goes first. -/
def isOwnersTurn (w : Surroundings) (l : Link) : Bool :=
  match l.delivery.stage with
  | .joined => !isDue w.clock l.flushAt
  | .leaving => true
  | .closing | .sealed | .stopping => l.delivery.isDrained
  | .idle | .running => false

/-- What the link can do at once. -/
def turn? (w : Surroundings) (l : Link) : Option (Surroundings × Link) :=
  if l.isOwnersTurn w then some (w, l.update w.clock l.delivery.proceed)
  else
    match l.delivery.stage, l.delivery.sender, l.delivery.ahead with
    | .idle, _, _ | .joined, _, _ => none
    | _, .idle, _ :: _ => some (l.takeNext w)
    | _, _, _ => none

/-- When the next timer of the link comes due. -/
def due? (l : Link) : Option Float := earlier l.flushAt (earlier l.wakeAt l.expireAt)

/-- A rest of the sender is over before the flush timer comes due. Of two timers that come due in the
same instant the one that was set first goes first, and that is the one that runs for longer. -/
def wakesFirst (l : Link) : Bool :=
  match l.wakeAt, l.flushAt with
  | some wake, some flush =>
    wake < flush || (wake == flush && l.delivery.settings.flushInterval.toFloat < l.delivery.restSeconds)
  | wake, _ => wake.isSome

/-- Lets the timer that is due come due. -/
def fire (w : Surroundings) (l : Link) : Link :=
  if isDue w.clock l.expireAt then l.update w.clock (l.delivery.expire w.now)
  else if isDue w.clock l.wakeAt && l.wakesFirst then l.update w.clock l.delivery.wake
  else if isDue w.clock l.flushAt then { l with flushAt := none }.update w.clock l.delivery.tick
  else l

/-- Gives the answer that was held back. Tells whether there was one. -/
def release (w : Surroundings) (l : Link) : Bool × Link :=
  match l.held with
  | some (_, r) => (true, l.hear w r)
  | none => (false, l)

end Link
end Indexer.Simulation
