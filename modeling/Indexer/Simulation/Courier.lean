import Indexer.Simulation.Link

/-!
A single delivery in virtual time, with everything its owner can do to it.
-/
namespace Indexer.Simulation

structure Courier where
  surroundings : Surroundings
  link : Link

namespace Courier

def delivery (c : Courier) : Delivery := c.link.delivery

/-- A delivery that has not started, over an endpoint that follows a script. -/
def create (settings : Settings) (now : DateTime) (script : List Scripted) : Courier :=
  ⟨⟨0.0, now, script, 0⟩, .create 0.0 (.create settings .empty) none⟩

/-- The courier as a machine. -/
def machine : Machine Courier where
  clock c := c.surroundings.clock
  setClock t c := { c with surroundings := { c.surroundings with clock := t } }
  turn? c := (c.link.turn? c.surroundings).map fun (w, l) => ⟨w, l⟩
  due? c := c.link.due?
  fire c := { c with link := c.link.fire c.surroundings }

/-- Changes the time of day. -/
def setNow (c : Courier) (now : DateTime) : Courier :=
  { c with surroundings := { c.surroundings with now } }

/-- Changes the delivery. -/
def alter (c : Courier) (f : Delivery → Delivery) : Courier :=
  { c with link := c.link.update c.surroundings.clock (f c.delivery) }

/-- Changes the delivery and passes on what comes of it. -/
def alterWith {α : Type} (c : Courier) (f : Delivery → Delivery × Except Fault α) :
    Courier × Except Fault α :=
  let (d, r) := f c.delivery
  (c.alter fun _ => d, r)

def start (c : Courier) : Courier := c.alter Delivery.start

def settle (c : Courier) : Courier := machine.settle c

def advance (c : Courier) (seconds : Float) : Courier := machine.advance seconds c

/-- Lets time pass until the delivery is over. -/
def finish (c : Courier) : Courier := machine.await (·.delivery.stage = .idle) c

/-- Closes the delivery and waits for it. A run that was given up ends in its fault. -/
def close (c : Courier) : Courier × Except Fault Unit :=
  match c.delivery.stage with
  | .idle => (c, .ok ())
  | _ =>
    let c := (c.alter Delivery.close).finish
    (c, c.delivery.closed)

def abort (c : Courier) : Courier := (c.alter Delivery.abort).finish

/-- Releases an answer that is held back, and lets what follows happen. -/
def release (c : Courier) : Courier × Bool :=
  let (released, link) := c.link.release c.surroundings
  (settle { c with link }, released)

/-- Starts to close the delivery and cancels that before the clock has moved. -/
def cancelClose (c : Courier) : Courier × Except Fault Unit :=
  match c.delivery.stage with
  | .idle => (c.settle, .ok ())
  | _ =>
    let c := (c.alter Delivery.close).settle
    match c.delivery.stage with
    | .idle => (c, c.delivery.closed)
    | _ =>
      let c := (c.alter Delivery.abort).settle
      (c.release.1.finish, .error .cancelled)

/-- Leaves a block of work: closes the delivery, or gives it up if the work failed. -/
def leave (c : Courier) (work : Except Fault Unit) : Courier × Except Fault Unit :=
  match work with
  | .ok () => c.close
  | .error f => (c.abort, .error f)

end Courier
end Indexer.Simulation
