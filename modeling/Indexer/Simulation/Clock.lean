/-!
Virtual time. A simulation moves by turns that take no time, and by timers that come due. Turns go
first: the clock moves only when nothing else can happen, and then exactly to the next timer.
-/
namespace Indexer.Simulation

/-- Something that is simulated. -/
structure Machine (σ : Type) where
  /-- Seconds since the start. -/
  clock : σ → Float
  setClock : Float → σ → σ
  /-- Something that can happen at once. -/
  turn? : σ → Option σ
  /-- When the next timer comes due. -/
  due? : σ → Option Float
  /-- Lets the next timer come due. -/
  fire : σ → σ

namespace Machine

variable {σ : Type} (m : Machine σ)

/-- A simulation that goes on for longer than this many turns is taken to go on for ever. -/
def patience : Nat := 10000000

/-- What happens next without the clock moving, if anything does. -/
def act? (s : σ) : Option σ :=
  match m.turn? s with
  | some t => some t
  | none =>
    match m.due? s with
    | some due => if due ≤ m.clock s then some (m.fire s) else none
    | none => none

/-- Runs until nothing can happen without the clock moving. -/
def settleFor : Nat → σ → σ
  | 0, s => s
  | fuel + 1, s =>
    match m.act? s with
    | some t => settleFor fuel t
    | none => s

/-- Runs up to and including an instant. -/
def advanceFor (target : Float) : Nat → σ → σ
  | 0, s => s
  | fuel + 1, s =>
    match m.act? s with
    | some t => advanceFor target fuel t
    | none =>
      match m.due? s with
      | some due =>
        if due ≤ target then advanceFor target fuel (m.setClock due s) else m.setClock target s
      | none => m.setClock target s

/-- Runs until something is done, and lets the clock move as needed. -/
def awaitFor (done : σ → Bool) : Nat → σ → σ
  | 0, s => s
  | fuel + 1, s =>
    if done s then s
    else
      match m.act? s with
      | some t => awaitFor done fuel t
      | none =>
        match m.due? s with
        | some due => awaitFor done fuel (m.setClock due s)
        | none => s

def settle (s : σ) : σ := m.settleFor patience s

def advance (seconds : Float) (s : σ) : σ := m.advanceFor (m.clock s + seconds) patience s

def await (done : σ → Bool) (s : σ) : σ := m.awaitFor done patience s

end Machine

/-- The earlier of two instants. -/
def earlier : Option Float → Option Float → Option Float
  | some a, some b => some (if b < a then b else a)
  | some a, none => some a
  | none, b => b

/-- The instant is there. -/
def isDue (clock : Float) (instant : Option Float) : Bool :=
  match instant with
  | some t => t ≤ clock
  | none => false

end Indexer.Simulation
