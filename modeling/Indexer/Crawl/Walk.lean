import Indexer.Crawl.Plan
import Indexer.Crawl.Summary
import Indexer.Delivery.Sender

/-!
Walking through the plan of a crawl. The walker hands operations to a delivery, closes it when the
plan is done, and gives it up when something fails on the way; the crawl is over once the delivery
has come to rest. Only a walker that is cancelled while it waits for the sender to stop leaves at
once, and the sender with it.
-/
namespace Indexer.Crawl

/-- How far the crawl of a root has come. -/
inductive Phase where
  | walking
  /-- The workers hash or extract. -/
  | waiting
  /-- All operations are handed over. -/
  | closing
  /-- The crawl is given up; the delivery is waited for. -/
  | stopping (f : Fault)
  | ended (r : Except Fault Unit)

/-- The walker of a crawl. -/
structure Walk where
  /-- The steps to come. -/
  plan : List Step
  phase : Phase
  scanned : Nat
  unchanged : Nat
  skipped : Nat
  log : List LogRecord

namespace Walk

/-- The walker at the start of a plan. -/
def start (plan : List Step) : Walk := ⟨plan, .walking, 0, 0, 0, []⟩

/-- Gives up the crawl. -/
def giveUp (w : Walk) (d : Delivery) (f : Fault) : Walk × Delivery :=
  ({ w with phase := .stopping f }, d.abort)

/-- Takes one step of the plan. -/
def take (w : Walk) (d : Delivery) : Step → Walk × Delivery
  | .note r => ({ w with log := w.log ++ [r] }, d)
  | .scanned => ({ w with scanned := w.scanned + 1 }, d)
  | .unchanged => ({ w with unchanged := w.unchanged + 1 }, d)
  | .skipped => ({ w with skipped := w.skipped + 1 }, d)
  | .wait => ({ w with phase := .waiting }, d)
  | .fail f => w.giveUp d f
  | .submit op =>
    match d.add op with
    | (d, .ok ()) => (w, d)
    | (d, .error f) => w.giveUp d f

/-- The walker can go on by itself. -/
def isReady (w : Walk) (d : Delivery) : Bool :=
  match w.phase with
  | .walking => true
  | .closing | .stopping _ => d.stage = .idle
  | .waiting | .ended _ => false

/-- Goes on by one step, if the walker can. -/
def advance (w : Walk) (d : Delivery) : Walk × Delivery :=
  if w.isReady d then
    match w.phase, w.plan with
    | .walking, [] => ({ w with phase := .closing }, d.close)
    | .walking, step :: rest => { w with plan := rest }.take d step
    | .closing, _ => ({ w with phase := .ended d.closed }, d)
    | .stopping f, _ => ({ w with phase := .ended (.error f) }, d)
    | _, _ => (w, d)
  else (w, d)

/-- The workers are done. -/
def arrive (w : Walk) : Walk :=
  match w.phase with
  | .waiting => { w with phase := .walking }
  | _ => w

/-- How a crawl ends that is cancelled while closing waits for the sender to stop. The delivery is to be
given up then, which fails as long as the stop mark is in the queue: a mark has no length. -/
def brokenOff (d : Delivery) : Fault :=
  if d.isDrained then .cancelled else .type "object of type 'NoneType' has no len()"

/-- The crawl is cancelled from outside. In the turn in which the flush timer is stopped, that goes
unnoticed. -/
def cancel (w : Walk) (d : Delivery) : Walk × Delivery :=
  match w.phase, d.stage with
  | .ended _, _ | .closing, .leaving => (w, d)
  | .closing, .sealed => ({ w with phase := .ended (.error (brokenOff d)) }, d.abort.abandon)
  | .stopping _, _ => ({ w with phase := .ended (.error .cancelled) }, d.abandon)
  | _, _ => w.giveUp d .cancelled

/-- The summary of the crawl. -/
def summary (w : Walk) (d : Delivery) : Summary where
  scanned := w.scanned
  unchanged := w.unchanged
  skipped := w.skipped
  tally := d.coordinator.tally
  seconds := .number (.float 0.0)

end Walk
end Indexer.Crawl
