import Indexer.Store

/-!
The crawl state in its database. An update that is written is in the table at once, before it is known
whether those behind it can be written. The transaction around a commit makes up for that: when a write
fails, the table goes back to what it was when the transaction began.
-/
namespace Indexer

/-- The table of the crawl state as its only connection sees it. -/
structure Database where
  store : Store
  /-- What the table goes back to if the transaction that is open fails. -/
  saved : Option Store

namespace Database

/-- A table without rows. -/
def empty : Database := ⟨.empty, none⟩

/-- What the table goes back to if the next write fails. -/
def origin (d : Database) : Store := d.saved.getD d.store

/-- Replaces the table. The first time this opens a transaction. -/
def replace (d : Database) (s : Store) : Database := ⟨s, some d.origin⟩

/-- Writes updates one after the other until one cannot be written, and counts them on. -/
def write (now : Float) : Nat → Database → List StateUpdate → Database × Except Fault Nat
  | applied, d, [] => (d, .ok applied)
  | applied, d, u :: updates =>
    match d.store.apply now u with
    | .ok s => write now (applied + 1) (d.replace s) updates
    | .error f => (d, .error f)

/-- Ends the transaction; what it wrote stays. -/
def complete (d : Database) : Database := ⟨d.store, none⟩

/-- Ends the transaction; what it wrote is undone. -/
def rollBack (d : Database) : Database := ⟨d.origin, none⟩

/-- Writes a list of updates in one transaction, and tells how many there were. -/
def commit (d : Database) (now : DateTime) (updates : List StateUpdate) :
    Database × Except Fault Nat :=
  match now.toSeconds with
  | .error e => (d, .error (.time e))
  | .ok seconds =>
    match d.write seconds 0 updates with
    | (d, .ok applied) => (d.complete, .ok applied)
    | (d, .error f) => (d.rollBack, .error f)

end Database
end Indexer
