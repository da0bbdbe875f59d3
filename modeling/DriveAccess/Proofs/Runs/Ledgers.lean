import DriveAccess.Proofs.Runs.Worlds
import Mathlib.Data.List.Induction
/-!
What sessions in memory amount to: a ledger of what has been published, as if one session after
the other had run alone.
-/
namespace DriveAccess

/-- Whether an outcome is a success. -/
def Outcome.succeeds : Outcome → Bool
  | .noSession => false
  | .begun r => r.isOk
  | .ended r => r.isOk
  | .replied _ reply => reply.isOk
  | .answered _ answer _ => answer.isOk

inductive Work
  | request (request : Request)
  | command (command : Command)

/-- Something done in a session, with what it draws from its surroundings. -/
structure Operation where
  maxDepth : Nat
  stamp : Stamp
  work : Work

namespace Operation

/-- The operation as a turn of the session by a name. -/
def within (o : Operation) (name : String) : Turn :=
  match o.work with
  | .request r => ⟨o.maxDepth, o.stamp, .request name r⟩
  | .command c => ⟨o.maxDepth, o.stamp, .commandIn name c⟩

/-- What the operation comes to in a session that nobody else is around. -/
def run (o : Operation) (tenant : Uuid) (s : Session) : Outcome × Session :=
  match o.work with
  | .request r =>
    let (answer, s) := s.perform o.stamp r
    (.replied r (answer.map r.reply), s)
  | .command c =>
    let (answer, x) := Backend.memory.runIn o.stamp (c.body ⟨tenant, o.maxDepth, o.stamp⟩)
      ⟨tenant, s⟩ {}
    (.answered c answer x.audit, x.session.session)

variable {o : Operation} {tenant : Uuid} {s : Session}

theorem run_command {maxDepth : Nat} {stamp : Stamp} {c : Command} :
    (Operation.mk maxDepth stamp (.command c)).run tenant s =
      (.answered c (s.run stamp (c.body ⟨tenant, maxDepth, stamp⟩)).1
        (Backend.memory.runIn stamp (c.body ⟨tenant, maxDepth, stamp⟩)
          ⟨tenant, s⟩ {}).2.audit,
        (s.run stamp (c.body ⟨tenant, maxDepth, stamp⟩)).2) := by
  obtain ⟨houtcome, hsession, _⟩ := Backend.runIn_memory stamp
    (c.body ⟨tenant, maxDepth, stamp⟩) ⟨tenant, s⟩ {}
  simp only [run]
  rw [houtcome, hsession]

theorem run_follows (o : Operation) (tenant : Uuid) (s : Session) :
    s.Follows (o.run tenant s).2 := by
  obtain ⟨maxDepth, stamp, work⟩ := o
  cases work with
  | request r => exact Session.perform_follows
  | command c =>
    rw [run_command]
    exact Session.run_follows

/-- Whatever changes the tables is marked for publication. -/
theorem run_dirty (h : (o.run tenant s).2.tables ≠ s.tables) : (o.run tenant s).2.dirty := by
  obtain hsame | hdirty := (run_follows o tenant s).dirty
  · rw [hsame] at h
    exact absurd rfl h
  · exact hdirty

end Operation

/-- Operations one after the other. -/
def Session.runAll (s : Session) (tenant : Uuid) (ops : List Operation) : Session :=
  ops.foldl (fun s o => (o.run tenant s).2) s

/-- A store that has published batches of operations, each run alone on what was there before. -/
def serial (tenant : Uuid) (batches : List (List Operation)) : Store :=
  batches.foldl (fun store ops => ⟨store.version + 1, (store.begin.runAll tenant ops).tables⟩) {}

/-- An open session: for whom, what it found published, and what has been done in it. -/
structure Sitting where
  tenant : Uuid
  seen : List (List Operation)
  done : List Operation

/-- The session as it is if it has been alone since it began. -/
def Sitting.alone (x : Sitting) : Session := (serial x.tenant x.seen).begin.runAll x.tenant x.done

/-- The batches that each tenant has published, in order, and the open sessions. -/
structure Ledger where
  published : Uuid → List (List Operation) := fun _ => []
  sittings : String → Option Sitting := fun _ => none

namespace Ledger

def seat (l : Ledger) (name : String) (x : Option Sitting) : Ledger :=
  { l with sittings := Function.update l.sittings name x }

def publish (l : Ledger) (tenant : Uuid) (ops : List Operation) : Ledger :=
  { l with published := Function.update l.published tenant (l.published tenant ++ [ops]) }

def add (l : Ledger) (name : String) (o : Operation) : Ledger :=
  l.seat name ((l.sittings name).map fun x => { x with done := x.done ++ [o] })

/-- Takes down a turn. A session counts as published if it ends by a commit that succeeds and it is
dirty then. -/
def note (l : Ledger) (w : MemoryWorld) (t : Turn) : Ledger :=
  let succeeds := (w.turn t).1.succeeds
  match t.event with
  | .begin tenant name => l.seat name (some ⟨tenant, l.published tenant, []⟩)
  | .rollback name | .drop name => l.seat name none
  | .request name r => l.add name ⟨t.maxDepth, t.stamp, .request r⟩
  | .commandIn name c => l.add name ⟨t.maxDepth, t.stamp, .command c⟩
  | .commit name =>
    match l.sittings name, w.session? name with
    | some x, some (_, s) =>
      (if succeeds && s.session.dirty then l.publish x.tenant x.done else l).seat name none
    | _, _ => l
  | .command tenant c =>
    let o : Operation := ⟨t.maxDepth, t.stamp, .command c⟩
    let s := (o.run tenant (w.shared.get tenant).begin).2
    if succeeds && s.dirty then l.publish tenant [o] else l

/-- Takes down turn after turn. -/
def track (l : Ledger) (w : MemoryWorld) : List Turn → Ledger
  | [] => l
  | t :: rest => (l.note w t).track (w.turn t).2 rest

def after (turns : List Turn) : Ledger := track {} World.start turns

end Ledger

end DriveAccess
