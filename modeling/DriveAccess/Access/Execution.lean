import DriveAccess.Access.Command
import DriveAccess.Storage.Backend
/-!
Commands carried out on a place that keeps data: within an open session, or in a session of their
own that is committed if the command succeeds.
-/
namespace DriveAccess

variable {σ S α : Type}

/-- A session at work: what sessions share, the session itself, and the events on record. -/
structure Working (σ S : Type) where
  shared : σ
  session : S
  audit : List AuditEvent

/-- The outcome of a command, what sessions share afterwards, and the events put on record. -/
structure Result (σ α : Type) where
  outcome : Except AccessError α
  shared : σ
  audit : List AuditEvent

namespace Backend

variable (b : Backend σ S)

/-- One request: what commands see of its answer, or its error, reported as told. -/
def serve (stamp : Stamp) (toError : StorageError → AccessError) (r : Request)
    (w : Working σ S) : Except AccessError r.Reply × Working σ S :=
  let (answer, session, shared) := b.perform stamp r w.session w.shared
  ((answer.map r.reply).mapError toError, { w with session, shared })

def act (stamp : Stamp) : Dialogue.Answerer Action Action.Reply AccessError (Working σ S)
  | .store r, w => b.serve stamp .ofStorage r w
  | .look l, w =>
    let (reply, w) := b.serve stamp (fun e => .resolve (.storage e.message)) l.request w
    (reply.map l.read, w)
  | .record e, w => (.ok (), { w with audit := w.audit ++ [e] })

/-- Runs a program in an open session. -/
def runIn (stamp : Stamp) (p : Program α) (session : S) (shared : σ) :
    Except AccessError α × Working σ S :=
  p.run (b.act stamp) ⟨shared, session, []⟩

/-- Commits after a success and rolls back after a failure. The error of a rollback is dropped in
favour of the one that caused it. -/
def finish (outcome : Except AccessError α) (w : Working σ S) : Result σ α :=
  match outcome with
  | .ok a =>
    let (committed, shared) := b.commit w.session w.shared
    match committed with
    | .ok () => ⟨.ok a, shared, w.audit⟩
    | .error e => ⟨.error (.ofStorage e), shared, w.audit⟩
  | .error e => ⟨.error e, (b.rollback w.session w.shared).2, w.audit⟩

/-- Runs a program in a session of its own. -/
def execute (c : Context) (p : Program α) (shared : σ) : Result σ α :=
  match b.begin c.tenant shared with
  | (.error e, shared) => ⟨.error (.ofStorage e), shared, []⟩
  | (.ok session, shared) =>
    let (outcome, w) := b.runIn c.stamp p session shared
    b.finish outcome w

end Backend

/-- A place together with the sessions open on it, known by name. -/
structure World (σ S : Type) where
  shared : σ
  sessions : List (String × Uuid × S) := []

namespace World

variable (b : Backend σ S)

def session? (w : World σ S) (name : String) : Option (Uuid × S) := w.sessions.lookup name

/-- Forgets a session without ending it. -/
def forget (w : World σ S) (name : String) : World σ S :=
  { w with sessions := w.sessions.filter (·.1 != name) }

/-- Puts a session in place of the one by its name. -/
def keep (w : World σ S) (name : String) (tenant : Uuid) (session : S) : World σ S :=
  { w with sessions := (name, tenant, session) :: w.sessions.filter (·.1 != name) }

def drop (w : World σ S) (name : String) : World σ S :=
  match w.session? name with
  | none => w
  | some (_, session) => { w.forget name with shared := b.drop session w.shared }

/-- Opens a session under a name. The one that had it is dropped once the new one is open. -/
def begin (w : World σ S) (tenant : Uuid) (name : String) :
    Except AccessError Unit × World σ S :=
  match b.begin tenant w.shared with
  | (.ok session, shared) =>
    (.ok (), ({ w with shared }.drop b name).keep name tenant session)
  | (.error e, shared) => (.error (.ofStorage e), { w with shared })

end World

/-- What can happen on a place: sessions open and end, requests and commands run in them, and
commands run in sessions of their own. -/
inductive Event
  | begin (tenant : Uuid) (name : String)
  | commit (name : String)
  | rollback (name : String)
  | drop (name : String)
  | request (name : String) (request : Request)
  | commandIn (name : String) (command : Command)
  | command (tenant : Uuid) (command : Command)

inductive Outcome
  | noSession
  | begun (result : Except AccessError Unit)
  | ended (result : Except StorageError Unit)
  | replied (request : Request) (reply : Except StorageError request.Reply)
  | answered (command : Command) (answer : Except AccessError command.Answer)
      (audit : List AuditEvent)

namespace World

variable (b : Backend σ S) (maxDepth : Nat) (stamp : Stamp)

/-- What an event does within an open session. -/
def stepIn (w : World σ S) (name : String) (tenant : Uuid) (session : S) :
    Event → Outcome × World σ S
  | .commit _ =>
    let (r, shared) := b.commit session w.shared
    (.ended r, { w.forget name with shared })
  | .rollback _ =>
    let (r, shared) := b.rollback session w.shared
    (.ended r, { w.forget name with shared })
  | .request _ r =>
    let (answer, session, shared) := b.perform stamp r session w.shared
    (.replied r (answer.map r.reply), { w with shared }.keep name tenant session)
  | .commandIn _ c =>
    let (answer, x) :=
      b.runIn stamp (c.body ⟨tenant, maxDepth, stamp⟩) session w.shared
    (.answered c answer x.audit, { w with shared := x.shared }.keep name tenant x.session)
  | _ => (.ended (.ok ()), w.drop b name)

def step (w : World σ S) (e : Event) : Outcome × World σ S :=
  match e with
  | .begin tenant name =>
    let (r, w) := w.begin b tenant name
    (.begun r, w)
  | .command tenant c =>
    let r := b.execute ⟨tenant, maxDepth, stamp⟩ (c.body ⟨tenant, maxDepth, stamp⟩) w.shared
    (.answered c r.outcome r.audit, { w with shared := r.shared })
  | .commit name | .rollback name | .drop name | .request name _ | .commandIn name _ =>
    match w.session? name with
    | none => (.noSession, w)
    | some (tenant, session) => w.stepIn b maxDepth stamp name tenant session e

end World

end DriveAccess
