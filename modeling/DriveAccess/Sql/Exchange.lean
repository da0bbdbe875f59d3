import DriveAccess.Sql.Conversation
import DriveAccess.Storage.Backend
/-!
A database server that answers statements, one after the other, from a list of replies, and keeps
a record of all that is sent to it.
-/
namespace DriveAccess

/-- A statement refused by the server. -/
structure Refusal where
  code : Option String
  text : String
deriving DecidableEq

namespace Refusal

def message (r : Refusal) : String := s!"error returned from database: {r.text}"

/-- A concurrent session was in the way: a serialization failure or a deadlock. -/
def isConflict (r : Refusal) : Bool := r.code == some "40001" || r.code == some "40P01"

def isUniqueViolation (r : Refusal) : Bool := r.code == some "23505"

def toStorage (r : Refusal) : StorageError :=
  if r.isConflict then .serializationConflict else .internal r.message

/-- What a refusal means depends on the purpose of the statement. -/
def explain (r : Refusal) : Purpose → StorageError
  | .plain => r.toStorage
  | .insert item => if r.isUniqueViolation then .duplicate item else r.toStorage
  | .define => .internal r.message

end Refusal

inductive Boundary
  | begin | commit | rollback
deriving DecidableEq

def Boundary.text : Boundary → String
  | begin => "BEGIN"
  | commit => "COMMIT"
  | rollback => "ROLLBACK"

inductive Sent
  | boundary (b : Boundary)
  | statement (s : Statement)
deriving DecidableEq

structure Exchange where
  replies : List (Except Refusal Results)
  /-- The first entry under a boundary is for the next one of its kind. -/
  boundaryRefusals : List (Boundary × Refusal) := []
  sent : List Sent := []
  /-- The identifier that the next stored row may take. -/
  spare : Uuid := .ofNat 0

namespace Exchange

/-- Once the replies have run out, a statement finds and affects nothing. -/
def submit (s : Statement) (x : Exchange) : Except Refusal Results × Exchange :=
  let x := { x with sent := x.sent ++ [Sent.statement s] }
  match x.replies with
  | [] => (.ok {}, x)
  | reply :: rest => (reply, { x with replies := rest })

def answer : Dialogue.Answerer Statement (fun _ => Results) StorageError Exchange :=
  fun s x =>
    let (reply, x) := x.submit s
    (reply.mapError (·.explain s.purpose), x)

def mark (b : Boundary) (x : Exchange) : Except Refusal Unit × Exchange :=
  let x := { x with sent := x.sent ++ [Sent.boundary b] }
  match x.boundaryRefusals.lookup b with
  | none => (.ok (), x)
  | some refusal =>
    (.error refusal,
      { x with boundaryRefusals := x.boundaryRefusals.eraseP (·.1 == b) })

/-- Ends a transaction. If that is refused, the transaction is rolled back as it is let go. -/
def finish (b : Boundary) (x : Exchange) : Except StorageError Unit × Exchange :=
  match x.mark b with
  | (.ok (), x) => (.ok (), x)
  | (.error refusal, x) => (.error refusal.toStorage, (x.mark .rollback).2)

end Exchange

/-- Tenants on a database server, each in a schema. A session is a transaction in the schema of its
tenant. -/
def Backend.databaseIn (schemaOf : Uuid → String) : Backend Exchange String where
  begin tenant x :=
    match x.mark .begin with
    | (.ok (), x) => (.ok (schemaOf tenant), x)
    | (.error refusal, x) => (.error refusal.toStorage, x)
  perform stamp r schema x :=
    let row : Stamp := ⟨x.spare, stamp.time⟩
    let (answer, x) :=
      (r.conversation schema row).run Exchange.answer { x with spare := x.spare.next }
    (answer, schema, x)
  commit _ x := x.finish .commit
  rollback _ x := x.finish .rollback
  drop _ x := (x.mark .rollback).2

/-- Tenants on a database server, each in the schema named after it. -/
def Backend.database : Backend Exchange String := databaseIn schemaName

end DriveAccess
