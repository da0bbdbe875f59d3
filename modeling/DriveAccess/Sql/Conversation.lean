import DriveAccess.Dialogue
import DriveAccess.Sql.Schema
import DriveAccess.Storage.Request
/-!
Requests carried out by a database server: which statements are sent, and what is made of the
results.
-/
namespace DriveAccess

structure Results where
  rows : List Row := []
  affected : Nat := 0
deriving DecidableEq

abbrev Conversation := Dialogue Statement (fun _ => Results) StorageError

namespace Conversation

variable {α β : Type}

def send (s : Statement) : Conversation Results := .query s

def execute (s : Statement) : Conversation Nat := do
  return (← send s).affected

def readRow (read : Row → Except RowFault α) (row : Row) : Except StorageError α :=
  (read row).mapError fun fault => .internal fault.message

/-- All rows are read before the first of them is checked. -/
def fetchAll (read : Row → Except RowFault α) (check : α → Except StorageError β)
    (s : Statement) : Conversation (List β) := do
  let results ← send s
  let columns ← Dialogue.ofExcept (results.rows.mapM (readRow read))
  Dialogue.ofExcept (columns.mapM check)

/-- The first row, if there is one. -/
def fetchOptional (read : Row → Except RowFault α) (check : α → Except StorageError β)
    (s : Statement) : Conversation (Option β) := do
  match (← send s).rows with
  | [] => return none
  | row :: _ =>
    let columns ← Dialogue.ofExcept (readRow read row)
    return some (← Dialogue.ofExcept (check columns))

def rowNotFound : String :=
  "no rows returned by a query that expected to return at least one row"

/-- A query that always has one row, with one truth value in it. -/
def fetchBool (s : Statement) : Conversation Bool := do
  match (← send s).rows with
  | [] => .fail (.internal rowNotFound)
  | row :: _ => Dialogue.ofExcept (readRow (·.bool 0) row)

def fetchRelationships (schema : String) (f : TupleFilter) : Conversation (List Relationship) :=
  fetchAll Relationship.Columns.read Relationship.Columns.check (.selectRelationships schema f)

def fetchGrants (s : Statement) : Conversation (List Grant) :=
  fetchAll Grant.Columns.read Grant.Columns.check s

def fetchPaths (s : Statement) : Conversation (List PathRecord) :=
  fetchAll PathRecord.Columns.read PathRecord.Columns.check s

def fetchMemberships (s : Statement) : Conversation (List MembershipRecord) :=
  fetchAll MembershipRecord.Columns.read MembershipRecord.Columns.check s

/-- A filter without fields would select everything; nothing is sent for it. -/
def deleteTuples (schema : String) (f : TupleFilter) : Conversation Nat :=
  if f.isEmpty then .fail .emptyDeleteFilter else execute (.deleteRelationships schema f)

def insertTuple (schema : String) (stamp : Stamp) (t : Tuple) : Conversation Relationship := do
  let row : Relationship := ⟨stamp.id, t, stamp.time⟩
  let _ ← execute (.insertRelationship schema row)
  return row

/-- Nothing is sent for an empty batch. -/
def insertPaths (schema : String) (now : Instant) (batch : List FolderPath) :
    Conversation Unit := do
  if batch.isEmpty then
    return
  let _ ← execute (.insertPaths schema (batch.map (⟨·, now⟩)))

/-- An update that must find a row. -/
def updateFolder (id : Uuid) (s : Statement) : Conversation Unit := do
  if (← execute s) = 0 then
    .fail (.notFound (.folder id))

end Conversation

open Conversation in
/-- The conversation that carries out a request. The stamp is for the row that it may insert. -/
def Request.conversation (schema : String) (stamp : Stamp) :
    (r : Request) → Conversation r.Answer
  | .createRelationship t => insertTuple schema stamp t
  | .deleteRelationship t => do
    return decide (0 < (← deleteTuples schema (.exact t)))
  | .relationshipExists t => fetchBool (.relationshipExists schema t)
  | .findRelationships f => fetchRelationships schema f
  | .deleteRelationships f => deleteTuples schema f
  | .findParent o => do
    let rows ← fetchRelationships schema ((TupleFilter.ofObject o).withRelation .parent)
    return rows.head?.map (·.tuple.subject)
  | .findSubjects r o => do
    let rows ← fetchRelationships schema ((TupleFilter.ofObject o).withRelation r)
    return rows.map (·.tuple.subject)
  | .findObjects s r => do
    let rows ← fetchRelationships schema ((TupleFilter.ofSubject s).withRelation r)
    return rows.map (·.tuple.object)
  | .findByObject o => fetchRelationships schema (.ofObject o)
  | .findBySubject s => fetchRelationships schema (.ofSubject s)
  | .deleteByObject o => deleteTuples schema (.ofObject o)
  | .deleteBySubject s => deleteTuples schema (.ofSubject s)
  | .replaceOwner o user => do
    let removed ← deleteTuples schema ((TupleFilter.ofObject o).withRelation .owner)
    if removed = 0 then
      .fail (.notFound (.relationOf .owner o))
    else
      insertTuple schema stamp (.owner user o)
  | .setParent child parent => do
    let _ ← deleteTuples schema ((TupleFilter.ofObject child).withRelation .parent)
    match parent with
    | none => return
    | some p =>
      let _ ← insertTuple schema stamp (.parent p child)
  | .createGrant g => do
    let _ ← execute (.insertGrant schema g)
  | .findGrant id =>
    fetchOptional Grant.Columns.read Grant.Columns.check (.selectGrant schema id)
  | .findGrantsFor r => fetchGrants (.selectGrantsFor schema r)
  | .findGrants r kind grantees =>
    if grantees.isEmpty then return [] else fetchGrants (.selectGrants schema r kind grantees)
  | .grantExists r g role => fetchBool (.grantExists schema r g role)
  | .deleteGrant id => do
    return decide (0 < (← execute (.deleteGrant schema id)))
  | .deleteGrantsFor r => execute (.deleteGrantsFor schema r)
  | .insertSelfPath f => Conversation.insertPaths schema stamp.time [.self f]
  | .insertPaths batch => Conversation.insertPaths schema stamp.time batch
  | .findAncestors f => do
    let paths ← fetchPaths (.selectPathsTo schema f)
    return (paths.filter (!·.path.isSelf)).map (·.path.ancestor)
  | .findDescendants f => do
    let paths ← fetchPaths (.selectPathsFrom schema f)
    return paths.map (·.path.descendant)
  | .findAncestorPaths f => fetchPaths (.selectPathsTo schema f)
  | .findSubtree f => fetchPaths (.selectPathsFrom schema f)
  | .deleteSubtreePaths f => execute (.deleteSubtreePaths schema f)
  | .deletePathsTouching f => execute (.deletePathsTouching schema f)
  | .moveSubtree f newParentPaths => do
    let subtree ← fetchPaths (.selectPathsFrom schema f)
    if subtree.isEmpty then
      .fail (.notFound (.closureRows f))
    else
      let _ ← execute (.detachSubtree schema f)
      Conversation.insertPaths schema stamp.time
        (attachPaths (subtree.map (·.path)) newParentPaths)
  | .lockHierarchy => do
    let _ ← execute (.lockHierarchy schema)
  | .listPaths => fetchPaths (.selectPaths schema)
  | .createFolder f => do
    let _ ← execute (.insertFolder schema f)
  | .findFolder id =>
    fetchOptional Folder.Columns.read Folder.Columns.check (.selectFolder schema id)
  | .setFolderParent id parent => Conversation.updateFolder id (.setFolderParent schema id parent)
  | .setFolderOwner id owner => Conversation.updateFolder id (.setFolderOwner schema id owner)
  | .setFolderDepths depths => do
    let updated ← execute (.setFolderDepths schema depths)
    if updated = depths.length then
      return
    else
      .fail (.notFound (.folders (depths.length - updated) depths.length))
  | .deleteFolders ids => execute (.deleteFolders schema ids)
  | .listFolders => fetchAll Folder.Columns.read Folder.Columns.check (.selectFolders schema)
  | .addMembership m => do
    let _ ← execute (.insertMembership schema ⟨m, stamp.time⟩)
  | .removeMembership group user => do
    return decide (0 < (← execute (.deleteMembership schema group user)))
  | .findMembershipsOf user => fetchMemberships (.selectMembershipsOf schema user)
  | .findMembersOf group => fetchMemberships (.selectMembersOf schema group)

/-- Creates the tables of a tenant, one statement after the other. -/
def createSchema (schema : String) : Conversation Unit := do
  Dialogue.ofExcept (validateSchemaName schema)
  (Statement.createSchema schema).forM fun s => do
    let _ ← Conversation.execute s

/-- Enters a tenant in the register and creates its tables. -/
def provisionTenant (tenant : Uuid) (name : String) : Conversation Unit := do
  let _ ← Conversation.execute (.insertTenant tenant name)
  createSchema (schemaName tenant)

/-- Creates the register of tenants. -/
def createRegister : Conversation Unit := do
  let _ ← Conversation.execute .createTenants

end DriveAccess
