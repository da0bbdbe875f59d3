import DriveAccess.Proofs.Dialogues
import DriveAccess.Sql.Conversation
/-!
The statements that requests send.
-/
namespace DriveAccess

/-- The statements on the tables of a schema. None of them deletes all tuples. -/
inductive Statement.On (schema : String) : Statement → Prop
  | insertRelationship (r : Relationship) : On schema (insertRelationship schema r)
  | relationshipExists (t : Tuple) : On schema (relationshipExists schema t)
  | selectRelationships (f : TupleFilter) : On schema (selectRelationships schema f)
  | deleteRelationships (f : TupleFilter) (h : f.isEmpty = false) :
    On schema (deleteRelationships schema f)
  | insertGrant (g : Grant) : On schema (insertGrant schema g)
  | selectGrant (id : Uuid) : On schema (selectGrant schema id)
  | selectGrantsFor (r : Resource) : On schema (selectGrantsFor schema r)
  | selectGrants (r : Resource) (kind : GranteeKind) (grantees : List Uuid) :
    On schema (selectGrants schema r kind grantees)
  | grantExists (r : Resource) (g : Grantee) (role : Role) : On schema (grantExists schema r g role)
  | deleteGrant (id : Uuid) : On schema (deleteGrant schema id)
  | deleteGrantsFor (r : Resource) : On schema (deleteGrantsFor schema r)
  | insertPaths (ps : List PathRecord) : On schema (insertPaths schema ps)
  | selectPathsTo (folder : Uuid) : On schema (selectPathsTo schema folder)
  | selectPathsFrom (folder : Uuid) : On schema (selectPathsFrom schema folder)
  | selectPaths : On schema (selectPaths schema)
  | deleteSubtreePaths (folder : Uuid) : On schema (deleteSubtreePaths schema folder)
  | deletePathsTouching (folder : Uuid) : On schema (deletePathsTouching schema folder)
  | detachSubtree (folder : Uuid) : On schema (detachSubtree schema folder)
  | lockHierarchy : On schema (lockHierarchy schema)
  | insertFolder (f : Folder) : On schema (insertFolder schema f)
  | selectFolder (id : Uuid) : On schema (selectFolder schema id)
  | selectFolders : On schema (selectFolders schema)
  | setFolderParent (id : Uuid) (parent : Option Uuid) :
    On schema (setFolderParent schema id parent)
  | setFolderOwner (id owner : Uuid) : On schema (setFolderOwner schema id owner)
  | setFolderDepths (depths : List (Uuid × Nat)) : On schema (setFolderDepths schema depths)
  | deleteFolders (ids : List Uuid) : On schema (deleteFolders schema ids)
  | insertMembership (m : MembershipRecord) : On schema (insertMembership schema m)
  | deleteMembership (group user : Uuid) : On schema (deleteMembership schema group user)
  | selectMembershipsOf (user : Uuid) : On schema (selectMembershipsOf schema user)
  | selectMembersOf (group : Uuid) : On schema (selectMembersOf schema group)

variable {α β : Type} {schema : String} {s : Statement} {P : Statement → Prop}

namespace Conversation

open Dialogue

theorem asks_ofExcept (x : Except StorageError α) :
    (Dialogue.ofExcept x : Conversation α).Asks P := by
  cases x <;> trivial

theorem asks_execute (h : P s) : (execute s).Asks P :=
  (asks_query (q := s) h).bind fun _ => asks_pure _

theorem asks_fetchAll (read : Row → Except RowFault α) (check : α → Except StorageError β)
    (h : P s) : (fetchAll read check s).Asks P :=
  (asks_query (q := s) h).bind fun _ => (asks_ofExcept _).bind fun _ => asks_ofExcept _

theorem asks_fetchOptional (read : Row → Except RowFault α) (check : α → Except StorageError β)
    (h : P s) : (fetchOptional read check s).Asks P := by
  refine (asks_query (q := s) h).bind fun results => ?_
  cases results.rows with
  | nil => exact asks_pure _
  | cons row rest =>
    exact (asks_ofExcept _).bind fun _ => (asks_ofExcept _).bind fun _ => asks_pure _

theorem asks_fetchBool (h : P s) : (fetchBool s).Asks P := by
  refine (asks_query (q := s) h).bind fun results => ?_
  cases results.rows with
  | nil => exact asks_fail _
  | cons row rest => exact asks_ofExcept _

theorem asks_fetchRelationships (f : TupleFilter) (h : P (.selectRelationships schema f)) :
    (fetchRelationships schema f).Asks P :=
  asks_fetchAll _ _ h

theorem asks_fetchPaths (h : P s) : (fetchPaths s).Asks P := asks_fetchAll _ _ h

theorem asks_fetchMemberships (h : P s) : (fetchMemberships s).Asks P := asks_fetchAll _ _ h

theorem asks_deleteTuples (f : TupleFilter)
    (h : f.isEmpty = false → P (.deleteRelationships schema f)) :
    (deleteTuples schema f).Asks P := by
  rw [deleteTuples]
  split
  · exact asks_fail _
  · rename_i hfields
    exact asks_execute (h (Bool.eq_false_iff.mpr hfields))

theorem asks_insertTuple {stamp : Stamp} {t : Tuple}
    (h : P (.insertRelationship schema ⟨stamp.id, t, stamp.time⟩)) :
    (insertTuple schema stamp t).Asks P :=
  (asks_execute h).bind fun _ => asks_pure _

theorem asks_insertPaths {now : Instant} {batch : List FolderPath}
    (h : P (.insertPaths schema (batch.map (⟨·, now⟩)))) :
    (Conversation.insertPaths schema now batch).Asks P := by
  rw [Conversation.insertPaths]
  split
  · exact asks_pure _
  · exact (asks_execute h).bind fun _ => asks_pure _

theorem asks_updateFolder {id : Uuid} (h : P s) : (updateFolder id s).Asks P := by
  refine (asks_execute h).bind fun n => ?_
  split
  · exact asks_fail _
  · exact asks_pure _

end Conversation

open Dialogue Conversation in
theorem Request.asks_on (r : Request) (schema : String) (stamp : Stamp) :
    (r.conversation schema stamp).Asks (Statement.On schema) := by
  cases r with
  | createRelationship t => exact asks_insertTuple (.insertRelationship _)
  | deleteRelationship t =>
    exact (asks_deleteTuples _ (.deleteRelationships _)).bind fun _ => asks_pure _
  | relationshipExists t => exact asks_fetchBool (.relationshipExists t)
  | findRelationships f => exact asks_fetchRelationships f (.selectRelationships f)
  | deleteRelationships f => exact asks_deleteTuples f (.deleteRelationships f)
  | findParent o =>
    exact (asks_fetchRelationships _ (.selectRelationships _)).bind fun _ => asks_pure _
  | findSubjects r o =>
    exact (asks_fetchRelationships _ (.selectRelationships _)).bind fun _ => asks_pure _
  | findObjects s r =>
    exact (asks_fetchRelationships _ (.selectRelationships _)).bind fun _ => asks_pure _
  | findByObject o => exact asks_fetchRelationships _ (.selectRelationships _)
  | findBySubject s => exact asks_fetchRelationships _ (.selectRelationships _)
  | deleteByObject o => exact asks_deleteTuples _ (.deleteRelationships _)
  | deleteBySubject s => exact asks_deleteTuples _ (.deleteRelationships _)
  | replaceOwner o user =>
    refine (asks_deleteTuples _ (.deleteRelationships _)).bind fun removed => ?_
    split
    · exact asks_fail _
    · exact asks_insertTuple (.insertRelationship _)
  | setParent child parent =>
    refine (asks_deleteTuples _ (.deleteRelationships _)).bind fun _ => ?_
    cases parent with
    | none => exact asks_pure _
    | some p => exact (asks_insertTuple (.insertRelationship _)).bind fun _ => asks_pure _
  | createGrant g => exact (asks_execute (.insertGrant g)).bind fun _ => asks_pure _
  | findGrant id => exact asks_fetchOptional _ _ (.selectGrant id)
  | findGrantsFor r => exact asks_fetchAll _ _ (.selectGrantsFor r)
  | findGrants r kind grantees =>
    rw [conversation]
    split
    · exact asks_pure _
    · exact asks_fetchAll _ _ (.selectGrants r kind grantees)
  | grantExists r g role => exact asks_fetchBool (.grantExists r g role)
  | deleteGrant id => exact (asks_execute (.deleteGrant id)).bind fun _ => asks_pure _
  | deleteGrantsFor r => exact asks_execute (.deleteGrantsFor r)
  | insertSelfPath f => exact asks_insertPaths (.insertPaths _)
  | insertPaths batch => exact asks_insertPaths (.insertPaths _)
  | findAncestors f => exact (asks_fetchPaths (.selectPathsTo f)).bind fun _ => asks_pure _
  | findDescendants f => exact (asks_fetchPaths (.selectPathsFrom f)).bind fun _ => asks_pure _
  | findAncestorPaths f => exact asks_fetchPaths (.selectPathsTo f)
  | findSubtree f => exact asks_fetchPaths (.selectPathsFrom f)
  | deleteSubtreePaths f => exact asks_execute (.deleteSubtreePaths f)
  | deletePathsTouching f => exact asks_execute (.deletePathsTouching f)
  | moveSubtree f newParentPaths =>
    refine (asks_fetchPaths (.selectPathsFrom f)).bind fun subtree => ?_
    split
    · exact asks_fail _
    · exact (asks_execute (.detachSubtree f)).bind fun _ => asks_insertPaths (.insertPaths _)
  | lockHierarchy => exact (asks_execute .lockHierarchy).bind fun _ => asks_pure _
  | listPaths => exact asks_fetchPaths .selectPaths
  | createFolder f => exact (asks_execute (.insertFolder f)).bind fun _ => asks_pure _
  | findFolder id => exact asks_fetchOptional _ _ (.selectFolder id)
  | setFolderParent id parent => exact asks_updateFolder (.setFolderParent id parent)
  | setFolderOwner id owner => exact asks_updateFolder (.setFolderOwner id owner)
  | setFolderDepths depths =>
    refine (asks_execute (.setFolderDepths depths)).bind fun updated => ?_
    split
    · exact asks_pure _
    · exact asks_fail _
  | deleteFolders ids => exact asks_execute (.deleteFolders ids)
  | listFolders => exact asks_fetchAll _ _ .selectFolders
  | addMembership m => exact (asks_execute (.insertMembership _)).bind fun _ => asks_pure _
  | removeMembership group user =>
    exact (asks_execute (.deleteMembership group user)).bind fun _ => asks_pure _
  | findMembershipsOf user => exact asks_fetchMemberships (.selectMembershipsOf user)
  | findMembersOf group => exact asks_fetchMemberships (.selectMembersOf group)

end DriveAccess
