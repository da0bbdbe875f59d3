import DriveAccess.Storage.Tables
/-!
Sessions on data in memory: each works on a copy of its own and publishes it on commit, unless
another session has published in the meantime.
-/
namespace DriveAccess

/-- What is published, and how often something has been published. -/
structure Store where
  version : Nat := 0
  tables : Tables := {}
deriving DecidableEq

structure Session where
  base : Nat
  tables : Tables
  /-- Whether the session has anything to publish. -/
  dirty : Bool
deriving DecidableEq

def Store.begin (s : Store) : Session := ⟨s.version, s.tables, false⟩

def Store.commit (s : Store) (session : Session) : Except StorageError Store :=
  if !session.dirty then .ok s
  else if s.version ≠ session.base then .error .serializationConflict
  else .ok ⟨s.version + 1, session.tables⟩

namespace Session

/-- Puts new tables in place. -/
def write (s : Session) (t : Tables) : Session := { s with tables := t, dirty := true }

/-- Puts new tables in place if they differ by some rows. -/
def writeIf (s : Session) (changed : Bool) (t : Tables) : Session :=
  if changed then s.write t else s

/-- Answers a removal by the number of rows it takes away. -/
def remove (s : Session) (before after : Nat) (t : Tables) : Nat × Session :=
  (before - after, s.writeIf (decide (after < before)) t)

def removeTuples (s : Session) (f : TupleFilter) : Nat × Session :=
  let t := s.tables.removeTuples f
  s.remove s.tables.relationships.length t.relationships.length t

def removeGrants (s : Session) (drop : Grant → Bool) : Nat × Session :=
  let t := { s.tables with grants := s.tables.grants.filter (!drop ·) }
  s.remove s.tables.grants.length t.grants.length t

def removePaths (s : Session) (t : Tables) : Nat × Session :=
  s.remove s.tables.pathRecords.length t.pathRecords.length t

def insertPaths (s : Session) (now : Instant) (batch : List FolderPath) :
    Except StorageError Unit × Session :=
  match s.tables.clashingPath? batch with
  | some p => (.error (.duplicate (.path p.ancestor p.descendant)), s)
  | none => (.ok (), s.writeIf (!batch.isEmpty) (s.tables.addPaths now batch))

def changeFolder (s : Session) (id : Uuid) (f : Folder → Folder) :
    Except StorageError Unit × Session :=
  match s.tables.folder? id with
  | none => (.error (.notFound (.folder id)), s)
  | some _ => (.ok (), s.write (s.tables.updateFolder id f))

/-- Carries out a request, with the time of the stamp and, for a new tuple, its identifier. A
request that fails leaves the session as it was. -/
def perform (stamp : Stamp) : (r : Request) → Session → Except StorageError r.Answer × Session
  | .createRelationship t, s =>
    if s.tables.tuples.contains t then (.error (.duplicate (.relationship t)), s)
    else if t.relation.isSingular &&
        s.tables.tuples.any (fun u => u.relation == t.relation && u.object == t.object) then
      (.error (.duplicate (.relationOf t.relation t.object)), s)
    else (.ok (s.tables.newRow stamp t), s.write (s.tables.addTuple stamp t))
  | .deleteRelationship t, s =>
    let (n, s) := s.removeTuples (.exact t)
    (.ok (decide (0 < n)), s)
  | .relationshipExists t, s => (.ok (s.tables.tuples.contains t), s)
  | .findRelationships f, s => (.ok (s.tables.relationshipsWhere f), s)
  | .deleteRelationships f, s =>
    if f.isEmpty then (.error .emptyDeleteFilter, s)
    else
      let (n, s) := s.removeTuples f
      (.ok n, s)
  | .findParent o, s => (.ok (s.tables.parentOf o), s)
  | .findSubjects r o, s => (.ok (s.tables.subjectsOf r o), s)
  | .findObjects sub r, s => (.ok (s.tables.objectsOf sub r), s)
  | .findByObject o, s => (.ok (s.tables.relationshipsWhere (.ofObject o)), s)
  | .findBySubject sub, s => (.ok (s.tables.relationshipsWhere (.ofSubject sub)), s)
  | .deleteByObject o, s =>
    let (n, s) := s.removeTuples (.ofObject o)
    (.ok n, s)
  | .deleteBySubject sub, s =>
    let (n, s) := s.removeTuples (.ofSubject sub)
    (.ok n, s)
  | .replaceOwner o user, s =>
    let (n, s) := s.removeTuples ((TupleFilter.ofObject o).withRelation .owner)
    if n = 0 then (.error (.notFound (.relationOf .owner o)), s)
    else
      let new := Tuple.owner user o
      (.ok (s.tables.newRow stamp new), s.write (s.tables.addTuple stamp new))
  | .setParent child parent, s =>
    let (_, s) := s.removeTuples ((TupleFilter.ofObject child).withRelation .parent)
    match parent with
    | none => (.ok (), s)
    | some p => (.ok (), s.write (s.tables.addTuple stamp (.parent p child)))
  | .createGrant g, s =>
    if s.tables.grants.any g.sameAssignment then
      (.error (.duplicate (.assignment g.role g.grantee g.resource)), s)
    else (.ok (), s.write { s.tables with grants := s.tables.grants ++ [g] })
  | .findGrant id, s => (.ok (s.tables.grants.find? (·.id == id)), s)
  | .findGrantsFor r, s => (.ok (s.tables.grantsFor r), s)
  | .findGrants r kind grantees, s => (.ok (s.tables.grantsTo r kind grantees), s)
  | .grantExists r grantee role, s =>
    (.ok (s.tables.grants.any fun g =>
      g.resource == r && g.grantee == grantee && g.role == role), s)
  | .deleteGrant id, s =>
    let (n, s) := s.removeGrants (·.id == id)
    (.ok (decide (0 < n)), s)
  | .deleteGrantsFor r, s =>
    let (n, s) := s.removeGrants (·.resource == r)
    (.ok n, s)
  | .insertSelfPath f, s => s.insertPaths stamp.time [.self f]
  | .insertPaths batch, s => s.insertPaths stamp.time batch
  | .findAncestors f, s => (.ok (s.tables.ancestorsOf f), s)
  | .findDescendants f, s => (.ok (s.tables.descendantsOf f), s)
  | .findAncestorPaths f, s => (.ok (s.tables.recordsTo f), s)
  | .findSubtree f, s => (.ok (s.tables.recordsFrom f), s)
  | .deleteSubtreePaths f, s =>
    let (n, s) := s.removePaths (s.tables.removeSubtreePaths f)
    (.ok n, s)
  | .deletePathsTouching f, s =>
    let (n, s) := s.removePaths (s.tables.removePathsTouching f)
    (.ok n, s)
  | .moveSubtree f newParentPaths, s =>
    if (s.tables.recordsFrom f).isEmpty then (.error (.notFound (.closureRows f)), s)
    else (.ok (), s.write (s.tables.moveSubtree stamp.time f newParentPaths))
  | .lockHierarchy, s => (.ok (), s)
  | .listPaths, s => (.ok s.tables.pathRecords, s)
  | .createFolder f, s =>
    if (s.tables.folder? f.id).isSome then (.error (.duplicate (.folder f.id)), s)
    else (.ok (), s.write { s.tables with folders := s.tables.folders ++ [f] })
  | .findFolder id, s => (.ok (s.tables.folder? id), s)
  | .setFolderParent id parent, s =>
    s.changeFolder id ({ · with parent, updatedAt := stamp.time })
  | .setFolderOwner id owner, s =>
    s.changeFolder id ({ · with owner, updatedAt := stamp.time })
  | .setFolderDepths depths, s =>
    match depths.find? fun (id, _) => (s.tables.folder? id).isNone with
    | some (missing, _) => (.error (.notFound (.folder missing)), s)
    | none => (.ok (), s.writeIf (!depths.isEmpty) (s.tables.setDepths stamp.time depths))
  | .deleteFolders ids, s =>
    let t := { s.tables with folders := s.tables.folders.filter (!ids.contains ·.id) }
    let (n, s) := s.remove s.tables.folders.length t.folders.length t
    (.ok n, s)
  | .listFolders, s => (.ok s.tables.foldersInOrder, s)
  | .addMembership m, s =>
    if s.tables.memberships.any (fun x => x.group == m.group && x.user == m.user) then
      (.error (.duplicate (.membership m.user m.group)), s)
    else (.ok (), s.write (s.tables.addMembership stamp.time m))
  | .removeMembership group user, s =>
    let t := s.tables.removeMembership group user
    let (n, s) := s.remove s.tables.membershipRecords.length t.membershipRecords.length t
    (.ok (decide (0 < n)), s)
  | .findMembershipsOf user, s =>
    (.ok (s.tables.membershipRecords.filter (·.membership.user == user)), s)
  | .findMembersOf group, s =>
    (.ok (s.tables.membershipRecords.filter (·.membership.group == group)), s)

end Session

end DriveAccess
