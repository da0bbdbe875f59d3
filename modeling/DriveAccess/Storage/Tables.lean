import DriveAccess.Storage.Request
/-!
One tenant's data held in memory, and what each request reads from it or makes of it.
-/
namespace DriveAccess

/-- Inserts behind the elements whose key is not greater. -/
def insertBy {α κ : Type} (le : κ → κ → Bool) (key : α → κ) (a : α) : List α → List α
  | [] => [a]
  | b :: rest => if le (key b) (key a) then b :: insertBy le key a rest else a :: b :: rest

/-- Sorts by a key; elements of equal key keep their order. -/
def sortBy {α κ : Type} (le : κ → κ → Bool) (key : α → κ) (xs : List α) : List α :=
  xs.foldl (fun sorted a => insertBy le key a sorted) []

/-- Lists in the order in which requests return their elements. -/
structure Tables where
  relationships : List Relationship := []
  grants : List Grant := []
  folders : List Folder := []
  pathRecords : List PathRecord := []
  membershipRecords : List MembershipRecord := []
deriving DecidableEq

namespace Tables

def tuples (t : Tables) : List Tuple := t.relationships.map (·.tuple)

def paths (t : Tables) : List FolderPath := t.pathRecords.map (·.path)

def memberships (t : Tables) : List Membership := t.membershipRecords.map (·.membership)

/-- The row of a new tuple, under an identifier that no other tuple has. -/
def newRow (t : Tables) (stamp : Stamp) (tuple : Tuple) : Relationship :=
  ⟨stamp.id.unused (t.relationships.map (·.id)), tuple, stamp.time⟩

def addTuple (t : Tables) (stamp : Stamp) (tuple : Tuple) : Tables :=
  { t with relationships := t.relationships ++ [t.newRow stamp tuple] }

def relationshipsWhere (t : Tables) (f : TupleFilter) : List Relationship :=
  t.relationships.filter fun r => f.selects r.tuple

def tuplesWhere (t : Tables) (f : TupleFilter) : List Tuple :=
  (t.relationshipsWhere f).map (·.tuple)

/-- Takes away the tuples that are not to be kept. -/
def keepTuples (t : Tables) (keep : Tuple → Bool) : Tables :=
  { t with relationships := t.relationships.filter fun r => keep r.tuple }

def removeTuples (t : Tables) (f : TupleFilter) : Tables := t.keepTuples (!f.selects ·)

def parentOf (t : Tables) (o : Object) : Option Subject :=
  (t.tuplesWhere ((TupleFilter.ofObject o).withRelation .parent)).head?.map (·.subject)

def subjectsOf (t : Tables) (r : Relation) (o : Object) : List Subject :=
  (t.tuplesWhere ((TupleFilter.ofObject o).withRelation r)).map (·.subject)

def objectsOf (t : Tables) (s : Subject) (r : Relation) : List Object :=
  (t.tuplesWhere ((TupleFilter.ofSubject s).withRelation r)).map (·.object)

def grantsFor (t : Tables) (r : Resource) : List Grant :=
  sortBy (fun a b => decide (a ≤ b)) (·.grantedAt) (t.grants.filter (·.resource == r))

def grantsTo (t : Tables) (r : Resource) (kind : GranteeKind) (grantees : List Uuid) :
    List Grant :=
  t.grants.filter fun g =>
    g.resource == r && g.grantee.kind == kind && grantees.contains g.grantee.id

def folder? (t : Tables) (id : Uuid) : Option Folder := t.folders.find? (·.id == id)

/-- Shallow folders first, older ones first among folders of one depth. -/
def folderOrder (a b : Nat × Instant) : Bool :=
  decide (a.1 < b.1) || (a.1 == b.1 && decide (a.2 ≤ b.2))

def foldersInOrder (t : Tables) : List Folder :=
  sortBy folderOrder (fun f => (f.depth, f.createdAt)) t.folders

def updateFolder (t : Tables) (id : Uuid) (f : Folder → Folder) : Tables :=
  { t with folders := t.folders.map fun x => if x.id == id then f x else x }

/-- Rows nearest first. -/
def byLength (rows : List PathRecord) : List PathRecord :=
  sortBy (fun a b => decide (a ≤ b)) (·.path.length) rows

def recordsTo (t : Tables) (folder : Uuid) : List PathRecord :=
  byLength (t.pathRecords.filter (·.path.descendant == folder))

def recordsFrom (t : Tables) (folder : Uuid) : List PathRecord :=
  byLength (t.pathRecords.filter (·.path.ancestor == folder))

def pathsTo (t : Tables) (folder : Uuid) : List FolderPath := (t.recordsTo folder).map (·.path)

def pathsFrom (t : Tables) (folder : Uuid) : List FolderPath :=
  (t.recordsFrom folder).map (·.path)

def ancestorsOf (t : Tables) (folder : Uuid) : List Uuid :=
  ((t.pathsTo folder).filter (!·.isSelf)).map (·.ancestor)

def descendantsOf (t : Tables) (folder : Uuid) : List Uuid :=
  (t.pathsFrom folder).map (·.descendant)

/-- The first row of a batch whose key is stored already or comes earlier in the batch. -/
def firstClash (stored : List (Uuid × Uuid)) : List FolderPath → Option FolderPath
  | [] => none
  | p :: rest =>
    if stored.contains (p.ancestor, p.descendant) then some p
    else firstClash ((p.ancestor, p.descendant) :: stored) rest

def clashingPath? (t : Tables) (batch : List FolderPath) : Option FolderPath :=
  firstClash (t.paths.map fun p => (p.ancestor, p.descendant)) batch

def addPaths (t : Tables) (now : Instant) (batch : List FolderPath) : Tables :=
  { t with pathRecords := t.pathRecords ++ batch.map (⟨·, now⟩) }

/-- Takes away the closure rows that are not to be kept. -/
def keepPaths (t : Tables) (keep : FolderPath → Bool) : Tables :=
  { t with pathRecords := t.pathRecords.filter fun r => keep r.path }

def removeSubtreePaths (t : Tables) (folder : Uuid) : Tables :=
  let below := t.descendantsOf folder
  t.keepPaths fun p => !below.contains p.descendant

def removePathsTouching (t : Tables) (folder : Uuid) : Tables :=
  t.keepPaths fun p => p.descendant != folder && p.ancestor != folder

/-- Cuts a subtree off from the ancestors outside it and links it to those of the new parent. -/
def moveSubtree (t : Tables) (now : Instant) (folder : Uuid) (newParentPaths : List FolderPath) :
    Tables :=
  let below := t.descendantsOf folder
  let rest := t.keepPaths fun p => !below.contains p.descendant || below.contains p.ancestor
  rest.addPaths now (attachPaths (t.pathsFrom folder) newParentPaths)

def setDepths (t : Tables) (now : Instant) (depths : List (Uuid × Nat)) : Tables :=
  depths.foldl
    (fun t (id, depth) => t.updateFolder id ({ · with depth, updatedAt := now })) t

def addMembership (t : Tables) (now : Instant) (m : Membership) : Tables :=
  { t with membershipRecords := t.membershipRecords ++ [⟨m, now⟩] }

def removeMembership (t : Tables) (group user : Uuid) : Tables :=
  { t with
    membershipRecords := t.membershipRecords.filter fun m =>
      !(m.membership.group == group && m.membership.user == user) }

end Tables

end DriveAccess
