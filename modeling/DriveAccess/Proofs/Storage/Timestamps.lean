import DriveAccess.Proofs.Storage.Rows
import DriveAccess.Proofs.Storage.Sessions
/-!
Timestamps: which requests look at them, and that all others do the same on tables that differ in
timestamps alone.
-/
namespace DriveAccess

def Folder.timeless (f : Folder) : Folder := { f with createdAt := 0, updatedAt := 0 }

def Grant.timeless (g : Grant) : Grant := { g with grantedAt := 0 }

def Relationship.timeless (r : Relationship) : Relationship := { r with createdAt := 0 }

def PathRecord.timeless (r : PathRecord) : PathRecord := { r with createdAt := 0 }

def MembershipRecord.timeless (r : MembershipRecord) : MembershipRecord := { r with joinedAt := 0 }

def Tables.timeless (t : Tables) : Tables where
  relationships := t.relationships.map Relationship.timeless
  grants := t.grants.map Grant.timeless
  folders := t.folders.map Folder.timeless
  pathRecords := t.pathRecords.map PathRecord.timeless
  membershipRecords := t.membershipRecords.map MembershipRecord.timeless

/-- The same identifier at another time. -/
abbrev Stamp.withTime (stamp : Stamp) (time : Instant) : Stamp := { stamp with time }

abbrev Stamp.timeless (stamp : Stamp) : Stamp := stamp.withTime 0

namespace Request

/-- A reply without the timestamps in it. -/
def timeless {T P M : Type} : (r : Request) → r.AnswerIn T P M → r.AnswerIn T P M
  | findFolder _, f => f.map Folder.timeless
  | listFolders, fs => fs.map Folder.timeless
  | findGrant _, g => g.map Grant.timeless
  | findGrantsFor _, gs | findGrants _ _ _, gs => gs.map Grant.timeless
  | _, reply => reply

/-- An answer without the timestamps in it. -/
def undate (r : Request) (answer : r.Answer) : r.Answer :=
  r.timeless (r.mapRows Relationship.timeless PathRecord.timeless MembershipRecord.timeless answer)

/-- Rows are handed on without their timestamps. -/
theorem reply_undate (r : Request) (answer : r.Answer) :
    r.reply (r.undate answer) = r.timeless (r.reply answer) := by
  cases r <;> first | rfl | exact List.map_map

/-- Requests that hand over a timestamp or ask for an order of time. -/
def timed : Request → Bool
  | createFolder _ | createGrant _ | listFolders | findGrantsFor _ => true
  | _ => false

/-- Requests that have to do with timestamps. -/
def dated : Request → Bool
  | findFolder _ | findGrant _ | findGrants _ _ _ => true
  | r => r.timed

theorem timed_of_not_dated {r : Request} (h : r.dated = false) : r.timed = false := by
  cases r <;> first | rfl | cases h

theorem timeless_of_not_dated {r : Request} (h : r.dated = false) (a : r.Reply) :
    r.timeless a = a := by
  cases r <;> first | rfl | cases h

end Request

/-- Folders that differ in timestamps alone. -/
theorem Folder.eq_of_timeless {f g : Folder} (h : f.timeless = g.timeless) :
    f = { g with createdAt := f.createdAt, updatedAt := f.updatedAt } := by
  cases f
  cases g
  simp only [timeless, mk.injEq, and_true] at h
  simp [h]

theorem Grant.eq_of_timeless {g k : Grant} (h : g.timeless = k.timeless) :
    g = { k with grantedAt := g.grantedAt } := by
  cases g
  cases k
  simp only [timeless, mk.injEq, and_true] at h
  simp [h]

theorem sortBy_map {α β κ : Type} (le : κ → κ → Bool) (key : β → κ) (f : α → β) (xs : List α) :
    sortBy le key (xs.map f) = (sortBy le (fun a => key (f a)) xs).map f := by
  have hinsert (a : α) (ys : List α) : insertBy le key (f a) (ys.map f) =
      (insertBy le (fun a => key (f a)) a ys).map f := by
    induction ys with
    | nil => rfl
    | cons b rest ih =>
      rw [List.map_cons, insertBy, insertBy, ih]
      split <;> rfl
  have grow (sorted : List α) :
      (xs.map f).foldl (fun sorted a => insertBy le key a sorted) (sorted.map f) =
        (xs.foldl (fun sorted a => insertBy le (fun a => key (f a)) a sorted) sorted).map f := by
    induction xs generalizing sorted with
    | nil => rfl
    | cons a xs ih => rw [List.map_cons, List.foldl_cons, hinsert, ih, List.foldl_cons]
  exact grow []

namespace Tables

variable {t : Tables} {id : Uuid} {now : Instant} {stamp : Stamp} {u : Tuple} {f : TupleFilter}
  {m : Membership} {batch : List FolderPath}

@[simp] theorem length_relationships_timeless :
    t.timeless.relationships.length = t.relationships.length := List.length_map _

@[simp] theorem length_pathRecords_timeless :
    t.timeless.pathRecords.length = t.pathRecords.length := List.length_map _

@[simp] theorem length_membershipRecords_timeless :
    t.timeless.membershipRecords.length = t.membershipRecords.length := List.length_map _

@[simp] theorem tuples_timeless : t.timeless.tuples = t.tuples := List.map_map

@[simp] theorem paths_timeless : t.timeless.paths = t.paths := List.map_map

@[simp] theorem memberships_timeless : t.timeless.memberships = t.memberships := List.map_map

theorem relationshipsWhere_timeless :
    t.timeless.relationshipsWhere f = (t.relationshipsWhere f).map Relationship.timeless :=
  List.filter_map

theorem tuplesWhere_timeless : t.timeless.tuplesWhere f = t.tuplesWhere f := by
  rw [tuplesWhere_eq, tuplesWhere_eq, tuples_timeless]

theorem newRow_timeless :
    t.timeless.newRow stamp.timeless u = (t.newRow stamp u).timeless := by
  rw [newRow, newRow, timeless, List.map_map]
  rfl

theorem addTuple_timeless :
    (t.addTuple stamp u).timeless = t.timeless.addTuple stamp.timeless u := by
  rw [addTuple, addTuple, newRow_timeless, timeless, List.map_append]
  rfl

theorem removeTuples_timeless : (t.removeTuples f).timeless = t.timeless.removeTuples f := by
  simp only [timeless, removeTuples, keepTuples, List.filter_map]
  rfl

theorem addPaths_timeless : (t.addPaths now batch).timeless = t.timeless.addPaths 0 batch := by
  simp only [timeless, addPaths, List.map_append, List.map_map]
  rfl

theorem recordsTo_timeless :
    t.timeless.recordsTo id = (t.recordsTo id).map PathRecord.timeless := by
  simp only [recordsTo, byLength, timeless, List.filter_map, sortBy_map]
  rfl

theorem recordsFrom_timeless :
    t.timeless.recordsFrom id = (t.recordsFrom id).map PathRecord.timeless := by
  simp only [recordsFrom, byLength, timeless, List.filter_map, sortBy_map]
  rfl

theorem pathsTo_timeless : t.timeless.pathsTo id = t.pathsTo id := by
  rw [pathsTo, recordsTo_timeless, List.map_map]
  rfl

theorem pathsFrom_timeless : t.timeless.pathsFrom id = t.pathsFrom id := by
  rw [pathsFrom, recordsFrom_timeless, List.map_map]
  rfl

theorem descendantsOf_timeless : t.timeless.descendantsOf id = t.descendantsOf id := by
  rw [descendantsOf, pathsFrom_timeless, descendantsOf]

theorem keepPaths_timeless (keep : FolderPath → Bool) :
    (t.keepPaths keep).timeless = t.timeless.keepPaths keep := by
  simp only [timeless, keepPaths, List.filter_map]
  rfl

theorem removeSubtreePaths_timeless :
    (t.removeSubtreePaths id).timeless = t.timeless.removeSubtreePaths id := by
  rw [removeSubtreePaths, removeSubtreePaths, keepPaths_timeless, descendantsOf_timeless]

theorem removePathsTouching_timeless :
    (t.removePathsTouching id).timeless = t.timeless.removePathsTouching id := keepPaths_timeless _

theorem moveSubtree_timeless :
    (t.moveSubtree now id batch).timeless = t.timeless.moveSubtree 0 id batch := by
  simp only [moveSubtree, addPaths_timeless, keepPaths_timeless, descendantsOf_timeless,
    pathsFrom_timeless]

theorem addMembership_timeless :
    (t.addMembership now m).timeless = t.timeless.addMembership 0 m := by
  simp only [timeless, addMembership, List.map_append]
  rfl

theorem removeMembership_timeless (group user : Uuid) :
    (t.removeMembership group user).timeless = t.timeless.removeMembership group user := by
  simp only [timeless, removeMembership, List.filter_map]
  rfl

@[simp] theorem folder?_timeless : t.timeless.folder? id = (t.folder? id).map Folder.timeless :=
  find?_map_id (g := Folder.timeless) (fun _ => rfl) id

theorem updateFolder_timeless {f g : Folder → Folder}
    (h : ∀ x : Folder, (f x).timeless = g x.timeless) :
    (t.updateFolder id f).timeless = t.timeless.updateFolder id g := by
  simp only [timeless, updateFolder, List.map_map, mk.injEq, and_true, true_and]
  apply List.map_congr_left
  intro x _
  have hid : x.timeless.id = x.id := rfl
  simp only [Function.comp_apply, hid, ← h, apply_ite Folder.timeless]

theorem setDepths_timeless {depths : List (Uuid × Nat)} :
    (t.setDepths now depths).timeless = t.timeless.setDepths 0 depths := by
  simp only [setDepths]
  induction depths generalizing t with
  | nil => rfl
  | cons d rest ih =>
    have hfirst : (t.updateFolder d.1 ({ · with depth := d.2, updatedAt := now })).timeless =
        t.timeless.updateFolder d.1 ({ · with depth := d.2, updatedAt := 0 }) :=
      updateFolder_timeless fun _ => rfl
    rw [List.foldl_cons, List.foldl_cons, ih, hfirst]

end Tables

namespace Session

variable {s u : Session} {r : Request}

/-- A reply and the tables after it, without timestamps. -/
def strip {α ε : Type} (f : α → α) (x : Except ε α × Session) : Except ε α × Tables :=
  (x.1.map f, x.2.tables.timeless)

/-- A reply and the tables after it. -/
def plain {α : Type} (x : α × Session) : α × Tables := (x.1, x.2.tables)

section

variable {α ε : Type} (f : α → α)

private theorem strip_ite (c : Prop) [Decidable c] (x y : Except ε α × Session) :
    strip f (if c then x else y) = if c then strip f x else strip f y := apply_ite ..

private theorem plain_ite (c : Prop) [Decidable c] (x y : α × Session) :
    plain (if c then x else y) = if c then plain x else plain y := apply_ite ..

private theorem strip_mk (x : Except ε α) : strip f (x, s) = (x.map f, s.tables.timeless) := rfl

private theorem plain_mk (a : α) : plain (a, s) = (a, s.tables) := rfl

private theorem strip_writeIf (x : Except ε α) (b : Bool) (t : Tables) :
    strip f (x, s.writeIf b t) = (x.map f, if b then t.timeless else s.tables.timeless) := by
  cases b <;> rfl

private theorem plain_writeIf (a : α) (b : Bool) (t : Tables) :
    plain (a, s.writeIf b t) = (a, if b then t else s.tables) := by
  cases b <;> rfl

end

private theorem changeFolder_timeless {id : Uuid} {f g : Folder → Folder} {a : Unit → Unit}
    (h : ∀ x : Folder, (f x).timeless = g x.timeless) :
    strip a (s.changeFolder id f) = plain ((fresh s.tables.timeless).changeFolder id g) := by
  simp only [changeFolder, Tables.folder?_timeless]
  rcases s.tables.folder? id with _ | x
  · rfl
  · exact congrArg (Prod.mk _) (Tables.updateFolder_timeless h)

/-- A request does on tables without timestamps what it does on the tables themselves. -/
theorem perform_timeless (stamp : Stamp) (s : Session) (hr : r.timed = false) :
    strip r.undate (s.perform stamp r) =
      plain ((fresh s.tables.timeless).perform stamp.timeless r) := by
  cases r <;> try rfl
  case createGrant | createFolder | findGrantsFor | listFolders => cases hr
  case createRelationship u =>
    simp only [perform, strip_ite, plain_ite, strip_mk, plain_mk, write_tables,
      Tables.tuples_timeless, Tables.newRow_timeless, Tables.addTuple_timeless]
    rfl
  case replaceOwner o user =>
    let f := (TupleFilter.ofObject o).withRelation .owner
    have hcount : ((fresh s.tables.timeless).removeTuples f).1 = (s.removeTuples f).1 := by
      simp only [removeTuples, remove, ← Tables.removeTuples_timeless,
        Tables.length_relationships_timeless]
    rw [replaceOwner_eq, replaceOwner_eq, hcount, strip_ite, plain_ite]
    simp only [strip_mk, plain_mk, write_tables, ← Tables.removeTuples_timeless,
      Tables.newRow_timeless, Tables.addTuple_timeless]
    rfl
  case setParent child parent =>
    simp only [perform, removeTuples_write, removeTuples_tables]
    cases parent with
    | none =>
      simp only [strip_mk, plain_mk, removeTuples_tables, Tables.removeTuples_timeless]
      rfl
    | some p =>
      simp only [strip_mk, plain_mk, write_tables, Tables.removeTuples_timeless,
        Tables.addTuple_timeless]
      rfl
  case insertSelfPath | insertPaths =>
    have hclash (batch : List FolderPath) :
        s.tables.timeless.clashingPath? batch = s.tables.clashingPath? batch := by
      simp only [Tables.clashingPath?, Tables.paths_timeless]
    simp only [perform, insertPaths, hclash]
    split
    · rfl
    · simp only [strip_writeIf, plain_writeIf, Tables.addPaths_timeless]
      rfl
  case moveSubtree folder newParentPaths =>
    simp only [perform, strip_ite, plain_ite, strip_mk, plain_mk, write_tables,
      Tables.recordsFrom_timeless, List.isEmpty_map, Tables.moveSubtree_timeless]
    rfl
  case deleteRelationship | deleteRelationships | deleteByObject | deleteBySubject =>
    simp only [perform, removeTuples, remove, strip_ite, plain_ite, strip_writeIf, plain_writeIf,
      ← Tables.removeTuples_timeless, Tables.length_relationships_timeless]
    rfl
  case deleteSubtreePaths | deletePathsTouching =>
    simp only [perform, removePaths, remove, strip_writeIf, plain_writeIf,
      ← Tables.removeSubtreePaths_timeless, ← Tables.removePathsTouching_timeless,
      Tables.length_pathRecords_timeless]
    rfl
  case addMembership =>
    simp only [perform, strip_ite, plain_ite, strip_mk, plain_mk, write_tables,
      Tables.memberships_timeless, Tables.addMembership_timeless]
    rfl
  case removeMembership =>
    simp only [perform, remove, strip_writeIf, plain_writeIf, ← Tables.removeMembership_timeless,
      Tables.length_membershipRecords_timeless]
    rfl
  case relationshipExists | findParent | findSubjects | findObjects =>
    simp only [perform, strip_mk, plain_mk, Tables.parentOf, Tables.subjectsOf, Tables.objectsOf,
      Tables.tuples_timeless, Tables.tuplesWhere_timeless]
    rfl
  case findRelationships | findByObject | findBySubject =>
    simp only [perform, strip_mk, plain_mk, Tables.relationshipsWhere_timeless]
    rfl
  case findAncestors | findDescendants =>
    simp only [perform, strip_mk, plain_mk, Tables.ancestorsOf, Tables.descendantsOf,
      Tables.pathsTo_timeless, Tables.pathsFrom_timeless]
    rfl
  case findAncestorPaths | findSubtree =>
    simp only [perform, strip_mk, plain_mk, Tables.recordsTo_timeless, Tables.recordsFrom_timeless]
    rfl
  case findMembershipsOf | findMembersOf =>
    simp only [perform, strip_mk, plain_mk, Tables.timeless, List.filter_map]
    rfl
  case findGrant id =>
    simp only [perform, strip_mk, plain_mk, Tables.timeless, List.find?_map]
    rfl
  case findGrants =>
    simp only [perform, strip_mk, plain_mk, Tables.grantsTo, Tables.timeless, List.filter_map]
    rfl
  case grantExists =>
    simp only [perform, strip_mk, plain_mk, Tables.timeless, List.any_map]
    rfl
  case findFolder =>
    simp only [perform, strip_mk, plain_mk, Tables.folder?_timeless]
    rfl
  case deleteGrant | deleteGrantsFor =>
    simp only [perform, removeGrants, remove, strip_writeIf, plain_writeIf, Tables.timeless,
      List.filter_map, List.length_map]
    rfl
  case deleteFolders =>
    simp only [perform, remove, strip_writeIf, plain_writeIf, Tables.timeless, List.filter_map,
      List.length_map]
    rfl
  case setFolderParent id parent =>
    exact changeFolder_timeless fun _ => rfl
  case setFolderOwner id owner =>
    exact changeFolder_timeless fun _ => rfl
  case setFolderDepths depths =>
    have hfind : (fun d : Uuid × Nat => (s.tables.timeless.folder? d.1).isNone) =
        fun d => (s.tables.folder? d.1).isNone := by
      funext d
      simp
    simp only [perform, fresh, hfind]
    split
    · rfl
    · simp only [strip_writeIf, plain_writeIf, Tables.setDepths_timeless]
      rfl

theorem perform_alike (stamp : Stamp) (time : Instant) (hr : r.timed = false)
    (h : s.tables.timeless = u.tables.timeless) :
    ((s.perform stamp r).1.map r.reply).map r.timeless =
        ((u.perform (stamp.withTime time) r).1.map r.reply).map r.timeless ∧
      (s.perform stamp r).2.tables.timeless =
        (u.perform (stamp.withTime time) r).2.tables.timeless := by
  have hs := perform_timeless stamp s hr
  rw [h, ← perform_timeless (stamp.withTime time) u hr] at hs
  obtain ⟨hanswer, htables⟩ := Prod.mk.inj hs
  have hread (x : Except StorageError r.Answer) :
      (x.map r.reply).map r.timeless = (x.map r.undate).map r.reply := by
    cases x with
    | ok answer => exact congrArg Except.ok (r.reply_undate answer).symm
    | error e => rfl
  exact ⟨by rw [hread, hread, hanswer], htables⟩

theorem createFolder_timeless (stamp : Stamp) (s : Session) (f : Folder) :
    strip id (s.perform stamp (.createFolder f)) =
      plain ((fresh s.tables.timeless).perform stamp (.createFolder f.timeless)) := by
  have hfound : (s.tables.timeless.folder? f.timeless.id).isSome =
      (s.tables.folder? f.id).isSome := by
    rw [Tables.folder?_timeless, Option.isSome_map]
    rfl
  have hadd : (Tables.timeless { s.tables with folders := s.tables.folders ++ [f] }) =
      { s.tables.timeless with folders := s.tables.timeless.folders ++ [f.timeless] } := by
    simp [Tables.timeless]
  simp only [perform, strip_ite, plain_ite, fresh, hfound]
  simp only [strip, write_tables, hadd]
  rfl

theorem createGrant_timeless (stamp : Stamp) (s : Session) (g : Grant) :
    strip id (s.perform stamp (.createGrant g)) =
      plain ((fresh s.tables.timeless).perform stamp (.createGrant g.timeless)) := by
  have hheld : s.tables.timeless.grants.any g.timeless.sameAssignment =
      s.tables.grants.any g.sameAssignment := by
    simp only [Tables.timeless, List.any_map]
    rfl
  have hadd : (Tables.timeless { s.tables with grants := s.tables.grants ++ [g] }) =
      { s.tables.timeless with grants := s.tables.timeless.grants ++ [g.timeless] } := by
    simp [Tables.timeless]
  simp only [perform, strip_ite, plain_ite, fresh, hheld]
  simp only [strip, write_tables, hadd]
  rfl

theorem createFolder_alike (stamp stamp' : Stamp) {f g : Folder} (hf : f.timeless = g.timeless)
    (h : s.tables.timeless = u.tables.timeless) :
    (s.perform stamp (.createFolder f)).1 = (u.perform stamp' (.createFolder g)).1 ∧
      (s.perform stamp (.createFolder f)).2.tables.timeless =
        (u.perform stamp' (.createFolder g)).2.tables.timeless := by
  have hs := createFolder_timeless stamp s f
  have hu := createFolder_timeless stamp' u g
  rw [h, hf] at hs
  simpa only [strip, Except.map_id, Prod.mk.injEq, id_eq] using hs.trans hu.symm

theorem createGrant_alike (stamp stamp' : Stamp) {g k : Grant} (hg : g.timeless = k.timeless)
    (h : s.tables.timeless = u.tables.timeless) :
    (s.perform stamp (.createGrant g)).1 = (u.perform stamp' (.createGrant k)).1 ∧
      (s.perform stamp (.createGrant g)).2.tables.timeless =
        (u.perform stamp' (.createGrant k)).2.tables.timeless := by
  have hs := createGrant_timeless stamp s g
  have hu := createGrant_timeless stamp' u k
  rw [h, hg] at hs
  simpa only [strip, Except.map_id, Prod.mk.injEq, id_eq] using hs.trans hu.symm

end Session

end DriveAccess
