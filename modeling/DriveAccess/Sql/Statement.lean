import DriveAccess.Sql.Clause
import DriveAccess.Sql.Record
/-!
The statements on the tables of one tenant. Texts depend on the tenant's schema and on the shape of
a request only; all values travel as parameters.
-/
namespace DriveAccess

/-- How the refusal of a statement is understood. -/
inductive Purpose
  /-- Any refusal is a failure of the storage. -/
  | plain
  /-- A unique violation says that the item is there already. -/
  | insert (item : Item)
  /-- Part of setting up a schema, where even conflicts between sessions are plain failures. -/
  | define
deriving DecidableEq

structure Statement where
  text : String
  params : List Value
  purpose : Purpose
deriving DecidableEq

namespace Statement

def relationshipColumns : String :=
  "id, subject_type, subject_id, relation, object_type, object_id, created_at"

def insertRelationship (schema : String) (r : Relationship) : Statement where
  text := s!"INSERT INTO {schema}.relationships ({relationshipColumns}) " ++
    "VALUES ($1, $2, $3, $4, $5, $6, $7)"
  params := r.encode
  purpose := .insert (.relationship r.tuple)

def relationshipExists (schema : String) (t : Tuple) : Statement :=
  let clause := (TupleFilter.exact t).clause 1
  { text := s!"SELECT EXISTS (SELECT 1 FROM {schema}.relationships WHERE {clause.text})"
    params := clause.params
    purpose := .plain }

def selectRelationships (schema : String) (f : TupleFilter) : Statement :=
  let clause := f.clause 1
  { text := s!"SELECT {relationshipColumns} FROM {schema}.relationships WHERE {clause.text} " ++
      "ORDER BY created_at, id"
    params := clause.params
    purpose := .plain }

def deleteRelationships (schema : String) (f : TupleFilter) : Statement :=
  let clause := f.clause 1
  { text := s!"DELETE FROM {schema}.relationships WHERE {clause.text}"
    params := clause.params
    purpose := .plain }

def grantColumns : String :=
  "id, resource_type, resource_id, grantee_type, grantee_id, role, granted_by, granted_at"

def insertGrant (schema : String) (g : Grant) : Statement where
  text := s!"INSERT INTO {schema}.permission_grants ({grantColumns}) " ++
    "VALUES ($1, $2, $3, $4, $5, $6, $7, $8)"
  params := g.encode
  purpose := .insert (.assignment g.role g.grantee g.resource)

def selectGrant (schema : String) (id : Uuid) : Statement where
  text := s!"SELECT {grantColumns} FROM {schema}.permission_grants WHERE id = $1"
  params := [.id id]
  purpose := .plain

def selectGrantsFor (schema : String) (r : Resource) : Statement where
  text := s!"SELECT {grantColumns} FROM {schema}.permission_grants " ++
    "WHERE resource_type = $1 AND resource_id = $2 ORDER BY granted_at, id"
  params := [.text r.kind.tag, .id r.id]
  purpose := .plain

def selectGrants (schema : String) (r : Resource) (kind : GranteeKind) (grantees : List Uuid) :
    Statement where
  text := s!"SELECT {grantColumns} FROM {schema}.permission_grants " ++
    "WHERE resource_type = $1 AND resource_id = $2 AND grantee_type = $3 AND grantee_id = ANY($4)"
  params := [.text r.kind.tag, .id r.id, .text kind.tag, .ids grantees]
  purpose := .plain

def grantExists (schema : String) (r : Resource) (g : Grantee) (role : Role) : Statement where
  text := s!"SELECT EXISTS ( SELECT 1 FROM {schema}.permission_grants " ++
    "WHERE resource_type = $1 AND resource_id = $2 AND grantee_type = $3 AND grantee_id = $4 " ++
    "AND role = $5 )"
  params := [.text r.kind.tag, .id r.id, .text g.kind.tag, .id g.id, .text role.tag]
  purpose := .plain

def deleteGrant (schema : String) (id : Uuid) : Statement where
  text := s!"DELETE FROM {schema}.permission_grants WHERE id = $1"
  params := [.id id]
  purpose := .plain

def deleteGrantsFor (schema : String) (r : Resource) : Statement where
  text := s!"DELETE FROM {schema}.permission_grants WHERE resource_type = $1 AND resource_id = $2"
  params := [.text r.kind.tag, .id r.id]
  purpose := .plain

def pathColumns : String := "ancestor_id, descendant_id, path_length, created_at"

def insertPaths (schema : String) (ps : List PathRecord) : Statement where
  text := s!"INSERT INTO {schema}.folder_paths ({pathColumns}) " ++
    "SELECT * FROM UNNEST($1::uuid[], $2::uuid[], $3::int4[], $4::timestamptz[])"
  params := PathRecord.encodeAll ps
  purpose := .insert .somePath

def selectPathsTo (schema : String) (folder : Uuid) : Statement where
  text := s!"SELECT {pathColumns} FROM {schema}.folder_paths " ++
    "WHERE descendant_id = $1 ORDER BY path_length"
  params := [.id folder]
  purpose := .plain

def selectPathsFrom (schema : String) (folder : Uuid) : Statement where
  text := s!"SELECT {pathColumns} FROM {schema}.folder_paths " ++
    "WHERE ancestor_id = $1 ORDER BY path_length"
  params := [.id folder]
  purpose := .plain

def selectPaths (schema : String) : Statement where
  text := s!"SELECT {pathColumns} FROM {schema}.folder_paths"
  params := []
  purpose := .plain

def deleteSubtreePaths (schema : String) (folder : Uuid) : Statement where
  text := s!"DELETE FROM {schema}.folder_paths WHERE descendant_id IN ( " ++
    s!"SELECT descendant_id FROM {schema}.folder_paths WHERE ancestor_id = $1 )"
  params := [.id folder]
  purpose := .plain

def deletePathsTouching (schema : String) (folder : Uuid) : Statement where
  text := s!"DELETE FROM {schema}.folder_paths WHERE descendant_id = $1 OR ancestor_id = $1"
  params := [.id folder]
  purpose := .plain

/-- Drops the rows that link a subtree to ancestors outside it. -/
def detachSubtree (schema : String) (folder : Uuid) : Statement where
  text := s!"DELETE FROM {schema}.folder_paths AS fp USING {schema}.folder_paths AS sub " ++
    "WHERE sub.ancestor_id = $1 AND fp.descendant_id = sub.descendant_id " ++
    s!"AND fp.ancestor_id NOT IN ( SELECT descendant_id FROM {schema}.folder_paths " ++
    "WHERE ancestor_id = $1 )"
  params := [.id folder]
  purpose := .plain

/-- A lock that the server holds until the transaction ends, named by the schema. -/
def lockHierarchy (schema : String) : Statement where
  text := "SELECT pg_advisory_xact_lock(hashtext($1))"
  params := [.text schema]
  purpose := .plain

def folderColumns : String := "id, name, parent_id, owner_id, depth, created_at, updated_at"

def insertFolder (schema : String) (f : Folder) : Statement where
  text := s!"INSERT INTO {schema}.folders ({folderColumns}) VALUES ($1, $2, $3, $4, $5, $6, $7)"
  params := f.encode
  purpose := .insert (.folder f.id)

def selectFolder (schema : String) (id : Uuid) : Statement where
  text := s!"SELECT {folderColumns} FROM {schema}.folders WHERE id = $1"
  params := [.id id]
  purpose := .plain

def selectFolders (schema : String) : Statement where
  text := s!"SELECT {folderColumns} FROM {schema}.folders ORDER BY depth, created_at"
  params := []
  purpose := .plain

def setFolderParent (schema : String) (id : Uuid) (parent : Option Uuid) : Statement where
  text := s!"UPDATE {schema}.folders SET parent_id = $2, updated_at = now() WHERE id = $1"
  params := [.id id, .optionalId parent]
  purpose := .plain

def setFolderOwner (schema : String) (id owner : Uuid) : Statement where
  text := s!"UPDATE {schema}.folders SET owner_id = $2, updated_at = now() WHERE id = $1"
  params := [.id id, .id owner]
  purpose := .plain

def setFolderDepths (schema : String) (depths : List (Uuid × Nat)) : Statement where
  text := s!"UPDATE {schema}.folders AS f SET depth = d.depth, updated_at = now() " ++
    "FROM UNNEST($1::uuid[], $2::int4[]) AS d(id, depth) WHERE f.id = d.id"
  params := [.ids (depths.map (·.1)), .ints (depths.map fun d => toInt4 d.2)]
  purpose := .plain

def deleteFolders (schema : String) (ids : List Uuid) : Statement where
  text := s!"DELETE FROM {schema}.folders WHERE id = ANY($1)"
  params := [.ids ids]
  purpose := .plain

def membershipColumns : String := "group_id, user_id, role, joined_at"

def insertMembership (schema : String) (m : MembershipRecord) : Statement where
  text := s!"INSERT INTO {schema}.group_memberships ({membershipColumns}) " ++
    "VALUES ($1, $2, $3, $4)"
  params := m.encode
  purpose := .insert (.membership m.membership.user m.membership.group)

def deleteMembership (schema : String) (group user : Uuid) : Statement where
  text := s!"DELETE FROM {schema}.group_memberships WHERE group_id = $1 AND user_id = $2"
  params := [.id group, .id user]
  purpose := .plain

def selectMembershipsOf (schema : String) (user : Uuid) : Statement where
  text := s!"SELECT {membershipColumns} FROM {schema}.group_memberships " ++
    "WHERE user_id = $1 ORDER BY joined_at"
  params := [.id user]
  purpose := .plain

def selectMembersOf (schema : String) (group : Uuid) : Statement where
  text := s!"SELECT {membershipColumns} FROM {schema}.group_memberships " ++
    "WHERE group_id = $1 ORDER BY joined_at"
  params := [.id group]
  purpose := .plain

end Statement

end DriveAccess
