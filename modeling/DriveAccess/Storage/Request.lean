import DriveAccess.Closure.Path
import DriveAccess.Storage.Error
/-!
What can be asked of one tenant's stored data within a session.
-/
namespace DriveAccess

inductive Request
  | createRelationship (tuple : Tuple)
  | deleteRelationship (tuple : Tuple)
  | relationshipExists (tuple : Tuple)
  | findRelationships (filter : TupleFilter)
  | deleteRelationships (filter : TupleFilter)
  | findParent (object : Object)
  | findSubjects (relation : Relation) (object : Object)
  | findObjects (subject : Subject) (relation : Relation)
  | findByObject (object : Object)
  | findBySubject (subject : Subject)
  | deleteByObject (object : Object)
  | deleteBySubject (subject : Subject)
  /-- Swaps the owner tuple of an object for one that names another user. -/
  | replaceOwner (object : Object) (newOwner : Uuid)
  | setParent (child : Object) (parent : Option Subject)
  | createGrant (grant : Grant)
  | findGrant (id : Uuid)
  | findGrantsFor (resource : Resource)
  | findGrants (resource : Resource) (kind : GranteeKind) (grantees : List Uuid)
  | grantExists (resource : Resource) (grantee : Grantee) (role : Role)
  | deleteGrant (id : Uuid)
  | deleteGrantsFor (resource : Resource)
  | insertSelfPath (folder : Uuid)
  | insertPaths (paths : List FolderPath)
  /-- Proper ancestors, nearest first. -/
  | findAncestors (folder : Uuid)
  /-- The folder and all below it, nearest first. -/
  | findDescendants (folder : Uuid)
  | findAncestorPaths (folder : Uuid)
  | findSubtree (folder : Uuid)
  /-- Removes the rows whose descendant lies in the folder's subtree. -/
  | deleteSubtreePaths (folder : Uuid)
  /-- Removes the rows that name the folder on either side. -/
  | deletePathsTouching (folder : Uuid)
  | moveSubtree (folder : Uuid) (newParentPaths : List FolderPath)
  /-- Holds back other changes to the tenant's hierarchy until the session ends. -/
  | lockHierarchy
  | listPaths
  | createFolder (folder : Folder)
  | findFolder (id : Uuid)
  | setFolderParent (id : Uuid) (parent : Option Uuid)
  | setFolderOwner (id owner : Uuid)
  | setFolderDepths (depths : List (Uuid × Nat))
  | deleteFolders (ids : List Uuid)
  | listFolders
  | addMembership (membership : Membership)
  | removeMembership (group user : Uuid)
  | findMembershipsOf (user : Uuid)
  | findMembersOf (group : Uuid)
deriving DecidableEq

namespace Request

/-- What a request is answered with, for the given kinds of rows for tuples, closure paths and
memberships. -/
@[reducible] def AnswerIn (T P M : Type) : Request → Type
  | createRelationship _ | replaceOwner _ _ => T
  | deleteRelationship _ | relationshipExists _ | grantExists _ _ _ | deleteGrant _
  | removeMembership _ _ => Bool
  | findRelationships _ | findByObject _ | findBySubject _ => List T
  | deleteRelationships _ | deleteByObject _ | deleteBySubject _ | deleteGrantsFor _
  | deleteSubtreePaths _ | deletePathsTouching _ | deleteFolders _ => Nat
  | findParent _ => Option Subject
  | findSubjects _ _ => List Subject
  | findObjects _ _ => List Object
  | findGrant _ => Option Grant
  | findGrantsFor _ | findGrants _ _ _ => List Grant
  | findAncestors _ | findDescendants _ => List Uuid
  | findAncestorPaths _ | findSubtree _ | listPaths => List P
  | findFolder _ => Option Folder
  | listFolders => List Folder
  | findMembershipsOf _ | findMembersOf _ => List M
  | setParent _ _ | createGrant _ | insertSelfPath _ | insertPaths _ | moveSubtree _ _
  | lockHierarchy | createFolder _ | setFolderParent _ _ | setFolderOwner _ _
  | setFolderDepths _ | addMembership _ => Unit

/-- Rows are handed out as they are stored. -/
abbrev Answer (r : Request) : Type := r.AnswerIn Relationship PathRecord MembershipRecord

/-- What commands see of an answer. None of them asks when a tuple, a closure path or a membership
was stored, or under which identifier. -/
abbrev Reply (r : Request) : Type := r.AnswerIn Tuple FolderPath Membership

/-- Turns the rows in an answer into others. -/
def mapRows {T P M T' P' M' : Type} (tuple : T → T') (path : P → P') (membership : M → M') :
    (r : Request) → r.AnswerIn T P M → r.AnswerIn T' P' M'
  | createRelationship _, row | replaceOwner _ _, row => tuple row
  | findRelationships _, rows | findByObject _, rows | findBySubject _, rows => rows.map tuple
  | findAncestorPaths _, rows | findSubtree _, rows | listPaths, rows => rows.map path
  | findMembershipsOf _, rows | findMembersOf _, rows => rows.map membership
  | deleteRelationship _, a | relationshipExists _, a | grantExists _ _ _, a | deleteGrant _, a
  | removeMembership _ _, a => a
  | deleteRelationships _, a | deleteByObject _, a | deleteBySubject _, a | deleteGrantsFor _, a
  | deleteSubtreePaths _, a | deletePathsTouching _, a | deleteFolders _, a => a
  | findParent _, a | findSubjects _ _, a | findObjects _ _, a | findGrant _, a
  | findGrantsFor _, a | findGrants _ _ _, a | findAncestors _, a | findDescendants _, a
  | findFolder _, a | listFolders, a => a
  | setParent _ _, a | createGrant _, a | insertSelfPath _, a | insertPaths _, a
  | moveSubtree _ _, a | lockHierarchy, a | createFolder _, a | setFolderParent _ _, a
  | setFolderOwner _ _, a | setFolderDepths _, a | addMembership _, a => a

def reply (r : Request) : r.Answer → r.Reply := r.mapRows (·.tuple) (·.path) (·.membership)

/-- The name by which a request is known outside. -/
def name : Request → String
  | createRelationship _ => "create_relationship"
  | deleteRelationship _ => "delete_relationship"
  | relationshipExists _ => "relationship_exists"
  | findRelationships _ => "find_relationships"
  | deleteRelationships _ => "delete_relationships"
  | findParent _ => "find_parent"
  | findSubjects _ _ => "find_subjects"
  | findObjects _ _ => "find_objects"
  | findByObject _ => "find_by_object"
  | findBySubject _ => "find_by_subject"
  | deleteByObject _ => "delete_by_object"
  | deleteBySubject _ => "delete_by_subject"
  | replaceOwner _ _ => "replace_owner"
  | setParent _ _ => "set_parent"
  | createGrant _ => "create_grant"
  | findGrant _ => "find_grant"
  | findGrantsFor _ => "find_grants_for_resource"
  | findGrants _ _ _ => "find_grants"
  | grantExists _ _ _ => "grant_exists"
  | deleteGrant _ => "delete_grant"
  | deleteGrantsFor _ => "delete_grants_for_resource"
  | insertSelfPath _ => "insert_self_reference"
  | insertPaths _ => "insert_ancestor_paths"
  | findAncestors _ => "find_ancestor_ids"
  | findDescendants _ => "find_descendant_ids"
  | findAncestorPaths _ => "find_ancestor_paths"
  | findSubtree _ => "find_subtree"
  | deleteSubtreePaths _ => "delete_subtree_paths"
  | deletePathsTouching _ => "delete_by_descendant"
  | moveSubtree _ _ => "move_subtree"
  | lockHierarchy => "lock_hierarchy"
  | listPaths => "list_paths"
  | createFolder _ => "create_folder"
  | findFolder _ => "find_folder"
  | setFolderParent _ _ => "set_folder_parent"
  | setFolderOwner _ _ => "set_folder_owner"
  | setFolderDepths _ => "set_folder_depths"
  | deleteFolders _ => "delete_folders"
  | listFolders => "list_folders"
  | addMembership _ => "add_membership"
  | removeMembership _ _ => "remove_membership"
  | findMembershipsOf _ => "find_memberships_by_user_id"
  | findMembersOf _ => "find_group_members"

end Request

end DriveAccess
