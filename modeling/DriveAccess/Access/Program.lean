import DriveAccess.Access.Audit
import DriveAccess.Storage.Request
/-!
Commands as programs: they put requests to storage, look up access through the same session, and
put events on record.
-/
namespace DriveAccess

/-- Who may act where, and what a command draws from its surroundings. -/
structure Context where
  tenant : Uuid
  maxDepth : Nat
  stamp : Stamp

inductive Action
  | store (request : Request)
  /-- A lookup of the resolver; storage errors met on the way are reported as the resolver's. -/
  | look (lookup : Lookup)
  | record (event : AuditEvent)

@[reducible] def Action.Reply : Action → Type
  | store r => r.Reply
  | look l => l.Reply
  | record _ => Unit

abbrev Program := Dialogue Action Action.Reply AccessError

/-- The request that answers a lookup. -/
def Lookup.request : Lookup → Request
  | groupsOf user => .findMembershipsOf user
  | holds t => .relationshipExists t
  | rolesGranted r kind grantees => .findGrants r kind grantees
  | parentOf r => .findParent r.object

def Lookup.read : (l : Lookup) → l.request.Reply → l.Reply
  | groupsOf _, memberships => memberships.map (·.group)
  | holds _, found => found
  | rolesGranted _ _ _, grants => grants.map (·.role)
  | parentOf _, parent => parent.bind Resource.ofSubject?

namespace Program

def request (r : Request) : Program r.Reply := .query (Action.store r)

def record (e : AuditEvent) : Program Unit := .query (Action.record e)

/-- A resolution on the data of the session. -/
def resolve {α : Type} (d : Resolution α) : Program α :=
  d.rephrase Action.look (fun _ reply => reply) AccessError.resolve

def ofHierarchy {α : Type} : Except HierarchyError α → Program α
  | .ok a => .done a
  | .error e => .fail (.ofHierarchy e)

def deny {α : Type} (c : Context) (d : Denial) : Program α := do
  record (.accessDenied c.tenant d)
  .fail (.forbidden d)

def requirePermission (c : Context) (user : Uuid) (r : Resource) (p : Permission) :
    Program Unit := do
  if ← resolve (Resolver.hasPermission c.maxDepth user r p) then
    return
  deny c ⟨user, r, .use p⟩

/-- Passes only for who holds the owner tuple of the resource itself. -/
def requireOwner (c : Context) (user : Uuid) (r : Resource) (deed : Deed) : Program Unit := do
  if ← resolve (Resolver.isOwner user r) then
    return
  deny c ⟨user, r, deed⟩

/-- Passes for who may grant the role, which also decides who may revoke it. -/
def requireGranter (c : Context) (user : Uuid) (r : Resource) (role : Role) (deed : Deed) :
    Program Unit := do
  if ← resolve (Resolver.canGrantRole c.maxDepth user r role) then
    return
  deny c ⟨user, r, deed⟩

def findFolder (id : Uuid) : Program (Option Folder) := request (.findFolder id)

def requireFolder (id : Uuid) : Program Folder := do
  match ← findFolder id with
  | some f => return f
  | none => .fail (.notFound (.item (.folder id)))

/-- The users who own a resource. A resource exists once it has an owner. -/
def requireResource (r : Resource) : Program (List Uuid) := do
  let subjects : List Subject ← request (.findSubjects .owner r.object)
  let owners := (subjects.filter (·.kind == .user)).map (·.id)
  if owners.isEmpty then
    .fail (.notFound (.resource r))
  else
    return owners

end Program

end DriveAccess
