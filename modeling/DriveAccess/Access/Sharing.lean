import DriveAccess.Access.Program
/-!
Commands that hand out, take back and pass on authority.
-/
namespace DriveAccess.Program

/-- Ownership is not granted, and nobody grants to themselves. -/
def validateGrant (grantee : Grantee) (role : Role) (grantedBy : Uuid) :
    Except AccessError Unit :=
  if role = .owner then .error (.validation .ownerNotGrantable)
  else if grantee = .user grantedBy then .error (.validation .selfGrant)
  else .ok ()

def grantRole (c : Context) (r : Resource) (grantee : Grantee) (role : Role)
    (grantedBy : Uuid) : Program Grant := do
  .ofExcept (validateGrant grantee role grantedBy)
  let _ ← requireResource r
  requireGranter c grantedBy r role (.grant role)
  let held : Bool ← request (.grantExists r grantee role)
  if held then
    .fail (.conflict (.alreadyHolds grantee role r))
  else
    let grant : Grant := ⟨c.stamp.id, r, grantee, role, grantedBy, c.stamp.time⟩
    request (.createGrant grant)
    record (.grantCreated c.tenant grant)
    return grant

def requireGrant (id : Uuid) : Program Grant := do
  let found : Option Grant ← request (.findGrant id)
  match found with
  | some g => return g
  | none => .fail (.notFound (.grant id))

/-- Only someone who could grant the role again may revoke it. -/
def revokeGrant (c : Context) (id revokedBy : Uuid) : Program Grant := do
  let grant ← requireGrant id
  if grant.role = .owner then
    .fail (.validation .ownerNotGrantable)
  else
    requireGranter c revokedBy grant.resource grant.role (.revoke grant.role)
    let removed : Bool ← request (.deleteGrant id)
    if removed then
      record (.grantRevoked c.tenant grant revokedBy)
      return grant
    else
      .fail (.notFound (.grant id))

/-- A folder's owner is recorded in its row as well. -/
def recordOwner (r : Resource) (owner : Uuid) : Program Unit :=
  match r.kind with
  | .folder => request (.setFolderOwner r.id owner)
  | .file => return

def transferOwnership (c : Context) (actor : Uuid) (r : Resource) (newOwner : Uuid) :
    Program Unit := do
  let owners ← requireResource r
  requireOwner c actor r .transferOwnership
  if owners.contains newOwner then
    .fail (.conflict (.alreadyOwns newOwner r))
  else
    let _ ← request (.replaceOwner r.object newOwner)
    recordOwner r newOwner
    record (.ownershipTransferred c.tenant r actor newOwner)

end DriveAccess.Program
