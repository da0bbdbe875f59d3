import DriveAccess.Access.Folders
/-!
Commands on group membership, which is kept as a row and as a tuple.
-/
namespace DriveAccess.Program

def addGroupMember (group user : Uuid) (role : MembershipRole) : Program Membership := do
  let membership : Membership := ⟨group, user, role⟩
  request (.addMembership membership)
  createRelationship (.member user group)
  return membership

def removeGroupMember (group user : Uuid) : Program Unit := do
  let removed : Bool ← request (.removeMembership group user)
  if removed then
    let _ ← request (.deleteRelationship (.member user group))
    return
  else
    .fail (.notFound (.membership user group))

end DriveAccess.Program
