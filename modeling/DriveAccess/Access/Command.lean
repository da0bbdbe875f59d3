import DriveAccess.Access.Files
import DriveAccess.Access.Groups
import DriveAccess.Access.Query
import DriveAccess.Access.Sharing
/-!
The commands as data.
-/
namespace DriveAccess

inductive Command
  | checkAccess (user : Uuid) (resource : Resource) (permission : Permission)
  | collectPermissions (user : Uuid) (resource : Resource)
  | effectiveRole (user : Uuid) (resource : Resource)
  | canGrantRole (user : Uuid) (resource : Resource) (role : Role)
  | authorizeShare (user : Uuid) (resource : Resource)
  | isInSubtree (folder : Uuid) (resource : Resource)
  | listGrants (resource : Resource)
  | verifyHierarchy
  | grantRole (resource : Resource) (grantee : Grantee) (role : Role) (grantedBy : Uuid)
  | revokeGrant (grant revokedBy : Uuid)
  | transferOwnership (actor : Uuid) (resource : Resource) (newOwner : Uuid)
  | createFolder (owner : Uuid) (name : String) (parent : Option Uuid)
  | moveFolder (actor folder : Uuid) (newParent : Option Uuid)
  | deleteFolder (actor folder : Uuid)
  | registerFile (owner file folder : Uuid)
  | deleteFile (actor file : Uuid)
  | addGroupMember (group user : Uuid) (role : MembershipRole)
  | removeGroupMember (group user : Uuid)
deriving DecidableEq

namespace Command

@[reducible] def Answer : Command → Type
  | checkAccess _ _ _ | canGrantRole _ _ _ | isInSubtree _ _ => Bool
  | collectPermissions _ _ => PermissionSet
  | effectiveRole _ _ => Option Role
  | listGrants _ => List Grant
  | verifyHierarchy => List Violation
  | grantRole _ _ _ _ | revokeGrant _ _ => Grant
  | createFolder _ _ _ | moveFolder _ _ _ => Folder
  | deleteFolder _ _ => DeletedSubtree
  | registerFile _ _ _ => Resource
  | addGroupMember _ _ _ => Membership
  | authorizeShare _ _ | transferOwnership _ _ _ | deleteFile _ _ | removeGroupMember _ _ => Unit

def body (c : Context) : (command : Command) → Program command.Answer
  | checkAccess user r p => Program.checkAccess c user r p
  | collectPermissions user r => Program.collectPermissions c user r
  | effectiveRole user r => Program.effectiveRole c user r
  | canGrantRole user r role => Program.canGrantRole c user r role
  | authorizeShare user r => Program.authorizeShare c user r
  | isInSubtree folder r => Program.isInSubtree folder r
  | listGrants r => Program.listGrants r
  | verifyHierarchy => Program.verifyHierarchy
  | grantRole r grantee role grantedBy => Program.grantRole c r grantee role grantedBy
  | revokeGrant grant revokedBy => Program.revokeGrant c grant revokedBy
  | transferOwnership actor r newOwner => Program.transferOwnership c actor r newOwner
  | createFolder owner name parent => Program.createFolder c owner name parent
  | moveFolder actor folder newParent => Program.moveFolder c actor folder newParent
  | deleteFolder actor folder => Program.deleteFolder c actor folder
  | registerFile owner file folder => Program.registerFile c owner file folder
  | deleteFile actor file => Program.deleteFile c actor file
  | addGroupMember group user role => Program.addGroupMember group user role
  | removeGroupMember group user => Program.removeGroupMember group user

end Command

end DriveAccess
