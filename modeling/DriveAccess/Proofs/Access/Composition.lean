import DriveAccess.Access.Execution
/-!
What commands are put together from: what holds of the parts, and of one part after another, holds
of every command.
-/
namespace DriveAccess

/-- What an action puts on record. -/
def Action.events : Action → List AuditEvent
  | record e => [e]
  | store _ | look _ => []

theorem audit_act {σ S : Type} (b : Backend σ S) (stamp : Stamp) (q : Action) (w : Working σ S) :
    (b.act stamp q w).2.audit = w.audit ++ q.events := by
  cases q with
  | store r => exact (List.append_nil _).symm
  | look l => exact (List.append_nil _).symm
  | record e => rfl

theorem audit_finish {σ S α : Type} (b : Backend σ S) (outcome : Except AccessError α)
    (w : Working σ S) : (b.finish outcome w).audit = w.audit := by
  cases outcome with
  | error e => rfl
  | ok a =>
    simp only [Backend.finish]
    split <;> rfl

/-- That something was done, not that somebody was turned away. -/
def AuditEvent.announces : AuditEvent → Bool
  | accessDenied _ _ => false
  | grantCreated _ _ | grantRevoked _ _ _ | folderMoved _ _ _ _ _
  | ownershipTransferred _ _ _ _ => true

/-- Commands that put it on record when they have done what they are for. -/
def Command.announces : Command → Bool
  | grantRole _ _ _ _ | revokeGrant _ _ | moveFolder _ _ _ | transferOwnership _ _ _ => true
  | _ => false

/-- A property of programs that the parts of commands have and that lasts from part to part. That
something was done is put on record by some commands only. -/
structure Composes (P : {α : Type} → Program α → Prop) : Prop where
  pure : ∀ {α : Type} (a : α), P (pure a : Program α)
  fail : ∀ {α : Type} (e : AccessError), P (.fail e : Program α)
  request : ∀ r : Request, P (Program.request r)
  resolve : ∀ {α : Type} (d : Resolution α), P (Program.resolve d)
  deny : ∀ {α : Type} (c : Context) (d : Denial), P (Program.deny c d : Program α)
  bind : ∀ {α β : Type} {p : Program α} {f : α → Program β}, P p → (∀ a, P (f a)) → P (p >>= f)

namespace Composes

variable {P : {α : Type} → Program α → Prop} (h : Composes P) {α : Type} (c : Context)
  (user owner : Uuid) (r : Resource)

include h

theorem ofExcept (x : Except AccessError α) : P (.ofExcept x : Program α) := by
  cases x with
  | ok a => exact h.pure a
  | error e => exact h.fail e

theorem ofHierarchy (x : Except HierarchyError α) : P (Program.ofHierarchy x) := by
  cases x with
  | ok a => exact h.pure a
  | error e => exact h.fail _

/-- A check of authority asks the resolver, and passes or turns away. -/
theorem check (d : Resolution Bool) (denial : Denial) : P (do
    if ← Program.resolve d then
      return
    Program.deny c denial) := by
  refine h.bind (h.resolve d) fun passes => ?_
  cases passes with
  | true => exact h.pure ()
  | false => exact h.deny c denial

theorem requirePermission (p : Permission) : P (Program.requirePermission c user r p) :=
  h.check ..

theorem requireOwner (deed : Deed) : P (Program.requireOwner c user r deed) := h.check ..

theorem requireGranter (role : Role) (deed : Deed) :
    P (Program.requireGranter c user r role deed) := h.check ..

theorem requireFolder (id : Uuid) : P (Program.requireFolder id) := by
  refine h.bind (h.request _) fun found => ?_
  cases found with
  | none => exact h.fail _
  | some f => exact h.pure f

theorem requireResource : P (Program.requireResource r) := by
  refine h.bind (h.request _) fun subjects => ?_
  dsimp only
  split
  · exact h.fail _
  · exact h.pure _

theorem requireGrant (id : Uuid) : P (Program.requireGrant id) := by
  refine h.bind (h.request _) fun found => ?_
  cases found with
  | none => exact h.fail _
  | some g => exact h.pure g

theorem createRelationship (t : Tuple) : P (Program.createRelationship t) :=
  h.bind (h.request _) fun _ => h.pure ()

theorem placeFolder (name : String) (parent : Option Uuid) :
    P (Program.placeFolder c owner name parent) := by
  cases parent with
  | none => exact h.pure _
  | some id =>
    refine h.bind (h.requireFolder id) fun f => ?_
    refine h.bind (h.requirePermission ..) fun _ => ?_
    refine h.bind (h.ofHierarchy _) fun folder => ?_
    exact h.bind (h.request _) fun _ => h.pure _

theorem createFolder (name : String) (parent : Option Uuid) :
    P (Program.createFolder c owner name parent) := by
  refine h.bind (h.request _) fun _ => ?_
  refine h.bind (h.placeFolder c owner name parent) fun (folder, rows) => ?_
  refine h.bind (h.request _) fun _ => ?_
  refine h.bind (h.request _) fun _ => ?_
  refine h.bind (h.createRelationship _) fun _ => ?_
  cases folder.parent with
  | none => exact h.pure _
  | some id => exact h.bind (h.createRelationship _) fun _ => h.pure _

theorem requireNewParent (parent : Option Uuid) : P (Program.requireNewParent parent) := by
  cases parent with
  | none => exact h.pure _
  | some id => exact h.bind (h.requireFolder id) fun _ => h.pure _

theorem requireMove (folder : Folder) (newParent : Option Folder) :
    P (Program.requireMove c user folder newParent) := by
  refine h.bind (h.requirePermission ..) fun _ => ?_
  cases newParent with
  | none => exact h.requireOwner ..
  | some p => exact h.requirePermission ..

theorem newParentPaths (parent : Option Folder) : P (Program.newParentPaths parent) := by
  cases parent with
  | none => exact h.pure _
  | some p => exact h.request _

theorem moveFolder (hrecord : ∀ e : AuditEvent, e.announces → P (Program.record e)) (id : Uuid)
    (newParent : Option Uuid) : P (Program.moveFolder c user id newParent) := by
  refine h.bind (h.request _) fun _ => ?_
  refine h.bind (h.requireFolder id) fun folder => ?_
  refine h.bind (h.requireNewParent newParent) fun parent => ?_
  refine h.bind (h.requireMove ..) fun _ => ?_
  refine h.bind (h.request _) fun descendants => ?_
  refine h.bind (h.request _) fun subtree => ?_
  refine h.bind (h.ofHierarchy _) fun depth => ?_
  refine h.bind (h.newParentPaths parent) fun upper => ?_
  refine h.bind (h.request _) fun _ => ?_
  refine h.bind (h.request _) fun _ => ?_
  refine h.bind (h.request _) fun _ => ?_
  refine h.bind (h.request _) fun _ => ?_
  refine h.bind (hrecord _ rfl) fun _ => ?_
  exact h.requireFolder id

theorem filesIn (folders : List Uuid) : P (Program.filesIn folders) := by
  induction folders with
  | nil => exact h.pure _
  | cons folder rest ih =>
    refine h.bind (h.request _) fun children => ?_
    exact h.bind ih fun _ => h.pure _

theorem detachFiles (files : List Uuid) : P (Program.detachFiles files) := by
  induction files with
  | nil => exact h.pure ()
  | cons file rest ih =>
    refine h.bind (h.request _) fun _ => ?_
    exact h.bind (h.request _) fun _ => ih

theorem detachFolders (folders : List Uuid) : P (Program.detachFolders folders) := by
  induction folders with
  | nil => exact h.pure ()
  | cons folder rest ih =>
    refine h.bind (h.request _) fun _ => ?_
    refine h.bind (h.request _) fun _ => ?_
    exact h.bind (h.request _) fun _ => ih

theorem deleteFolder (id : Uuid) : P (Program.deleteFolder c user id) := by
  refine h.bind (h.request _) fun _ => ?_
  refine h.bind (h.requireFolder id) fun folder => ?_
  refine h.bind (h.requirePermission ..) fun _ => ?_
  refine h.bind (h.request _) fun folders => ?_
  refine h.bind (h.filesIn _) fun files => ?_
  refine h.bind (h.detachFiles _) fun _ => ?_
  refine h.bind (h.detachFolders _) fun _ => ?_
  refine h.bind (h.request _) fun _ => ?_
  exact h.bind (h.request _) fun _ => h.pure _

theorem grantRole (hrecord : ∀ e : AuditEvent, e.announces → P (Program.record e))
    (grantee : Grantee) (role : Role) : P (Program.grantRole c r grantee role user) := by
  refine h.bind (h.ofExcept _) fun _ => ?_
  refine h.bind (h.requireResource r) fun _ => ?_
  refine h.bind (h.requireGranter ..) fun _ => ?_
  refine h.bind (h.request _) fun held => ?_
  split
  · exact h.fail _
  · refine h.bind (h.request _) fun _ => ?_
    exact h.bind (hrecord _ rfl) fun _ => h.pure _

theorem revokeGrant (hrecord : ∀ e : AuditEvent, e.announces → P (Program.record e)) (id : Uuid) :
    P (Program.revokeGrant c id user) := by
  refine h.bind (h.requireGrant id) fun grant => ?_
  split
  · exact h.fail _
  · refine h.bind (h.requireGranter ..) fun _ => ?_
    refine h.bind (h.request _) fun removed => ?_
    split
    · exact h.bind (hrecord _ rfl) fun _ => h.pure _
    · exact h.fail _

theorem recordOwner : P (Program.recordOwner r owner) := by
  rw [Program.recordOwner]
  cases r.kind with
  | folder => exact h.request _
  | file => exact h.pure ()

theorem transferOwnership (hrecord : ∀ e : AuditEvent, e.announces → P (Program.record e)) :
    P (Program.transferOwnership c user r owner) := by
  refine h.bind (h.requireResource r) fun owners => ?_
  refine h.bind (h.requireOwner ..) fun _ => ?_
  split
  · exact h.fail _
  · refine h.bind (h.request _) fun _ => ?_
    refine h.bind (h.recordOwner ..) fun _ => ?_
    exact hrecord _ rfl

theorem isRegistered (file : Uuid) : P (Program.isRegistered file) := by
  refine h.bind (h.request _) fun owners => ?_
  split
  · exact h.bind (h.request _) fun _ => h.pure _
  · exact h.pure true

theorem registerFile (file folder : Uuid) : P (Program.registerFile c owner file folder) := by
  refine h.bind (h.requireFolder folder) fun f => ?_
  refine h.bind (h.requirePermission ..) fun _ => ?_
  refine h.bind (h.isRegistered file) fun registered => ?_
  split
  · exact h.fail _
  · refine h.bind (h.createRelationship _) fun _ => ?_
    exact h.bind (h.createRelationship _) fun _ => h.pure _

theorem deleteFile (file : Uuid) : P (Program.deleteFile c user file) := by
  refine h.bind (h.requireResource _) fun _ => ?_
  exact h.bind (h.requirePermission ..) fun _ => h.detachFiles _

theorem addGroupMember (group : Uuid) (role : MembershipRole) :
    P (Program.addGroupMember group user role) := by
  refine h.bind (h.request _) fun _ => ?_
  exact h.bind (h.createRelationship _) fun _ => h.pure _

theorem removeGroupMember (group : Uuid) : P (Program.removeGroupMember group user) := by
  refine h.bind (h.request _) fun removed => ?_
  split
  · exact h.bind (h.request _) fun _ => h.pure ()
  · exact h.fail _

theorem containingFolder : P (Program.containingFolder r) := by
  rw [Program.containingFolder]
  cases r.kind with
  | folder => exact h.pure _
  | file => exact h.bind (h.request _) fun _ => h.pure _

theorem isInSubtree (folder : Uuid) : P (Program.isInSubtree folder r) := by
  refine h.bind (h.request _) fun _ => ?_
  exact h.bind (h.containingFolder r) fun _ => h.pure _

theorem verifyHierarchy : P Program.verifyHierarchy := by
  refine h.bind (h.request _) fun _ => ?_
  exact h.bind (h.request _) fun _ => h.pure _

/-- So it holds of every command, if it holds of what the command puts on record. -/
theorem body (command : Command)
    (hrecord : command.announces → ∀ e : AuditEvent, e.announces → P (Program.record e)) :
    P (command.body c) := by
  cases command with
  | checkAccess | collectPermissions | effectiveRole | canGrantRole => exact h.resolve _
  | authorizeShare => exact h.requirePermission ..
  | isInSubtree => exact h.isInSubtree ..
  | listGrants r => exact h.request _
  | verifyHierarchy => exact h.verifyHierarchy
  | grantRole => exact h.grantRole c _ _ (hrecord rfl) ..
  | revokeGrant => exact h.revokeGrant c _ (hrecord rfl) ..
  | transferOwnership => exact h.transferOwnership c _ _ _ (hrecord rfl)
  | createFolder => exact h.createFolder ..
  | moveFolder => exact h.moveFolder c _ (hrecord rfl) ..
  | deleteFolder => exact h.deleteFolder ..
  | registerFile => exact h.registerFile ..
  | deleteFile => exact h.deleteFile ..
  | addGroupMember => exact h.addGroupMember ..
  | removeGroupMember => exact h.removeGroupMember ..

end Composes

end DriveAccess
