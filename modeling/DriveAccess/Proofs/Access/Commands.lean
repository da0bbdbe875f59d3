import DriveAccess.Proofs.Access.FolderDeletion
import DriveAccess.Proofs.Access.FolderMoves
import DriveAccess.Proofs.Access.Groups
import DriveAccess.Proofs.Access.Sharing
/-!
All commands: each keeps coherent tables coherent, and none leaves a trace of a failure.
-/
namespace DriveAccess

open Program

variable {stamp : Stamp} {s : Session} {c : Context}

theorem Program.Reads.settles {α : Type} {p : Program α} {post : α → Tables → Prop} (h : Reads p)
    (hpost : ∀ a, post a s.tables) : Settles stamp p s post := by
  have hs := Session.run_reads stamp s h
  rcases hr : s.run stamp p with ⟨e | a, u⟩ <;> rw [hr] at hs <;> obtain rfl : u = s := hs
  · exact .inl ⟨e, hr⟩
  · exact .inr ⟨a, u, hr, hpost a⟩

namespace Command

/-- What a success of a command tells of its answer and of the tables before and after. -/
def Effect (stamp : Stamp) (c : Context) (t : Tables) :
    (command : Command) → command.Answer → Tables → Prop
  | grantRole r grantee role grantedBy, g, t' =>
    g = ⟨c.stamp.id, r, grantee, role, grantedBy, c.stamp.time⟩ ∧ t.Admits g ∧ t' = t.addGrant g
  | revokeGrant id _, g, t' => t.grant? id = some g ∧ t' = t.dropGrant id
  | transferOwnership _ r owner, _, t' =>
    subjectsIn t.tuples .owner r.object ≠ [] ∧ Tuple.owner owner r.object ∉ t.tuples ∧
      t' = t.handOver stamp r owner
  | createFolder _ _ _, f, t' => t.Welcomes f ∧ t' = t.addFolder stamp f
  | moveFolder _ id parent, f, t' =>
    ∃ depth, t.Relocates id parent depth ∧ t' = t.moveFolder stamp id parent depth ∧
      t'.folder? id = some f
  | deleteFolder _ id, d, t' =>
    d = ⟨t.descendantsOf id, t.filesBelow id⟩ ∧ t' = t.deleteTree id
  | registerFile owner file folder, _, t' =>
    t.Lives folder ∧ subjectsIn t.tuples .owner (.file file) = [] ∧
      subjectsIn t.tuples .parent (.file file) = [] ∧ t' = t.addFile stamp file owner folder
  | deleteFile _ file, _, t' => t' = t.dropFiles [file]
  | addGroupMember _ _ _, m, t' => t.hasMember m.group m.user = false ∧ t' = t.addMember stamp m
  | removeGroupMember group user, _, t' => t' = t.removeMember group user
  | _, _, t' => t' = t

theorem settles (stamp : Stamp) (c : Context) (h : s.tables.Coherent) (command : Command) :
    Settles stamp (command.body c) s (command.Effect stamp c s.tables) := by
  cases command with
  | checkAccess user r p => exact Reads.settles (consults_resolve _).reads fun _ => rfl
  | collectPermissions user r => exact Reads.settles (consults_resolve _).reads fun _ => rfl
  | effectiveRole user r => exact Reads.settles (consults_resolve _).reads fun _ => rfl
  | canGrantRole user r role => exact Reads.settles (consults_resolve _).reads fun _ => rfl
  | authorizeShare user r =>
    exact Reads.settles (consults_requirePermission ..).reads fun _ => rfl
  | isInSubtree folder r => exact Reads.settles (reads_isInSubtree ..) fun _ => rfl
  | listGrants r => exact Reads.settles (reads_request rfl) fun _ => rfl
  | verifyHierarchy => exact Reads.settles reads_verifyHierarchy fun _ => rfl
  | grantRole r grantee role grantedBy => exact grantRole_settles
  | revokeGrant grant revokedBy => exact revokeGrant_settles
  | transferOwnership actor r newOwner => exact transferOwnership_settles h
  | createFolder owner name parent => exact (createFolder_settles h).mono fun _ _ => And.right
  | moveFolder actor folder newParent => exact moveFolder_settles h
  | deleteFolder actor folder => exact deleteFolder_settles
  | registerFile owner file folder => exact registerFile_settles
  | deleteFile actor file => exact deleteFile_settles
  | addGroupMember group user role =>
    exact (addGroupMember_settles h).mono fun _ _ => And.right
  | removeGroupMember group user => exact removeGroupMember_settles

variable {t t' : Tables} {command : Command} {answer : command.Answer}

/-- A success keeps coherent tables coherent. -/
theorem Effect.coherent (heffect : command.Effect stamp c t answer t') (h : t.Coherent) :
    t'.Coherent := by
  cases command with
  | checkAccess | collectPermissions | effectiveRole | canGrantRole | authorizeShare | isInSubtree
  | listGrants | verifyHierarchy =>
    obtain rfl : t' = t := heffect
    exact h
  | grantRole r grantee role grantedBy =>
    obtain ⟨_, hadmits, rfl⟩ := heffect
    exact h.addGrant hadmits
  | revokeGrant grant revokedBy =>
    obtain ⟨_, rfl⟩ := heffect
    exact h.dropGrant grant
  | transferOwnership actor r newOwner =>
    obtain ⟨howned, _, rfl⟩ := heffect
    exact h.handOver howned
  | createFolder owner name parent =>
    obtain ⟨hnew, rfl⟩ := heffect
    exact h.addFolder hnew
  | moveFolder actor folder newParent =>
    obtain ⟨depth, hm, rfl, _⟩ := heffect
    exact h.moveFolder hm
  | deleteFolder actor folder =>
    obtain ⟨_, rfl⟩ := heffect
    exact h.deleteTree folder
  | registerFile owner file folder =>
    obtain ⟨hlives, howner, hparent, rfl⟩ := heffect
    exact h.addFile hlives howner hparent
  | deleteFile actor file =>
    obtain rfl : t' = _ := heffect
    exact h.dropFiles [file]
  | addGroupMember group user role =>
    obtain ⟨hnew, rfl⟩ := heffect
    exact h.addMember hnew
  | removeGroupMember group user =>
    obtain rfl : t' = _ := heffect
    exact h.removeMember group user

/-- What holds of tables before a command holds after it, if every success keeps it. -/
theorem run_keeps {P : Tables → Prop} (h : s.tables.Coherent) (hs : P s.tables)
    (hkeeps : ∀ answer t', command.Effect stamp c s.tables answer t' → P t') :
    P (s.run stamp (command.body c)).2.tables := by
  obtain ⟨e, he⟩ | ⟨a, u, hu, heffect⟩ := settles stamp c h command
  · rw [he]
    exact hs
  · rw [hu]
    exact hkeeps a _ heffect

theorem run_coherent (h : s.tables.Coherent) (command : Command) :
    (s.run stamp (command.body c)).2.tables.Coherent :=
  run_keeps h h fun _ _ heffect => heffect.coherent h

/-- A command that fails leaves the session as it was, its flag included. -/
theorem failed_unchanged (h : s.tables.Coherent) (command : Command) {e : AccessError}
    (hfail : (s.run stamp (command.body c)).1 = .error e) :
    (s.run stamp (command.body c)).2 = s := by
  obtain ⟨e', he⟩ | ⟨a, u, hu, _⟩ := settles stamp c h command
  · rw [he]
  · rw [hu] at hfail
    cases hfail

theorem effect_of_run {u : Session} (h : s.tables.Coherent)
    (hrun : s.run stamp (command.body c) = (.ok answer, u)) :
    command.Effect stamp c s.tables answer u.tables :=
  (settles stamp c h command).ok hrun

end Command

end DriveAccess
