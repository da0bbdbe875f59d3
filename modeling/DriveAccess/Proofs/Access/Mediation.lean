import DriveAccess.Access.Command
import DriveAccess.Proofs.Access.Guards
import DriveAccess.Proofs.Access.Sharing
/-!
The authority that each command asks for, and that it is asked for on every way to a success.
-/
namespace DriveAccess

namespace Tables

/-- A resource exists once somebody owns it. -/
def Exists (t : Tables) (r : Resource) : Prop := ∃ user, t.Owns user r

def AtLeast (t : Tables) (role : Role) (user : Uuid) (r : Resource) : Prop :=
  role.level ≤ Role.height (t.effectiveRole user r)

def Above (t : Tables) (role : Role) (user : Uuid) (r : Resource) : Prop :=
  role.level < Role.height (t.effectiveRole user r)

theorem Owns.atLeast {t : Tables} {user : Uuid} {r : Resource} (h : t.Owns user r) (role : Role) :
    t.AtLeast role user r := by
  rw [AtLeast, effectiveRole_of_owns .refl h]
  exact role.level_le

end Tables

namespace Command

/-- Whether the one on whose behalf a command is run has the authority for it. -/
def Authorized (t : Tables) : Command → Prop
  | authorizeShare user r => t.AtLeast .contentManager user r
  | grantRole r _ role grantedBy => t.Above role grantedBy r
  | revokeGrant id revokedBy => ∃ g, t.grant? id = some g ∧ t.Above g.role revokedBy g.resource
  | transferOwnership actor r _ => t.Owns actor r
  | createFolder owner _ parent =>
    match parent with
    | none => True
    | some p => t.AtLeast .contributor owner (.folder p)
  | moveFolder actor folder parent => t.AtLeast .contentManager actor (.folder folder) ∧
      match parent with
      | none => t.Owns actor (.folder folder)
      | some p => t.AtLeast .contributor actor (.folder p)
  | deleteFolder actor folder => t.AtLeast .contentManager actor (.folder folder)
  | registerFile owner _ folder => t.AtLeast .contributor owner (.folder folder)
  | deleteFile actor file => t.AtLeast .contentManager actor (.file file)
  | _ => True

/-- Whether all that a command names exists. -/
def Named (t : Tables) : Command → Prop
  | grantRole r _ _ _ | transferOwnership _ r _ => t.Exists r
  | revokeGrant id _ => ∃ g, t.grant? id = some g
  | createFolder _ _ parent => ∀ p, parent = some p → t.Lives p
  | moveFolder _ folder parent => t.Lives folder ∧ ∀ p, parent = some p → t.Lives p
  | deleteFolder _ folder | registerFile _ _ folder => t.Lives folder
  | deleteFile _ file => t.Exists (.file file)
  | _ => True

/-- Ownership is not granted, and nobody grants to themselves. -/
def Valid : Command → Prop
  | grantRole _ grantee role grantedBy => role ≠ .owner ∧ grantee ≠ .user grantedBy
  | _ => True

end Command

namespace Program

open Dialogue

variable {stamp : Stamp} {s : Session} {c : Context} {found : Prop} {user : Uuid} {r : Resource}
  {id file folder actor owner : Uuid} {f : Folder} {g : Grant} {grantee : Grantee} {role : Role}
  {parent : Option Uuid} {newParent : Option Folder} {name : String}

/-! What finds its way without a check of authority. -/

theorem lenient_createRelationship (t : Tuple) : Lenient (createRelationship t) :=
  (lenient_request _).bind fun _ => raises_pure _

theorem lenient_newParentPaths (p : Option Folder) : Lenient (newParentPaths p) := by
  cases p with
  | none => exact raises_pure _
  | some p => exact lenient_request _

theorem lenient_isRegistered (file : Uuid) : Lenient (isRegistered file) := by
  apply (lenient_request _).bind
  intro owners
  split
  · exact (lenient_request _).bind fun _ => raises_pure _
  · exact raises_pure _

theorem lenient_filesIn (folders : List Uuid) : Lenient (filesIn folders) := by
  induction folders with
  | nil => exact raises_pure _
  | cons x rest ih =>
    apply (lenient_request _).bind
    intro _
    exact ih.bind fun _ => raises_pure _

theorem lenient_detachFiles (files : List Uuid) : Lenient (detachFiles files) := by
  induction files with
  | nil => exact raises_pure _
  | cons x rest ih =>
    apply (lenient_request _).bind
    intro _
    exact (lenient_request _).bind fun _ => ih

theorem lenient_detachFolders (folders : List Uuid) : Lenient (detachFolders folders) := by
  induction folders with
  | nil => exact raises_pure _
  | cons x rest ih =>
    apply (lenient_request _).bind
    intro _
    apply (lenient_request _).bind
    intro _
    exact (lenient_request _).bind fun _ => ih

theorem lenient_recordOwner (r : Resource) (owner : Uuid) : Lenient (recordOwner r owner) := by
  obtain ⟨kind, id⟩ := r
  cases kind with
  | folder => exact lenient_request _
  | file => exact raises_pure _

theorem lenient_isInSubtree (folder : Uuid) (r : Resource) : Lenient (isInSubtree folder r) := by
  apply (lenient_request _).bind
  intro _
  refine Raises.bind ?_ fun _ => raises_pure _
  obtain ⟨kind, id⟩ := r
  cases kind with
  | folder => exact raises_pure _
  | file => exact (lenient_request _).bind fun _ => raises_pure _

theorem lenient_addGroupMember (group user : Uuid) (role : MembershipRole) :
    Lenient (addGroupMember group user role) := by
  apply (lenient_request _).bind
  intro _
  exact (lenient_createRelationship _).bind fun _ => raises_pure _

theorem lenient_removeGroupMember (group user : Uuid) : Lenient (removeGroupMember group user) := by
  apply (lenient_request _).bind
  intro removed
  split
  · exact (lenient_request _).bind fun _ => raises_pure _
  · exact lenient_fail (by simp [AccessError.kind])

theorem lenient_verifyHierarchy : Lenient verifyHierarchy := by
  apply (lenient_request _).bind
  intro _
  exact (lenient_request _).bind fun _ => raises_pure _

/-! What is named is found. -/

theorem run_requireFolder (h : s.tables.folder? id = some f) :
    s.run stamp (requireFolder id) = (.ok f, s) := by
  rw [requireFolder, findFolder, run_bind_read rfl, h]
  rfl

theorem run_requireNewParent (h : ∀ p, parent = some p → s.tables.Lives p) :
    s.run stamp (requireNewParent parent) = (.ok (parent.bind s.tables.folder?), s) := by
  cases parent with
  | none => rfl
  | some p =>
    obtain ⟨g, hg⟩ := Option.isSome_iff_exists.mp (h p rfl)
    have hrun : s.run stamp (requireNewParent (some p)) = _ := run_bind_ok (run_requireFolder hg)
    rw [hrun, Option.bind_some, hg]
    rfl

theorem run_requireGrant (h : s.tables.grant? id = some g) :
    s.run stamp (requireGrant id) = (.ok g, s) := by
  have hread : s.perform stamp (.findGrant id) = (.ok (some g), s) := by
    rw [← h]
    rfl
  rw [requireGrant, run_bind_read hread]
  rfl

theorem run_requireResource (h : s.tables.Exists r) :
    ∃ owners, s.run stamp (requireResource r) = (.ok owners, s) := by
  obtain ⟨user, howns⟩ := h
  have hmem :
      user ∈ ((s.tables.subjectsOf .owner r.object).filter (·.kind == .user)).map (·.id) := by
    rw [Tables.subjectsOf_eq]
    exact List.mem_map.mpr ⟨.user user, List.mem_filter.mpr ⟨mem_subjectsIn.mpr howns, rfl⟩, rfl⟩
  rw [requireResource, run_bind_read rfl]
  dsimp only
  split
  · rename_i hempty
    have hnone : ((s.tables.subjectsOf .owner r.object).filter (·.kind == .user)).map (·.id) = [] :=
      List.isEmpty_iff.mp hempty
    rw [hnone] at hmem
    cases hmem
  · exact ⟨_, rfl⟩

/-- A folder that is named is there, and authority is asked for on it. -/
theorem judged_requireFolder {α : Type} {next : Folder → Program α} {authority : Prop}
    (hlives : found → s.tables.Lives id)
    (h : ∀ f, f.resource = .folder id → Judged stamp (next f) s found authority) :
    Judged stamp (requireFolder id >>= next) s found authority := by
  apply Judged.read (reads_requireFolder id)
  · intro hfound
    obtain ⟨f, hf⟩ := Option.isSome_iff_exists.mp (hlives hfound)
    exact ⟨f, run_requireFolder hf⟩
  · intro f hf
    have hid := (Tables.folder?_mem (requireFolder_ok hf)).2
    apply h
    rw [Folder.resource, hid]

variable (h : s.tables.Coherent) (hdepth : maxFolderDepth + 1 ≤ c.maxDepth)

include h hdepth

theorem judged_requirePermission (user : Uuid) (r : Resource) (permission : Permission) :
    Judged stamp (requirePermission c user r permission) s found
      (s.tables.AtLeast permission.least user r) :=
  (guards_requirePermission h hdepth permission).judged

theorem judged_placeFolder (hlives : found → ∀ p, parent = some p → s.tables.Lives p) :
    Judged stamp (placeFolder c owner name parent) s found
      (Command.Authorized s.tables (.createFolder owner name parent)) := by
  cases parent with
  | none => exact Lenient.judged (raises_pure _)
  | some p =>
    apply judged_requireFolder fun hfound => hlives hfound p rfl
    intro f hf
    rw [hf]
    apply (judged_requirePermission h hdepth owner _ .folderCreate).lenient
    intro _
    apply (lenient_ofHierarchy _).bind
    intro _
    exact (lenient_request _).bind fun _ => raises_pure _

theorem judged_createFolder (hlives : found → ∀ p, parent = some p → s.tables.Lives p) :
    Judged stamp (createFolder c owner name parent) s found
      (Command.Authorized s.tables (.createFolder owner name parent)) := by
  apply Judged.read (reads_request rfl) fun _ => ⟨_, rfl⟩
  intro _ _
  apply (judged_placeFolder h hdepth hlives).lenient
  intro placed
  apply (lenient_request _).bind
  intro _
  apply (lenient_request _).bind
  intro _
  apply (lenient_createRelationship _).bind
  intro _
  split
  · exact raises_pure _
  · exact (lenient_createRelationship _).bind fun _ => raises_pure _

/-- Who moves a folder is asked twice. -/
theorem guards_requireMove (hf : f.resource = .folder id)
    (hids : newParent.map (·.id) = parent) :
    Guards stamp (requireMove c actor f newParent) s
      (Command.Authorized s.tables (.moveFolder actor id parent)) := by
  subst hids
  cases newParent with
  | none =>
    rw [requireMove, hf]
    exact (guards_requirePermission h hdepth .folderMoveOut).and (guards_requireOwner _)
  | some p =>
    rw [requireMove, hf]
    exact (guards_requirePermission h hdepth .folderMoveOut).and
      (guards_requirePermission h hdepth .folderMoveIn)

theorem judged_moveFolder (hlives : found → s.tables.Lives id)
    (hparent : found → ∀ p, parent = some p → s.tables.Lives p) :
    Judged stamp (moveFolder c actor id parent) s found
      (Command.Authorized s.tables (.moveFolder actor id parent)) := by
  apply Judged.read (reads_request rfl) fun _ => ⟨_, rfl⟩
  intro _ _
  apply judged_requireFolder hlives
  intro f hf
  apply Judged.read (reads_requireNewParent parent)
  · intro hfound
    exact ⟨_, run_requireNewParent (hparent hfound)⟩
  · intro newParent hnew
    apply (guards_requireMove h hdepth hf (requireNewParent_ok hnew).2).judged.lenient
    intro _
    apply (lenient_request _).bind
    intro _
    apply (lenient_request _).bind
    intro _
    apply (lenient_ofHierarchy _).bind
    intro _
    apply (lenient_newParentPaths _).bind
    intro _
    apply (lenient_request _).bind
    intro _
    apply (lenient_request _).bind
    intro _
    apply (lenient_request _).bind
    intro _
    apply (lenient_request _).bind
    intro _
    apply (lenient_record _).bind
    intro _
    exact lenient_requireFolder _

theorem judged_deleteFolder (hlives : found → s.tables.Lives id) :
    Judged stamp (deleteFolder c actor id) s found
      (Command.Authorized s.tables (.deleteFolder actor id)) := by
  apply Judged.read (reads_request rfl) fun _ => ⟨_, rfl⟩
  intro _ _
  apply judged_requireFolder hlives
  intro f hf
  rw [hf]
  apply (judged_requirePermission h hdepth actor _ .folderDelete).lenient
  intro _
  apply (lenient_request _).bind
  intro folders
  apply (lenient_filesIn _).bind
  intro files
  apply (lenient_detachFiles _).bind
  intro _
  apply (lenient_detachFolders _).bind
  intro _
  apply (lenient_request _).bind
  intro _
  exact (lenient_request _).bind fun _ => raises_pure _

theorem judged_registerFile (hlives : found → s.tables.Lives folder) :
    Judged stamp (registerFile c owner file folder) s found
      (Command.Authorized s.tables (.registerFile owner file folder)) := by
  apply judged_requireFolder hlives
  intro f hf
  rw [hf]
  apply (judged_requirePermission h hdepth owner _ .folderWrite).lenient
  intro _
  apply (lenient_isRegistered _).bind
  intro registered
  split
  · exact lenient_fail (by simp [AccessError.kind])
  · apply (lenient_createRelationship _).bind
    intro _
    exact (lenient_createRelationship _).bind fun _ => raises_pure _

theorem judged_deleteFile (hexists : found → s.tables.Exists (.file file)) :
    Judged stamp (deleteFile c actor file) s found
      (Command.Authorized s.tables (.deleteFile actor file)) := by
  apply Judged.read (consults_requireResource _).reads fun hfound =>
    run_requireResource (hexists hfound)
  intro _ _
  exact (judged_requirePermission h hdepth actor _ .fileDelete).lenient fun _ =>
    lenient_detachFiles _

theorem judged_authorizeShare : Judged stamp (authorizeShare c user r) s found
    (Command.Authorized s.tables (.authorizeShare user r)) := by
  have hleast : (sharePermission r).least = .contentManager := by
    obtain ⟨kind, id⟩ := r
    cases kind <;> rfl
  have hjudged : Judged stamp (authorizeShare c user r) s found
      (s.tables.AtLeast (sharePermission r).least user r) :=
    judged_requirePermission h hdepth user r _
  rwa [hleast] at hjudged

theorem judged_grantRole (hexists : found → s.tables.Exists r)
    (hvalid : found → Command.Valid (.grantRole r grantee role actor)) :
    Judged stamp (grantRole c r grantee role actor) s found
      (Command.Authorized s.tables (.grantRole r grantee role actor)) := by
  apply Judged.read (consults_ofExcept _).reads
  · intro hfound
    obtain ⟨hrole, hgrantee⟩ := hvalid hfound
    refine ⟨(), ?_⟩
    rw [validateGrant, if_neg hrole, if_neg hgrantee]
    rfl
  · intro _ hchecked
    have hrole : role ≠ .owner := by
      intro he
      simp only [validateGrant, he, if_true] at hchecked
      cases hchecked
    apply Judged.read (consults_requireResource _).reads fun hfound =>
      run_requireResource (hexists hfound)
    intro _ _
    apply (guards_requireGranter h hdepth hrole _).judged.lenient
    intro _
    apply (lenient_request _).bind
    intro held
    split
    · exact lenient_fail (by simp [AccessError.kind])
    · apply (lenient_request _).bind
      intro _
      exact (lenient_record _).bind fun _ => raises_pure _

theorem judged_revokeGrant (hexists : found → ∃ g, s.tables.grant? id = some g) :
    Judged stamp (revokeGrant c id actor) s found
      (Command.Authorized s.tables (.revokeGrant id actor)) := by
  apply Judged.read (reads_requireGrant id)
  · intro hfound
    obtain ⟨g, hg⟩ := hexists hfound
    exact ⟨g, run_requireGrant hg⟩
  · intro g hg
    have hgrant : s.tables.grant? id = some g := requireGrant_ok hg
    have hrole : g.role ≠ .owner := h.grant_role g (List.mem_of_find?_eq_some hgrant)
    have hauthority : Command.Authorized s.tables (.revokeGrant id actor) ↔
        s.tables.Above g.role actor g.resource := by
      simp only [Command.Authorized, hgrant, Option.some.injEq, exists_eq_left']
    rw [if_neg hrole, hauthority]
    apply (guards_requireGranter h hdepth hrole _).judged.lenient
    intro _
    apply (lenient_request _).bind
    intro removed
    split
    · exact (lenient_record _).bind fun _ => raises_pure _
    · exact lenient_fail (by simp [AccessError.kind])

omit h hdepth in
theorem judged_transferOwnership (hexists : found → s.tables.Exists r) :
    Judged stamp (transferOwnership c actor r owner) s found
      (Command.Authorized s.tables (.transferOwnership actor r owner)) := by
  apply Judged.read (consults_requireResource _).reads fun hfound =>
    run_requireResource (hexists hfound)
  intro owners _
  apply (guards_requireOwner _).judged.lenient
  intro _
  split
  · exact lenient_fail (by simp [AccessError.kind])
  · apply (lenient_request _).bind
    intro _
    apply (lenient_recordOwner _ _).bind
    intro _
    exact lenient_record _

end Program

open Program

/-- No command does without the check of the authority that it needs. -/
theorem Command.judged {stamp : Stamp} {s : Session} {c : Context} (h : s.tables.Coherent)
    (hdepth : maxFolderDepth + 1 ≤ c.maxDepth) (command : Command) :
    Judged stamp (command.body c) s (command.Named s.tables ∧ command.Valid)
      (command.Authorized s.tables) := by
  cases command with
  | checkAccess user r p => exact (lenient_resolve _).judged
  | collectPermissions user r => exact (lenient_resolve _).judged
  | effectiveRole user r => exact (lenient_resolve _).judged
  | canGrantRole user r role => exact (lenient_resolve _).judged
  | authorizeShare user r => exact judged_authorizeShare h hdepth
  | isInSubtree folder r => exact (lenient_isInSubtree folder r).judged
  | listGrants r => exact (lenient_request _).judged
  | verifyHierarchy => exact lenient_verifyHierarchy.judged
  | grantRole r grantee role grantedBy =>
    exact judged_grantRole h hdepth (fun hfound => hfound.1) fun hfound => hfound.2
  | revokeGrant grant revokedBy => exact judged_revokeGrant h hdepth fun hfound => hfound.1
  | transferOwnership actor r newOwner => exact judged_transferOwnership fun hfound => hfound.1
  | createFolder owner name parent => exact judged_createFolder h hdepth fun hfound => hfound.1
  | moveFolder actor folder newParent =>
    exact judged_moveFolder h hdepth (fun hfound => hfound.1.1) fun hfound => hfound.1.2
  | deleteFolder actor folder => exact judged_deleteFolder h hdepth fun hfound => hfound.1
  | registerFile owner file folder => exact judged_registerFile h hdepth fun hfound => hfound.1
  | deleteFile actor file => exact judged_deleteFile h hdepth fun hfound => hfound.1
  | addGroupMember group user role => exact (lenient_addGroupMember group user role).judged
  | removeGroupMember group user => exact (lenient_removeGroupMember group user).judged

end DriveAccess
