import DriveAccess.Proofs.Access.Deletions
import DriveAccess.Proofs.Resolution.Frames
import DriveAccess.Proofs.Resolution.Grants
/-!
What is made and then unmade. Nothing refers to what does not exist yet, so that its removal takes
away the rows that came with it and no others, and whoever made it may remove it.
-/
namespace DriveAccess

/-- Of old and new rows, those are dropped that are new. -/
theorem filter_append_new {α : Type} {old new : List α} {drop : α → Bool}
    (hold : ∀ a ∈ old, drop a = false) (hnew : ∀ a ∈ new, drop a = true) :
    (old ++ new).filter (!drop ·) = old := by
  have hkeep : old.filter (!drop ·) = old := by
    rw [List.filter_eq_self]
    intro a ha
    rw [hold a ha]
    rfl
  have hgo : new.filter (!drop ·) = [] := by
    rw [List.filter_eq_nil_iff]
    intro a ha
    rw [hnew a ha]
    decide
  rw [List.filter_append, hkeep, hgo, List.append_nil]

namespace Tables

/-- Nothing refers to a resource. -/
structure Ignores (t : Tables) (r : Resource) : Prop where
  tuples : ∀ u ∈ t.tuples, u.refersTo r = false
  grants : ∀ g ∈ t.grants, g.refersTo r = false
  folders : ∀ f ∈ t.folders, f.refersTo r = false
  paths : ∀ p ∈ t.paths, p.refersTo r = false

variable {t : Tables} {stamp : Stamp} {r : Resource} {f : Folder} {g : Grant} {m : Membership}
  {x id file owner folder : Uuid} {gone gone' : List Resource}

theorem without_congr (h : ∀ r, r ∈ gone ↔ r ∈ gone') : t.without gone = t.without gone' := by
  have hany (p : Resource → Bool) : gone.any p = gone'.any p := by
    rw [Bool.eq_iff_iff, List.any_eq_true, List.any_eq_true]
    exact exists_congr fun r => and_congr_left' (h r)
  simp only [without, hany]

/-- Of what refers to a resource that was ignored, nothing is left without it. -/
theorem Ignores.without {us : List Relationship} {fs : List Folder} {ps : List PathRecord}
    (h : t.Ignores r) (hu : ∀ u ∈ us, u.tuple.refersTo r = true)
    (hf : ∀ f ∈ fs, f.refersTo r = true) (hp : ∀ p ∈ ps, p.path.refersTo r = true) :
    Tables.without { t with
      relationships := t.relationships ++ us
      folders := t.folders ++ fs
      pathRecords := t.pathRecords ++ ps } [r] = t := by
  have htuples : ∀ u ∈ t.relationships, u.tuple.refersTo r = false := fun u hu =>
    h.tuples u.tuple (List.mem_map_of_mem hu)
  have hpaths : ∀ p ∈ t.pathRecords, p.path.refersTo r = false := fun p hp =>
    h.paths p.path (List.mem_map_of_mem hp)
  have hgrants : t.grants.filter (!Grant.refersTo · r) = t.grants := by
    have hnone := filter_append_new h.grants (List.forall_mem_nil (Grant.refersTo · r = true))
    rwa [List.append_nil] at hnone
  simp only [Tables.without, List.any_cons, List.any_nil, Bool.or_false]
  rw [filter_append_new htuples hu, filter_append_new h.folders hf, filter_append_new hpaths hp,
    hgrants]

namespace Coherent

variable (h : t.Coherent)

include h

/-- What has no owner and lies nowhere is no object of a tuple. -/
theorem object_ne (howner : subjectsIn t.tuples .owner r.object = [])
    (hparent : subjectsIn t.tuples .parent r.object = []) {u : Tuple} (hu : u ∈ t.tuples) :
    u.object ≠ r.object := by
  intro he
  obtain ⟨s, relation, o⟩ := u
  obtain rfl : o = r.object := he
  cases relation with
  | owner => exact not_mem_of_subjectsIn howner hu
  | parent => exact not_mem_of_subjectsIn hparent hu
  | member =>
    obtain ⟨m, _, hm⟩ := h.member_mem hu rfl
    exact Resource.object_ne_group (congrArg Tuple.object hm).symm

theorem ignores_folder (hx : t.folder? x = none) : t.Ignores (.folder x) where
  tuples u hu := by
    obtain ⟨howner, hparent⟩ := h.no_tuples hx
    have hobject : u.object ≠ .folder x := h.object_ne (r := .folder x) howner hparent hu
    have hsubject : u.subject ≠ .folder x := by
      intro he
      obtain ⟨user, hs⟩ | ⟨d, hs, hd⟩ := h.subject_kind hu
      · simp [he, Subject.folder, Subject.user] at hs
      · obtain rfl : x = d := congrArg Subject.id (he.symm.trans hs)
        simp [Lives, hx] at hd
    simp [Tuple.refersTo, hobject, hsubject]
  grants g hg := by
    have hne : g.resource ≠ .folder x := h.not_granted (r := .folder x) (h.no_tuples hx).1 hg
    simpa [Grant.refersTo] using hne
  folders f hf := by
    have hrow := h.folder?_eq_some.mpr ⟨hf, rfl⟩
    have hid : f.id ≠ x := by
      rintro rfl
      simp [hx] at hrow
    have hparent : f.parent ≠ some x := by
      intro hp
      have hlives := h.parent_lives hrow hp
      simp [Lives, hx] at hlives
    cases hp : f.parent with
    | none => simp [Folder.refersTo, Resource.folder, hp, Ne.symm hid]
    | some p =>
      have hne : x ≠ p := by
        rintro rfl
        exact hparent hp
      simp [Folder.refersTo, Resource.folder, hp, Ne.symm hid, hne]
  paths p hp := by
    have hclimbs := (h.hierarchy.exact.mem_iff p).mp hp
    have hnone : ¬ (forestOf t.folders x).isSome := by simp [forestOf_eq, hx]
    have hancestor : p.ancestor ≠ x := by
      rintro rfl
      exact hnone hclimbs.target
    have hdescendant : p.descendant ≠ x := by
      rintro rfl
      exact hnone hclimbs.node
    simp [FolderPath.refersTo, Resource.folder, Ne.symm hancestor, Ne.symm hdescendant]

theorem ignores_file (howner : subjectsIn t.tuples .owner (.file x) = [])
    (hparent : subjectsIn t.tuples .parent (.file x) = []) : t.Ignores (.file x) where
  tuples u hu := by
    have hobject : u.object ≠ .file x := h.object_ne (r := .file x) howner hparent hu
    have hsubject : u.subject ≠ .file x := h.subject_ne_file hu
    simp [Tuple.refersTo, Resource.object, Resource.subject, Resource.file, hobject, hsubject]
  grants g hg := by
    have hne : g.resource ≠ .file x := h.not_granted (r := .file x) howner hg
    simpa [Grant.refersTo] using hne
  folders f _ := by
    cases hp : f.parent <;> simp [Folder.refersTo, Resource.file, Resource.folder, hp]
  paths p _ := by simp [FolderPath.refersTo, Resource.file, Resource.folder]

omit h in
theorem mem_descendantsOf_iff_path :
    x ∈ t.descendantsOf id ↔ ∃ p ∈ t.paths, p.ancestor = id ∧ p.descendant = x := by
  simp only [descendantsOf, List.mem_map, mem_pathsFrom, and_assoc]

/-- Below a new folder lies nothing but the folder itself. -/
theorem mem_descendantsOf_addFolder (hf : t.Welcomes f) :
    x ∈ (t.addFolder stamp f).descendantsOf f.id ↔ x = f.id := by
  rw [mem_descendantsOf_iff_path, paths_addFolder]
  constructor
  · rintro ⟨p, hp, hancestor, rfl⟩
    rcases List.mem_append.mp hp with hp | hp
    · have hold := (h.ignores_folder hf.new).paths p hp
      simp [FolderPath.refersTo, Resource.folder, hancestor] at hold
    · exact descendant_of_mem_ancestorPaths hp
  · rintro rfl
    exact ⟨.self f.id, List.mem_append_right _ List.mem_cons_self, rfl, rfl⟩

theorem filesBelow_addFolder (hf : t.Welcomes f) :
    (t.addFolder stamp f).filesBelow f.id = [] := by
  rw [List.eq_nil_iff_forall_not_mem]
  intro x hx
  obtain ⟨d, hd, htuple⟩ := mem_filesBelow.mp hx
  obtain rfl := (h.mem_descendantsOf_addFolder hf).mp hd
  rw [tuples_addFolder] at htuple
  rcases List.mem_append.mp htuple with hold | hnew
  · have hnone := (h.ignores_folder hf.new).tuples _ hold
    simp [Tuple.refersTo, Tuple.parent] at hnone
  · exact Object.folder_ne_file (Folder.object_of_mem_tuples hnew).symm

/-- A folder that is made and deleted leaves no trace. -/
theorem deleteTree_addFolder (hf : t.Welcomes f) :
    (t.addFolder stamp f).deleteTree f.id = t := by
  have hgone (r : Resource) : r ∈ DeletedSubtree.resources
      ⟨(t.addFolder stamp f).descendantsOf f.id, (t.addFolder stamp f).filesBelow f.id⟩ ↔
        r ∈ [Resource.folder f.id] := by
    simp [DeletedSubtree.resources, h.filesBelow_addFolder hf, h.mem_descendantsOf_addFolder hf,
      eq_comm]
  rw [(h.addFolder hf).deleteTree_eq_without, without_congr hgone]
  apply (h.ignores_folder hf.new).without
  · intro u hu
    simp [Tuple.refersTo, Folder.object_of_mem_tuples (tuple_mem_of_mem_newRows hu)]
  · intro k hk
    obtain rfl := List.mem_singleton.mp hk
    simp [Folder.refersTo]
  · rw [List.forall_mem_map]
    intro p hp
    simp [FolderPath.refersTo, descendant_of_mem_ancestorPaths hp]

/-- A file that is registered and deleted leaves no trace. -/
theorem dropFiles_addFile (hlives : t.Lives folder)
    (howner : subjectsIn t.tuples .owner (.file file) = [])
    (hparent : subjectsIn t.tuples .parent (.file file) = []) :
    (t.addFile stamp file owner folder).dropFiles [file] = t := by
  have hadded : t.addFile stamp file owner folder = { t with
      relationships := t.relationships ++ t.newRows stamp (fileTuples file owner folder)
      folders := t.folders ++ [], pathRecords := t.pathRecords ++ [] } := by
    simp only [Tables.addFile, addTuples, List.append_nil]
  rw [(h.addFile hlives howner hparent).dropFiles_eq_without, hadded]
  apply (h.ignores_file howner hparent).without
  · intro u hu
    obtain he | he : u.tuple = _ ∨ u.tuple = _ := by
      simpa [fileTuples] using tuple_mem_of_mem_newRows hu
    · simp [he, Tuple.refersTo, Tuple.owner, Resource.object, Resource.file]
    · simp [he, Tuple.refersTo, Tuple.parent, Resource.object, Resource.file]
  · simp
  · simp

theorem removeMember_addMember (hnew : t.hasMember m.group m.user = false) :
    (t.addMember stamp m).removeMember m.group m.user = t := by
  have htuple : Tuple.member m.user m.group ∉ t.tuples := by
    rw [h.member_iff, hnew]
    decide
  have htuples : (t.addMember stamp m).relationships.filter
      (fun u => !decide (u.tuple = .member m.user m.group)) = t.relationships := by
    apply filter_append_new
    · intro u hu
      rw [decide_eq_false_iff_not]
      intro he
      exact htuple (he ▸ List.mem_map_of_mem hu)
    · simp [newRow, Membership.tuple]
  have hrows : (t.addMember stamp m).membershipRecords.filter
      (fun k => !(k.membership.group == m.group && k.membership.user == m.user)) =
        t.membershipRecords := by
    apply filter_append_new
    · intro k hk
      have hkept : k.membership ∈ t.memberships := List.mem_map_of_mem hk
      exact Bool.not_eq_true _ |>.mp (List.any_eq_false.mp hnew k.membership hkept)
    · simp
  simp only [Tables.removeMember, removeTuples, keepTuples, removeMembership,
    TupleFilter.selects_exact, htuples, hrows]
  rfl

end Coherent

theorem dropGrant_addGrant (hnew : ∀ k ∈ t.grants, k.id ≠ g.id) :
    (t.addGrant g).dropGrant g.id = t := by
  have hgrants : (t.grants ++ [g]).filter (!·.id == g.id) = t.grants := by
    apply filter_append_new
    · intro k hk
      simpa using hnew k hk
    · simp
  rw [dropGrant, addGrant, hgrants]

end Tables

namespace Program

variable {stamp : Stamp} {c : Context} {t : Tables} {actor id file group user : Uuid} {g : Grant}

theorem yields_deleteGrant (hg : t.grant? id = some g) :
    Yields stamp (request (.deleteGrant id)) t true (t.dropGrant id) := by
  have hid : g.id = id := by simpa using List.find?_some hg
  have hcount : 0 < t.grants.length - (t.grants.filter (!·.id == id)).length :=
    Session.removed_pos (List.mem_of_find?_eq_some hg) (by simp [hid])
  exact yields_request (congrArg Except.ok (decide_eq_true hcount))
    (Session.removeGrants_tables _)

theorem yields_removeMembership (hmember : t.hasMember group user = true) :
    Yields stamp (request (.removeMembership group user)) t true
      (t.removeMembership group user) := by
  obtain ⟨m, hm, hkey⟩ := List.any_eq_true.mp hmember
  obtain ⟨row, hrow, rfl⟩ := List.mem_map.mp hm
  have hcount : 0 < t.membershipRecords.length -
      (t.removeMembership group user).membershipRecords.length :=
    Session.removed_pos hrow (by rw [hkey]; rfl)
  refine yields_request (congrArg Except.ok (decide_eq_true hcount)) ?_
  exact Session.remove_tables (·.membershipRecords) fun hall => by
    simp only [Tables.removeMembership, hall]

theorem yields_removeGroupMember (hmember : t.hasMember group user = true) :
    Yields stamp (removeGroupMember group user) t () (t.removeMember group user) := by
  apply Yields.bind (yields_removeMembership hmember)
  apply Yields.next (yields_deleteRelationship (.member user group))
  exact fun _ => yields_pure ()

/-! Where authority is found, removals succeed. -/

section

variable (h : t.Coherent) (hdepth : maxFolderDepth + 1 ≤ c.maxDepth)

include h hdepth

theorem yields_requirePermission {r : Resource} (permission : Permission)
    (hauthority : t.AtLeast permission.least actor r) :
    Yields stamp (requirePermission c actor r permission) t () t :=
  (guards_requirePermission (s := .fresh t) h hdepth permission).yields hauthority

theorem yields_deleteFolder (hlives : t.Lives id)
    (hauthority : t.AtLeast .contentManager actor (.folder id)) :
    Yields stamp (deleteFolder c actor id) t ⟨t.descendantsOf id, t.filesBelow id⟩
      (t.deleteTree id) := by
  obtain ⟨f, hf⟩ := Option.isSome_iff_exists.mp hlives
  have hresource : f.resource = .folder id := by
    rw [Folder.resource, (Tables.folder?_mem hf).2]
  rw [deleteFolder_eq]
  refine Yields.bind (yields_request rfl rfl) ?_
  apply Yields.bind (yields_requireFolder hf)
  rw [hresource]
  apply Yields.bind (yields_requirePermission h hdepth .folderDelete hauthority)
  exact yields_removeSubtree id

theorem yields_deleteFile (hexists : t.Exists (.file file))
    (hauthority : t.AtLeast .contentManager actor (.file file)) :
    Yields stamp (deleteFile c actor file) t () (t.dropFiles [file]) := by
  obtain ⟨owners, howners⟩ := run_requireResource (s := .fresh t) hexists
  apply Yields.bind (yields_of_fresh howners)
  apply Yields.bind (yields_requirePermission h hdepth .fileDelete hauthority)
  exact yields_detachFiles [file]

theorem yields_revokeGrant (hg : t.grant? id = some g)
    (hauthority : t.Above g.role actor g.resource) :
    Yields stamp (revokeGrant c id actor) t g (t.dropGrant id) := by
  have hrole : g.role ≠ .owner := h.grant_role g (List.mem_of_find?_eq_some hg)
  apply Yields.bind (yields_of_fresh (run_requireGrant hg))
  rw [if_neg hrole]
  apply Yields.bind
    ((guards_requireGranter (s := .fresh t) h hdepth hrole (.revoke g.role)).yields hauthority)
  apply Yields.bind (yields_deleteGrant hg)
  exact (yields_record _).bind (yields_pure g)

end

/-! Who has made something may unmake it. -/

section

variable {made : Stamp} {owner folder : Uuid} {f : Folder} {m : Membership} (h : t.Coherent)

include h

theorem yields_removeGroupMember_addMember (hnew : t.hasMember m.group m.user = false) :
    Yields stamp (removeGroupMember m.group m.user) (t.addMember made m) () t := by
  have hmember : (t.addMember made m).hasMember m.group m.user = true := by
    simp [Tables.hasMember]
  have hremoved : Yields stamp (removeGroupMember m.group m.user) (t.addMember made m) () _ :=
    yields_removeGroupMember hmember
  rwa [h.removeMember_addMember hnew] at hremoved

variable (hdepth : maxFolderDepth + 1 ≤ c.maxDepth)

include hdepth

theorem yields_deleteFolder_addFolder (hf : t.Welcomes f) :
    ∃ d, Yields stamp (deleteFolder c f.owner f.id) (t.addFolder made f) d t := by
  have hlives : (t.addFolder made f).Lives f.id := by
    rw [Tables.Lives, Tables.folder?_addFolder hf.new, if_pos rfl]
    rfl
  have howns : (t.addFolder made f).Owns f.owner (.folder f.id) := by
    rw [Tables.Owns, Tables.tuples_addFolder]
    exact List.mem_append_right _ List.mem_cons_self
  have hdeleted : Yields stamp (deleteFolder c f.owner f.id) (t.addFolder made f) _ _ :=
    yields_deleteFolder (h.addFolder hf) hdepth hlives (howns.atLeast .contentManager)
  rw [h.deleteTree_addFolder hf] at hdeleted
  exact ⟨_, hdeleted⟩

theorem yields_deleteFile_addFile (hlives : t.Lives folder)
    (howner : subjectsIn t.tuples .owner (.file file) = [])
    (hparent : subjectsIn t.tuples .parent (.file file) = []) :
    Yields stamp (deleteFile c owner file) (t.addFile made file owner folder) () t := by
  have howns : (t.addFile made file owner folder).Owns owner (.file file) := by
    rw [Tables.Owns, Tables.tuples_addFile]
    exact List.mem_append_right _ List.mem_cons_self
  have hdeleted : Yields stamp (deleteFile c owner file) (t.addFile made file owner folder) () _ :=
    yields_deleteFile (h.addFile hlives howner hparent) hdepth ⟨owner, howns⟩
      (howns.atLeast .contentManager)
  rwa [h.dropFiles_addFile hlives howner hparent] at hdeleted

/-- The granter's own role is not touched by a lower one, whoever receives it. -/
theorem yields_revokeGrant_addGrant (hadmits : t.Admits g) (hnew : ∀ k ∈ t.grants, k.id ≠ g.id)
    (hauthority : t.Above g.role actor g.resource) :
    Yields stamp (revokeGrant c g.id actor) (t.addGrant g) g t := by
  have hnone : t.grants.find? (·.id == g.id) = none := by
    rw [List.find?_eq_none]
    intro k hk
    simpa using hnew k hk
  have hg : (t.addGrant g).grant? g.id = some g := by
    simp [Tables.grant?, Tables.addGrant, List.find?_append, hnone]
  have hlater : (t.addGrant g).Above g.role actor g.resource := by
    rw [Tables.Above, Tables.effectiveRole_addGrant_of_le (Nat.le_of_lt hauthority)]
    exact hauthority
  have hrevoked : Yields stamp (revokeGrant c g.id actor) (t.addGrant g) g _ :=
    yields_revokeGrant (h.addGrant hadmits) hdepth hg hlater
  rwa [Tables.dropGrant_addGrant hnew] at hrevoked

end

end Program

end DriveAccess
