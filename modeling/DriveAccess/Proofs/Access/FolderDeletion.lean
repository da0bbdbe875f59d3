import DriveAccess.Proofs.Access.Files
/-!
Folders that are deleted with everything below them.
-/
namespace DriveAccess

namespace Tables

/-- Takes away all tuples and grants on folders, and all edges to what lies in them. -/
def detachFolders (t : Tables) (gone : List Uuid) : Tables :=
  { t.keepTuples fun u =>
      !(gone.map Object.folder).contains u.object &&
        !(gone.map Subject.folder).contains u.subject with
    grants := t.grants.filter fun g => !(gone.map Resource.folder).contains g.resource }

/-- Takes away a folder and all below it, with their rows, tuples and grants. -/
def dropSubtree (t : Tables) (id : Uuid) : Tables :=
  { (t.detachFolders (t.descendantsOf id)).keepPaths
      fun p => !(t.descendantsOf id).contains p.descendant with
    folders := t.folders.filter fun f => !(t.descendantsOf id).contains f.id }

/-- The files in a folder and in all below it. -/
def filesBelow (t : Tables) (id : Uuid) : List Uuid := (t.descendantsOf id).flatMap t.filesOf

def deleteTree (t : Tables) (id : Uuid) : Tables := (t.dropFiles (t.filesBelow id)).dropSubtree id

variable {t : Tables} {id x d : Uuid} {f : Folder} {r : Relation} {o : Object}

theorem tuples_dropSubtree : (t.dropSubtree id).tuples = t.tuples.filter fun u =>
    !((t.descendantsOf id).map Object.folder).contains u.object &&
      !((t.descendantsOf id).map Subject.folder).contains u.subject := by
  rw [tuples, tuples, List.filter_map]
  rfl

theorem paths_dropSubtree : (t.dropSubtree id).paths =
    t.paths.filter fun p => !(t.descendantsOf id).contains p.descendant := by
  rw [paths, paths, List.filter_map]
  rfl

theorem folder?_dropSubtree : (t.dropSubtree id).folder? x =
    if x ∈ t.descendantsOf id then none else t.folder? x := by
  simp only [dropSubtree, folder?, List.find?_filter]
  by_cases hx : x ∈ t.descendantsOf id
  · rw [if_pos hx, List.find?_eq_none]
    intro f _ hf
    simp only [decide_eq_true_eq, Bool.not_eq_true', beq_iff_eq] at hf
    obtain ⟨hout, rfl⟩ := hf
    simp [hx] at hout
  · rw [if_neg hx]
    congr 1
    funext f
    by_cases hf : f.id = x
    · simp [hf, hx]
    · simp [hf]

theorem subjectsIn_dropSubtree : subjectsIn (t.dropSubtree id).tuples r o =
    if o ∈ (t.descendantsOf id).map Object.folder then []
    else (subjectsIn t.tuples r o).filter fun s =>
      !((t.descendantsOf id).map Subject.folder).contains s := by
  by_cases ho : o ∈ (t.descendantsOf id).map Object.folder
  · simp only [tuples_dropSubtree, subjectsIn_filter, List.contains_iff_mem.mpr ho, ho]
    simp
  · have hc : ((t.descendantsOf id).map Object.folder).contains o = false := by simpa using ho
    simp only [tuples_dropSubtree, subjectsIn_filter, hc, ho]
    simp

theorem mem_folders_map {xs : List Uuid} :
    Object.folder x ∈ xs.map Object.folder ↔ x ∈ xs := by
  simp [Object.folder]

namespace Coherent

variable (h : t.Coherent)

include h

/-- Below a folder lies whatever lies in a folder below it. -/
theorem descendant_of_parent (hx : t.folder? x = some f) (hp : f.parent = some d)
    (hd : d ∈ t.descendantsOf id) : x ∈ t.descendantsOf id := by
  rw [h.mem_descendantsOf] at hd ⊢
  refine hd.trans ⟨1, .up (p := d) ?_ (.here (forestOf_isSome_iff.mpr (h.parent_lives hx hp)))⟩
  simp [forestOf_eq, hx, hp]

/-- Owners are users, whom no deletion of folders concerns. -/
theorem owner_dropSubtree (ho : o ∉ (t.descendantsOf id).map Object.folder) :
    subjectsIn (t.dropSubtree id).tuples .owner o = subjectsIn t.tuples .owner o := by
  rw [subjectsIn_dropSubtree, if_neg ho, List.filter_eq_self]
  intro s hs
  obtain ⟨user, rfl⟩ := h.owner_subject hs
  simp [Subject.user, Subject.folder]

/-- An edge stays where neither end is deleted. -/
theorem parent_dropSubtree (ho : o ∉ (t.descendantsOf id).map Object.folder)
    (hin : ∀ d, .folder d ∈ subjectsIn t.tuples .parent o → d ∉ t.descendantsOf id) :
    subjectsIn (t.dropSubtree id).tuples .parent o = subjectsIn t.tuples .parent o := by
  rw [subjectsIn_dropSubtree, if_neg ho, List.filter_eq_self]
  intro s hs
  obtain ⟨d, rfl, _⟩ := h.parent_subject hs
  have := hin d hs
  simpa [Subject.folder] using this

theorem dropSubtree
    (hfiles : ∀ x d, .folder d ∈ subjectsIn t.tuples .parent (.file x) → d ∉ t.descendantsOf id) :
    (t.dropSubtree id).Coherent where
  hierarchy := by
    rw [paths_dropSubtree]
    exact h.hierarchy.prune fun _ => mem_pathsFrom
  folder x := by
    rw [folder?_dropSubtree]
    by_cases hx : x ∈ t.descendantsOf id
    · have ho := mem_folders_map.mpr hx
      rw [if_pos hx]
      exact ⟨by rw [subjectsIn_dropSubtree, if_pos ho]; rfl,
        by rw [subjectsIn_dropSubtree, if_pos ho]; rfl⟩
    · have ho := fun hm => hx (mem_folders_map.mp hm)
      rw [if_neg hx]
      refine (h.folder x).congr (h.owner_dropSubtree ho) (h.parent_dropSubtree ho ?_)
      intro d hd
      rw [(h.folder x).parent] at hd
      cases hf : t.folder? x with
      | none => simp [hf] at hd
      | some f =>
        cases hp : f.parent with
        | none => simp [hf, hp] at hd
        | some p =>
          obtain rfl : d = p := by simpa [hf, hp, Subject.folder] using hd
          exact fun hgone => hx (h.descendant_of_parent hf hp hgone)
  file x := by
    have ho : Object.file x ∉ (t.descendantsOf id).map Object.folder := by
      simp [Object.file, Object.folder]
    have hx := (h.file x).congr (h.owner_dropSubtree ho) (h.parent_dropSubtree ho (hfiles x))
    obtain hnone | ⟨user, d, hd, howner, hparent⟩ := hx
    · exact .inl hnone
    · have hout : d ∉ t.descendantsOf id := by
        apply hfiles x d
        rw [← h.parent_dropSubtree ho (hfiles x), hparent]
        simp
      refine .inr ⟨user, d, ?_, howner, hparent⟩
      rwa [Lives, folder?_dropSubtree, if_neg hout]
  group_owner x := by
    rw [subjectsIn_dropSubtree, h.group_owner]
    simp
  group_parent x := by
    rw [subjectsIn_dropSubtree, h.group_parent]
    simp
  members := by
    rw [tuples_dropSubtree]
    refine (members_filter ?_).trans h.members
    intro u hu hm
    obtain ⟨m, _, rfl⟩ := h.member_mem hu hm
    simp [Membership.tuple, Tuple.member, Object.folder, Object.group, Subject.user, Subject.folder]
  memberships_nodup := h.memberships_nodup
  grant_owned g hg := by
    obtain ⟨hg, hkeep⟩ := List.mem_filter.mp hg
    have hout : g.resource.object ∉ (t.descendantsOf id).map Object.folder := by
      rw [Resource.object_mem_folders]
      simpa using hkeep
    rw [h.owner_dropSubtree hout]
    exact h.grant_owned g hg
  grant_role g hg := h.grant_role g (List.mem_of_mem_filter hg)
  grants_nodup := h.grants_nodup.sublist (List.filter_sublist.map _)

/-- No file is left in the folders that go. -/
theorem deleteTree (id : Uuid) : (t.deleteTree id).Coherent := by
  apply (h.dropFiles _).dropSubtree
  intro x d hd hgone
  rw [subjectsIn_dropFiles] at hd
  split at hd
  · simp at hd
  · rename_i hout
    have hx : x ∈ t.filesBelow id :=
      List.mem_flatMap.mpr ⟨d, hgone, mem_filesOf.mpr (mem_subjectsIn.mp hd)⟩
    exact hout (List.mem_map_of_mem hx)

end Coherent

end Tables

namespace Program

variable {stamp : Stamp} {s : Session} {c : Context} {t : Tables} {actor id : Uuid}

theorem yields_detachFolders (gone : List Uuid) :
    Yields stamp (detachFolders gone) t () (t.detachFolders gone) := by
  induction gone generalizing t with
  | nil =>
    have ht : t.detachFolders [] = t := by simp [Tables.detachFolders, Tables.keepTuples]
    rw [ht]
    exact yields_pure ()
  | cons x rest ih =>
    apply Yields.next (yields_deleteByObject _)
    intro _
    apply Yields.next (yields_deleteBySubject _)
    intro _
    apply Yields.next (yields_deleteGrantsFor _)
    intro _
    have ht : t.detachFolders (x :: rest) = Tables.detachFolders
        { (t.removeTuples (.ofObject (.folder x))).removeTuples (.ofSubject (.folder x)) with
          grants := t.grants.filter (!·.resource == .folder x) } rest := by
      simp only [Tables.detachFolders, Tables.removeTuples, Tables.keepTuples,
        TupleFilter.selects_ofObject, TupleFilter.selects_ofSubject, List.filter_filter,
        List.map_cons, List.contains_cons, Bool.not_or, Bool.beq_eq_decide_eq]
      congr 2 <;> funext _
      · ac_rfl
      · ac_rfl
    rw [ht]
    exact ih

/-- What is left to do once the folder may be deleted. -/
def removeSubtree (id : Uuid) : Program DeletedSubtree := do
  let folders : List Uuid ← request (.findDescendants id)
  let files ← filesIn folders
  detachFiles files
  detachFolders folders
  let _ ← request (.deleteSubtreePaths id)
  let _ ← request (.deleteFolders folders)
  return ⟨folders, files⟩

theorem deleteFolder_eq : deleteFolder c actor id = (do
    request .lockHierarchy
    let folder ← requireFolder id
    requirePermission c actor folder.resource .folderDelete
    removeSubtree id) := rfl

theorem yields_filesIn (folders : List Uuid) :
    Yields stamp (filesIn folders) t (folders.flatMap t.filesOf) t := by
  induction folders with
  | nil => exact yields_pure []
  | cons folder rest ih =>
    refine Yields.bind (yields_request rfl rfl) ?_
    exact Yields.bind ih (yields_pure _)

theorem yields_removeSubtree (id : Uuid) : Yields stamp (removeSubtree id) t
    ⟨t.descendantsOf id, t.filesBelow id⟩ (t.deleteTree id) := by
  refine Yields.bind (yields_request rfl rfl) ?_
  apply Yields.bind (yields_filesIn _)
  apply Yields.bind (yields_detachFiles _)
  apply Yields.bind (yields_detachFolders _)
  apply Yields.next (yields_deleteSubtreePaths id)
  intro _
  apply Yields.next (yields_deleteFolders _)
  intro _
  exact yields_pure _

theorem deleteFolder_settles : Settles stamp (deleteFolder c actor id) s fun d t =>
    d = ⟨s.tables.descendantsOf id, s.tables.filesBelow id⟩ ∧ t = s.tables.deleteTree id := by
  rw [deleteFolder_eq]
  apply Settles.read (reads_request rfl)
  intro _ _
  apply Settles.read (reads_requireFolder id)
  intro f _
  apply Settles.read (consults_requirePermission ..).reads
  intro _ _
  exact (yields_removeSubtree id).settles ⟨rfl, rfl⟩

end Program

end DriveAccess
