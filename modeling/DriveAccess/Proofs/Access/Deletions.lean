import DriveAccess.Proofs.Runs.Coherence
/-!
What deletions take away: all that refers to what is deleted, and nothing else.
-/
namespace DriveAccess

/-! Rows, tuples and grants refer to resources. -/

def Folder.refersTo (f : Folder) (r : Resource) : Bool :=
  r == .folder f.id || f.parent.any fun p => r == .folder p

def FolderPath.refersTo (p : FolderPath) (r : Resource) : Bool :=
  r == .folder p.ancestor || r == .folder p.descendant

def Tuple.refersTo (u : Tuple) (r : Resource) : Bool :=
  u.object == r.object || u.subject == r.subject

def Grant.refersTo (g : Grant) (r : Resource) : Bool := g.resource == r

def DeletedSubtree.resources (d : DeletedSubtree) : List Resource :=
  d.folders.map .folder ++ d.files.map .file

namespace Tables

/-- All that does not refer to what is gone, in the same order. Memberships refer to no resource. -/
def without (t : Tables) (gone : List Resource) : Tables :=
  { t with
    relationships := t.relationships.filter fun u => !gone.any u.tuple.refersTo
    grants := t.grants.filter fun g => !gone.any g.refersTo
    folders := t.folders.filter fun f => !gone.any f.refersTo
    pathRecords := t.pathRecords.filter fun p => !gone.any p.path.refersTo }

variable {t : Tables} {gone : List Resource} {id x d e : Uuid} {files : List Uuid}

theorem any_refersTo_folder {f : Folder} : gone.any f.refersTo = true ↔
    .folder f.id ∈ gone ∨ ∃ p, f.parent = some p ∧ .folder p ∈ gone := by
  simp only [List.any_eq_true, Folder.refersTo, Bool.or_eq_true, beq_iff_eq, and_or_left,
    exists_or, exists_eq_right, Option.any_eq_true]
  apply or_congr_right
  constructor
  · intro hparent
    obtain ⟨_, hr, p, hp, rfl⟩ := hparent
    exact ⟨p, hp, hr⟩
  · intro hparent
    obtain ⟨p, hp, hr⟩ := hparent
    exact ⟨_, hr, p, hp, rfl⟩

theorem any_refersTo_path {p : FolderPath} : gone.any p.refersTo = true ↔
    .folder p.ancestor ∈ gone ∨ .folder p.descendant ∈ gone := by
  simp only [List.any_eq_true, FolderPath.refersTo, Bool.or_eq_true, beq_iff_eq, and_or_left,
    exists_or, exists_eq_right]

theorem any_refersTo_tuple {u : Tuple} : gone.any u.refersTo = true ↔
    u.object ∈ gone.map Resource.object ∨ u.subject ∈ gone.map Resource.subject := by
  simp only [List.any_eq_true, Tuple.refersTo, Bool.or_eq_true, beq_iff_eq, and_or_left,
    exists_or, List.mem_map, eq_comm (b := u.object), eq_comm (b := u.subject)]

theorem any_refersTo_grant {g : Grant} : gone.any g.refersTo = true ↔ g.resource ∈ gone := by
  simp only [List.any_eq_true, Grant.refersTo, beq_iff_eq, exists_eq_right']

theorem folder_mem_resources {d : DeletedSubtree} :
    Resource.folder x ∈ d.resources ↔ x ∈ d.folders := by
  simp [DeletedSubtree.resources, Resource.folder, Resource.file]

theorem map_object_resources {d : DeletedSubtree} : d.resources.map Resource.object =
    d.folders.map Object.folder ++ d.files.map Object.file := by
  simp only [DeletedSubtree.resources, List.map_append, List.map_map]
  rfl

theorem map_subject_resources {d : DeletedSubtree} : d.resources.map Resource.subject =
    d.folders.map Subject.folder ++ d.files.map Subject.file := by
  simp only [DeletedSubtree.resources, List.map_append, List.map_map]
  rfl

theorem grants_without (d : DeletedSubtree) : (t.without d.resources).grants =
    ((t.dropFiles d.files).detachFolders d.folders).grants := by
  simp only [without, detachFolders, dropFiles, List.filter_filter]
  apply List.filter_congr
  intro g _
  rw [Bool.eq_iff_iff]
  simp only [Bool.and_eq_true, Bool.not_eq_true', ← Bool.not_eq_true, any_refersTo_grant,
    DeletedSubtree.resources, List.mem_append, List.contains_iff_mem]
  tauto

/-- With a folder go the folders in it, so that none is left whose parent is gone. -/
theorem folders_without (d : DeletedSubtree)
    (h : ∀ f ∈ t.folders, ∀ p, f.parent = some p → p ∈ d.folders → f.id ∈ d.folders) :
    (t.without d.resources).folders = t.folders.filter fun f => !d.folders.contains f.id := by
  apply List.filter_congr
  intro f hf
  rw [Bool.eq_iff_iff]
  simp only [Bool.not_eq_true', ← Bool.not_eq_true, any_refersTo_folder, folder_mem_resources,
    List.contains_iff_mem]
  apply not_congr
  constructor
  · intro hgone
    obtain hid | ⟨p, hp, hgone⟩ := hgone
    · exact hid
    · exact h f hf p hp hgone
  · exact .inl

theorem pathRecords_without (d : DeletedSubtree)
    (h : ∀ p ∈ t.paths, p.ancestor ∈ d.folders → p.descendant ∈ d.folders) :
    (t.without d.resources).pathRecords =
      t.pathRecords.filter fun p => !d.folders.contains p.path.descendant := by
  apply List.filter_congr
  intro p hp
  have hpath : p.path ∈ t.paths := List.mem_map_of_mem hp
  rw [Bool.eq_iff_iff]
  simp only [Bool.not_eq_true', ← Bool.not_eq_true, any_refersTo_path, folder_mem_resources,
    List.contains_iff_mem]
  apply not_congr
  constructor
  · intro hgone
    exact hgone.elim (h p.path hpath) fun hd => hd
  · exact .inr

theorem mem_filesBelow : x ∈ t.filesBelow id ↔
    ∃ f ∈ t.descendantsOf id, Tuple.parent (.folder f) (.file x) ∈ t.tuples := by
  simp only [filesBelow, List.mem_flatMap, mem_filesOf, Tuple.parent]

/-- A file is listed in a folder as often as the folder is told to be its parent. -/
theorem count_filesOf : (t.filesOf d).count x =
    (subjectsIn t.tuples .parent (.file x)).count (.folder d) := by
  simp only [filesOf, objectsOf, tuplesWhere_eq, TupleFilter.selects_ofSubject_withRelation,
    subjectsIn, List.count_eq_countP, List.countP_map, List.countP_filter]
  apply List.countP_congr
  intro u _
  obtain ⟨s, r, ⟨k, y⟩⟩ := u
  simp only [Function.comp_apply, Object.file, Object.mk.injEq, Bool.and_eq_true, beq_iff_eq,
    decide_eq_true_eq]
  tauto

namespace Coherent

variable (h : t.Coherent)

include h

theorem descendantsOf_nodup (id : Uuid) : (t.descendantsOf id).Nodup := by
  refine (pathsFrom_nodup h.hierarchy.exact.nodup).map_on ?_
  intro p hp q hq hd
  obtain ⟨hp, hpid⟩ := mem_pathsFrom.mp hp
  obtain ⟨hq, hqid⟩ := mem_pathsFrom.mp hq
  have hkey : p.key = q.key := Prod.ext (hpid.trans hqid.symm) hd
  exact h.hierarchy.exact.key_inj h.hierarchy.grounded hp hq hkey

theorem filesOf_nodup (d : Uuid) : (t.filesOf d).Nodup := by
  rw [List.nodup_iff_count_le_one]
  intro x
  rw [count_filesOf]
  apply List.nodup_iff_count_le_one.mp
  obtain ⟨_, hnone⟩ | ⟨_, _, _, _, hone⟩ := h.file x
  · rw [hnone]
    exact .nil
  · rw [hone]
    exact List.nodup_singleton _

/-- A file lies in one folder. -/
theorem filesOf_unique (hd : x ∈ t.filesOf d) (he : x ∈ t.filesOf e) : d = e := by
  have hd := mem_subjectsIn.mpr (mem_filesOf.mp hd)
  have he := mem_subjectsIn.mpr (mem_filesOf.mp he)
  obtain ⟨_, hnone⟩ | ⟨_, _, _, _, hone⟩ := h.file x
  · simp [hnone] at hd
  · rw [hone, List.mem_singleton] at hd he
    exact congrArg Subject.id (hd.trans he.symm)

theorem filesBelow_nodup (id : Uuid) : (t.filesBelow id).Nodup := by
  refine List.nodup_flatMap.mpr ⟨fun d _ => h.filesOf_nodup d, ?_⟩
  apply (h.descendantsOf_nodup id).imp
  intro d e hne x hd he
  exact hne (h.filesOf_unique hd he)

/-- Files are no subjects. -/
theorem relationships_without (d : DeletedSubtree) : (t.without d.resources).relationships =
    ((t.dropFiles d.files).detachFolders d.folders).relationships := by
  simp only [without, detachFolders, Tables.dropFiles, keepTuples, List.filter_filter]
  apply List.filter_congr
  intro u hu
  have htuple : u.tuple ∈ t.tuples := List.mem_map_of_mem hu
  have hfile : u.tuple.subject ∉ d.files.map Subject.file := by
    intro hm
    obtain ⟨x, _, hx⟩ := List.mem_map.mp hm
    exact h.subject_ne_file htuple hx.symm
  rw [Bool.eq_iff_iff]
  simp only [Bool.and_eq_true, Bool.not_eq_true', ← Bool.not_eq_true, any_refersTo_tuple,
    map_object_resources, map_subject_resources, List.mem_append, List.contains_iff_mem]
  tauto

/-- What is left when a deletion takes with a folder all that lies below it. -/
theorem without_resources (d : DeletedSubtree)
    (hfolders : ∀ f ∈ t.folders, ∀ p, f.parent = some p → p ∈ d.folders → f.id ∈ d.folders)
    (hpaths : ∀ p ∈ t.paths, p.ancestor ∈ d.folders → p.descendant ∈ d.folders) :
    t.without d.resources = { (t.dropFiles d.files).detachFolders d.folders with
      folders := t.folders.filter fun f => !d.folders.contains f.id
      pathRecords := t.pathRecords.filter fun p => !d.folders.contains p.path.descendant } := by
  have hparts : t.without d.resources = { t with
      relationships := (t.without d.resources).relationships
      grants := (t.without d.resources).grants
      folders := (t.without d.resources).folders
      pathRecords := (t.without d.resources).pathRecords } := rfl
  rw [hparts, h.relationships_without, grants_without, folders_without d hfolders,
    pathRecords_without d hpaths]
  rfl

theorem deleteTree_eq_without (id : Uuid) : t.deleteTree id =
    t.without (DeletedSubtree.resources ⟨t.descendantsOf id, t.filesBelow id⟩) := by
  symm
  apply h.without_resources
  · intro f hf p hp hgone
    exact h.descendant_of_parent (h.folder?_eq_some.mpr ⟨hf, rfl⟩) hp hgone
  · intro p hp hgone
    rw [h.mem_descendantsOf] at hgone ⊢
    exact hgone.trans ⟨_, (h.hierarchy.exact.mem_iff p).mp hp⟩

theorem dropFiles_eq_without (files : List Uuid) :
    t.dropFiles files = t.without (files.map .file) := by
  have hwithout := h.without_resources ⟨[], files⟩ (by simp) (by simp)
  have hfiles : (DeletedSubtree.mk [] files).resources = files.map .file := rfl
  rw [← hfiles, hwithout]
  simp [Tables.dropFiles, detachFolders, keepTuples]

end Coherent

end Tables

end DriveAccess
