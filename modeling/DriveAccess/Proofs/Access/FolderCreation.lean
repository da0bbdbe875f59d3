import DriveAccess.Proofs.Access.Files
/-!
Folders that are created: row, closure rows and tuples of a new folder.
-/
namespace DriveAccess

/-- What the row of a folder says in tuples. -/
def Folder.tuples (f : Folder) : List Tuple :=
  .owner f.owner f.resource.object ::
    (f.parent.map fun p => Tuple.parent (.folder p) f.resource.object).toList

@[simp] theorem Folder.resource_object (f : Folder) : f.resource.object = .folder f.id := rfl

theorem Folder.object_of_mem_tuples {f : Folder} {u : Tuple} (hu : u ∈ f.tuples) :
    u.object = .folder f.id := by
  cases hp : f.parent with
  | none =>
    obtain rfl : u = _ := by simpa [Folder.tuples, hp] using hu
    rfl
  | some p =>
    obtain rfl | rfl : u = _ ∨ u = _ := by simpa [Folder.tuples, hp] using hu
    · rfl
    · rfl

namespace Tables

def addFolder (t : Tables) (stamp : Stamp) (f : Folder) : Tables :=
  let row := { t with folders := t.folders ++ [f] }
  (row.addPaths stamp.time (ancestorPaths f.id (t.upper f.parent))).addTuples stamp f.tuples

/-- What a new folder must be: unknown so far, below a parent that exists, at the depth that goes
with it. -/
structure Welcomes (t : Tables) (f : Folder) : Prop where
  new : t.folder? f.id = none
  parent : ∀ p, f.parent = some p → t.Lives p
  depth : (forestOf t.folders).PlaceDepth f.parent f.depth
  depth_le : f.depth ≤ maxFolderDepth

variable {t : Tables} {stamp : Stamp} {f : Folder} {x : Uuid} {q : Option Uuid} {r : Relation}
  {o : Object}

@[simp] theorem folders_addFolder : (t.addFolder stamp f).folders = t.folders ++ [f] := rfl

@[simp] theorem tuples_addFolder : (t.addFolder stamp f).tuples = t.tuples ++ f.tuples :=
  tuples_addTuples _

@[simp] theorem paths_addFolder :
    (t.addFolder stamp f).paths = t.paths ++ ancestorPaths f.id (t.upper f.parent) := paths_addPaths

theorem folder?_addFolder (hnew : t.folder? f.id = none) :
    (t.addFolder stamp f).folder? x = if x = f.id then some f else t.folder? x := by
  by_cases hx : x = f.id
  · subst hx
    simp only [folder?] at hnew
    simp [folder?, List.find?_append, hnew]
  · have hne : (f.id == x) = false := by simpa using Ne.symm hx
    simp [folder?, List.find?_append, hne, hx]

theorem subjectsIn_addFolder (ho : o ≠ .folder f.id) :
    subjectsIn (t.addFolder stamp f).tuples r o = subjectsIn t.tuples r o := by
  cases hp : f.parent <;> simp [Folder.tuples, hp, Tuple.owner, Tuple.parent, Ne.symm ho]

theorem Coherent.addFolder_hierarchy (h : t.Coherent) (hf : t.Welcomes f) :
    Hierarchical (t.addFolder stamp f).folders (t.addFolder stamp f).paths := by
  rw [paths_addFolder]
  refine h.hierarchy.add ?_ ?_ hf.depth hf.depth_le (upper_nodup h.hierarchy.exact.nodup)
    fun _ => mem_upper
  · simp [forestOf_eq, hf.new]
  · intro p hp
    exact forestOf_isSome_iff.mpr (hf.parent p hp)

/-- Nothing is said of a folder that has no row. -/
theorem Coherent.no_tuples (h : t.Coherent) (hx : t.folder? x = none) :
    subjectsIn t.tuples .owner (.folder x) = [] ∧
      subjectsIn t.tuples .parent (.folder x) = [] := by
  refine ⟨(h.folder x).owner.trans ?_, (h.folder x).parent.trans ?_⟩ <;> simp [hx]

theorem Coherent.addFolder (h : t.Coherent) (hf : t.Welcomes f) :
    (t.addFolder stamp f).Coherent where
  hierarchy := h.addFolder_hierarchy hf
  folder x := by
    rw [folder?_addFolder hf.new]
    by_cases hx : x = f.id
    · subst hx
      obtain ⟨howner, hparent⟩ := h.no_tuples hf.new
      rw [if_pos rfl]
      constructor
      · cases hp : f.parent <;>
          simp [Folder.tuples, howner, hp, Tuple.owner, Tuple.parent]
      · cases hp : f.parent <;>
          simp [Folder.tuples, hparent, hp, Tuple.owner, Tuple.parent]
    · rw [if_neg hx]
      have hne : Object.folder x ≠ .folder f.id := fun he => hx (Object.folder_inj he)
      exact (h.folder x).congr (subjectsIn_addFolder hne) (subjectsIn_addFolder hne)
  file x := by
    have hsame (r : Relation) : subjectsIn (t.addFolder stamp f).tuples r (.file x) =
        subjectsIn t.tuples r (.file x) := subjectsIn_addFolder Object.folder_ne_file.symm
    obtain hnone | ⟨user, d, hd, hrest⟩ := (h.file x).congr (hsame .owner) (hsame .parent)
    · exact .inl hnone
    · refine .inr ⟨user, d, ?_, hrest⟩
      rw [Lives, folder?_addFolder hf.new]
      split
      · rfl
      · exact hd
  group_owner x := (subjectsIn_addFolder Object.group_ne_folder).trans (h.group_owner x)
  group_parent x := (subjectsIn_addFolder Object.group_ne_folder).trans (h.group_parent x)
  members := by
    rw [tuples_addFolder]
    refine (members_append ?_).trans h.members
    cases hp : f.parent <;> simp [Folder.tuples, hp, Tuple.owner, Tuple.parent]
  memberships_nodup := h.memberships_nodup
  grant_owned g hg := by
    rw [tuples_addFolder, subjectsIn_append]
    exact List.append_ne_nil_of_left_ne_nil (h.grant_owned g hg) _
  grant_role := h.grant_role
  grants_nodup := h.grants_nodup

end Tables

namespace Program

variable {stamp : Stamp} {s u : Session} {c : Context} {f : Folder} {rows : List FolderPath}
  {actor owner : Uuid} {name : String} {parent : Option Uuid}

/-- The place of a new folder is fit for it, whether its identifier is new or not. -/
theorem placeFolder_ok (h : s.tables.Coherent)
    (hrun : s.run stamp (placeFolder c owner name parent) = (.ok (f, rows), u)) :
    f.owner = owner ∧ rows = s.tables.upper f.parent ∧
      (∀ p, f.parent = some p → s.tables.Lives p) ∧
      (forestOf s.tables.folders).PlaceDepth f.parent f.depth ∧ f.depth ≤ maxFolderDepth := by
  cases parent with
  | none =>
    cases hrun
    exact ⟨rfl, rfl, by simp [Folder.newRoot], rfl, Nat.zero_le _⟩
  | some id =>
    obtain ⟨g, hg, hrun⟩ := (reads_requireFolder id).run_bind hrun
    obtain ⟨_, _, hrun⟩ := (consults_requirePermission ..).reads.run_bind hrun
    obtain ⟨f', hnew, hrun⟩ := (consults_ofHierarchy _).reads.run_bind hrun
    rw [run_bind_read rfl] at hrun
    cases hrun
    have hnew := ofHierarchy_ok hnew
    have hg := requireFolder_ok hg
    obtain ⟨hmem, rfl⟩ := Tables.folder?_mem hg
    rw [Folder.newChild] at hnew
    split at hnew
    · cases hnew
    · rename_i hle
      cases hnew
      refine ⟨rfl, rfl, ?_, h.hierarchy.placeDepth_of_mem hmem, by simp only; omega⟩
      intro p hp
      cases hp
      simp [Tables.Lives, hg]

theorem createFolder_settles (h : s.tables.Coherent) :
    Settles stamp (createFolder c owner name parent) s fun f t =>
      f.owner = owner ∧ s.tables.Welcomes f ∧ t = s.tables.addFolder stamp f := by
  apply Settles.read (reads_request rfl)
  intro _ _
  apply Settles.read (reads_placeFolder ..)
  intro placed hplaced
  obtain ⟨f, rows⟩ := placed
  obtain ⟨hown, rfl, hparent, hdepth, hle⟩ := placeFolder_ok h hplaced
  apply Settles.attempt
  intro _ u hcreate
  rw [Session.perform] at hcreate
  split at hcreate
  · cases hcreate
  · rename_i hnew
    cases hcreate
    have hf : s.tables.Welcomes f := ⟨by simpa using hnew, hparent, hdepth, hle⟩
    obtain ⟨howner, hnoparent⟩ := h.no_tuples hf.new
    have hlater : Hierarchical (s.tables.addFolder stamp f).folders
        (s.tables.addFolder stamp f).paths := h.addFolder_hierarchy hf
    have hkeys := hlater.exact.keys_nodup hlater.grounded
    rw [Tables.paths_addFolder] at hkeys
    refine ⟨f, s.tables.addFolder stamp f, ?_, hown, hf, rfl⟩
    refine Yields.bind (yields_insertPaths hkeys) ?_
    apply Yields.bind (yields_createFirst howner)
    rw [Tables.addFolder, Folder.tuples, Tables.addTuples_cons]
    cases hp : f.parent with
    | none =>
      simp only [Option.map_none, Option.toList_none, Tables.addTuples_nil]
      exact yields_pure f
    | some p =>
      simp only [Option.map_some, Option.toList_some, Tables.addTuples_cons, Tables.addTuples_nil]
      have hfree : subjectsIn (s.tables.tuples ++ [.owner f.owner f.resource.object]) .parent
          (.folder f.id) = [] := by
        simpa [Tuple.owner] using hnoparent
      refine Yields.bind (yields_createFirst ?_) (yields_pure f)
      rw [Tables.tuples_addTuple]
      exact hfree

end Program

end DriveAccess
