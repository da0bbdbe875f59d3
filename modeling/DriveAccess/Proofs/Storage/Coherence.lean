import DriveAccess.Proofs.Hierarchy.FolderRows
import DriveAccess.Proofs.Storage.Subjects
/-!
Tables whose copies of one fact agree: folder rows with the closure table and with tuples, files
with two tuples each, memberships with tuples, grants with the owners of what they are on.
-/
namespace DriveAccess

theorem Object.kinds (o : Object) :
    (∃ x, o = .folder x) ∨ (∃ x, o = .file x) ∨ ∃ x, o = .group x := by
  obtain ⟨k, x⟩ := o
  cases k with
  | folder => exact .inl ⟨x, rfl⟩
  | file => exact .inr (.inl ⟨x, rfl⟩)
  | group => exact .inr (.inr ⟨x, rfl⟩)

namespace Object

variable {x y : Uuid}

theorem file_inj (h : file x = file y) : x = y := congrArg Object.id h

theorem folder_inj (h : folder x = folder y) : x = y := congrArg Object.id h

theorem folder_ne_file : folder x ≠ file y := by simp [folder, file]

theorem group_ne_file : group x ≠ file y := by simp [group, file]

theorem group_ne_folder : group x ≠ folder y := by simp [group, folder]

end Object

namespace Resource

variable {r : Resource} {x : Uuid}

theorem object_eq_folder : r.object = .folder x ↔ r = .folder x := by
  obtain ⟨k, y⟩ := r
  cases k <;> simp [object, folder, Object.folder, Object.file]

theorem object_eq_file : r.object = .file x ↔ r = .file x := by
  obtain ⟨k, y⟩ := r
  cases k <;> simp [object, file, Object.folder, Object.file]

theorem object_ne_group : r.object ≠ .group x := by
  obtain ⟨k, y⟩ := r
  cases k <;> simp [object, Object.folder, Object.file, Object.group]

theorem object_mem_folders {xs : List Uuid} :
    r.object ∈ xs.map Object.folder ↔ r ∈ xs.map Resource.folder := by
  simp only [List.mem_map, eq_comm (b := r), eq_comm (b := r.object), object_eq_folder]

theorem object_mem_files {xs : List Uuid} :
    r.object ∈ xs.map Object.file ↔ r ∈ xs.map Resource.file := by
  simp only [List.mem_map, eq_comm (b := r), eq_comm (b := r.object), object_eq_file]

end Resource

def Grant.assignment (g : Grant) : Resource × Grantee × Role := (g.resource, g.grantee, g.role)

def Membership.key (m : Membership) : Uuid × Uuid := (m.group, m.user)

theorem assignment_not_mem {gs : List Grant} {g : Grant} (h : gs.any g.sameAssignment = false) :
    g.assignment ∉ gs.map Grant.assignment := by
  intro hmem
  obtain ⟨k, hk, he⟩ := List.mem_map.mp hmem
  simp only [Grant.assignment, Prod.mk.injEq] at he
  have hno := List.any_eq_false.mp h k hk
  simp [Grant.sameAssignment, he] at hno

theorem key_not_mem {ms : List Membership} {m : Membership}
    (h : (ms.any fun x => x.group == m.group && x.user == m.user) = false) :
    m.key ∉ ms.map Membership.key := by
  intro hmem
  obtain ⟨k, hk, he⟩ := List.mem_map.mp hmem
  simp only [Membership.key, Prod.mk.injEq] at he
  have hno := List.any_eq_false.mp h k hk
  simp [he] at hno

def Membership.tuple (m : Membership) : Tuple := .member m.user m.group

/-- A folder has the tuples that its row tells of. -/
structure FolderTuples (ts : List Tuple) (folder : Uuid) (row : Option Folder) : Prop where
  owner : subjectsIn ts .owner (.folder folder) =
    (row.map fun f => Subject.user f.owner).toList
  parent : subjectsIn ts .parent (.folder folder) =
    ((row.bind (·.parent)).map Subject.folder).toList

/-- A file has one owner and lies in one folder, or has no tuples. -/
def FileTuples (ts : List Tuple) (lives : Uuid → Prop) (file : Uuid) : Prop :=
  (subjectsIn ts .owner (.file file) = [] ∧ subjectsIn ts .parent (.file file) = []) ∨
    ∃ user folder, lives folder ∧ subjectsIn ts .owner (.file file) = [.user user] ∧
      subjectsIn ts .parent (.file file) = [.folder folder]

section

variable {ts us : List Tuple} {x : Uuid} {row : Option Folder} {lives : Uuid → Prop}

theorem FolderTuples.congr (h : FolderTuples ts x row)
    (howner : subjectsIn us .owner (.folder x) = subjectsIn ts .owner (.folder x))
    (hparent : subjectsIn us .parent (.folder x) = subjectsIn ts .parent (.folder x)) :
    FolderTuples us x row :=
  ⟨howner.trans h.owner, hparent.trans h.parent⟩

theorem FileTuples.congr (h : FileTuples ts lives x)
    (howner : subjectsIn us .owner (.file x) = subjectsIn ts .owner (.file x))
    (hparent : subjectsIn us .parent (.file x) = subjectsIn ts .parent (.file x)) :
    FileTuples us lives x := by
  rwa [FileTuples, howner, hparent]

end

namespace Tables

def Lives (t : Tables) (folder : Uuid) : Prop := (t.folder? folder).isSome

structure Coherent (t : Tables) : Prop where
  hierarchy : Hierarchical t.folders t.paths
  folder : ∀ x, FolderTuples t.tuples x (t.folder? x)
  file : ∀ x, FileTuples t.tuples t.Lives x
  group_owner : ∀ x, subjectsIn t.tuples .owner (.group x) = []
  group_parent : ∀ x, subjectsIn t.tuples .parent (.group x) = []
  members : t.tuples.filter (·.relation == .member) = t.memberships.map Membership.tuple
  memberships_nodup : (t.memberships.map Membership.key).Nodup
  grant_owned : ∀ g ∈ t.grants, subjectsIn t.tuples .owner g.resource.object ≠ []
  grant_role : ∀ g ∈ t.grants, g.role ≠ .owner
  grants_nodup : (t.grants.map Grant.assignment).Nodup

theorem coherent_empty : ({} : Tables).Coherent where
  hierarchy := hierarchical_nil
  folder _ := ⟨rfl, rfl⟩
  file _ := .inl ⟨rfl, rfl⟩
  group_owner _ := rfl
  group_parent _ := rfl
  members := rfl
  memberships_nodup := .nil
  grant_owned := by simp
  grant_role := by simp
  grants_nodup := .nil

variable {t : Tables} {x p id : Uuid} {f : Folder}

theorem lives_iff : t.Lives x ↔ ∃ f ∈ t.folders, f.id = x := by
  simp [Lives, folder?]

theorem forestOf_eq : forestOf t.folders x = (t.folder? x).map (·.parent) := rfl

theorem forestOf_isSome_iff : (forestOf t.folders x).isSome ↔ t.Lives x := by
  simp [forestOf_eq, Lives]

theorem lives_updateFolder {g : Folder → Folder} (hid : ∀ f, (g f).id = f.id) (id : Uuid) :
    (t.updateFolder id g).Lives x ↔ t.Lives x := by
  have hkey (f : Folder) : (if f.id == id then g f else f).id = f.id := by
    split
    · exact hid f
    · rfl
  rw [Lives, updateFolder, folder?, find?_map_id hkey, Option.isSome_map]
  rfl

theorem folder?_mem (h : t.folder? x = some f) : f ∈ t.folders ∧ f.id = x :=
  ⟨List.mem_of_find?_eq_some h, by simpa using List.find?_some h⟩

namespace Coherent

variable (h : t.Coherent)

include h

theorem folder?_eq_some : t.folder? x = some f ↔ f ∈ t.folders ∧ f.id = x :=
  find?_id_eq_some h.hierarchy.ids_nodup

/-- A parent is a folder of its own. -/
theorem parent_lives (hx : t.folder? x = some f) (hp : f.parent = some p) : t.Lives p := by
  have hforest : forestOf t.folders x = some (some p) := by simp [forestOf_eq, hx, hp]
  exact forestOf_isSome_iff.mp (h.hierarchy.grounded.parent hforest)

theorem mem_descendantsOf : x ∈ t.descendantsOf id ↔ (forestOf t.folders).Below id x :=
  h.hierarchy.exact.mem_below fun _ => mem_pathsFrom

/-- A folder with an owner tuple has a row. -/
theorem lives_of_owner (hx : subjectsIn t.tuples .owner (.folder x) ≠ []) : t.Lives x := by
  rw [(h.folder x).owner] at hx
  cases hf : t.folder? x with
  | none => simp [hf] at hx
  | some f => simp [Lives, hf]

theorem member_mem {u : Tuple} (hu : u ∈ t.tuples) (hr : u.relation = .member) :
    ∃ m ∈ t.memberships, m.tuple = u := by
  have hm : u ∈ t.tuples.filter (·.relation == .member) :=
    List.mem_filter.mpr ⟨hu, by simp [hr]⟩
  rw [h.members] at hm
  exact List.mem_map.mp hm

/-- What lies in a folder lies in one that exists. -/
theorem parent_subject {s : Subject} {o : Object} (hs : s ∈ subjectsIn t.tuples .parent o) :
    ∃ d, s = .folder d ∧ t.Lives d := by
  obtain ⟨x, rfl⟩ | ⟨x, rfl⟩ | ⟨x, rfl⟩ := o.kinds
  · rw [(h.folder x).parent] at hs
    cases hx : t.folder? x with
    | none => simp [hx] at hs
    | some f =>
      cases hp : f.parent with
      | none => simp [hx, hp] at hs
      | some d =>
        obtain rfl : s = .folder d := by simpa [hx, hp] using hs
        exact ⟨d, rfl, h.parent_lives hx hp⟩
  · obtain ⟨_, hnone⟩ | ⟨_, d, hd, _, hone⟩ := h.file x
    · simp [hnone] at hs
    · exact ⟨d, by simpa [hone] using hs, hd⟩
  · simp [h.group_parent] at hs

/-- Changes of memberships leave owners and parents alone. -/
theorem withMembers {u : Tables}
    (hrest : u = { t with
      relationships := u.relationships, membershipRecords := u.membershipRecords })
    (howner : ∀ o, subjectsIn u.tuples .owner o = subjectsIn t.tuples .owner o)
    (hparent : ∀ o, subjectsIn u.tuples .parent o = subjectsIn t.tuples .parent o)
    (hmembers : u.tuples.filter (·.relation == .member) = u.memberships.map Membership.tuple)
    (hnodup : (u.memberships.map Membership.key).Nodup) : u.Coherent := by
  have hfolders : u.folders = t.folders := by rw [hrest]
  have hpaths : u.paths = t.paths := by rw [hrest]; rfl
  have hgrants : u.grants = t.grants := by rw [hrest]
  have hfind (x : Uuid) : u.folder? x = t.folder? x := by rw [folder?, hfolders, folder?]
  have hlives : u.Lives = t.Lives := funext fun x => by rw [Lives, hfind, Lives]
  constructor
  · rw [hfolders, hpaths]
    exact h.hierarchy
  · intro x
    rw [hfind]
    exact (h.folder x).congr (howner _) (hparent _)
  · intro x
    rw [hlives]
    exact (h.file x).congr (howner _) (hparent _)
  · exact fun x => (howner _).trans (h.group_owner x)
  · exact fun x => (hparent _).trans (h.group_parent x)
  · exact hmembers
  · exact hnodup
  · intro g hg
    rw [howner]
    exact h.grant_owned g (hgrants ▸ hg)
  · exact fun g hg => h.grant_role g (hgrants ▸ hg)
  · rw [hgrants]
    exact h.grants_nodup

theorem owner_subject {s : Subject} {o : Object} (hs : s ∈ subjectsIn t.tuples .owner o) :
    ∃ user, s = .user user := by
  obtain ⟨x, rfl⟩ | ⟨x, rfl⟩ | ⟨x, rfl⟩ := o.kinds
  · rw [(h.folder x).owner] at hs
    cases hx : t.folder? x with
    | none => simp [hx] at hs
    | some f => exact ⟨f.owner, by simpa [hx] using hs⟩
  · obtain ⟨hnone, _⟩ | ⟨user, _, _, hone, _⟩ := h.file x
    · simp [hnone] at hs
    · exact ⟨user, by simpa [hone] using hs⟩
  · simp [h.group_owner] at hs

/-- Subjects are users, and folders that exist. -/
theorem subject_kind {u : Tuple} (hu : u ∈ t.tuples) :
    (∃ user, u.subject = .user user) ∨ ∃ d, u.subject = .folder d ∧ t.Lives d := by
  obtain ⟨s, r, o⟩ := u
  cases r with
  | owner => exact .inl (h.owner_subject (mem_subjectsIn.mpr hu))
  | parent => exact .inr (h.parent_subject (mem_subjectsIn.mpr hu))
  | member =>
    obtain ⟨m, _, hm⟩ := h.member_mem hu rfl
    exact .inl ⟨m.user, (congrArg Tuple.subject hm).symm⟩

end Coherent

end Tables

end DriveAccess
