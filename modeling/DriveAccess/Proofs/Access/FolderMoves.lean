import DriveAccess.Proofs.Access.FolderCreation
/-!
Folders that are moved: the subtree gets closure rows, depths and a parent edge of its new place.
-/
namespace DriveAccess

/-- The depth of what is put in a place. -/
def placeDepth : Option Folder → Nat
  | none => 0
  | some p => p.depth + 1

section

variable {f g : Folder} {p : Option Folder} {below : List Uuid} {height n : Nat}

theorem Folder.validateMove_eq : f.validateMove p below height =
    match p.filter fun g => g.id == f.id || below.contains g.id with
    | some g => .error (.circularMove f.id g.id)
    | none =>
      if maxFolderDepth < placeDepth p + height then
        .error (.maxDepthExceeded (placeDepth p + height) maxFolderDepth)
      else .ok (placeDepth p) := by
  cases p <;> rfl

theorem Folder.validateMove_inside (hg : g.id = f.id ∨ g.id ∈ below) :
    f.validateMove (some g) below height = .error (.circularMove f.id g.id) := by
  have hin : (g.id == f.id || below.contains g.id) = true := by simpa using hg
  simp only [validateMove_eq, Option.filter_some, hin, if_true]

theorem Folder.validateMove_outside (hp : ∀ g, p = some g → g.id ≠ f.id ∧ g.id ∉ below) :
    f.validateMove p below height =
      if maxFolderDepth < placeDepth p + height then
        .error (.maxDepthExceeded (placeDepth p + height) maxFolderDepth)
      else .ok (placeDepth p) := by
  have hno : p.filter (fun g => g.id == f.id || below.contains g.id) = none := by
    rw [Option.filter_eq_none_iff]
    intro g hg
    simpa using hp g hg
  rw [validateMove_eq, hno]

theorem Folder.validateMove_ok (h : f.validateMove p below height = .ok n) :
    (∀ g, p = some g → g.id ≠ f.id ∧ g.id ∉ below) ∧ n + height ≤ maxFolderDepth ∧
      n = placeDepth p := by
  have hout : ∀ g, p = some g → g.id ≠ f.id ∧ g.id ∉ below := by
    intro g hg
    subst hg
    by_contra hin
    rw [validateMove_inside (by tauto)] at h
    cases h
  rw [validateMove_outside hout] at h
  split at h
  · cases h
  · cases h
    exact ⟨hout, by omega, rfl⟩

end

namespace Tables

/-- The depths that the folders of a subtree get when its top gets the given one. -/
def depthsBelow (t : Tables) (id : Uuid) (depth : Nat) : List (Uuid × Nat) :=
  (t.pathsFrom id).map fun p => (p.descendant, depth + p.length)

/-- Gives a folder another parent, and leaves all others as they are. -/
def rehang (stamp : Stamp) (id : Uuid) (q : Option Uuid) (f : Folder) : Folder :=
  if f.id == id then { f with parent := q, updatedAt := stamp.time } else f

/-- The row of a folder after a move. -/
def movedRow (t : Tables) (stamp : Stamp) (id : Uuid) (q : Option Uuid) (depth : Nat)
    (f : Folder) : Folder :=
  redepth stamp.time (t.depthsBelow id depth) (rehang stamp id q f)

def moveFolder (t : Tables) (stamp : Stamp) (id : Uuid) (q : Option Uuid) (depth : Nat) : Tables :=
  let cut := (t.moveSubtree stamp.time id (t.upper q)).removeTuples
    ((TupleFilter.ofObject (.folder id)).withRelation .parent)
  { cut.addTuples stamp (q.map fun p => Tuple.parent (.folder p) (.folder id)).toList with
    folders := t.folders.map (t.movedRow stamp id q depth) }

/-- What a move must be: of a folder that exists to a place outside it that is not too deep. -/
structure Relocates (t : Tables) (id : Uuid) (q : Option Uuid) (depth : Nat) : Prop where
  lives : t.Lives id
  receives : (forestOf t.folders).Receives id q
  place : (forestOf t.folders).PlaceDepth q depth
  depth_le : ∀ r ∈ t.pathsFrom id, depth + r.length ≤ maxFolderDepth

variable {t : Tables} {stamp : Stamp} {f : Folder} {id x : Uuid} {q : Option Uuid} {depth : Nat}
  {r : Relation} {o : Object}

theorem tuples_moveFolder : (t.moveFolder stamp id q depth).tuples =
    t.tuples.filter (fun u => !decide (u.relation = .parent ∧ u.object = .folder id)) ++
      (q.map fun p => Tuple.parent (.folder p) (.folder id)).toList := by
  refine (tuples_addTuples _).trans ?_
  rw [tuples_removeTuples, TupleFilter.selects_ofObject_withRelation]
  rfl

theorem paths_moveFolder : (t.moveFolder stamp id q depth).paths =
    (t.moveSubtree stamp.time id (t.upper q)).paths := rfl

@[simp] theorem rehang_id : (rehang stamp id q f).id = f.id := by
  rw [rehang]
  split <;> rfl

@[simp] theorem rehang_depth : (rehang stamp id q f).depth = f.depth := by
  rw [rehang]
  split <;> rfl

@[simp] theorem movedRow_id : (t.movedRow stamp id q depth f).id = f.id := by
  rw [movedRow, redepth_id, rehang_id]

theorem movedRow_owner : (t.movedRow stamp id q depth f).owner = f.owner := by
  rw [movedRow, redepth_owner, rehang]
  split <;> rfl

theorem movedRow_parent :
    (t.movedRow stamp id q depth f).parent = if f.id = id then q else f.parent := by
  rw [movedRow, redepth_parent]
  by_cases hf : f.id = id <;> simp [rehang, hf]

theorem folder?_moveFolder : (t.moveFolder stamp id q depth).folder? x =
    (t.folder? x).map (t.movedRow stamp id q depth) :=
  find?_map_id (fun _ => movedRow_id) x

theorem lives_moveFolder : (t.moveFolder stamp id q depth).Lives x ↔ t.Lives x := by
  simp [Lives, folder?_moveFolder]

theorem subjectsIn_moveFolder (h : r ≠ .parent ∨ o ≠ .folder id) :
    subjectsIn (t.moveFolder stamp id q depth).tuples r o = subjectsIn t.tuples r o := by
  have hkeep : ¬ (r = .parent ∧ o = .folder id) := by tauto
  have hnew : ¬ (Relation.parent = r ∧ Object.folder id = o) := fun ⟨hr, ho⟩ =>
    hkeep ⟨hr.symm, ho.symm⟩
  have hall : (subjectsIn t.tuples r o).filter (fun _ => !decide (r = .parent ∧ o = .folder id)) =
      subjectsIn t.tuples r o := by
    rw [List.filter_eq_self]
    intro _ _
    rw [decide_eq_false hkeep]
    rfl
  rw [tuples_moveFolder, subjectsIn_append, subjectsIn_filter, hall]
  cases q <;> simp [Tuple.parent, hnew]

theorem subjectsIn_moveFolder_self :
    subjectsIn (t.moveFolder stamp id q depth).tuples .parent (.folder id) =
      (q.map Subject.folder).toList := by
  cases q <;> simp [tuples_moveFolder, Tuple.parent]

namespace Coherent

variable (h : t.Coherent)

include h

/-- The rows of a subtree tell its height. -/
theorem height_subtree (hlives : t.Lives id) :
    (forestOf t.folders).Height id (subtreeHeight (t.pathsFrom id)) := by
  exact h.hierarchy.exact.height (fun _ => mem_pathsFrom) (forestOf_isSome_iff.mpr hlives)

theorem depthsBelow_nodup : ((t.depthsBelow id depth).map (·.1)).Nodup := by
  simp only [depthsBelow, List.map_map]
  apply (pathsFrom_nodup h.hierarchy.exact.nodup).map_on
  intro r hr s hs he
  obtain ⟨hr, hra⟩ := mem_pathsFrom.mp hr
  obtain ⟨hs, hsa⟩ := mem_pathsFrom.mp hs
  apply h.hierarchy.exact.key_inj h.hierarchy.grounded hr hs
  simp only [Function.comp_apply] at he
  simp [FolderPath.key, hra, hsa, he]

theorem moveFolder_hierarchy (hm : t.Relocates id q depth) :
    Hierarchical (t.moveFolder stamp id q depth).folders (t.moveFolder stamp id q depth).paths := by
  obtain ⟨f, hf, rfl⟩ := lives_iff.mp hm.lives
  rw [paths_moveFolder, paths_moveSubtree]
  refine h.hierarchy.move hf hm.receives hm.place (fun _ => mem_pathsFrom)
    (pathsFrom_nodup h.hierarchy.exact.nodup) (fun _ => mem_upper)
    (upper_nodup h.hierarchy.exact.nodup) hm.depth_le (fun _ => movedRow_id)
    (fun _ => movedRow_parent) ?_ ?_
  · intro x r hr hx
    refine redepth_depth h.depthsBelow_nodup (List.mem_map.mpr ⟨r, hr, ?_⟩)
    rw [rehang_id, hx]
  · intro x hx
    rw [movedRow, redepth_of_not_mem, rehang_depth]
    rwa [rehang_id, depthsBelow, List.map_map]

theorem moveFolder (hm : t.Relocates id q depth) : (t.moveFolder stamp id q depth).Coherent where
  hierarchy := h.moveFolder_hierarchy hm
  folder x := by
    rw [folder?_moveFolder]
    by_cases hx : x = id
    · subst hx
      obtain ⟨f, hf⟩ := Option.isSome_iff_exists.mp hm.lives
      have howner := (h.folder x).owner
      rw [hf] at howner ⊢
      constructor
      · rw [subjectsIn_moveFolder (.inl (by simp)), howner]
        simp only [Option.map_some, movedRow_owner]
      · rw [subjectsIn_moveFolder_self]
        simp [movedRow_parent, (folder?_mem hf).2]
    · have hne : Object.folder x ≠ .folder id := fun he => hx (Object.folder_inj he)
      have hold : FolderTuples (t.moveFolder stamp id q depth).tuples x (t.folder? x) :=
        (h.folder x).congr (subjectsIn_moveFolder (.inl (by simp)))
          (subjectsIn_moveFolder (.inr hne))
      cases hf : t.folder? x with
      | none => rwa [hf] at hold
      | some f =>
        rw [hf] at hold
        have hid : f.id ≠ id := by
          rw [(folder?_mem hf).2]
          exact hx
        have hparent : (t.movedRow stamp id q depth f).parent = f.parent := by
          rw [movedRow_parent, if_neg hid]
        refine ⟨hold.owner.trans ?_, hold.parent.trans ?_⟩
        · simp only [Option.map_some, movedRow_owner]
        · simp [hparent]
  file x := by
    have hlives : (t.moveFolder stamp id q depth).Lives = t.Lives :=
      funext fun _ => propext lives_moveFolder
    rw [hlives]
    exact (h.file x).congr (subjectsIn_moveFolder (.inl (by simp)))
      (subjectsIn_moveFolder (.inr Object.folder_ne_file.symm))
  group_owner x := (subjectsIn_moveFolder (.inl (by simp))).trans (h.group_owner x)
  group_parent x := (subjectsIn_moveFolder (.inr Object.group_ne_folder)).trans (h.group_parent x)
  members := by
    rw [tuples_moveFolder]
    refine (members_append ?_).trans ((members_filter ?_).trans h.members)
    · cases q <;> simp [Tuple.parent]
    · intro u _ hm
      simp [hm]
  memberships_nodup := h.memberships_nodup
  grant_owned g hg := by
    rw [subjectsIn_moveFolder (.inl (by simp))]
    exact h.grant_owned g hg
  grant_role := h.grant_role
  grants_nodup := h.grants_nodup

end Coherent

end Tables

namespace Program

variable {stamp : Stamp} {s u : Session} {c : Context} {f : Folder} {actor id : Uuid}
  {parent : Option Uuid} {newParent : Option Folder} {depth : Nat}

/-- What passes the checks of a move is fit for it. -/
theorem relocates_of_checks (h : s.tables.Coherent) (hf : s.tables.folder? id = some f)
    (hparent : newParent = parent.bind s.tables.folder?)
    (hids : newParent.map (·.id) = parent)
    (hvalid : f.validateMove newParent (s.tables.descendantsOf id)
      (subtreeHeight (s.tables.pathsFrom id)) = .ok depth) :
    s.tables.Relocates id parent depth := by
  obtain ⟨hout, hle, rfl⟩ := Folder.validateMove_ok hvalid
  obtain ⟨hmem, rfl⟩ := Tables.folder?_mem hf
  refine ⟨by simp [Tables.Lives, hf], ?_, ?_, ?_⟩
  · intro p hp
    subst hp
    obtain ⟨g, hg, hid⟩ := Option.map_eq_some_iff.mp hids
    obtain ⟨hne, hbelow⟩ := hout g hg
    rw [hid] at hne hbelow
    refine ⟨Tables.forestOf_isSome_iff.mpr ?_, hne, fun hb => hbelow (h.mem_descendantsOf.mpr hb)⟩
    simpa [Tables.Lives, hg] using congrArg Option.isSome hparent.symm
  · cases newParent with
    | none =>
      obtain rfl : parent = none := hids.symm
      rfl
    | some g =>
      obtain rfl : parent = some g.id := hids.symm
      exact h.hierarchy.placeDepth_of_mem (Tables.folder?_mem hparent.symm).1
  · intro r hr
    have := le_subtreeHeight hr
    omega

/-- Every folder of a subtree has a row to take its new depth. -/
theorem lives_of_depthsBelow {t : Tables} (h : t.Coherent) {d : Uuid × Nat}
    (hd : d ∈ t.depthsBelow id depth) : t.Lives d.1 := by
  obtain ⟨r, hr, rfl⟩ := List.mem_map.mp hd
  have hc := (h.hierarchy.exact.mem_iff r).mp (Tables.mem_pathsFrom.mp hr).1
  exact Tables.forestOf_isSome_iff.mp hc.node

/-- What is left to do once the new depth is known. -/
def relocate (c : Context) (actor id : Uuid) (newParentId : Option Uuid) (folder : Folder)
    (newParent : Option Folder) (subtree : List FolderPath) (depth : Nat) : Program Folder := do
  let upper ← newParentPaths newParent
  request (.moveSubtree id upper)
  request (.setFolderParent id newParentId)
  request (.setFolderDepths (subtree.map fun p => (p.descendant, depth + p.length)))
  request (.setParent folder.resource.object (newParentId.map Subject.folder))
  record (.folderMoved c.tenant id newParentId actor subtree.length)
  requireFolder id

theorem moveFolder_eq : moveFolder c actor id parent = (do
    request .lockHierarchy
    let folder ← requireFolder id
    let newParent ← requireNewParent parent
    requireMove c actor folder newParent
    let descendants : List Uuid ← request (.findDescendants id)
    let subtree : List FolderPath ← request (.findSubtree id)
    let depth ← ofHierarchy (folder.validateMove newParent descendants (subtreeHeight subtree))
    relocate c actor id parent folder newParent subtree depth) := rfl

theorem yields_newParentPaths {t : Tables} (newParent : Option Folder) :
    Yields stamp (newParentPaths newParent) t (t.upper (newParent.map (·.id))) t := by
  cases newParent with
  | none => exact yields_pure []
  | some p => exact yields_request rfl rfl

theorem yields_moveSubtree {t : Tables} (h : t.Coherent) (hlives : t.Lives id)
    (upper : List FolderPath) :
    Yields stamp (request (.moveSubtree id upper)) t () (t.moveSubtree stamp.time id upper) := by
  have hnode := Tables.forestOf_isSome_iff.mpr hlives
  have hsome : (t.recordsFrom id).isEmpty = false := by
    simpa [Tables.pathsFrom] using Tables.pathsFrom_ne_nil h.hierarchy.exact hnode
  refine yields_request ?_ ?_ <;> rw [Session.perform, hsome] <;> rfl

theorem yields_relocate {t : Tables} (h : t.Coherent) (hm : t.Relocates id parent depth)
    (hf : t.folder? id = some f) (hids : newParent.map (·.id) = parent) :
    Yields stamp (relocate c actor id parent f newParent (t.pathsFrom id) depth) t
      (t.movedRow stamp id parent depth f) (t.moveFolder stamp id parent depth) := by
  have hrow : (t.moveFolder stamp id parent depth).folder? id =
      some (t.movedRow stamp id parent depth f) := by
    rw [Tables.folder?_moveFolder, hf]
    rfl
  apply Yields.bind (yields_newParentPaths newParent)
  rw [hids]
  apply Yields.bind (yields_moveSubtree h hm.lives _)
  have hlives : (t.moveSubtree stamp.time id (t.upper parent)).Lives id := hm.lives
  apply Yields.bind (yields_setFolderParent hlives parent)
  refine Yields.bind (yields_setFolderDepths ?_) ?_
  · intro d hd
    have hold : t.Lives d.1 := lives_of_depthsBelow h hd
    refine (Tables.lives_updateFolder ?_ id).mpr hold
    exact fun _ => rfl
  · apply Yields.bind (yields_setParent _ _)
    apply Yields.bind (yields_record _)
    convert yields_requireFolder hrow using 1
    simp only [Tables.setDepths_eq, Tables.updateFolder, List.map_map, Folder.resource_object,
      (Tables.folder?_mem hf).2, Tables.moveFolder]
    cases parent <;> rfl

theorem moveFolder_settles (h : s.tables.Coherent) :
    Settles stamp (moveFolder c actor id parent) s fun f t =>
      ∃ depth, s.tables.Relocates id parent depth ∧ t = s.tables.moveFolder stamp id parent depth ∧
        t.folder? id = some f := by
  rw [moveFolder_eq]
  apply Settles.read (reads_request rfl)
  intro _ _
  apply Settles.read (reads_requireFolder id)
  intro f hf
  apply Settles.read (reads_requireNewParent parent)
  intro newParent hnew
  apply Settles.read (consults_requireMove ..).reads
  intro _ _
  apply Settles.read (reads_request rfl)
  intro below hbelow
  apply Settles.read (reads_request rfl)
  intro subtree hsubtree
  apply Settles.read (consults_ofHierarchy _).reads
  intro depth hdepth
  cases hbelow
  cases hsubtree
  have hf := requireFolder_ok hf
  obtain ⟨hparent, hids⟩ := requireNewParent_ok hnew
  have hm := relocates_of_checks h hf hparent hids (ofHierarchy_ok hdepth)
  have hrow : (s.tables.moveFolder stamp id parent depth).folder? id =
      some (s.tables.movedRow stamp id parent depth f) := by
    rw [Tables.folder?_moveFolder, hf]
    rfl
  exact (yields_relocate h hm hf hids).settles ⟨depth, hm, rfl, hrow⟩

end Program

end DriveAccess
