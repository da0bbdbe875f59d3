import DriveAccess.Access.Sharing
import DriveAccess.Proofs.Access.Reads
import DriveAccess.Proofs.Access.Writes
/-!
Grants that are made and taken back, and ownership that is passed on.
-/
namespace DriveAccess

namespace Tables

def addGrant (t : Tables) (g : Grant) : Tables := { t with grants := t.grants ++ [g] }

def grant? (t : Tables) (id : Uuid) : Option Grant := t.grants.find? (·.id == id)

def dropGrant (t : Tables) (id : Uuid) : Tables :=
  { t with grants := t.grants.filter (!·.id == id) }

/-- The rows of folders once a resource has a new owner. -/
def ownedRows (t : Tables) (stamp : Stamp) (r : Resource) (owner : Uuid) : List Folder :=
  match r.kind with
  | .folder => t.folders.map fun f =>
      if f.id == r.id then { f with owner, updatedAt := stamp.time } else f
  | .file => t.folders

/-- Replaces the owner in the tuple, and in the row if the resource is a folder. -/
def handOver (t : Tables) (stamp : Stamp) (r : Resource) (owner : Uuid) : Tables :=
  { (t.removeTuples ((TupleFilter.ofObject r.object).withRelation .owner)).addTuple stamp
      (.owner owner r.object) with
    folders := t.ownedRows stamp r owner }

/-- What a new grant must be: on something that exists, of a role that is granted, and the only
one of its kind. -/
structure Admits (t : Tables) (g : Grant) : Prop where
  owned : subjectsIn t.tuples .owner g.resource.object ≠ []
  role : g.role ≠ .owner
  new : t.grants.any g.sameAssignment = false

variable {t : Tables} {g : Grant} {r : Resource} {x id owner : Uuid} {stamp : Stamp}

theorem tuples_handOver : (t.handOver stamp r owner).tuples =
    t.tuples.filter (fun u => !decide (u.relation = .owner ∧ u.object = r.object)) ++
      [.owner owner r.object] := by
  refine tuples_addTuple.trans ?_
  rw [tuples_removeTuples, TupleFilter.selects_ofObject_withRelation]

theorem Coherent.withGrants (h : t.Coherent) {gs : List Grant}
    (howned : ∀ g ∈ gs, subjectsIn t.tuples .owner g.resource.object ≠ [])
    (hrole : ∀ g ∈ gs, g.role ≠ .owner) (hnodup : (gs.map Grant.assignment).Nodup) :
    Coherent { t with grants := gs } :=
  { h with grant_owned := howned, grant_role := hrole, grants_nodup := hnodup }

theorem Coherent.addGrant (h : t.Coherent) (hg : t.Admits g) : (t.addGrant g).Coherent := by
  refine h.withGrants ?_ ?_ ?_
  · intro k hk
    rcases List.mem_append.mp hk with hk | hk
    · exact h.grant_owned k hk
    · obtain rfl : k = g := by simpa using hk
      exact hg.owned
  · intro k hk
    rcases List.mem_append.mp hk with hk | hk
    · exact h.grant_role k hk
    · obtain rfl : k = g := by simpa using hk
      exact hg.role
  · rw [List.map_append]
    exact nodup_snoc h.grants_nodup (assignment_not_mem hg.new)

theorem Coherent.dropGrant (h : t.Coherent) (id : Uuid) : (t.dropGrant id).Coherent := by
  refine h.withGrants ?_ ?_ ?_
  · exact fun g hg => h.grant_owned g (List.mem_of_mem_filter hg)
  · exact fun g hg => h.grant_role g (List.mem_of_mem_filter hg)
  · exact h.grants_nodup.sublist (List.filter_sublist.map _)

theorem folder?_handOver : (t.handOver stamp r owner).folder? x =
    (t.folder? x).map fun f =>
      if r = .folder x then { f with owner, updatedAt := stamp.time } else f := by
  obtain ⟨kind, id⟩ := r
  cases kind with
  | file => simp [handOver, ownedRows, folder?, Resource.folder]
  | folder =>
    have hid (f : Folder) :
        (if f.id == id then { f with owner, updatedAt := stamp.time } else f).id = f.id := by
      split <;> rfl
    refine (find?_map_id hid x).trans ?_
    change (t.folder? x).map _ = _
    cases hx : t.folder? x with
    | none => rfl
    | some f =>
      have hf := (folder?_mem hx).2
      simp [Resource.folder, hf, eq_comm (a := x)]

theorem lives_handOver : (t.handOver stamp r owner).Lives x ↔ t.Lives x := by
  simp [Lives, folder?_handOver]

theorem subjectsIn_handOver_owner {o : Object} :
    subjectsIn (t.handOver stamp r owner).tuples .owner o =
      if o = r.object then [.user owner] else subjectsIn t.tuples .owner o := by
  by_cases ho : o = r.object
  · simp [tuples_handOver, ho, Tuple.owner]
  · simp [tuples_handOver, ho, Tuple.owner, Ne.symm ho]

theorem subjectsIn_handOver_parent {o : Object} :
    subjectsIn (t.handOver stamp r owner).tuples .parent o = subjectsIn t.tuples .parent o := by
  simp [tuples_handOver, Tuple.owner]

theorem Coherent.handOver (h : t.Coherent) (hr : subjectsIn t.tuples .owner r.object ≠ []) :
    (t.handOver stamp r owner).Coherent where
  hierarchy := by
    change Hierarchical (t.ownedRows stamp r owner) t.paths
    rw [ownedRows]
    cases hk : r.kind with
    | file => exact h.hierarchy
    | folder =>
      refine h.hierarchy.map (fun f => ?_) (fun f => ?_) (fun f => ?_) <;> split <;> rfl
  folder x := by
    constructor
    · rw [subjectsIn_handOver_owner, folder?_handOver]
      by_cases hx : r = .folder x
      · subst hx
        obtain ⟨f, hf⟩ := Option.isSome_iff_exists.mp (h.lives_of_owner hr)
        simp [hf, Resource.folder, Resource.object]
      · have hne : Object.folder x ≠ r.object := fun he => hx (Resource.object_eq_folder.mp he.symm)
        simp [hx, hne, (h.folder x).owner]
    · rw [subjectsIn_handOver_parent, folder?_handOver, (h.folder x).parent]
      cases t.folder? x with
      | none => rfl
      | some f =>
        simp only [Option.map_some, Option.bind_some]
        split <;> rfl
  file x := by
    have hlives : (t.handOver stamp r owner).Lives = t.Lives :=
      funext fun _ => propext lives_handOver
    rw [hlives, FileTuples, subjectsIn_handOver_owner, subjectsIn_handOver_parent]
    obtain ⟨hnone, hout⟩ | ⟨user, d, hd, hone, hin⟩ := h.file x
    · have hne : Object.file x ≠ r.object := by
        intro he
        exact hr (he ▸ hnone)
      simp [hne, hnone, hout]
    · by_cases hx : Object.file x = r.object
      · exact .inr ⟨owner, d, hd, by simp [hx], hin⟩
      · exact .inr ⟨user, d, hd, by simp [hx, hone], hin⟩
  group_owner x := by
    have hne : Object.group x ≠ r.object := fun he => Resource.object_ne_group he.symm
    simp [subjectsIn_handOver_owner, hne, h.group_owner]
  group_parent x := subjectsIn_handOver_parent.trans (h.group_parent x)
  members := by
    rw [tuples_handOver]
    refine (members_append ?_).trans ((members_filter ?_).trans h.members)
    · simp [Tuple.owner]
    · intro u _ hm
      simp [hm]
  memberships_nodup := h.memberships_nodup
  grant_owned g hg := by
    rw [subjectsIn_handOver_owner]
    split
    · simp
    · exact h.grant_owned g hg
  grant_role := h.grant_role
  grants_nodup := h.grants_nodup

end Tables

namespace Program

variable {stamp : Stamp} {s u : Session} {c : Context} {r : Resource} {grantee : Grantee}
  {role : Role} {id actor owner : Uuid} {g : Grant}

theorem requireGrant_ok (h : s.run stamp (requireGrant id) = (.ok g, u)) :
    s.tables.grant? id = some g := by
  rw [requireGrant, run_bind_read rfl, ← Tables.grant?] at h
  cases hg : s.tables.grant? id with
  | none =>
    rw [hg] at h
    cases h
  | some found =>
    rw [hg] at h
    cases h
    rfl

theorem grantRole_settles : Settles stamp (grantRole c r grantee role actor) s fun g t =>
    g = ⟨c.stamp.id, r, grantee, role, actor, c.stamp.time⟩ ∧ s.tables.Admits g ∧
      t = s.tables.addGrant g := by
  apply Settles.read (consults_ofExcept _).reads
  intro _ hvalid
  apply Settles.read (consults_requireResource r).reads
  intro owners howners
  apply Settles.read (consults_requireGranter ..).reads
  intro _ _
  apply Settles.read (reads_request rfl)
  intro held _
  cases held with
  | true => exact settles_fail _
  | false =>
    let g : Grant := ⟨c.stamp.id, r, grantee, role, actor, c.stamp.time⟩
    apply Settles.attempt
    intro _ u hcreate
    rw [Session.perform] at hcreate
    split at hcreate
    · cases hcreate
    · rename_i hno
      cases hcreate
      have hrole : role ≠ .owner := by
        intro he
        simp only [validateGrant, he, if_true] at hvalid
        cases hvalid
      have howned : subjectsIn s.tables.tuples .owner r.object ≠ [] := by
        rw [← Tables.subjectsOf_eq]
        exact (requireResource_ok howners).1
      refine ⟨g, s.tables.addGrant g, ?_, rfl, ⟨howned, hrole, Bool.not_eq_true _ |>.mp hno⟩, rfl⟩
      exact (yields_record _).bind (yields_pure g)

theorem revokeGrant_settles : Settles stamp (revokeGrant c id actor) s fun g t =>
    s.tables.grant? id = some g ∧ t = s.tables.dropGrant id := by
  apply Settles.read (reads_requireGrant id)
  intro g hg
  split
  · exact settles_fail _
  · apply Settles.read (consults_requireGranter ..).reads
    intro _ _
    apply Settles.request_bind
    intro removed u hrem
    have hpair := Prod.mk.inj hrem
    cases removed with
    | false =>
      refine .inl ⟨?_, settles_fail _⟩
      rw [← hpair.2]
      exact Session.remove_nothing (of_decide_eq_false (Except.ok.inj hpair.1))
    | true =>
      have ht : u.tables = s.tables.dropGrant id := by
        rw [← hpair.2]
        exact Session.removeGrants_tables _
      refine .inr ⟨g, _, ?_, requireGrant_ok hg, rfl⟩
      rw [← ht]
      exact (yields_record _).bind (yields_pure g)

theorem yields_recordOwner {t : Tables} (h : r.kind = .folder → t.Lives r.id) :
    Yields stamp (recordOwner r owner) t () { t with folders := t.ownedRows stamp r owner } := by
  obtain ⟨kind, id⟩ := r
  cases kind with
  | file => exact yields_pure ()
  | folder => exact yields_setFolderOwner (h rfl) owner

/-- The row of a folder that changes hands is there, because the folder had an owner tuple. -/
theorem transferOwnership_settles (h : s.tables.Coherent) :
    Settles stamp (transferOwnership c actor r owner) s fun _ t =>
      subjectsIn s.tables.tuples .owner r.object ≠ [] ∧
        Tuple.owner owner r.object ∉ s.tables.tuples ∧ t = s.tables.handOver stamp r owner := by
  apply Settles.read (consults_requireResource r).reads
  intro owners howners
  apply Settles.read (consults_requireOwner ..).reads
  intro _ _
  split
  · exact settles_fail _
  · rename_i hother
    apply Settles.attempt
    intro _ u hreplace
    have hnew : Tuple.owner owner r.object ∉ s.tables.tuples := by
      intro hmem
      have hsubject : Subject.user owner ∈ s.tables.subjectsOf .owner r.object := by
        rw [Tables.subjectsOf_eq]
        exact mem_subjectsIn.mpr hmem
      rw [(requireResource_ok howners).2, List.contains_iff_mem] at hother
      exact hother (List.mem_map.mpr ⟨_, List.mem_filter.mpr ⟨hsubject, rfl⟩, rfl⟩)
    have howned : subjectsIn s.tables.tuples .owner r.object ≠ [] := by
      rw [← Tables.subjectsOf_eq]
      exact (requireResource_ok howners).1
    have hrow : r.kind = .folder → s.tables.Lives r.id := by
      intro hk
      obtain ⟨kind, id⟩ := r
      obtain rfl : kind = .folder := hk
      exact h.lives_of_owner howned
    rw [Session.perform] at hreplace
    dsimp only at hreplace
    split at hreplace
    · cases hreplace
    · cases hreplace
      refine ⟨(), s.tables.handOver stamp r owner, ?_, howned, hnew, rfl⟩
      rw [Session.write_tables, Session.removeTuples_tables]
      exact Yields.bind (yields_recordOwner hrow) (yields_record _)

end Program

end DriveAccess
