import DriveAccess.Storage.Session
import Mathlib.Data.List.Basic
/-!
What a single request does to a session in memory: a failure changes nothing, a change leaves the
session dirty, and all depends on the session's tables alone.
-/
namespace DriveAccess

/-- Requests that only read. -/
def Request.reads : Request → Bool
  | relationshipExists _ | findRelationships _ | findParent _ | findSubjects _ _
  | findObjects _ _ | findByObject _ | findBySubject _ | findGrant _ | findGrantsFor _
  | findGrants _ _ _ | grantExists _ _ _ | findAncestors _ | findDescendants _
  | findAncestorPaths _ | findSubtree _ | lockHierarchy | listPaths | findFolder _ | listFolders
  | findMembershipsOf _ | findMembersOf _ => true
  | _ => false

namespace Session

variable {α : Type} {stamp : Stamp} {s u : Session} {t : Tables} {r : Request}

@[simp] theorem write_tables (t : Tables) : (s.write t).tables = t := rfl

@[simp] theorem writeIf_write (b : Bool) (t u : Tables) :
    (s.writeIf b t).write u = s.write u := by
  cases b <;> rfl

theorem remove_nothing {m n : Nat} (h : ¬ 0 < (s.remove m n t).1) : (s.remove m n t).2 = s := by
  have hlt : ¬ n < m := by
    simp only [remove] at h
    omega
  simp [remove, writeIf, hlt]

/-- A row that is not kept is counted. -/
theorem removed_pos {xs : List α} {keep : α → Bool} {a : α} (ha : a ∈ xs) (hgoes : keep a = false) :
    0 < xs.length - (xs.filter keep).length := by
  have hless : (xs.filter keep).length < xs.length := by
    rw [List.length_filter_lt_length_iff_exists]
    exact ⟨a, ha, by simp [hgoes]⟩
  omega

/-- A removal that takes no row away leaves the tables as they are. -/
theorem remove_tables (rows : Tables → List α) {keep : α → Bool}
    (h : (rows s.tables).filter keep = rows s.tables → t = s.tables) :
    (s.remove (rows s.tables).length ((rows s.tables).filter keep).length t).2.tables = t := by
  by_cases hlt : ((rows s.tables).filter keep).length < (rows s.tables).length
  · simp [remove, writeIf, hlt]
  · have hle := List.length_filter_le keep (rows s.tables)
    have hall : (rows s.tables).filter keep = rows s.tables :=
      List.filter_sublist.eq_of_length (by omega)
    simp [remove, writeIf, hlt, h hall]

@[simp] theorem removeTuples_tables (f : TupleFilter) :
    (s.removeTuples f).2.tables = s.tables.removeTuples f :=
  remove_tables (·.relationships) fun h => by
    rw [Tables.removeTuples, Tables.keepTuples, h]

@[simp] theorem removeTuples_write (f : TupleFilter) (t : Tables) :
    (s.removeTuples f).2.write t = s.write t := writeIf_write ..

@[simp] theorem removeGrants_tables (drop : Grant → Bool) : (s.removeGrants drop).2.tables =
    { s.tables with grants := s.tables.grants.filter (!drop ·) } :=
  remove_tables (·.grants) fun h => by simp [h]

/-- Owners are taken away before it is known whether there are any; if there are none, that changes
nothing. -/
theorem replaceOwner_eq (stamp : Stamp) (o : Object) (user : Uuid) (s : Session) :
    s.perform stamp (.replaceOwner o user) =
      if (s.removeTuples ((TupleFilter.ofObject o).withRelation .owner)).1 = 0 then
        (.error (.notFound (.relationOf .owner o)), s)
      else
        let rest := s.tables.removeTuples ((TupleFilter.ofObject o).withRelation .owner)
        (.ok (rest.newRow stamp (.owner user o)),
          s.write (rest.addTuple stamp (.owner user o))) := by
  simp only [perform, removeTuples_write, removeTuples_tables]
  split
  · rename_i hnone
    have hkept : (s.removeTuples ((TupleFilter.ofObject o).withRelation .owner)).2 = s :=
      remove_nothing (Nat.not_lt.mpr (Nat.le_of_eq hnone))
    rw [hkept]
  · rfl

theorem perform_reads (h : r.reads) : (s.perform stamp r).2 = s := by
  cases r <;> first | rfl | simp [Request.reads] at h

/-- A request fails and changes nothing, or succeeds and at most puts new tables in place. -/
theorem perform_cases (stamp : Stamp) (r : Request) (s : Session) :
    (∃ e, s.perform stamp r = (.error e, s)) ∨
      ∃ a b t, s.perform stamp r = (.ok a, s.writeIf b t) := by
  cases r <;> first
    | exact .inr ⟨_, false, s.tables, rfl⟩
    | exact .inr ⟨_, _, _, rfl⟩
    | skip
  all_goals
    try rw [replaceOwner_eq]
    try simp only [perform, insertPaths, changeFolder, removeTuples_write]
    repeat' split
  all_goals first
    | exact .inl ⟨_, rfl⟩
    | exact .inr ⟨_, _, _, rfl⟩
    | exact .inr ⟨_, true, _, rfl⟩

theorem perform_failed {e : StorageError} (h : (s.perform stamp r).1 = .error e) :
    (s.perform stamp r).2 = s := by
  obtain ⟨e', he⟩ | ⟨a, b, t, ha⟩ := perform_cases stamp r s
  · rw [he]
  · simp [ha] at h

/-- What a session keeps to while it works: its base, and the flag once it has changed anything. -/
structure Follows (s u : Session) : Prop where
  base : u.base = s.base
  dirty : u = s ∨ u.dirty = true

theorem Follows.refl : Follows s s := ⟨rfl, .inl rfl⟩

theorem Follows.trans {v : Session} (h : Follows s u) (k : Follows u v) : Follows s v := by
  refine ⟨k.base.trans h.base, ?_⟩
  obtain rfl | hv := k.dirty
  · exact h.dirty
  · exact .inr hv

theorem perform_follows : Follows s (s.perform stamp r).2 := by
  obtain ⟨e, he⟩ | ⟨a, b, t, ha⟩ := perform_cases stamp r s
  · rw [he]
    exact .refl
  · rw [ha]
    cases b with
    | false => exact .refl
    | true => exact ⟨rfl, .inr rfl⟩

/-- A fresh session on given tables. -/
abbrev fresh (t : Tables) : Session := ⟨0, t, false⟩

/-- What becomes of a session by what is done in a fresh one on its tables. -/
def absorb (s u : Session) : Session := ⟨s.base, u.tables, s.dirty || u.dirty⟩

@[simp] theorem absorb_fresh : s.absorb (fresh s.tables) = s := by simp [absorb]

theorem absorb_absorb (v : Session) : (s.absorb u).absorb v = s.absorb (u.absorb v) := by
  simp [absorb, Bool.or_assoc]

/-- Carries over to a session what a fresh one on its tables comes to. -/
def resume (s : Session) (x : α × Session) : α × Session := (x.1, s.absorb x.2)

section

variable (a : α)

private theorem resume_keep : s.resume (a, fresh s.tables) = (a, s) := by simp [resume]

private theorem resume_write : s.resume (a, u.write t) = (a, s.write t) := by
  simp [resume, absorb, write]

private theorem resume_writeIf (b : Bool) :
    s.resume (a, (fresh s.tables).writeIf b t) = (a, s.writeIf b t) := by
  cases b
  · exact resume_keep a
  · exact resume_write a

private theorem resume_ite (c : Prop) [Decidable c] (x y : α × Session) :
    s.resume (if c then x else y) = if c then s.resume x else s.resume y := apply_ite ..

end

/-- The reply and the changes depend on the tables alone. -/
theorem perform_eq_resume : s.perform stamp r = s.resume ((fresh s.tables).perform stamp r) := by
  cases r <;> try exact (resume_keep _).symm
  case replaceOwner o user =>
    let f := (TupleFilter.ofObject o).withRelation .owner
    have hn : ((fresh s.tables).removeTuples f).1 = (s.removeTuples f).1 := rfl
    simp only [replaceOwner_eq, hn, f, resume_ite, resume_keep, resume_write]
  all_goals
    simp only [perform, insertPaths, changeFolder, removeTuples_write, removeTuples_tables]
    try simp only [removeTuples, removeGrants, removePaths, remove, resume_ite]
    try split
  all_goals simp only [resume_keep, resume_write, resume_writeIf]
  all_goals rfl

end Session

end DriveAccess
