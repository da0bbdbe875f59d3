import DriveAccess.Proofs.Storage.Coherence
import Mathlib.Logic.Relation
/-!
Parent chains: what lies in what by the parent tuples. In coherent tables a resource lies in at
most one folder, which is on a lower level, so a chain ends after at most 21 hops.
-/
namespace DriveAccess

namespace Resource

variable {r s : Resource} {x : Uuid}

@[simp] theorem object_folder : (folder x).object = .folder x := rfl

@[simp] theorem subject_folder : (folder x).subject = .folder x := rfl

theorem subject_inj (h : r.subject = s.subject) : r = s := by
  have hr := congrArg ofSubject? h
  simpa using hr

end Resource

namespace Tables

/-- A resource lies directly in another one. -/
def LiesIn (t : Tables) (r p : Resource) : Prop := Tuple.parent p.subject r.object ∈ t.tuples

/-- The parent chain of `r`, which starts with `r` itself, passes through `a`. -/
def Within (t : Tables) : Resource → Resource → Prop := Relation.ReflTransGen t.LiesIn

/-- A folder is on the level of its depth; files are below all folders. -/
def level (t : Tables) (r : Resource) : Nat :=
  match r.kind with
  | .folder => ((t.folder? r.id).map (·.depth)).getD 0
  | .file => maxFolderDepth + 1

variable {t : Tables} {r p q a b : Resource} {x d : Uuid} {f : Folder}

theorem liesIn_iff : t.LiesIn r p ↔ p.subject ∈ subjectsIn t.tuples .parent r.object :=
  mem_subjectsIn.symm

theorem Within.refl : t.Within r r := Relation.ReflTransGen.refl

theorem LiesIn.within (h : t.LiesIn r p) : t.Within r p := Relation.ReflTransGen.single h

theorem Within.trans (h : t.Within r a) (k : t.Within a b) : t.Within r b :=
  Relation.ReflTransGen.trans h k

theorem Within.below (h : t.LiesIn r p) (k : t.Within p a) : t.Within r a := h.within.trans k

theorem within_iff : t.Within r a ↔ a = r ∨ ∃ p, t.LiesIn r p ∧ t.Within p a :=
  Relation.ReflTransGen.cases_head_iff.trans (or_congr_left eq_comm)

theorem level_folder (h : t.folder? x = some f) : t.level (.folder x) = f.depth := by
  simp [level, Resource.folder, h]

namespace Coherent

variable (h : t.Coherent)

include h

theorem folder_level_le (x : Uuid) : t.level (.folder x) ≤ maxFolderDepth := by
  cases hx : t.folder? x with
  | none => simp [level, Resource.folder, hx]
  | some f =>
    rw [level_folder hx]
    exact h.hierarchy.depth_le f (folder?_mem hx).1

theorem level_le (r : Resource) : t.level r ≤ maxFolderDepth + 1 := by
  obtain ⟨k, x⟩ := r
  cases k with
  | folder => exact Nat.le_succ_of_le (h.folder_level_le x)
  | file => exact Nat.le_refl _

/-- A folder is one deeper than the folder that it lies in. -/
theorem level_child (hx : t.folder? x = some f) (hd : f.parent = some d) :
    t.level (.folder x) = t.level (.folder d) + 1 := by
  obtain ⟨g, hg⟩ := Option.isSome_iff_exists.mp (h.parent_lives hx hd)
  have hparent : forestOf t.folders x = some (some d) := by simp [forestOf_eq, hx, hd]
  have hgdepth : (forestOf t.folders).Depth d g.depth := by
    have hdepth := h.hierarchy.depth g (folder?_mem hg).1
    rwa [(folder?_mem hg).2] at hdepth
  have hfdepth : (forestOf t.folders).Depth x f.depth := by
    have hdepth := h.hierarchy.depth f (folder?_mem hx).1
    rwa [(folder?_mem hx).2] at hdepth
  rw [level_folder hx, level_folder hg]
  exact hfdepth.unique (Forest.depth_child hparent hgdepth)

/-- A resource lies nowhere, or in one folder, which exists and is on a lower level. -/
theorem parents (r : Resource) : subjectsIn t.tuples .parent r.object = [] ∨
    ∃ d, t.Lives d ∧ t.level (.folder d) < t.level r ∧
      subjectsIn t.tuples .parent r.object = [.folder d] := by
  obtain ⟨k, x⟩ := r
  cases k with
  | folder =>
    have hx : subjectsIn t.tuples .parent (.folder x) = _ := (h.folder x).parent
    cases hrow : t.folder? x with
    | none => exact .inl (hx.trans (by simp [hrow]))
    | some f =>
      cases hparent : f.parent with
      | none => exact .inl (hx.trans (by simp [hrow, hparent]))
      | some d =>
        have hlevel := h.level_child hrow hparent
        refine .inr ⟨d, h.parent_lives hrow hparent, ?_, hx.trans (by simp [hrow, hparent])⟩
        change t.level (.folder d) < t.level (.folder x)
        omega
  | file =>
    obtain ⟨_, hnone⟩ | ⟨_, d, hd, _, hone⟩ := h.file x
    · exact .inl hnone
    · exact .inr ⟨d, hd, Nat.lt_succ_of_le (h.folder_level_le d), hone⟩

theorem liesIn_folder (hp : t.LiesIn r p) :
    ∃ d, p = .folder d ∧ t.Lives d ∧ t.level p < t.level r := by
  rw [liesIn_iff] at hp
  obtain hnone | ⟨d, hd, hlevel, hone⟩ := h.parents r
  · simp [hnone] at hp
  · have hs : p.subject = (Resource.folder d).subject := by simpa [hone] using hp
    obtain rfl := Resource.subject_inj hs
    exact ⟨d, rfl, hd, hlevel⟩

theorem liesIn_unique (hp : t.LiesIn r p) (hq : t.LiesIn r q) : p = q := by
  rw [liesIn_iff] at hp hq
  obtain hnone | ⟨d, _, _, hone⟩ := h.parents r
  · simp [hnone] at hp
  · rw [hone, List.mem_singleton] at hp hq
    exact Resource.subject_inj (hp.trans hq.symm)

/-- The first parent tuple that is found is the only one. -/
theorem parentOf_eq_some : (t.parentOf r.object).bind Resource.ofSubject? = some p ↔
    t.LiesIn r p := by
  rw [liesIn_iff, parentOf_eq]
  obtain hnone | ⟨d, _, _, hone⟩ := h.parents r
  · simp [hnone]
  · have hd : Resource.ofSubject? (.folder d) = some (.folder d) := rfl
    rw [hone, List.mem_singleton, List.head?_cons, Option.bind_some, hd, Option.some.injEq]
    constructor
    · intro he
      rw [← he]
      rfl
    · intro he
      exact (Resource.subject_inj (s := .folder d) he).symm

theorem within_level (hw : t.Within r a) : a = r ∨ t.level a < t.level r := by
  induction hw with
  | refl => exact .inl rfl
  | tail _ hstep ih =>
    obtain ⟨_, _, _, hlevel⟩ := h.liesIn_folder hstep
    right
    obtain rfl | hlt := ih
    · exact hlevel
    · omega

/-- What is met above a resource is met above its parent, unless it is the resource itself. -/
theorem within_parent (hp : t.LiesIn r p) : t.Within r a ↔ a = r ∨ t.Within p a := by
  rw [within_iff]
  apply or_congr_right
  constructor
  · intro hstep
    obtain ⟨q, hq, hw⟩ := hstep
    rwa [h.liesIn_unique hp hq]
  · intro hw
    exact ⟨p, hp, hw⟩

end Coherent

end Tables

end DriveAccess
