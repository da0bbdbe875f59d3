import DriveAccess.Proofs.Resolution.Answers
/-!
Parent chains hop by hop, as the resolver follows them. The closure table tells of the same chains:
from a folder both lead to the same folders in the same number of hops.
-/
namespace DriveAccess

open Dialogue

namespace Resolver

/-- What lies so many hops above a resource, if its parent chain is that long. -/
def ancestor : Nat → Resource → Resolution (Option Resource)
  | 0, r => return some r
  | hops + 1, r => do
    match ← parentOf r with
    | none => return none
    | some p => ancestor hops p

end Resolver

namespace Tables

def ancestor (t : Tables) : Nat → Resource → Option Resource
  | 0, r => some r
  | hops + 1, r => (t.reply (.parentOf r)).bind (t.ancestor hops)

/-- The folder whose rows tell of a resource: the folder itself, or the one that a file lies in. -/
def containingFolder (t : Tables) (r : Resource) : Option Uuid :=
  match r.kind with
  | .folder => some r.id
  | .file => ((t.parentOf r.object).filter (·.kind == .folder)).map (·.id)

variable {t : Tables} {r a : Resource} {x d f : Uuid} {n : Nat}

theorem ancestor_told : (Resolver.ancestor n r).told t.reply = .ok (t.ancestor n r) := by
  induction n generalizing r with
  | zero => rfl
  | succ n ih =>
    simp only [Resolver.ancestor, Resolver.parentOf, told_bind, told_query, ancestor]
    cases t.reply (.parentOf r) with
    | none => rfl
    | some p => exact ih

namespace Coherent

variable (h : t.Coherent)

include h

theorem ancestor_succ :
    t.ancestor (n + 1) r = some a ↔ ∃ p, t.LiesIn r p ∧ t.ancestor n p = some a := by
  rw [ancestor, Option.bind_eq_some_iff]
  apply exists_congr
  intro p
  exact and_congr_left fun _ => h.parentOf_eq_some

/-- What is met hop by hop is what lies on the parent chain. -/
theorem exists_ancestor : (∃ n, t.ancestor n r = some a) ↔ t.Within r a := by
  constructor
  · intro hmet
    obtain ⟨n, hn⟩ := hmet
    induction n generalizing r with
    | zero =>
      obtain rfl := Option.some.inj hn
      exact .refl
    | succ n ih =>
      obtain ⟨p, hp, hrest⟩ := h.ancestor_succ.mp hn
      exact (ih hrest).below hp
  · intro hw
    induction hw using Relation.ReflTransGen.head_induction_on with
    | refl => exact ⟨0, rfl⟩
    | head hstep _ ih =>
      obtain ⟨n, hn⟩ := ih
      exact ⟨n + 1, h.ancestor_succ.mpr ⟨_, hstep, hn⟩⟩

/-- Every hop goes up a level at least. -/
theorem ancestor_level (hn : t.ancestor n r = some a) : t.level a + n ≤ t.level r := by
  induction n generalizing r with
  | zero =>
    obtain rfl := Option.some.inj hn
    exact Nat.le_refl _
  | succ n ih =>
    obtain ⟨p, hp, hrest⟩ := h.ancestor_succ.mp hn
    obtain ⟨_, _, _, hlevel⟩ := h.liesIn_folder hp
    have hrest := ih hrest
    omega

theorem ancestor_le (hn : t.ancestor n r = some a) : n ≤ maxFolderDepth + 1 := by
  have hlevel := h.ancestor_level hn
  have hle := h.level_le r
  omega

theorem ancestor_folder_le (hn : t.ancestor n (.folder x) = some a) : n ≤ maxFolderDepth := by
  have hlevel := h.ancestor_level hn
  have hle := h.folder_level_le x
  omega

/-- A folder lies where its row says. -/
theorem liesIn_folder_iff :
    t.LiesIn (.folder x) (.folder d) ↔ forestOf t.folders x = some (some d) := by
  have hparents := (h.folder x).parent
  rw [liesIn_iff, Resource.object_folder, hparents, Option.mem_toList, Resource.subject_folder,
    forestOf_eq]
  cases hx : t.folder? x with
  | none => simp
  | some g => cases hd : g.parent <;> simp [hd, Subject.folder]

theorem ancestor_folder (hf : t.Lives f) :
    t.ancestor n (.folder x) = some (.folder f) ↔ (forestOf t.folders).Climbs x n f := by
  -- zero hops lead from anything to itself, but only folders that exist have a row
  induction n generalizing x with
  | zero =>
    rw [Forest.climbs_zero, forestOf_isSome_iff]
    constructor
    · intro hself
      obtain rfl : x = f := congrArg Resource.id (Option.some.inj hself)
      exact ⟨rfl, hf⟩
    · intro hself
      obtain ⟨rfl, _⟩ := hself
      rfl
  | succ n ih =>
    rw [h.ancestor_succ, Forest.climbs_succ]
    constructor
    · intro hstep
      obtain ⟨p, hp, hrest⟩ := hstep
      obtain ⟨d, rfl, _⟩ := h.liesIn_folder hp
      exact ⟨d, h.liesIn_folder_iff.mp hp, ih.mp hrest⟩
    · intro hstep
      obtain ⟨d, hd, hrest⟩ := hstep
      exact ⟨.folder d, h.liesIn_folder_iff.mpr hd, ih.mpr hrest⟩

/-- The length of a row of the closure table is the number of hops between its ends. -/
theorem mem_paths (hf : t.Lives f) :
    ⟨f, x, n⟩ ∈ t.paths ↔ t.ancestor n (.folder x) = some (.folder f) :=
  h.hierarchy.exact.mem_mk.trans (h.ancestor_folder hf).symm

theorem mem_descendantsOf_iff (hf : t.Lives f) :
    x ∈ t.descendantsOf f ↔ t.Within (.folder x) (.folder f) := by
  rw [h.mem_descendantsOf, ← h.exists_ancestor]
  exact exists_congr fun n => (h.ancestor_folder hf).symm

/-- The rows of a folder and the parent tuple of a file tell of the same subtree as the chain. -/
theorem any_containingFolder (hf : t.Lives f) :
    (t.containingFolder r).any (t.descendantsOf f).contains = true ↔ t.Within r (.folder f) := by
  obtain ⟨k, x⟩ := r
  cases k with
  | folder => exact List.contains_iff_mem.trans (h.mem_descendantsOf_iff hf)
  | file =>
    have hself : Resource.folder f ≠ ⟨.file, x⟩ := by simp [Resource.folder]
    rw [containingFolder, parentOf_eq, within_iff, or_iff_right hself]
    obtain hnone | ⟨d, _, _, hone⟩ := h.parents ⟨.file, x⟩
    · simp [hnone, liesIn_iff]
    · have hin : t.LiesIn ⟨.file, x⟩ (.folder d) := by simp [liesIn_iff, hone]
      have hd : (Option.map Subject.id (Option.filter (·.kind == .folder)
          (some (Subject.folder d)))).any (t.descendantsOf f).contains = true ↔
            d ∈ t.descendantsOf f := List.contains_iff_mem
      rw [hone, List.head?_cons, hd, h.mem_descendantsOf_iff hf]
      constructor
      · intro hw
        exact ⟨_, hin, hw⟩
      · intro hstep
        obtain ⟨p, hp, hw⟩ := hstep
        rwa [h.liesIn_unique hin hp]

end Coherent

end Tables

namespace Program

variable {stamp : Stamp} {s : Session} {folder : Uuid} {r : Resource}

theorem run_isInSubtree : s.run stamp (isInSubtree folder r) =
    (.ok ((s.tables.containingFolder r).any (s.tables.descendantsOf folder).contains), s) := by
  obtain ⟨k, x⟩ := r
  cases k with
  | folder => rfl
  | file => rfl

end Program

end DriveAccess
