import DriveAccess.Proofs.Access.FolderMoves
import DriveAccess.Proofs.Server.Vocabularies
/-!
Sums of depths and of distances in unsigned 32-bit integers. The functions that add are written out
once more with additions that may fail, in the order in which they are carried out; they come to the
same on whatever can be read from a column of signed 32-bit integers.
-/
namespace DriveAccess

/-- The sum of two unsigned 32-bit integers, where it is one itself. -/
def sum32 (m n : Nat) : Option Nat := if m + n < 2 ^ 32 then some (m + n) else none

theorem sum32_eq_some_iff {m n k : Nat} : sum32 m n = some k ↔ m + n = k ∧ k < 2 ^ 32 := by
  rw [sum32]
  split
  · rename_i h
    rw [Option.some.injEq]
    exact ⟨fun hk => ⟨hk, hk ▸ h⟩, And.left⟩
  · rename_i h
    refine iff_of_false nofun ?_
    rintro ⟨rfl, hk⟩
    exact h hk

theorem sum32_eq_some {m n : Nat} (h : m + n < 2 ^ 32) : sum32 m n = some (m + n) :=
  sum32_eq_some_iff.mpr ⟨rfl, h⟩

/-- A number that is read from a column of signed 32-bit integers. -/
def Stored (n : Nat) : Prop := ∃ i : Int32, ofInt4 i = .ok n

theorem stored_iff {n : Nat} : Stored n ↔ n < 2 ^ 31 := by
  simp only [Stored, ofInt4_eq_ok, exists_eq_left]

theorem mapM_eq_some {α β : Type} {f : α → Option β} {g : α → β} {xs : List α}
    (h : ∀ x ∈ xs, f x = some (g x)) : xs.mapM f = some (xs.map g) := by
  induction xs with
  | nil => rfl
  | cons x xs ih =>
    obtain ⟨hx, hxs⟩ := List.forall_mem_cons.mp h
    rw [List.mapM_cons, hx, ih hxs]
    rfl

namespace Folder

def newChild32 (stamp : Stamp) (name : String) (owner : Uuid) (parent : Folder) :
    Option (Except HierarchyError Folder) := do
  let depth ← sum32 parent.depth 1
  if maxFolderDepth < depth then
    return .error (.maxDepthExceeded depth maxFolderDepth)
  return .ok { newRoot stamp name owner with parent := some parent.id, depth }

theorem newChild32_eq {stamp : Stamp} {name : String} {owner : Uuid} {parent : Folder}
    (h : Stored parent.depth) :
    newChild32 stamp name owner parent = some (newChild stamp name owner parent) := by
  have hdepth : sum32 parent.depth 1 = some (parent.depth + 1) :=
    sum32_eq_some (by have := stored_iff.mp h; omega)
  simp only [newChild32, newChild, hdepth, Option.bind_eq_bind, Option.bind_some]
  split <;> rfl

/-- The depth of what comes to lie in a place. -/
def placeDepth32 : Option Folder → Option Nat
  | none => some 0
  | some p => sum32 p.depth 1

def validateMove32 (f : Folder) (newParent : Option Folder) (descendants : List Uuid)
    (height : Nat) : Option (Except HierarchyError Nat) :=
  match newParent.filter fun p => p.id == f.id || descendants.contains p.id with
  | some p => some (.error (.circularMove f.id p.id))
  | none => do
    let depth ← placeDepth32 newParent
    let deepest ← sum32 depth height
    if maxFolderDepth < deepest then
      return .error (.maxDepthExceeded deepest maxFolderDepth)
    return .ok depth

theorem validateMove32_eq {f : Folder} {newParent : Option Folder} {descendants : List Uuid}
    {height : Nat} (hparent : ∀ p ∈ newParent, Stored p.depth) (hheight : Stored height) :
    f.validateMove32 newParent descendants height =
      some (f.validateMove newParent descendants height) := by
  have hheight := stored_iff.mp hheight
  have hplace : placeDepth32 newParent = some (placeDepth newParent) ∧
      placeDepth newParent ≤ 2 ^ 31 := by
    cases newParent with
    | none => exact ⟨rfl, Nat.zero_le _⟩
    | some p =>
      have hp := stored_iff.mp (hparent p rfl)
      exact ⟨sum32_eq_some (by omega), hp⟩
  have hdeepest : sum32 (placeDepth newParent) height = some (placeDepth newParent + height) :=
    sum32_eq_some (by omega)
  rw [validateMove32, validateMove_eq]
  cases newParent.filter fun p => p.id == f.id || descendants.contains p.id with
  | some p => rfl
  | none =>
    simp only [hplace.1, hdeepest, Option.bind_eq_bind, Option.bind_some]
    split <;> rfl

end Folder

namespace FolderPath

def extend32 (p : FolderPath) (child : Uuid) : Option FolderPath := do
  return ⟨p.ancestor, child, ← sum32 p.length 1⟩

def join32 (upper lower : FolderPath) : Option FolderPath := do
  return ⟨upper.ancestor, lower.descendant, ← sum32 (← sum32 upper.length 1) lower.length⟩

theorem extend32_eq {p : FolderPath} (h : Stored p.length) (child : Uuid) :
    p.extend32 child = some (p.extend child) := by
  have hsum : sum32 p.length 1 = some (p.length + 1) :=
    sum32_eq_some (by have := stored_iff.mp h; omega)
  rw [extend32, hsum]
  rfl

theorem join32_eq {upper lower : FolderPath} (hupper : Stored upper.length)
    (hlower : Stored lower.length) : upper.join32 lower = some (upper.join lower) := by
  have hupper := stored_iff.mp hupper
  have hlower := stored_iff.mp hlower
  have hstep : sum32 upper.length 1 = some (upper.length + 1) := sum32_eq_some (by omega)
  have hsum : sum32 (upper.length + 1) lower.length = some (upper.length + 1 + lower.length) :=
    sum32_eq_some (by omega)
  simp only [join32, hstep, hsum, Option.bind_eq_bind, Option.bind_some]
  rfl

/-- The greatest distances that can be stored take up all 32 bits. -/
example : (join32 ⟨.ofNat 0, .ofNat 1, 2 ^ 31 - 1⟩ ⟨.ofNat 2, .ofNat 3, 2 ^ 31 - 1⟩).map
    (·.length) = some (2 ^ 32 - 1) := by decide

end FolderPath

def ancestorPaths32 (folder : Uuid) (parentPaths : List FolderPath) :
    Option (List FolderPath) := do
  return .self folder :: (← parentPaths.mapM (·.extend32 folder))

def attachPaths32 (subtree newParentPaths : List FolderPath) : Option (List FolderPath) := do
  return (← subtree.mapM fun lower => newParentPaths.mapM fun upper => upper.join32 lower).flatten

/-- The depths of a subtree whose root comes to lie at a depth. -/
def movedDepths32 (depth : Nat) (subtree : List FolderPath) : Option (List (Uuid × Nat)) :=
  subtree.mapM fun p => do return (p.descendant, ← sum32 depth p.length)

theorem ancestorPaths32_eq {up : List FolderPath} (h : ∀ p ∈ up, Stored p.length)
    (folder : Uuid) : ancestorPaths32 folder up = some (ancestorPaths folder up) := by
  rw [ancestorPaths32, mapM_eq_some fun p hp => FolderPath.extend32_eq (h p hp) folder]
  rfl

theorem attachPaths32_eq {sub up : List FolderPath} (hsub : ∀ p ∈ sub, Stored p.length)
    (hup : ∀ p ∈ up, Stored p.length) : attachPaths32 sub up = some (attachPaths sub up) := by
  have hrows : ∀ lower ∈ sub, (up.mapM fun upper => upper.join32 lower) =
      some (up.map fun upper => upper.join lower) := fun lower hlower =>
    mapM_eq_some fun upper hupper => FolderPath.join32_eq (hup upper hupper) (hsub lower hlower)
  rw [attachPaths32, mapM_eq_some hrows, attachPaths, List.flatMap_def]
  rfl

theorem stored_subtreeHeight {sub : List FolderPath} (h : ∀ p ∈ sub, Stored p.length) :
    Stored (subtreeHeight sub) := by
  by_cases hsub : sub = []
  · subst hsub
    exact ⟨0, rfl⟩
  · obtain ⟨p, hp, hlength⟩ := exists_subtreeHeight hsub
    exact hlength ▸ h p hp

/-- No folder of a subtree that may move comes to lie deeper than the deepest one may. -/
theorem Folder.validateMove_bounds {f : Folder} {newParent : Option Folder}
    {descendants : List Uuid} {sub : List FolderPath} {depth : Nat}
    (h : f.validateMove newParent descendants (subtreeHeight sub) = .ok depth) :
    ∀ p ∈ sub, depth + p.length ≤ maxFolderDepth := by
  intro p hp
  have hheight := le_subtreeHeight hp
  have hdeepest := (validateMove_ok h).2.1
  omega

theorem movedDepths32_eq {sub : List FolderPath} {depth : Nat}
    (h : ∀ p ∈ sub, depth + p.length ≤ maxFolderDepth) :
    movedDepths32 depth sub = some (sub.map fun p => (p.descendant, depth + p.length)) := by
  refine mapM_eq_some fun p hp => ?_
  have hlimit : maxFolderDepth < 2 ^ 32 := by decide
  have hsum : sum32 depth p.length = some (depth + p.length) :=
    sum32_eq_some (Nat.lt_of_le_of_lt (h p hp) hlimit)
  rw [hsum]
  rfl

end DriveAccess
