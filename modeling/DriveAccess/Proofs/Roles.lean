import DriveAccess.Role
import Mathlib.Tactic.SplitIfs
/-!
Roles by height: the higher of two roles, the highest of many, and the lowest role that brings a
permission.
-/
namespace DriveAccess

namespace Role

/-- The level of a role; having none is the lowest. -/
def height : Option Role → Nat
  | none => 0
  | some r => r.level

@[simp] theorem height_none : height none = 0 := rfl

@[simp] theorem height_some (r : Role) : height (some r) = r.level := rfl

theorem level_pos (r : Role) : 0 < r.level := by cases r <;> decide

theorem level_le (r : Role) : r.level ≤ owner.level := by cases r <;> decide

theorem level_inj {r s : Role} (h : r.level = s.level) : r = s := by
  cases r <;> cases s <;> first | rfl | exact absurd h (by decide)

theorem height_inj {a b : Option Role} (h : height a = height b) : a = b := by
  cases a with
  | none =>
    cases b with
    | none => rfl
    | some s =>
      have hs := s.level_pos
      simp only [height_none, height_some] at h
      omega
  | some r =>
    have hr := r.level_pos
    cases b with
    | none =>
      simp only [height_none, height_some] at h
      omega
    | some s => rw [level_inj h]

/-- A role is known by the levels that it reaches. -/
theorem eq_of_reaches {a b : Option Role} (h : ∀ n, n ≤ height a ↔ n ≤ height b) : a = b := by
  have hab : height a ≤ height b := (h _).mp (Nat.le_refl _)
  have hba : height b ≤ height a := (h _).mpr (Nat.le_refl _)
  exact height_inj (Nat.le_antisymm hab hba)

theorem height_le (a : Option Role) : height a ≤ owner.level := by
  cases a with
  | none => exact Nat.zero_le _
  | some r => exact r.level_le

theorem level_max (r s : Role) : (r.max s).level = Max.max r.level s.level := by
  rw [max]
  split_ifs with hle
  · exact (Nat.max_eq_right hle).symm
  · have hlt : s.level ≤ r.level := by omega
    exact (Nat.max_eq_left hlt).symm

@[simp] theorem height_higher (a b : Option Role) :
    height (higher a b) = Max.max (height a) (height b) := by
  cases a with
  | none => simp [higher]
  | some r =>
    cases b with
    | none => simp [higher]
    | some s => exact level_max r s

/-- What the higher of two roles reaches, one of them reaches. -/
theorem le_height_higher {a b : Option Role} {n : Nat} :
    n ≤ height (higher a b) ↔ n ≤ height a ∨ n ≤ height b := by
  rw [height_higher]
  omega

theorem higher_assoc (a b c : Option Role) : higher (higher a b) c = higher a (higher b c) := by
  apply height_inj
  simp only [height_higher, Nat.max_assoc]

@[simp] theorem higher_owner (a : Option Role) : higher a (some owner) = some owner := by
  have ha := height_le a
  apply height_inj
  rw [height_higher]
  exact Nat.max_eq_right ha

theorem higher_of_le {a b : Option Role} (h : height b ≤ height a) : higher a b = a := by
  apply height_inj
  rw [height_higher]
  exact Nat.max_eq_left h

theorem any_canGrant {a : Option Role} {target : Role} : a.any (·.canGrant target) = true ↔
    target ≠ owner ∧ target.level < height a := by
  cases a with
  | none => simp
  | some r => simp [canGrant]

theorem le_height_highest {roles : List Role} {n : Nat} :
    n ≤ height (highest roles) ↔ n = 0 ∨ ∃ r ∈ roles, n ≤ r.level := by
  have grow (best : Option Role) :
      n ≤ height (roles.foldl (fun best r => higher best (some r)) best) ↔
        n ≤ height best ∨ ∃ r ∈ roles, n ≤ r.level := by
    induction roles generalizing best with
    | nil => simp
    | cons r rest ih =>
      simp only [List.foldl_cons, ih, le_height_higher, height_some, or_assoc, List.mem_cons,
        exists_eq_or_imp]
  rw [highest, grow none]
  simp

/-- A role is the greatest of those that meet a condition; no role is, if none meets it. -/
def Greatest (P : Role → Prop) : Option Role → Prop
  | none => ∀ q, ¬ P q
  | some r => P r ∧ ∀ q, P q → q.level ≤ r.level

/-- The greatest role is the one that reaches what any of the others reaches. -/
theorem greatest_of_reaches {P : Role → Prop} {a : Option Role}
    (h : ∀ n, n ≤ height a ↔ n = 0 ∨ ∃ q, P q ∧ n ≤ q.level) : Greatest P a := by
  have hle (q : Role) (hq : P q) : q.level ≤ height a := (h _).mpr (.inr ⟨q, hq, Nat.le_refl _⟩)
  cases a with
  | none =>
    intro q hq
    have hpos := q.level_pos
    have hzero := hle q hq
    rw [height_none] at hzero
    omega
  | some r =>
    have hpos := r.level_pos
    obtain hzero | ⟨q, hq, hrq⟩ := (h r.level).mp (Nat.le_refl _)
    · omega
    · have hqr : q.level ≤ r.level := hle q hq
      have heq : q = r := level_inj (Nat.le_antisymm hqr hrq)
      exact ⟨heq ▸ hq, hle⟩

/-- What somebody may do who has some role, or none. -/
def permits : Option Role → PermissionSet
  | none => ∅
  | some r => r.permissions

end Role

/-- The lowest role that brings a permission. -/
def Permission.least : Permission → Role
  | fileRead | fileDownload | folderRead => .viewer
  | fileWrite | folderWrite | folderCreate | folderMoveIn => .contributor
  | fileDelete | fileShare | fileMove | folderDelete | folderShare | folderMoveOut =>
    .contentManager
  | manageAccess => .owner

namespace Role

theorem mem_permissions {r : Role} {p : Permission} :
    p ∈ r.permissions ↔ p.least.level ≤ r.level := by
  cases r <;> cases p <;> decide

theorem mem_permits {a : Option Role} {p : Permission} :
    p ∈ permits a ↔ p.least.level ≤ height a := by
  cases a with
  | none =>
    have hp : ¬ p.least.level ≤ 0 := by
      have hpos := p.least.level_pos
      omega
    simp only [permits, PermissionSet.not_mem_empty, height_none, hp]
  | some r => exact mem_permissions

theorem permissions_owner : owner.permissions = .full := by
  ext p
  simp only [mem_permissions, level_le, PermissionSet.mem_full]

@[simp] theorem permits_higher (a b : Option Role) :
    permits (higher a b) = permits a ∪ permits b := by
  ext p
  simp only [mem_permits, le_height_higher, PermissionSet.mem_union]

end Role

end DriveAccess
