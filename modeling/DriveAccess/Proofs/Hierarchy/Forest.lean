import DriveAccess.Folder
import Mathlib.Logic.Function.Basic
/-!
Forests of identifiers: what lies above a node and how deep it lies, and how both change when a
node is put in another place or a subtree is cut away.
-/
namespace DriveAccess

/-- `none` for what is no node, `some none` for a root. -/
abbrev Forest := Uuid → Option (Option Uuid)

namespace Forest

/-- From `x` it takes `n` steps along parents to reach the node `a`. -/
inductive Climbs (F : Forest) : Uuid → Nat → Uuid → Prop
  | here {x : Uuid} (hx : (F x).isSome) : Climbs F x 0 x
  | up {x p a : Uuid} {n : Nat} (hx : F x = some (some p)) (hp : Climbs F p n a) :
      Climbs F x (n + 1) a

/-- `x` is `f` or lies somewhere below it. -/
def Below (F : Forest) (f x : Uuid) : Prop := ∃ k, F.Climbs x k f

/-- `x` lies `n` steps below a root. -/
def Depth (F : Forest) (x : Uuid) (n : Nat) : Prop := ∃ r, F.Climbs x n r ∧ F r = some none

/-- The farthest node below `f`, or `f` itself, is `n` steps away. -/
def Height (F : Forest) (f : Uuid) (n : Nat) : Prop :=
  (∃ x, F.Climbs x n f) ∧ ∀ x k, F.Climbs x k f → k ≤ n

/-- Every way up ends at a root: no parent is missing and no node is above itself. -/
def Grounded (F : Forest) : Prop := ∀ x, (F x).isSome → ∃ n, F.Depth x n

variable {F : Forest} {x y a b f p r : Uuid} {k m n : Nat}

theorem Climbs.node (h : F.Climbs x n a) : (F x).isSome := by
  cases h with
  | here hx => exact hx
  | up hx _ => simp [hx]

theorem Climbs.target (h : F.Climbs x n a) : (F a).isSome := by
  induction h with
  | here hx => exact hx
  | up _ _ ih => exact ih

@[simp] theorem climbs_zero : F.Climbs x 0 a ↔ a = x ∧ (F x).isSome := by
  constructor
  · intro h
    cases h with
    | here hx => exact ⟨rfl, hx⟩
  · intro h
    obtain ⟨rfl, hx⟩ := h
    exact .here hx

theorem climbs_succ :
    F.Climbs x (n + 1) a ↔ ∃ p, F x = some (some p) ∧ F.Climbs p n a := by
  constructor
  · intro h
    cases h with
    | up hx hp => exact ⟨_, hx, hp⟩
  · intro h
    obtain ⟨p, hx, hp⟩ := h
    exact .up hx hp

theorem Climbs.unique (h : F.Climbs x n a) (k : F.Climbs x n b) : a = b := by
  induction h with
  | here _ => exact (climbs_zero.mp k).1.symm
  | up hx _ ih =>
    obtain ⟨q, hq, kq⟩ := climbs_succ.mp k
    rw [hx] at hq
    cases hq
    exact ih kq

theorem Climbs.trans (h : F.Climbs x m y) (k : F.Climbs y n a) : F.Climbs x (m + n) a := by
  induction h with
  | here _ => simpa using k
  | @up x p z m hx _ ih =>
    have hs : m + 1 + n = m + n + 1 := by omega
    rw [hs]
    exact .up hx (ih k)

/-- What is met on the way up splits the way. -/
theorem Climbs.rest (h : F.Climbs x m y) (k : F.Climbs x (m + n) a) : F.Climbs y n a := by
  induction h with
  | here _ => simpa using k
  | @up x p z m hx _ ih =>
    have hs : m + 1 + n = m + n + 1 := by omega
    rw [hs] at k
    obtain ⟨q, hq, kq⟩ := climbs_succ.mp k
    rw [hx] at hq
    cases hq
    exact ih kq

/-- Of two nodes on one way up, the later one lies above the earlier one. -/
theorem Climbs.between (h : F.Climbs x m y) (k : F.Climbs x n a) (hm : m ≤ n) :
    F.Climbs y (n - m) a := by
  have hs : n = m + (n - m) := by omega
  rw [hs] at k
  exact h.rest k

/-- There is no way on from `a`. -/
def Ends (F : Forest) (a : Uuid) : Prop := ∀ p, F a = some (some p) → F p = none

theorem ends_of_root (h : F a = some none) : F.Ends a := by
  intro p hp
  rw [h] at hp
  cases hp

theorem ends_of_missing (ha : F a = some (some p)) (hp : F p = none) : F.Ends a := by
  intro q hq
  rw [ha] at hq
  cases hq
  exact hp

/-- No way is longer than one that ends. -/
theorem Climbs.le_of_ends (h : F.Climbs x n a) (ha : F.Ends a) (hb : F.Climbs x m b) : m ≤ n := by
  by_contra hlt
  have hon : F.Climbs a (m - n) b := h.between hb (by omega)
  have hs : m - n = m - n - 1 + 1 := by omega
  rw [hs] at hon
  obtain ⟨p, hp, hrest⟩ := climbs_succ.mp hon
  have hnone := ha p hp
  simpa [hnone] using hrest.node

theorem Climbs.end_unique (h : F.Climbs x n a) (ha : F.Ends a) (k : F.Climbs x m b)
    (hb : F.Ends b) : a = b := by
  have hle := h.le_of_ends ha k
  have hge := k.le_of_ends hb h
  obtain rfl : m = n := by omega
  exact h.unique k

theorem Depth.node (h : F.Depth x n) : (F x).isSome := by
  obtain ⟨r, hr, _⟩ := h
  exact hr.node

theorem Depth.of_climbs (h : F.Climbs x k a) (d : F.Depth a n) : F.Depth x (k + n) := by
  obtain ⟨r, hr, hroot⟩ := d
  exact ⟨r, h.trans hr, hroot⟩

/-- A root ends every way up, so no way is longer than the depth. -/
theorem Depth.climbs (d : F.Depth x n) (h : F.Climbs x k a) : k ≤ n ∧ F.Depth a (n - k) := by
  obtain ⟨r, hr, hroot⟩ := d
  have hk := hr.le_of_ends (ends_of_root hroot) h
  exact ⟨hk, r, h.between hr hk, hroot⟩

theorem Depth.unique (d : F.Depth x m) (e : F.Depth x n) : m = n := by
  have le {i j : Nat} (d : F.Depth x i) (e : F.Depth x j) : i ≤ j := by
    obtain ⟨r, hr, _⟩ := d
    exact (e.climbs hr).1
  exact Nat.le_antisymm (le d e) (le e d)

theorem depth_root (hx : F x = some none) : F.Depth x 0 :=
  ⟨x, .here (by simp [hx]), hx⟩

theorem depth_child (hx : F x = some (some p)) (d : F.Depth p n) : F.Depth x (n + 1) := by
  have h := Depth.of_climbs (.up hx (.here d.node)) d
  rwa [Nat.add_comm] at h

/-- Two ways from one node to another have one length. -/
theorem Grounded.length_unique (hF : F.Grounded) (h : F.Climbs x m a) (k : F.Climbs x n a) :
    m = n := by
  obtain ⟨d, hd⟩ := hF x h.node
  obtain ⟨h1, e1⟩ := hd.climbs h
  obtain ⟨h2, e2⟩ := hd.climbs k
  have := e1.unique e2
  omega

theorem Grounded.acyclic (hF : F.Grounded) (h : F.Climbs x n x) : n = 0 :=
  hF.length_unique h (.here h.node)

theorem Grounded.parent (hF : F.Grounded) (hx : F x = some (some p)) : (F p).isSome := by
  obtain ⟨n, r, hr, hroot⟩ := hF x (by simp [hx])
  cases hr with
  | here _ => simp [hx] at hroot
  | up hq hp =>
    rw [hx] at hq
    cases hq
    exact hp.node

theorem Below.refl (hx : (F x).isSome) : F.Below x x := ⟨0, .here hx⟩

theorem Below.trans (h : F.Below f y) (k : F.Below y x) : F.Below f x := by
  obtain ⟨m, hm⟩ := h
  obtain ⟨n, hn⟩ := k
  exact ⟨n + m, hn.trans hm⟩

/-- Puts `x`, new or not, under a parent or among the roots; what is below `x` comes along. -/
def place (F : Forest) (x : Uuid) (parent : Option Uuid) : Forest :=
  Function.update F x (some parent)

@[simp] theorem place_self (q : Option Uuid) : F.place x q x = some q :=
  Function.update_self ..

theorem place_of_ne (q : Option Uuid) (h : y ≠ x) : F.place x q y = F y :=
  Function.update_of_ne h ..

/-- A new parent is a node outside the subtree that it receives. -/
def Receives (F : Forest) (x : Uuid) (q : Option Uuid) : Prop :=
  ∀ p, q = some p → (F p).isSome ∧ p ≠ x ∧ ¬ F.Below x p

theorem not_below_of_none (hx : F x = none) : ¬ F.Below x y := by
  intro hbelow
  obtain ⟨k, hk⟩ := hbelow
  have := hk.target
  simp [hx] at this

/-- A parent that exists receives a new node. -/
theorem receives_new {q : Option Uuid} (hx : F x = none) (hq : ∀ p, q = some p → (F p).isSome) :
    F.Receives x q := by
  intro p hp
  refine ⟨hq p hp, ?_, not_below_of_none hx⟩
  intro he
  subst he
  simpa [hx] using hq p hp

theorem climbs_place_off (hF : F.Grounded) (q : Option Uuid) (hy : y ≠ x)
    (hoff : ¬ F.Below x y) : (F.place x q).Climbs y n a ↔ F.Climbs y n a := by
  induction n generalizing y with
  | zero => simp [place_of_ne q hy]
  | succ n ih =>
    simp only [climbs_succ, place_of_ne q hy]
    refine exists_congr fun p => and_congr_right fun hp => ?_
    have hpx : p ≠ x := by
      intro he
      subst he
      exact hoff ⟨1, .up hp (.here (hF.parent hp))⟩
    have hpoff : ¬ F.Below x p := by
      intro hbelow
      obtain ⟨k, hk⟩ := hbelow
      exact hoff ⟨k + 1, .up hp hk⟩
    exact ih hpx hpoff

theorem climbs_place_self (q : Option Uuid) : (F.place x q).Climbs x n a ↔
    (n = 0 ∧ a = x) ∨ ∃ p m, q = some p ∧ n = m + 1 ∧ (F.place x q).Climbs p m a := by
  cases n with
  | zero => simp
  | succ n => simp [climbs_succ]

theorem climbs_place_below (hF : F.Grounded) (q : Option Uuid) (hk : F.Climbs y k x) :
    (F.place x q).Climbs y n a ↔
      (n < k ∧ F.Climbs y n a) ∨ ∃ m, n = k + m ∧ (F.place x q).Climbs x m a := by
  induction hk generalizing n with
  | here _ => simp
  | @up y p x k hy hp ih =>
    have hyx : y ≠ x := by
      intro he
      subst he
      have := hF.acyclic (.up hy hp)
      omega
    cases n with
    | zero =>
      have hsum (m : Nat) : 0 ≠ k + 1 + m := by omega
      simp [place_of_ne q hyx, hsum]
    | succ n =>
      have hsum (m : Nat) : n + 1 = k + 1 + m ↔ n = k + m := by omega
      simp only [climbs_succ, place_of_ne q hyx, hy, Option.some.injEq, exists_eq_left', ih,
        Nat.add_lt_add_iff_right, hsum]

/-- The ways up from a subtree that is put elsewhere: those inside stay, those out of it are
replaced by the ways through the new parent. -/
theorem climbs_place (hF : F.Grounded) (q : Option Uuid) (hq : F.Receives x q)
    (hk : F.Climbs y k x) : (F.place x q).Climbs y n a ↔
      (F.Climbs y n a ∧ F.Below x a) ∨
        ∃ p m, q = some p ∧ n = k + 1 + m ∧ F.Climbs p m a := by
  have up (p : Uuid) (m : Nat) (hp : q = some p) :
      (F.place x q).Climbs p m a ↔ F.Climbs p m a :=
    climbs_place_off hF q (hq p hp).2.1 (hq p hp).2.2
  have inside : (F.Climbs y n a ∧ F.Below x a) ↔ n ≤ k ∧ F.Climbs y n a := by
    constructor
    · intro h
      obtain ⟨ha, j, hj⟩ := h
      have := hF.length_unique (ha.trans hj) hk
      exact ⟨by omega, ha⟩
    · intro h
      obtain ⟨hn, ha⟩ := h
      exact ⟨ha, k - n, ha.between hk hn⟩
  rw [climbs_place_below hF q hk, inside]
  simp only [climbs_place_self]
  constructor
  · intro h
    obtain ⟨hn, ha⟩ | ⟨m, hm, ⟨rfl, rfl⟩ | ⟨p, j, hp, rfl, hj⟩⟩ := h
    · exact .inl ⟨by omega, ha⟩
    · exact .inl ⟨by omega, hm ▸ hk⟩
    · exact .inr ⟨p, j, hp, by omega, (up p j hp).mp hj⟩
  · intro h
    obtain ⟨hn, ha⟩ | ⟨p, j, hp, hn, hj⟩ := h
    · rcases Nat.lt_or_eq_of_le hn with hlt | rfl
      · exact .inl ⟨hlt, ha⟩
      · exact .inr ⟨0, by omega, .inl ⟨rfl, ha.unique hk⟩⟩
    · exact .inr ⟨j + 1, by omega, .inr ⟨p, j, hp, rfl, (up p j hp).mpr hj⟩⟩

/-- The depth that a place gives: below a parent one more than the parent has. -/
def PlaceDepth (F : Forest) (q : Option Uuid) (n : Nat) : Prop :=
  match q with
  | none => n = 0
  | some p => ∃ m, F.Depth p m ∧ n = m + 1

theorem depth_place_off (hF : F.Grounded) (q : Option Uuid) (hy : y ≠ x)
    (hoff : ¬ F.Below x y) (d : F.Depth y n) : (F.place x q).Depth y n := by
  obtain ⟨r, hr, hroot⟩ := d
  have hrx : r ≠ x := by
    intro he
    subst he
    exact hoff ⟨n, hr⟩
  exact ⟨r, (climbs_place_off hF q hy hoff).mpr hr, by rwa [place_of_ne q hrx]⟩

theorem depth_place_self (hF : F.Grounded) {q : Option Uuid} (hq : F.Receives x q)
    (d : F.PlaceDepth q n) : (F.place x q).Depth x n := by
  cases q with
  | none =>
    obtain rfl : n = 0 := d
    exact depth_root (place_self none)
  | some p =>
    obtain ⟨m, hm, rfl⟩ := d
    obtain ⟨_, hpx, hpoff⟩ := hq p rfl
    exact depth_child (place_self _) (depth_place_off hF _ hpx hpoff hm)

theorem depth_place_below (hF : F.Grounded) {q : Option Uuid} (hq : F.Receives x q)
    (hk : F.Climbs y k x) (d : F.PlaceDepth q n) : (F.place x q).Depth y (k + n) :=
  Depth.of_climbs ((climbs_place_below hF q hk).mpr (.inr ⟨0, rfl, by simp⟩))
    (depth_place_self hF hq d)

theorem Grounded.exists_placeDepth (hF : F.Grounded) {q : Option Uuid} (hq : F.Receives x q) :
    ∃ n, F.PlaceDepth q n := by
  cases q with
  | none => exact ⟨0, rfl⟩
  | some p =>
    obtain ⟨m, hm⟩ := hF p (hq p rfl).1
    exact ⟨m + 1, m, hm, rfl⟩

theorem Grounded.place (hF : F.Grounded) {q : Option Uuid} (hq : F.Receives x q) :
    (F.place x q).Grounded := by
  obtain ⟨n, hn⟩ := hF.exists_placeDepth hq
  intro y hy
  by_cases hyx : y = x
  · subst hyx
    exact ⟨n, depth_place_self hF hq hn⟩
  · by_cases hb : F.Below x y
    · obtain ⟨k, hk⟩ := hb
      exact ⟨k + n, depth_place_below hF hq hk hn⟩
    · rw [place_of_ne q hyx] at hy
      obtain ⟨m, hm⟩ := hF y hy
      exact ⟨m, depth_place_off hF q hyx hb hm⟩

open Classical in
/-- Takes `f` away with all that is below it. -/
noncomputable def cut (F : Forest) (f : Uuid) : Forest :=
  fun x => if F.Below f x then none else F x

theorem cut_below (h : F.Below f x) : F.cut f x = none := by simp [cut, h]

theorem cut_off (h : ¬ F.Below f x) : F.cut f x = F x := by simp [cut, h]

theorem climbs_cut (hF : F.Grounded) :
    (F.cut f).Climbs y n a ↔ F.Climbs y n a ∧ ¬ F.Below f y := by
  by_cases hy : F.Below f y
  · simp only [hy, not_true_eq_false, and_false, iff_false]
    intro h
    simpa [cut_below hy] using h.node
  · simp only [hy, not_false_eq_true, and_true]
    induction n generalizing y with
    | zero => simp [cut_off hy]
    | succ n ih =>
      simp only [climbs_succ, cut_off hy]
      refine exists_congr fun p => and_congr_right fun hp => ih ?_
      exact fun h => hy (h.trans ⟨1, .up hp (.here (hF.parent hp))⟩)

theorem depth_cut (hF : F.Grounded) (hy : ¬ F.Below f y) (d : F.Depth y n) :
    (F.cut f).Depth y n := by
  obtain ⟨r, hr, hroot⟩ := d
  have hroff : ¬ F.Below f r := fun h => hy (h.trans ⟨n, hr⟩)
  exact ⟨r, (climbs_cut hF).mpr ⟨hr, hy⟩, by rwa [cut_off hroff]⟩

theorem Grounded.cut (hF : F.Grounded) (f : Uuid) : (F.cut f).Grounded := by
  intro y hy
  by_cases hb : F.Below f y
  · simp [cut_below hb] at hy
  · rw [cut_off hb] at hy
    obtain ⟨n, hn⟩ := hF y hy
    exact ⟨n, depth_cut hF hb hn⟩

/-- Nothing lies directly below `f`. -/
def Leaf (F : Forest) (f : Uuid) : Prop := ∀ x, F x ≠ some (some f)

theorem Climbs.of_leaf (h : F.Climbs x n f) (hf : F.Leaf f) : x = f := by
  induction h with
  | here _ => rfl
  | up hx _ ih =>
    have hp := ih hf
    subst hp
    exact absurd hx (hf _)

theorem cut_leaf (hf : F.Leaf f) : F.cut f = Function.update F f none := by
  funext x
  by_cases hx : x = f
  · subst hx
    rw [Function.update_self]
    cases hnode : F x with
    | none =>
      have hoff : ¬ F.Below x x := not_below_of_none hnode
      rw [cut_off hoff, hnode]
    | some q => exact cut_below (.refl (by simp [hnode]))
  · have hoff : ¬ F.Below f x := by
      intro hb
      obtain ⟨k, hk⟩ := hb
      exact hx (hk.of_leaf hf)
    rw [cut_off hoff, Function.update_of_ne hx]

end Forest

end DriveAccess
