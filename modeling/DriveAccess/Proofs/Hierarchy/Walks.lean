import DriveAccess.Closure.Violation
import DriveAccess.Proofs.Hierarchy.FolderRows
import Mathlib.Data.List.Perm.Subperm
import Mathlib.Data.Nat.Find
/-!
Walks along the parents of folders, whatever these parents are: they may be missing and they may run
in circles.
-/
namespace DriveAccess

namespace Forest

variable {F : Forest} {x a b p : Uuid} {i j k m n : Nat}

/-- The way up from `x` meets `a` for the first time after `n` steps. -/
def Meets (F : Forest) (x : Uuid) (n : Nat) (a : Uuid) : Prop :=
  F.Climbs x n a ∧ ∀ m < n, ¬ F.Climbs x m a

/-- The way up from `x` runs into `p`, which is no node. -/
def RunsInto (F : Forest) (x p : Uuid) : Prop :=
  ∃ n a, F.Climbs x n a ∧ F a = some (some p) ∧ F p = none

/-- The way up from `x` comes back to a node. -/
def Circles (F : Forest) (x : Uuid) : Prop :=
  ∃ m n a, m < n ∧ F.Climbs x m a ∧ F.Climbs x n a

/-- Where the way up from `x` leads in the end. -/
def LeadsTo (F : Forest) (x : Uuid) : WalkEnd → Prop
  | .root => ∃ n, F.Depth x n
  | .unknown p => F.RunsInto x p
  | .cycle => F.Circles x

theorem Meets.unique (h : F.Meets x m a) (k : F.Meets x n a) : m = n := by
  have hmn : ¬ m < n := fun hlt => k.2 m hlt h.1
  have hnm : ¬ n < m := fun hlt => h.2 n hlt k.1
  omega

/-- What is met at all is met for a first time. -/
theorem Climbs.exists_meets (h : F.Climbs x n a) : ∃ m, F.Meets x m a := by
  classical
  have hex : ∃ n, F.Climbs x n a := ⟨n, h⟩
  exact ⟨Nat.find hex, Nat.find_spec hex, fun m hm => Nat.find_min hex hm⟩

/-- A way that ends does not come back to any node: from there on it would never end. -/
theorem Climbs.not_circles (h : F.Climbs x n a) (ha : F.Ends a) : ¬ F.Circles x := by
  intro hcircle
  obtain ⟨i, j, b, hij, hi, hj⟩ := hcircle
  have hjn := h.le_of_ends ha hj
  have hrest : F.Climbs b (n - i) a := hi.between h (by omega)
  have hlonger : F.Climbs x (j + (n - i)) a := hj.trans hrest
  have hbound := h.le_of_ends ha hlonger
  omega

/-- A way up that does not circle ends at a node, whose parent tells the kind of the end. -/
theorem LeadsTo.ends {e : WalkEnd} (h : F.LeadsTo x e) :
    F.Circles x ∧ e = .cycle ∨
      ∃ n a, F.Climbs x n a ∧ F.Ends a ∧
        (F a = some none ∧ e = .root ∨ ∃ p, F a = some (some p) ∧ e = .unknown p) := by
  cases e with
  | root =>
    obtain ⟨n, a, ha, hroot⟩ := h
    exact .inr ⟨n, a, ha, ends_of_root hroot, .inl ⟨hroot, rfl⟩⟩
  | unknown p =>
    obtain ⟨n, a, ha, hp, hnone⟩ := h
    exact .inr ⟨n, a, ha, ends_of_missing hp hnone, .inr ⟨p, hp, rfl⟩⟩
  | cycle => exact .inl ⟨h, rfl⟩

/-- Every way up leads to one end. -/
theorem LeadsTo.unique {e e' : WalkEnd} (h : F.LeadsTo x e) (k : F.LeadsTo x e') : e = e' := by
  obtain ⟨hcircle, rfl⟩ | ⟨n, a, ha, hends, hkind⟩ := h.ends <;>
    obtain ⟨kcircle, rfl⟩ | ⟨m, b, hb, kends, kkind⟩ := k.ends
  · rfl
  · exact absurd hcircle (hb.not_circles kends)
  · exact absurd kcircle (ha.not_circles hends)
  · obtain rfl := ha.end_unique hends hb kends
    obtain ⟨hroot, rfl⟩ | ⟨p, hp, rfl⟩ := hkind
    · obtain ⟨_, rfl⟩ | ⟨q, hq, rfl⟩ := kkind
      · rfl
      · rw [hroot] at hq
        cases hq
    · obtain ⟨kroot, rfl⟩ | ⟨q, hq, rfl⟩ := kkind
      · rw [hp] at kroot
        cases kroot
      · rw [hp] at hq
        cases hq
        rfl

end Forest

/-- `met` lists the nodes above `x`, itself included, as far as the first `k` of them. -/
def Lists (F : Forest) (x : Uuid) (k : Nat) (met : List Uuid) : Prop :=
  ∀ i a, met[i]? = some a ↔ i ≤ k ∧ F.Climbs x i a

/-- Why the way up is not followed beyond `r`. -/
def WalkEnd.Stops (F : Forest) (met : List Uuid) (r : Uuid) : WalkEnd → Prop
  | root => F r = some none
  | unknown p => F r = some (some p) ∧ F p = none
  | cycle => ∃ p ∈ met, F r = some (some p)

/-- The walk follows the way up from `x`, without meeting a node twice, as far as there is anything
new to meet. -/
structure Walk.Follows (F : Forest) (x : Uuid) (w : Walk) : Prop where
  nodup : w.met.Nodup
  goes : ∃ n r, F.Climbs x n r ∧ Lists F x n w.met ∧ w.stop.Stops F w.met r

namespace Lists

variable {F : Forest} {x a p : Uuid} {k : Nat} {met : List Uuid}

theorem start (hx : (F x).isSome) : Lists F x 0 [x] := by
  intro i a
  cases i with
  | zero => simp [hx, eq_comm]
  | succ i => simp

theorem length (h : Lists F x k met) (hk : F.Climbs x k a) : met.length = k + 1 := by
  have hlt : k < met.length := by
    have := (h k a).mpr ⟨Nat.le_refl k, hk⟩
    exact (List.getElem?_eq_some_iff.mp this).1
  have hle : ¬ k + 1 < met.length := by
    intro hlong
    have := (h (k + 1) met[k + 1]).mp (List.getElem?_eq_getElem hlong)
    omega
  omega

theorem mem_iff (h : Lists F x k met) : a ∈ met ↔ ∃ i ≤ k, F.Climbs x i a := by
  rw [List.mem_iff_getElem?]
  constructor
  · intro hm
    obtain ⟨i, hi⟩ := hm
    obtain ⟨hik, hc⟩ := (h i a).mp hi
    exact ⟨i, hik, hc⟩
  · intro hc
    obtain ⟨i, hik, hc⟩ := hc
    exact ⟨i, (h i a).mpr ⟨hik, hc⟩⟩

theorem snoc (h : Lists F x k met) (hlen : met.length = k + 1) (hp : F.Climbs x (k + 1) p) :
    Lists F x (k + 1) (met ++ [p]) := by
  intro i a
  rw [List.getElem?_append]
  split
  · rw [h i a]
    have hik : i ≤ k := by omega
    simp [hik, Nat.le_succ_of_le hik]
  · by_cases hi : i = k + 1
    · subst hi
      simp only [hlen, Nat.sub_self, List.getElem?_cons_zero, Option.some.injEq, Nat.le_refl,
        true_and]
      exact ⟨fun he => he ▸ hp, fun hc => hp.unique hc⟩
    · have hout : ¬ i ≤ k + 1 := by omega
      have hnone : [p][i - met.length]? = none := by
        rw [List.getElem?_eq_none_iff]
        simp only [List.length_singleton]
        omega
      simp [hout, hnone]

end Lists

namespace Walk.Follows

variable {F : Forest} {x a p : Uuid} {i n : Nat} {w : Walk} (h : w.Follows F x)

include h

/-- Beyond its end the walk would only meet again what it has met. -/
theorem met_iff : w.met[i]? = some a ↔ F.Meets x i a := by
  obtain ⟨n, r, hr, hlist, hstop⟩ := h.goes
  constructor
  · intro hi
    obtain ⟨hin, hc⟩ := (hlist i a).mp hi
    refine ⟨hc, fun m hm hearlier => ?_⟩
    have hagain : w.met[m]? = some a := (hlist m a).mpr ⟨by omega, hearlier⟩
    have hlt : i < w.met.length := (List.getElem?_eq_some_iff.mp hi).1
    exact List.nodup_iff_getElem?_ne_getElem?.mp h.nodup m i hm hlt (hagain.trans hi.symm)
  · intro hmeets
    obtain ⟨hc, hfirst⟩ := hmeets
    refine (hlist i a).mpr ⟨?_, hc⟩
    cases hs : w.stop with
    | root =>
      rw [hs] at hstop
      exact hr.le_of_ends (Forest.ends_of_root hstop) hc
    | unknown p =>
      rw [hs] at hstop
      exact hr.le_of_ends (Forest.ends_of_missing hstop.1 hstop.2) hc
    | cycle =>
      rw [hs] at hstop
      obtain ⟨p, hp, hparent⟩ := hstop
      obtain ⟨j, hj, hback⟩ := hlist.mem_iff.mp hp
      by_contra hlong
      -- from `r` the way goes on to `p`, which was met after `j` steps already
      have hon : F.Climbs x (n + 1) p :=
        hr.trans (.up hparent (.here hback.target))
      have hrest : F.Climbs p (i - (n + 1)) a := hon.between hc (by omega)
      have hshort : F.Climbs x (j + (i - (n + 1))) a := hback.trans hrest
      exact hfirst _ (by omega) hshort

theorem stop_iff {e : WalkEnd} : w.stop = e ↔ F.LeadsTo x e := by
  have hleads : F.LeadsTo x w.stop := by
    obtain ⟨n, r, hr, hlist, hstop⟩ := h.goes
    cases hs : w.stop with
    | root =>
      rw [hs] at hstop
      exact ⟨n, r, hr, hstop⟩
    | unknown p =>
      rw [hs] at hstop
      exact ⟨n, r, hr, hstop⟩
    | cycle =>
      rw [hs] at hstop
      obtain ⟨p, hp, hparent⟩ := hstop
      obtain ⟨j, hj, hback⟩ := hlist.mem_iff.mp hp
      exact ⟨j, n + 1, p, by omega, hback, hr.trans (.up hparent (.here hback.target))⟩
  constructor
  · intro he
    rwa [he] at hleads
  · exact hleads.unique

theorem depth_iff : F.Depth x n ↔ w.stop = .root ∧ w.met.length = n + 1 := by
  have length (m : Nat) (hm : F.Depth x m) : w.met.length = m + 1 := by
    obtain ⟨r, hr, hroot⟩ := hm
    have hends := Forest.ends_of_root hroot
    have hmeets : F.Meets x m r :=
      ⟨hr, fun i hi hearlier => hr.not_circles hends ⟨i, m, r, hi, hearlier, hr⟩⟩
    have hlt := (List.getElem?_eq_some_iff.mp (h.met_iff.mpr hmeets)).1
    obtain ⟨k, b, hb, hlist, _⟩ := h.goes
    have hlen := hlist.length hb
    have hkm := hr.le_of_ends hends hb
    omega
  constructor
  · intro hn
    exact ⟨h.stop_iff.mpr ⟨n, hn⟩, length n hn⟩
  · intro hend
    obtain ⟨hroot, hlen⟩ := hend
    obtain ⟨m, hm⟩ := h.stop_iff.mp hroot
    have hm' := length m hm
    obtain rfl : m = n := by omega
    exact hm

end Walk.Follows

section

variable {fs : List Folder} {f : Folder} {x a p : Uuid}

theorem folderWithId?_parent (h : (fs.map (·.id)).Nodup) :
    (folderWithId? fs x).map (·.parent) = forestOf fs x :=
  (congrFun (forestOf_perm fs.reverse_perm.symm h) x).symm

/-- Each step of a walk meets one more folder, so the walk ends before its steps run out. -/
theorem walkUp_follows (h : (fs.map (·.id)).Nodup) {k steps : Nat} {met : List Uuid}
    {q : Option Uuid} (hmet : Lists (forestOf fs) x k met) (hnodup : met.Nodup)
    (ha : (forestOf fs).Climbs x k a) (hq : forestOf fs a = some q)
    (hsteps : fs.length < steps + k) : (walkUp fs steps met q).Follows (forestOf fs) x := by
  induction steps generalizing k met a q with
  | zero =>
    have hsub : met ⊆ fs.map (·.id) := by
      intro y hy
      obtain ⟨i, _, hc⟩ := hmet.mem_iff.mp hy
      obtain ⟨g, hg, rfl⟩ := forestOf_isSome.mp hc.target
      exact List.mem_map_of_mem hg
    have hle := (hnodup.subperm hsub).length_le
    rw [hmet.length ha, List.length_map] at hle
    omega
  | succ steps ih =>
    cases q with
    | none =>
      rw [walkUp]
      exact ⟨hnodup, k, a, ha, hmet, hq⟩
    | some p =>
      have hrow := folderWithId?_parent (x := p) h
      rw [walkUp]
      cases hfind : folderWithId? fs p with
      | none =>
        rw [hfind] at hrow
        exact ⟨hnodup, k, a, ha, hmet, hq, hrow.symm⟩
      | some g =>
        rw [hfind] at hrow
        have hg : forestOf fs p = some g.parent := hrow.symm
        have hp : (forestOf fs).Climbs x (k + 1) p := ha.trans (.up hq (.here (by simp [hg])))
        by_cases hold : p ∈ met
        · have hcontains : met.contains p = true := by simpa using hold
          simp only [hcontains, if_true]
          exact ⟨hnodup, k, a, ha, hmet, p, hold, hq⟩
        · have hcontains : met.contains p = false := by simpa using hold
          simp only [hcontains, Bool.false_eq_true, if_false]
          exact ih (hmet.snoc (hmet.length ha) hp) (nodup_snoc hnodup hold) hp hg (by omega)

/-- A folder's walk follows the parents of the folders as far as there is anything new to meet. -/
theorem Folder.walk_follows (h : (fs.map (·.id)).Nodup) (hf : f ∈ fs) :
    (f.walk fs).Follows (forestOf fs) f.id := by
  have hrow := forestOf_of_mem h hf
  have hnode : (forestOf fs f.id).isSome := by simp [hrow]
  have hone : [f.id].Nodup := List.nodup_singleton _
  exact walkUp_follows h (Lists.start hnode) hone (.here hnode) hrow (by omega)

end

end DriveAccess
