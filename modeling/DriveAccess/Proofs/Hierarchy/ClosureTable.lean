import DriveAccess.Closure.Path
import DriveAccess.Proofs.Hierarchy.Forest
import Mathlib.Data.List.Nodup
import Mathlib.Data.List.Basic
/-!
Closure tables that hold exactly the ways up of a forest, and how they stay so when a folder is
added, a subtree is put elsewhere or a subtree is taken away.
-/
namespace DriveAccess

/-- One row for every node and each of its ancestors-or-self, with the distance, and no other. -/
structure Exact (F : Forest) (rows : List FolderPath) : Prop where
  nodup : rows.Nodup
  mem_iff : ∀ p : FolderPath, p ∈ rows ↔ F.Climbs p.descendant p.length p.ancestor

def FolderPath.key (p : FolderPath) : Uuid × Uuid := (p.ancestor, p.descendant)

theorem descendant_of_mem_ancestorPaths {folder : Uuid} {above : List FolderPath} {p : FolderPath}
    (hp : p ∈ ancestorPaths folder above) : p.descendant = folder := by
  rcases List.mem_cons.mp hp with rfl | hp
  · rfl
  · obtain ⟨q, _, rfl⟩ := List.mem_map.mp hp
    rfl

theorem le_subtreeHeight {sub : List FolderPath} {r : FolderPath} (h : r ∈ sub) :
    r.length ≤ subtreeHeight sub := by
  have grow (xs : List FolderPath) (m : Nat) :
      m ≤ xs.foldl (fun height p => Nat.max height p.length) m ∧
        ∀ r ∈ xs, r.length ≤ xs.foldl (fun height p => Nat.max height p.length) m := by
    induction xs generalizing m with
    | nil => simp
    | cons p rest ih =>
      obtain ⟨hm, hrest⟩ := ih (Nat.max m p.length)
      have hleft : m ≤ Nat.max m p.length := Nat.le_max_left ..
      have hright : p.length ≤ Nat.max m p.length := Nat.le_max_right ..
      refine ⟨Nat.le_trans hleft hm, fun r hr => ?_⟩
      rcases List.mem_cons.mp hr with rfl | hr
      · exact Nat.le_trans hright hm
      · exact hrest r hr
  exact (grow sub 0).2 r h

theorem exists_subtreeHeight {sub : List FolderPath} (h : sub ≠ []) :
    ∃ r ∈ sub, r.length = subtreeHeight sub := by
  have reach (xs : List FolderPath) (m : Nat) :
      xs.foldl (fun height p => Nat.max height p.length) m = m ∨
        ∃ r ∈ xs, r.length = xs.foldl (fun height p => Nat.max height p.length) m := by
    induction xs generalizing m with
    | nil => exact .inl rfl
    | cons p rest ih =>
      obtain hm | ⟨r, hr, hlength⟩ := ih (Nat.max m p.length)
      · rcases Nat.le_total p.length m with hle | hle
        · exact .inl (hm.trans (Nat.max_eq_left hle))
        · exact .inr ⟨p, List.mem_cons_self, (hm.trans (Nat.max_eq_right hle)).symm⟩
      · exact .inr ⟨r, List.mem_cons_of_mem p hr, hlength⟩
  obtain hzero | hrow := reach sub 0
  · obtain ⟨r, hr⟩ := List.exists_mem_of_ne_nil sub h
    have hle := le_subtreeHeight hr
    have hheight : subtreeHeight sub = 0 := hzero
    exact ⟨r, hr, by omega⟩
  · exact hrow

namespace Exact

variable {F : Forest} {rows sub up : List FolderPath} {x f d : Uuid} {q : Option Uuid}

theorem mem_mk (h : Exact F rows) {a d : Uuid} {n : Nat} :
    (⟨a, d, n⟩ : FolderPath) ∈ rows ↔ F.Climbs d n a := h.mem_iff _

theorem key_inj (h : Exact F rows) (hF : F.Grounded) {p r : FolderPath} (hp : p ∈ rows)
    (hr : r ∈ rows) (hk : p.key = r.key) : p = r := by
  obtain ⟨a, d, m⟩ := p
  obtain ⟨b, e, n⟩ := r
  simp only [FolderPath.key, Prod.mk.injEq] at hk
  obtain ⟨rfl, rfl⟩ := hk
  have := hF.length_unique (h.mem_mk.mp hp) (h.mem_mk.mp hr)
  rw [this]

theorem keys_nodup (h : Exact F rows) (hF : F.Grounded) : (rows.map FolderPath.key).Nodup :=
  h.nodup.map_on fun _ hp _ hr hk => h.key_inj hF hp hr hk

theorem mem_below (h : Exact F rows) (hsub : ∀ r, r ∈ sub ↔ r ∈ rows ∧ r.ancestor = f) :
    d ∈ sub.map (·.descendant) ↔ F.Below f d := by
  simp only [List.mem_map, hsub]
  constructor
  · intro hrow
    obtain ⟨r, ⟨hr, rfl⟩, rfl⟩ := hrow
    exact ⟨r.length, (h.mem_iff r).mp hr⟩
  · intro hbelow
    obtain ⟨k, hk⟩ := hbelow
    exact ⟨⟨f, d, k⟩, ⟨h.mem_mk.mpr hk, rfl⟩, rfl⟩

/-- The rows of a subtree tell its height. -/
theorem height (h : Exact F rows) (hsub : ∀ r, r ∈ sub ↔ r ∈ rows ∧ r.ancestor = f)
    (hf : (F f).isSome) : F.Height f (subtreeHeight sub) := by
  have hself : (⟨f, f, 0⟩ : FolderPath) ∈ sub := (hsub _).mpr ⟨h.mem_mk.mpr (.here hf), rfl⟩
  constructor
  · obtain ⟨r, hr, hlength⟩ := exists_subtreeHeight (List.ne_nil_of_mem hself)
    obtain ⟨hrow, rfl⟩ := (hsub r).mp hr
    exact ⟨r.descendant, hlength ▸ (h.mem_iff r).mp hrow⟩
  · intro x k hk
    have hr : (⟨f, x, k⟩ : FolderPath) ∈ sub := (hsub _).mpr ⟨h.mem_mk.mpr hk, rfl⟩
    exact le_subtreeHeight hr

private theorem nodup_ancestorPaths (hup : up.Nodup)
    (hone : ∀ r ∈ up, ∀ s ∈ up, r.descendant = s.descendant) : (ancestorPaths x up).Nodup := by
  refine List.nodup_cons.mpr ⟨?_, hup.map_on ?_⟩
  · simp [FolderPath.self, FolderPath.extend]
  · intro r hr s hs he
    have hd := hone r hr s hs
    obtain ⟨a, d, m⟩ := r
    obtain ⟨b, e, n⟩ := s
    simp only [FolderPath.extend, FolderPath.mk.injEq, Nat.add_right_cancel_iff] at he hd
    simp [he, hd]

theorem plant (h : Exact F rows) (hF : F.Grounded) (hx : F x = none) (hq : F.Receives x q)
    (hup : up.Nodup) (hmem : ∀ r, r ∈ up ↔ r ∈ rows ∧ q = some r.descendant) :
    Exact (F.place x q) (rows ++ ancestorPaths x up) := by
  have old (r : FolderPath) (hr : r ∈ rows) : r.descendant ≠ x := by
    intro he
    subst he
    simpa [hx] using ((h.mem_iff r).mp hr).node
  constructor
  · refine List.nodup_append.mpr ⟨h.nodup, nodup_ancestorPaths hup ?_, ?_⟩
    · intro r hr s hs
      have e := ((hmem r).mp hr).2
      rw [((hmem s).mp hs).2] at e
      exact (Option.some.inj e).symm
    · intro r hr s hs he
      subst he
      exact old r hr (descendant_of_mem_ancestorPaths hs)
  · intro p
    obtain ⟨a, d, n⟩ := p
    by_cases hd : d = x
    · subst hd
      have hr : (⟨a, d, n⟩ : FolderPath) ∉ rows := fun hr => old _ hr rfl
      simp only [List.mem_append, hr, false_or, Forest.climbs_place_self]
      simp only [ancestorPaths, List.mem_cons, List.mem_map, FolderPath.self, FolderPath.extend,
        FolderPath.mk.injEq, true_and]
      apply or_congr (by tauto)
      constructor
      · intro hrow
        obtain ⟨s, hs, rfl, rfl⟩ := hrow
        obtain ⟨hs, he⟩ := (hmem s).mp hs
        obtain ⟨_, hne, hoff⟩ := hq _ he
        exact ⟨s.descendant, s.length, he, rfl,
          (Forest.climbs_place_off hF q hne hoff).mpr ((h.mem_iff s).mp hs)⟩
      · intro hway
        obtain ⟨p, m, hp, rfl, hc⟩ := hway
        obtain ⟨_, hne, hoff⟩ := hq p hp
        have hs := h.mem_mk.mpr ((Forest.climbs_place_off hF q hne hoff).mp hc)
        exact ⟨⟨a, p, m⟩, (hmem _).mpr ⟨hs, hp⟩, rfl, rfl⟩
    · have hr : (⟨a, d, n⟩ : FolderPath) ∉ ancestorPaths x up := fun hr =>
        hd (descendant_of_mem_ancestorPaths hr)
      rw [Forest.climbs_place_off hF q hd (Forest.not_below_of_none hx), ← h.mem_mk]
      simp [hr]

private theorem nodup_attachPaths (hsub : sub.Nodup) (hup : up.Nodup)
    (hs : ∀ r ∈ sub, ∀ s ∈ sub, r.descendant = s.descendant → r = s)
    (hu : ∀ r ∈ up, ∀ s ∈ up, r.ancestor = s.ancestor → r = s) :
    (attachPaths sub up).Nodup := by
  refine List.nodup_flatMap.mpr ⟨?_, ?_⟩
  · intro l _
    apply hup.map_on
    intro r hr s hs' he
    have ha : (r.join l).ancestor = (s.join l).ancestor := congrArg FolderPath.ancestor he
    exact hu r hr s hs' ha
  · apply hsub.imp_of_mem
    intro l l' hl hl' hne
    simp only [Function.onFun, List.disjoint_left, List.mem_map]
    intro p hp hp'
    obtain ⟨r, _, rfl⟩ := hp
    obtain ⟨s, _, he⟩ := hp'
    have hd : (s.join l').descendant = (r.join l).descendant := congrArg FolderPath.descendant he
    exact hne (hs l hl l' hl' hd.symm)

theorem attachPaths_nodup (h : Exact F rows) (hF : F.Grounded)
    (hsub : ∀ r, r ∈ sub ↔ r ∈ rows ∧ r.ancestor = f) (hsubn : sub.Nodup)
    (hmem : ∀ r, r ∈ up ↔ r ∈ rows ∧ q = some r.descendant) (hup : up.Nodup) :
    (attachPaths sub up).Nodup := by
  apply nodup_attachPaths hsubn hup
  · intro r hr s hs hd
    obtain ⟨hr, ha⟩ := (hsub r).mp hr
    obtain ⟨hs, hb⟩ := (hsub s).mp hs
    have hkey : r.key = s.key := Prod.ext (ha.trans hb.symm) hd
    exact h.key_inj hF hr hs hkey
  · intro r hr s hs ha
    obtain ⟨hr, hp⟩ := (hmem r).mp hr
    obtain ⟨hs, hp'⟩ := (hmem s).mp hs
    have hd : r.descendant = s.descendant := Option.some.inj (hp.symm.trans hp')
    have hkey : r.key = s.key := Prod.ext ha hd
    exact h.key_inj hF hr hs hkey

/-- The rows of the new place are the ways through the new parent. -/
theorem mem_attachPaths (h : Exact F rows) (hsub : ∀ r, r ∈ sub ↔ r ∈ rows ∧ r.ancestor = f)
    (hmem : ∀ r, r ∈ up ↔ r ∈ rows ∧ q = some r.descendant) {a d : Uuid} {n : Nat} :
    (⟨a, d, n⟩ : FolderPath) ∈ attachPaths sub up ↔
      ∃ k, F.Climbs d k f ∧ ∃ p m, q = some p ∧ n = k + 1 + m ∧ F.Climbs p m a := by
  simp only [attachPaths, List.mem_flatMap, List.mem_map, FolderPath.join, FolderPath.mk.injEq]
  constructor
  · intro hrow
    obtain ⟨l, hl, s, hs, rfl, rfl, rfl⟩ := hrow
    obtain ⟨hl, rfl⟩ := (hsub l).mp hl
    obtain ⟨hs, hp⟩ := (hmem s).mp hs
    exact ⟨l.length, (h.mem_iff l).mp hl, s.descendant, s.length, hp, by omega,
      (h.mem_iff s).mp hs⟩
  · intro hway
    obtain ⟨k, hk, p, m, hp, rfl, hm⟩ := hway
    have hl : (⟨f, d, k⟩ : FolderPath) ∈ sub := (hsub _).mpr ⟨h.mem_mk.mpr hk, rfl⟩
    have hs : (⟨a, p, m⟩ : FolderPath) ∈ up := (hmem _).mpr ⟨h.mem_mk.mpr hm, hp⟩
    have hlength : m + 1 + k = k + 1 + m := by omega
    exact ⟨_, hl, _, hs, rfl, rfl, hlength⟩

/-- Rows that cross the border of the subtree go, those inside stay, and the subtree gets the rows
of its new place. -/
theorem regraft (h : Exact F rows) (hF : F.Grounded) (hf : (F f).isSome) (hq : F.Receives f q)
    (hsub : ∀ r, r ∈ sub ↔ r ∈ rows ∧ r.ancestor = f) (hsubn : sub.Nodup)
    (hmem : ∀ r, r ∈ up ↔ r ∈ rows ∧ q = some r.descendant) (hup : up.Nodup) :
    Exact (F.place f q)
      (rows.filter (fun p => !(sub.map (·.descendant)).contains p.descendant ||
        (sub.map (·.descendant)).contains p.ancestor) ++ attachPaths sub up) := by
  have below (d : Uuid) := h.mem_below (d := d) hsub
  have kept (a d : Uuid) : (!(sub.map (·.descendant)).contains d ||
      (sub.map (·.descendant)).contains a) = true ↔ ¬ F.Below f d ∨ F.Below f a := by
    simp only [Bool.or_eq_true, Bool.not_eq_true', ← Bool.not_eq_true, List.contains_iff_mem,
      below]
  constructor
  · have hattached := h.attachPaths_nodup hF hsub hsubn hmem hup
    refine List.nodup_append.mpr ⟨h.nodup.filter _, hattached, ?_⟩
    intro r hr p hattach he
    subst he
    obtain ⟨a, d, n⟩ := r
    obtain ⟨k, hk, p, m, hp, _, hm⟩ := (h.mem_attachPaths hsub hmem).mp hattach
    obtain hout | hin := (kept a d).mp (List.mem_filter.mp hr).2
    · exact hout ⟨k, hk⟩
    · exact (hq p hp).2.2 (hin.trans ⟨m, hm⟩)
  · intro r
    obtain ⟨a, d, n⟩ := r
    rw [List.mem_append, List.mem_filter, h.mem_mk, kept, h.mem_attachPaths hsub hmem]
    by_cases hd : F.Below f d
    · obtain ⟨k, hk⟩ := id hd
      rw [Forest.climbs_place hF q hq hk]
      simp only [hd, not_true_eq_false, false_or]
      apply or_congr_right
      constructor
      · intro hway
        obtain ⟨j, hj, hrest⟩ := hway
        rwa [hF.length_unique hk hj]
      · intro hrest
        exact ⟨k, hk, hrest⟩
    · have hdf : d ≠ f := by
        intro he
        subst he
        exact hd (.refl hf)
      rw [Forest.climbs_place_off hF q hdf hd]
      simp only [hd, not_false_eq_true, true_or, and_true, or_iff_left_iff_imp]
      intro hway
      obtain ⟨k, hk, _⟩ := hway
      exact absurd ⟨k, hk⟩ hd

theorem prune (h : Exact F rows) (hF : F.Grounded)
    (hsub : ∀ r, r ∈ sub ↔ r ∈ rows ∧ r.ancestor = f) :
    Exact (F.cut f) (rows.filter fun p => !(sub.map (·.descendant)).contains p.descendant) := by
  refine ⟨h.nodup.filter _, ?_⟩
  intro p
  obtain ⟨a, d, n⟩ := p
  rw [List.mem_filter, h.mem_mk, Forest.climbs_cut hF, Bool.not_eq_true', ← Bool.not_eq_true,
    List.contains_iff_mem, h.mem_below hsub]

/-- Only the rows that end in a leaf touch it. -/
theorem pluck (h : Exact F rows) (hF : F.Grounded) (hf : F.Leaf f) :
    Exact (F.cut f) (rows.filter fun p => p.descendant != f && p.ancestor != f) := by
  refine ⟨h.nodup.filter _, fun p => ?_⟩
  simp only [List.mem_filter, h.mem_iff, Forest.climbs_cut hF, Bool.and_eq_true, bne_iff_ne]
  apply and_congr_right
  intro hc
  constructor
  · intro hne hb
    obtain ⟨k, hk⟩ := hb
    exact hne.1 (hk.of_leaf hf)
  · intro hoff
    constructor
    · intro hd
      exact hoff (hd ▸ .refl hc.node)
    · intro ha
      exact hoff ⟨p.length, ha ▸ hc⟩

end Exact

end DriveAccess
