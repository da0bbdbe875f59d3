import DriveAccess.Proofs.Storage.Rows
/-!
Folder rows that agree with a closure table: parents form a forest, each depth is the distance
from the root and within the limit, and the table is exact.
-/
namespace DriveAccess

/-- The forest that the parents in folder rows describe. -/
def forestOf (fs : List Folder) : Forest := fun x => (fs.find? (·.id == x)).map (·.parent)

structure Hierarchical (fs : List Folder) (rows : List FolderPath) : Prop where
  ids_nodup : (fs.map (·.id)).Nodup
  depth : ∀ f ∈ fs, (forestOf fs).Depth f.id f.depth
  depth_le : ∀ f ∈ fs, f.depth ≤ maxFolderDepth
  exact : Exact (forestOf fs) rows

variable {fs : List Folder} {rows sub up : List FolderPath} {f : Folder} {x p : Uuid}
  {q : Option Uuid} {n : Nat}

theorem forestOf_isSome : (forestOf fs x).isSome ↔ ∃ f ∈ fs, f.id = x := by
  simp [forestOf]

theorem forestOf_eq_none : forestOf fs x = none ↔ ∀ f ∈ fs, f.id ≠ x := by
  simp [forestOf]

theorem forestOf_of_mem (h : (fs.map (·.id)).Nodup) (hf : f ∈ fs) :
    forestOf fs f.id = some f.parent := by
  rw [forestOf, (find?_id_eq_some h).mpr ⟨hf, rfl⟩]
  rfl

theorem grounded_of_depth (h : ∀ f ∈ fs, (forestOf fs).Depth f.id f.depth) :
    (forestOf fs).Grounded := by
  intro x hx
  obtain ⟨f, hf, rfl⟩ := forestOf_isSome.mp hx
  exact ⟨f.depth, h f hf⟩

theorem forestOf_perm {gs : List Folder} (hp : fs.Perm gs) (h : (fs.map (·.id)).Nodup) :
    forestOf fs = forestOf gs := by
  have hg : (gs.map (·.id)).Nodup := (hp.map _).nodup_iff.mp h
  funext x
  cases hx : fs.find? (·.id == x) with
  | none =>
    have hnone : forestOf gs x = none := by
      rw [forestOf_eq_none]
      intro f hf he
      exact absurd he (forestOf_eq_none.mp (by simp [forestOf, hx]) f (hp.mem_iff.mpr hf))
    rw [hnone, forestOf, hx]
    rfl
  | some f =>
    obtain ⟨hf, hid⟩ := (find?_id_eq_some h).mp hx
    have hgx := (find?_id_eq_some hg).mpr ⟨hp.mem_iff.mp hf, hid⟩
    rw [forestOf, forestOf, hx, hgx]

theorem forestOf_map {g : Folder → Folder} (hid : ∀ f, (g f).id = f.id) :
    forestOf (fs.map g) x = (fs.find? (·.id == x)).map fun f => (g f).parent := by
  rw [forestOf, find?_map_id hid, Option.map_map]
  rfl

namespace Hierarchical

variable (h : Hierarchical fs rows)

include h

theorem grounded : (forestOf fs).Grounded := grounded_of_depth h.depth

theorem length_le {r : FolderPath} (hr : r ∈ rows) : r.length ≤ maxFolderDepth := by
  have hc := (h.exact.mem_iff r).mp hr
  obtain ⟨f, hf, hid⟩ := forestOf_isSome.mp hc.node
  have hd := hid ▸ h.depth f hf
  exact Nat.le_trans (hd.climbs hc).1 (h.depth_le f hf)

theorem perm {gs : List Folder} (hp : fs.Perm gs) : Hierarchical gs rows := by
  have he := forestOf_perm hp h.ids_nodup
  exact ⟨(hp.map _).nodup_iff.mp h.ids_nodup, fun f hf => he ▸ h.depth f (hp.mem_iff.mpr hf),
    fun f hf => h.depth_le f (hp.mem_iff.mpr hf), he ▸ h.exact⟩

/-- Changes of rows that leave identifiers, parents and depths alone. -/
theorem map {g : Folder → Folder} (hid : ∀ f, (g f).id = f.id)
    (hparent : ∀ f, (g f).parent = f.parent) (hdepth : ∀ f, (g f).depth = f.depth) :
    Hierarchical (fs.map g) rows := by
  have he : forestOf (fs.map g) = forestOf fs := by
    funext x
    rw [forestOf_map hid]
    simp [forestOf, hparent]
  refine ⟨by simpa [hid, Function.comp_def] using h.ids_nodup, ?_, ?_, he ▸ h.exact⟩
  · intro _ hm
    obtain ⟨f, hf, rfl⟩ := List.mem_map.mp hm
    rw [he, hid, hdepth]
    exact h.depth f hf
  · intro _ hm
    obtain ⟨f, hf, rfl⟩ := List.mem_map.mp hm
    rw [hdepth]
    exact h.depth_le f hf

theorem placeDepth_of_mem (hf : f ∈ fs) :
    (forestOf fs).PlaceDepth (some f.id) (f.depth + 1) := ⟨f.depth, h.depth f hf, rfl⟩

omit h in
theorem forestOf_add (hnew : forestOf fs f.id = none) :
    forestOf (fs ++ [f]) = (forestOf fs).place f.id f.parent := by
  funext x
  by_cases hx : x = f.id
  · subst hx
    have hnone : fs.find? (·.id == f.id) = none := by simpa [forestOf] using hnew
    simp only [Forest.place_self, forestOf, List.find?_append, hnone]
    simp
  · rw [Forest.place_of_ne _ hx]
    have hne : (f.id == x) = false := by simpa using Ne.symm hx
    simp [forestOf, List.find?_append, hne]

theorem add (hnew : forestOf fs f.id = none) (hq : ∀ p, f.parent = some p → (forestOf fs p).isSome)
    (hd : (forestOf fs).PlaceDepth f.parent f.depth) (hle : f.depth ≤ maxFolderDepth)
    (hup : up.Nodup) (hmem : ∀ r, r ∈ up ↔ r ∈ rows ∧ f.parent = some r.descendant) :
    Hierarchical (fs ++ [f]) (rows ++ ancestorPaths f.id up) := by
  have he := forestOf_add hnew
  have hrec := Forest.receives_new hnew hq
  refine ⟨?_, ?_, ?_, he ▸ h.exact.plant h.grounded hnew hrec hup hmem⟩
  · rw [List.map_append]
    refine nodup_snoc h.ids_nodup fun hmem => ?_
    obtain ⟨g, hg, he⟩ := List.mem_map.mp hmem
    exact forestOf_eq_none.mp hnew g hg he
  · intro g hg
    rw [he]
    rcases List.mem_append.mp hg with hg | hg
    · exact Forest.depth_place_off h.grounded _ (forestOf_eq_none.mp hnew g hg)
        (Forest.not_below_of_none hnew) (h.depth g hg)
    · obtain rfl : g = f := by simpa using hg
      exact Forest.depth_place_self h.grounded hrec hd
  · intro g hg
    rcases List.mem_append.mp hg with hg | hg
    · exact h.depth_le g hg
    · obtain rfl : g = f := by simpa using hg
      exact hle

theorem forestOf_move {g : Folder → Folder} (hf : f ∈ fs) (hid : ∀ x, (g x).id = x.id)
    (hparent : ∀ x, (g x).parent = if x.id = f.id then q else x.parent) :
    forestOf (fs.map g) = (forestOf fs).place f.id q := by
  funext x
  rw [forestOf_map hid]
  by_cases hx : x = f.id
  · subst hx
    rw [(find?_id_eq_some h.ids_nodup).mpr ⟨hf, rfl⟩]
    simp [hparent]
  · rw [Forest.place_of_ne _ hx, forestOf]
    cases hfind : fs.find? (·.id == x) with
    | none => rfl
    | some y =>
      have hy : y.id ≠ f.id := by
        rw [((find?_id_eq_some h.ids_nodup).mp hfind).2]
        exact hx
      simp [hparent, hy]

/-- A subtree gets a new place, and every folder in it the depth that goes with it. -/
theorem move {g : Folder → Folder} (hf : f ∈ fs) (hq : (forestOf fs).Receives f.id q)
    (hd : (forestOf fs).PlaceDepth q n) (hsub : ∀ r, r ∈ sub ↔ r ∈ rows ∧ r.ancestor = f.id)
    (hsubn : sub.Nodup) (hmem : ∀ r, r ∈ up ↔ r ∈ rows ∧ q = some r.descendant)
    (hup : up.Nodup) (hfit : ∀ r ∈ sub, n + r.length ≤ maxFolderDepth)
    (hid : ∀ x, (g x).id = x.id)
    (hparent : ∀ x, (g x).parent = if x.id = f.id then q else x.parent)
    (hin : ∀ x, ∀ r ∈ sub, x.id = r.descendant → (g x).depth = n + r.length)
    (hout : ∀ x, x.id ∉ sub.map (·.descendant) → (g x).depth = x.depth) :
    Hierarchical (fs.map g)
      (rows.filter (fun p => !(sub.map (·.descendant)).contains p.descendant ||
        (sub.map (·.descendant)).contains p.ancestor) ++ attachPaths sub up) := by
  have hnode : (forestOf fs f.id).isSome := forestOf_isSome.mpr ⟨f, hf, rfl⟩
  have he := h.forestOf_move hf hid hparent
  refine ⟨by simpa [hid, Function.comp_def] using h.ids_nodup, ?_, ?_,
    he ▸ h.exact.regraft h.grounded hnode hq hsub hsubn hmem hup⟩
  · intro _ hgy
    obtain ⟨y, hy, rfl⟩ := List.mem_map.mp hgy
    rw [he, hid]
    by_cases hb : (forestOf fs).Below f.id y.id
    · obtain ⟨k, hk⟩ := hb
      have hr : (⟨f.id, y.id, k⟩ : FolderPath) ∈ sub :=
        (hsub _).mpr ⟨h.exact.mem_mk.mpr hk, rfl⟩
      rw [hin y _ hr rfl, Nat.add_comm]
      exact Forest.depth_place_below h.grounded hq hk hd
    · have hself := Forest.Below.refl hnode
      have hne : y.id ≠ f.id := by
        intro hyf
        exact hb (hyf ▸ hself)
      rw [hout y (fun hm => hb ((h.exact.mem_below hsub).mp hm))]
      exact Forest.depth_place_off h.grounded q hne hb (h.depth y hy)
  · intro _ hgy
    obtain ⟨y, hy, rfl⟩ := List.mem_map.mp hgy
    by_cases hm : y.id ∈ sub.map (·.descendant)
    · obtain ⟨r, hr, hrd⟩ := List.mem_map.mp hm
      rw [hin y r hr hrd.symm]
      exact hfit r hr
    · rw [hout y hm]
      exact h.depth_le y hy

theorem forestOf_prune (hsub : ∀ r, r ∈ sub ↔ r ∈ rows ∧ r.ancestor = x) :
    forestOf (fs.filter fun f => !(sub.map (·.descendant)).contains f.id) =
      (forestOf fs).cut x := by
  funext y
  have hb := h.exact.mem_below (d := y) hsub
  by_cases hy : (forestOf fs).Below x y
  · rw [Forest.cut_below hy, forestOf_eq_none]
    intro f hf he
    subst he
    have hkept := (List.mem_filter.mp hf).2
    simp [hb.mpr hy] at hkept
  · rw [Forest.cut_off hy]
    have hout : ∀ r ∈ sub, r.descendant ≠ y := by
      intro r hr hry
      exact hy (hb.mp (List.mem_map.mpr ⟨r, hr, hry⟩))
    simp only [forestOf, List.find?_filter]
    congr 2
    funext f
    by_cases hfy : f.id = y
    · simpa [hfy] using hout
    · simp [hfy]

/-- A subtree is taken away with all its rows. -/
theorem prune (hsub : ∀ r, r ∈ sub ↔ r ∈ rows ∧ r.ancestor = x) :
    Hierarchical (fs.filter fun f => !(sub.map (·.descendant)).contains f.id)
      (rows.filter fun p => !(sub.map (·.descendant)).contains p.descendant) := by
  have he := h.forestOf_prune hsub
  refine ⟨h.ids_nodup.sublist (List.filter_sublist.map _), ?_, ?_,
    he ▸ h.exact.prune h.grounded hsub⟩
  · intro f hf
    obtain ⟨hf, hout⟩ := List.mem_filter.mp hf
    rw [he]
    refine Forest.depth_cut h.grounded ?_ (h.depth f hf)
    intro hb
    simp [(h.exact.mem_below hsub).mpr hb] at hout
  · exact fun f hf => h.depth_le f (List.mem_of_mem_filter hf)

end Hierarchical

theorem hierarchical_nil : Hierarchical [] [] :=
  ⟨.nil, by simp, by simp, .nil, fun p => by
    have h0 : ¬ (forestOf [] p.descendant).isSome := by simp [forestOf]
    simpa using fun hc => h0 (Forest.Climbs.node hc)⟩

end DriveAccess
