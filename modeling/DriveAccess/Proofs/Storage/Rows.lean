import DriveAccess.Storage.Tables
import DriveAccess.Proofs.Hierarchy.ClosureTable
/-!
What the list operations behind the tables keep and find: sorting, look-ups by a key, updates of
single rows.
-/
namespace DriveAccess

theorem nodup_snoc {α : Type} {xs : List α} {a : α} (h : xs.Nodup) (ha : a ∉ xs) :
    (xs ++ [a]).Nodup := by
  rw [← List.concat_eq_append]
  exact h.concat ha

section Sorting

variable {α κ : Type} (le : κ → κ → Bool) (key : α → κ)

theorem insertBy_perm (a : α) (xs : List α) : (insertBy le key a xs).Perm (a :: xs) := by
  induction xs with
  | nil => rfl
  | cons b rest ih =>
    rw [insertBy]
    split
    · exact (ih.cons b).trans (.swap a b rest)
    · rfl

theorem sortBy_perm (xs : List α) : (sortBy le key xs).Perm xs := by
  have grow (sorted : List α) :
      (xs.foldl (fun sorted a => insertBy le key a sorted) sorted).Perm (xs ++ sorted) := by
    induction xs generalizing sorted with
    | nil => rfl
    | cons a xs ih =>
      calc
        (xs.foldl (fun sorted a => insertBy le key a sorted) (insertBy le key a sorted)).Perm
            (xs ++ insertBy le key a sorted) := ih _
        _ |>.Perm (xs ++ a :: sorted) := (insertBy_perm le key a sorted).append_left xs
        _ |>.Perm (a :: xs ++ sorted) := List.perm_middle
  simpa [sortBy] using grow []

section

variable (htotal : ∀ x y, le x y ∨ le y x) (htrans : ∀ x y z, le x y → le y z → le x z)

include htotal htrans

theorem insertBy_pairwise {xs : List α} (h : xs.Pairwise fun a b => le (key a) (key b)) (a : α) :
    (insertBy le key a xs).Pairwise fun a b => le (key a) (key b) := by
  induction xs with
  | nil => exact List.pairwise_singleton _ a
  | cons b rest ih =>
    obtain ⟨hb, hrest⟩ := List.pairwise_cons.mp h
    rw [insertBy]
    split
    · rename_i hba
      refine List.pairwise_cons.mpr ⟨fun c hc => ?_, ih hrest⟩
      rcases List.mem_cons.mp ((insertBy_perm le key a rest).mem_iff.mp hc) with rfl | hc
      · exact hba
      · exact hb c hc
    · rename_i hba
      have hab : le (key a) (key b) := (htotal _ _).resolve_right hba
      refine List.pairwise_cons.mpr ⟨fun c hc => ?_, h⟩
      rcases List.mem_cons.mp hc with rfl | hc
      · exact hab
      · exact htrans _ _ _ hab (hb c hc)

theorem sortBy_pairwise (xs : List α) :
    (sortBy le key xs).Pairwise fun a b => le (key a) (key b) := by
  have grow (sorted : List α) (h : sorted.Pairwise fun a b => le (key a) (key b)) :
      (xs.foldl (fun sorted a => insertBy le key a sorted) sorted).Pairwise
        fun a b => le (key a) (key b) := by
    induction xs generalizing sorted with
    | nil => exact h
    | cons a xs ih => exact ih _ (insertBy_pairwise le key htotal htrans h a)
  exact grow [] .nil

end

end Sorting

theorem find?_id_eq_some {fs : List Folder} (h : (fs.map (·.id)).Nodup) {id : Uuid}
    {f : Folder} : fs.find? (·.id == id) = some f ↔ f ∈ fs ∧ f.id = id := by
  constructor
  · intro hf
    exact ⟨List.mem_of_find?_eq_some hf, by simpa using List.find?_some hf⟩
  · intro h
    obtain ⟨hf, rfl⟩ := h
    cases hg : fs.find? (·.id == f.id) with
    | none =>
      have := List.find?_eq_none.mp hg f hf
      simp at this
    | some g =>
      have hid : g.id = f.id := by simpa using List.find?_some hg
      rw [List.inj_on_of_nodup_map h (List.mem_of_find?_eq_some hg) hf hid]

/-- Changes of rows that leave identifiers alone. -/
theorem find?_map_id {fs : List Folder} {g : Folder → Folder} (hid : ∀ f, (g f).id = f.id)
    (x : Uuid) : (fs.map g).find? (·.id == x) = (fs.find? (·.id == x)).map g := by
  have hkey : (fun f : Folder => f.id == x) ∘ g = fun f => f.id == x := by
    funext f
    simp [hid]
  rw [List.find?_map, hkey]

namespace Tables

/-! Tables without the identifiers and times of their rows. -/

section

variable {t : Tables} {stamp : Stamp} {now : Instant} {u : Tuple} {f : TupleFilter} {m : Membership}
  {batch : List FolderPath} {x : Uuid}

theorem tuplesWhere_eq : t.tuplesWhere f = t.tuples.filter f.selects := by
  rw [tuples, List.filter_map]
  rfl

@[simp] theorem tuples_addTuple : (t.addTuple stamp u).tuples = t.tuples ++ [u] := by
  simp [tuples, addTuple, newRow]

/-- The rows of new tuples. -/
def newRows (t : Tables) (stamp : Stamp) : List Tuple → List Relationship
  | [] => []
  | u :: us => t.newRow stamp u :: (t.addTuple stamp u).newRows stamp us

@[simp] theorem map_tuple_newRows (us : List Tuple) :
    (t.newRows stamp us).map (·.tuple) = us := by
  induction us generalizing t with
  | nil => rfl
  | cons u us ih => rw [newRows, List.map_cons, ih, newRow]

theorem tuple_mem_of_mem_newRows {row : Relationship} {us : List Tuple}
    (h : row ∈ t.newRows stamp us) : row.tuple ∈ us := by
  have hrow : row.tuple ∈ (t.newRows stamp us).map (·.tuple) := List.mem_map_of_mem h
  rwa [map_tuple_newRows] at hrow

def addTuples (t : Tables) (stamp : Stamp) (us : List Tuple) : Tables :=
  { t with relationships := t.relationships ++ t.newRows stamp us }

theorem addTuples_nil : t.addTuples stamp [] = t := by simp [addTuples, newRows]

theorem addTuples_cons (us : List Tuple) :
    t.addTuples stamp (u :: us) = (t.addTuple stamp u).addTuples stamp us := by
  simp [addTuples, newRows, addTuple]

@[simp] theorem tuples_addTuples (us : List Tuple) :
    (t.addTuples stamp us).tuples = t.tuples ++ us := by
  rw [tuples, addTuples, List.map_append, map_tuple_newRows]
  rfl

@[simp] theorem tuples_keepTuples (keep : Tuple → Bool) :
    (t.keepTuples keep).tuples = t.tuples.filter keep := by
  rw [tuples, tuples, List.filter_map]
  rfl

@[simp] theorem tuples_removeTuples :
    (t.removeTuples f).tuples = t.tuples.filter (!f.selects ·) := tuples_keepTuples _

@[simp] theorem paths_addPaths : (t.addPaths now batch).paths = t.paths ++ batch := by
  simp [paths, addPaths, Function.comp_def]

@[simp] theorem paths_keepPaths (keep : FolderPath → Bool) :
    (t.keepPaths keep).paths = t.paths.filter keep := by
  rw [paths, paths, List.filter_map]
  rfl

@[simp] theorem memberships_addMembership :
    (t.addMembership now m).memberships = t.memberships ++ [m] := by
  simp [memberships, addMembership]

@[simp] theorem memberships_removeMembership (group user : Uuid) :
    (t.removeMembership group user).memberships =
      t.memberships.filter fun m => !(m.group == group && m.user == user) := by
  rw [memberships, memberships, List.filter_map]
  rfl

end

theorem byLength_pairwise (rows : List PathRecord) :
    (byLength rows).Pairwise (·.path.length ≤ ·.path.length) := by
  have hsorted : (byLength rows).Pairwise
      fun a b => decide (a.path.length ≤ b.path.length) = true :=
    sortBy_pairwise (fun a b => decide (a ≤ b)) (·.path.length) (by simpa using Nat.le_total)
      (by simpa using fun _ _ _ => Nat.le_trans) rows
  exact hsorted.imp of_decide_eq_true

variable {t : Tables} {now : Instant} {x : Uuid} {r : FolderPath}

theorem pathsTo_sorted : (t.pathsTo x).Pairwise (·.length ≤ ·.length) :=
  List.pairwise_map.mpr (byLength_pairwise _)

theorem pathsFrom_sorted : (t.pathsFrom x).Pairwise (·.length ≤ ·.length) :=
  List.pairwise_map.mpr (byLength_pairwise _)

theorem pathsTo_perm : (t.pathsTo x).Perm (t.paths.filter (·.descendant == x)) := by
  rw [paths, List.filter_map]
  exact (sortBy_perm ..).map _

theorem pathsFrom_perm : (t.pathsFrom x).Perm (t.paths.filter (·.ancestor == x)) := by
  rw [paths, List.filter_map]
  exact (sortBy_perm ..).map _

theorem mem_pathsTo : r ∈ t.pathsTo x ↔ r ∈ t.paths ∧ r.descendant = x := by
  rw [pathsTo_perm.mem_iff]
  simp

theorem mem_pathsFrom : r ∈ t.pathsFrom x ↔ r ∈ t.paths ∧ r.ancestor = x := by
  rw [pathsFrom_perm.mem_iff]
  simp

theorem pathsTo_nodup (h : t.paths.Nodup) : (t.pathsTo x).Nodup :=
  pathsTo_perm.nodup_iff.mpr (h.filter _)

theorem pathsFrom_nodup (h : t.paths.Nodup) : (t.pathsFrom x).Nodup :=
  pathsFrom_perm.nodup_iff.mpr (h.filter _)

theorem paths_moveSubtree {upper : List FolderPath} : (t.moveSubtree now x upper).paths =
    t.paths.filter (fun p => !(t.descendantsOf x).contains p.descendant ||
      (t.descendantsOf x).contains p.ancestor) ++ attachPaths (t.pathsFrom x) upper := by
  rw [moveSubtree, paths_addPaths, paths_keepPaths]

/-- A node is the first of its own subtree. -/
theorem pathsFrom_ne_nil {F : Forest} (h : Exact F t.paths) (hx : (F x).isSome) :
    t.pathsFrom x ≠ [] := by
  have hself : (⟨x, x, 0⟩ : FolderPath) ∈ t.pathsFrom x :=
    mem_pathsFrom.mpr ⟨h.mem_mk.mpr (.here hx), rfl⟩
  exact List.ne_nil_of_mem hself

/-- The rows that end in a parent; nothing lies above the roots. -/
def upper (t : Tables) : Option Uuid → List FolderPath
  | none => []
  | some p => t.pathsTo p

theorem mem_upper {q : Option Uuid} : r ∈ t.upper q ↔ r ∈ t.paths ∧ q = some r.descendant := by
  cases q with
  | none => simp [upper]
  | some x => simp [upper, mem_pathsTo, eq_comm]

theorem upper_nodup {q : Option Uuid} (h : t.paths.Nodup) : (t.upper q).Nodup := by
  cases q with
  | none => exact .nil
  | some x => exact pathsTo_nodup h

theorem foldersInOrder_perm : t.foldersInOrder.Perm t.folders := sortBy_perm ..

/-- Rows can come into the table: no two of them share a key, and no key is stored already. -/
structure AdmitsRows (t : Tables) (batch : List FolderPath) : Prop where
  apart : (batch.map FolderPath.key).Nodup
  free : ∀ p ∈ batch, p.key ∉ t.paths.map FolderPath.key

section

variable {stored : List (Uuid × Uuid)} {batch : List FolderPath} {p : FolderPath}

theorem firstClash_cons (rest : List FolderPath) : firstClash stored (p :: rest) =
    if p.key ∈ stored then some p else firstClash (p.key :: stored) rest :=
  ite_congr (propext List.contains_iff_mem) (fun _ => rfl) (fun _ => rfl)

theorem firstClash_eq_none : firstClash stored batch = none ↔
    (batch.map FolderPath.key).Nodup ∧ ∀ p ∈ batch, p.key ∉ stored := by
  induction batch generalizing stored with
  | nil => simp [firstClash]
  | cons p rest ih =>
    rw [firstClash_cons, List.map_cons, List.nodup_cons, List.forall_mem_cons]
    by_cases hp : p.key ∈ stored
    · simp [hp]
    · simp only [hp, if_false, ih, List.mem_cons, not_or, List.mem_map, not_exists, not_and]
      grind

/-- The rows before the first clash do not clash. -/
theorem firstClash_eq_some (h : firstClash stored batch = some p) : ∃ front back,
    batch = front ++ p :: back ∧ firstClash stored front = none ∧
      (p.key ∈ stored ∨ p.key ∈ front.map FolderPath.key) := by
  induction batch generalizing stored with
  | nil => cases h
  | cons q rest ih =>
    rw [firstClash_cons] at h
    split at h
    · rename_i hq
      cases h
      exact ⟨[], rest, rfl, rfl, .inl hq⟩
    · rename_i hq
      obtain ⟨front, back, rfl, hfront, hp⟩ := ih h
      refine ⟨q :: front, back, rfl, ?_, ?_⟩
      · rwa [firstClash_cons, if_neg hq]
      · rw [List.mem_cons] at hp
        rw [List.map_cons, List.mem_cons]
        tauto

end

theorem clashingPath?_eq_none_iff {batch : List FolderPath} :
    t.clashingPath? batch = none ↔ t.AdmitsRows batch :=
  firstClash_eq_none.trans ⟨fun h => ⟨h.1, h.2⟩, fun h => ⟨h.apart, h.free⟩⟩

theorem clashingPath?_eq_some {batch : List FolderPath} {p : FolderPath}
    (h : t.clashingPath? batch = some p) : ∃ front back, batch = front ++ p :: back ∧
      t.AdmitsRows front ∧ ¬ t.AdmitsRows (front ++ [p]) := by
  obtain ⟨front, back, hbatch, hfront, hp⟩ := firstClash_eq_some h
  refine ⟨front, back, hbatch, clashingPath?_eq_none_iff.mp hfront, fun hadmits => ?_⟩
  obtain hstored | hearlier := hp
  · exact hadmits.free p (by simp) hstored
  · have hapart := hadmits.apart
    rw [List.map_append, List.nodup_append] at hapart
    exact hapart.2.2 _ hearlier _ (by simp) rfl

theorem clashingPath?_eq_none {batch : List FolderPath}
    (h : ((t.paths ++ batch).map FolderPath.key).Nodup) : t.clashingPath? batch = none := by
  rw [List.map_append, List.nodup_append] at h
  refine clashingPath?_eq_none_iff.mpr ⟨h.2.1, fun p hp hstored => ?_⟩
  exact h.2.2 _ hstored _ (List.mem_map_of_mem hp) rfl

/-- What new depths make of a folder row. -/
def redepth (now : Instant) : List (Uuid × Nat) → Folder → Folder
  | [], f => f
  | d :: rest, f =>
    redepth now rest (if f.id = d.1 then { f with depth := d.2, updatedAt := now } else f)

theorem setDepths_eq (now : Instant) (depths : List (Uuid × Nat)) :
    t.setDepths now depths = { t with folders := t.folders.map (redepth now depths) } := by
  induction depths generalizing t with
  | nil => simp [setDepths, show redepth now [] = id from rfl]
  | cons d rest ih =>
    have h : t.setDepths now (d :: rest) =
        (t.updateFolder d.1 ({ · with depth := d.2, updatedAt := now })).setDepths now rest := rfl
    rw [h, ih]
    simp only [updateFolder, List.map_map, beq_iff_eq]
    rfl

variable {depths : List (Uuid × Nat)} {f : Folder}

/-- Of several depths for one folder the last one counts. -/
theorem redepth_eq_lookup (now : Instant) (depths : List (Uuid × Nat)) (f : Folder) :
    redepth now depths f = (depths.reverse.lookup f.id).elim f
      fun depth => { f with depth, updatedAt := now } := by
  induction depths generalizing f with
  | nil => rfl
  | cons d rest ih =>
    have hd : [d].lookup f.id = if f.id = d.1 then some d.2 else none := by
      simp only [List.lookup_eq_findSome?, List.findSome?_singleton, beq_iff_eq]
    rw [redepth, ih, List.reverse_cons, List.lookup_append, hd]
    split <;> cases rest.reverse.lookup f.id <;> rfl

/-- Only the depth and the time of the last update can differ. -/
theorem redepth_eq (now : Instant) (depths : List (Uuid × Nat)) (f : Folder) :
    ∃ d u, redepth now depths f = { f with depth := d, updatedAt := u } := by
  rw [redepth_eq_lookup]
  cases depths.reverse.lookup f.id with
  | none => exact ⟨f.depth, f.updatedAt, rfl⟩
  | some d => exact ⟨d, now, rfl⟩

@[simp] theorem redepth_id : (redepth now depths f).id = f.id := by
  obtain ⟨_, _, h⟩ := redepth_eq now depths f
  rw [h]

@[simp] theorem redepth_parent : (redepth now depths f).parent = f.parent := by
  obtain ⟨_, _, h⟩ := redepth_eq now depths f
  rw [h]

@[simp] theorem redepth_owner : (redepth now depths f).owner = f.owner := by
  obtain ⟨_, _, h⟩ := redepth_eq now depths f
  rw [h]

theorem redepth_of_not_mem (h : f.id ∉ depths.map (·.1)) : redepth now depths f = f := by
  induction depths generalizing f with
  | nil => rfl
  | cons d rest ih =>
    simp only [List.map_cons, List.mem_cons, not_or] at h
    rw [redepth, if_neg h.1]
    exact ih h.2

theorem redepth_depth (hn : (depths.map (·.1)).Nodup) {n : Nat} (h : (f.id, n) ∈ depths) :
    (redepth now depths f).depth = n := by
  induction depths generalizing f with
  | nil => simp at h
  | cons d rest ih =>
    obtain ⟨hd, hrest⟩ := List.nodup_cons.mp hn
    rw [redepth]
    rcases List.mem_cons.mp h with rfl | h
    · rw [if_pos rfl]
      let g : Folder := { f with depth := n, updatedAt := now }
      have hlast : redepth now rest g = g := redepth_of_not_mem hd
      exact congrArg Folder.depth hlast
    · have hne : f.id ≠ d.1 := by
        intro he
        exact hd (List.mem_map.mpr ⟨_, h, he⟩)
      rw [if_neg hne]
      exact ih hrest h

end Tables

end DriveAccess
