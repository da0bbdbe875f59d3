import DriveAccess.Proofs.Storage.Surgery
/-!
What the queries on the closure table answer where its rows, in whatever order they are stored, are
those of a forest: the nodes above a node in their order, and those below it nearest first.
-/
namespace DriveAccess

namespace Forest

/-- The nodes above `x`: its parent, the parent of that one and so on, up to the root. -/
inductive Lineage (F : Forest) : Uuid → List Uuid → Prop
  | root {x : Uuid} (hx : F x = some none) : Lineage F x []
  | child {x p : Uuid} {above : List Uuid} (hx : F x = some (some p)) (hp : Lineage F p above) :
      Lineage F x (p :: above)

variable {F : Forest} {x a : Uuid} {above : List Uuid} {n : Nat}

/-- The place of a node in the lineage is its distance. -/
theorem Lineage.getElem?_iff (h : F.Lineage x above) : (x :: above)[n]? = some a ↔
    F.Climbs x n a := by
  induction h generalizing n with
  | root hx =>
    cases n with
    | zero => simp [hx, eq_comm]
    | succ n => simp [climbs_succ, hx]
  | @child x p above hx _ ih =>
    cases n with
    | zero => simp [hx, eq_comm]
    | succ n =>
      rw [List.getElem?_cons_succ, ih, climbs_succ]
      simp [hx]

theorem Lineage.depth (h : F.Lineage x above) : F.Depth x above.length := by
  induction h with
  | root hx => exact depth_root hx
  | child hx _ ih => exact depth_child hx ih

theorem Depth.lineage (d : F.Depth x n) : ∃ above, F.Lineage x above := by
  obtain ⟨r, hr, hroot⟩ := d
  induction hr with
  | here _ => exact ⟨[], .root hroot⟩
  | up hx _ ih =>
    obtain ⟨above, habove⟩ := ih hroot
    exact ⟨_, .child hx habove⟩

/-- No node is above itself. -/
theorem Lineage.not_mem (h : F.Lineage x above) : x ∉ above := by
  intro hx
  obtain ⟨k, hk⟩ := List.mem_iff_getElem?.mp hx
  have hcircle : F.Climbs x (k + 1) x := h.getElem?_iff.mp hk
  obtain ⟨hle, hd⟩ := h.depth.climbs hcircle
  have := h.depth.unique hd
  omega

/-- The rows of a node and those above it. -/
def lineageRows (x : Uuid) (above : List Uuid) : List FolderPath :=
  (x :: above).mapIdx fun k a => ⟨a, x, k⟩

theorem lineageRows_eq (x : Uuid) (above : List Uuid) :
    lineageRows x above = .self x :: above.mapIdx fun k a => ⟨a, x, k + 1⟩ := List.mapIdx_cons

theorem lineageRows_lengths (x : Uuid) (above : List Uuid) :
    (lineageRows x above).map (·.length) = List.range (above.length + 1) := by
  refine List.ext_getElem (by simp [lineageRows]) fun k hk _ => ?_
  simp only [lineageRows, List.getElem_map, List.getElem_mapIdx, List.getElem_range]

theorem lineageRows_pairwise (x : Uuid) (above : List Uuid) :
    (lineageRows x above).Pairwise (·.length < ·.length) := by
  rw [← List.pairwise_map, lineageRows_lengths]
  exact List.pairwise_lt_range

theorem mem_lineageRows (h : F.Lineage x above) {r : FolderPath} :
    r ∈ lineageRows x above ↔ r.descendant = x ∧ F.Climbs x r.length r.ancestor := by
  rw [lineageRows, List.mem_mapIdx, ← h.getElem?_iff]
  constructor
  · rintro ⟨k, hk, rfl⟩
    exact ⟨rfl, List.getElem?_eq_getElem hk⟩
  · rintro ⟨rfl, hr⟩
    obtain ⟨hk, ha⟩ := List.getElem?_eq_some_iff.mp hr
    exact ⟨r.length, hk, by rw [ha]⟩

end Forest

namespace Tables

variable {F : Forest} {t : Tables} {x : Uuid} {above : List Uuid}

/-- All rows that end in `x` have different lengths, so that sorting brings them in one order. -/
theorem pathsTo_eq (h : Exact F t.paths) (hx : F.Lineage x above) :
    t.pathsTo x = Forest.lineageRows x above := by
  have hrow (r : FolderPath) : r ∈ t.pathsTo x ↔ r ∈ Forest.lineageRows x above := by
    rw [mem_pathsTo, Forest.mem_lineageRows hx, h.mem_iff]
    constructor
    · rintro ⟨hr, rfl⟩
      exact ⟨rfl, hr⟩
    · rintro ⟨rfl, hr⟩
      exact ⟨hr, rfl⟩
  have hsorted := Forest.lineageRows_pairwise x above
  have hnodup : (Forest.lineageRows x above).Nodup := hsorted.imp fun hlt he => by simp [he] at hlt
  have hperm : (t.pathsTo x).Perm (Forest.lineageRows x above) :=
    (List.perm_ext_iff_of_nodup (pathsTo_nodup h.nodup) hnodup).mpr hrow
  refine hperm.eq_of_pairwise ?_ pathsTo_sorted (hsorted.imp Nat.le_of_lt)
  rintro ⟨a, d, k⟩ ⟨b, e, m⟩ hr hs hle hge
  obtain ⟨rfl, ha⟩ := (Forest.mem_lineageRows hx).mp ((hrow _).mp hr)
  obtain ⟨rfl, hb⟩ := (Forest.mem_lineageRows hx).mp hs
  obtain rfl : k = m := Nat.le_antisymm hle hge
  obtain rfl : a = b := ha.unique hb
  rfl

theorem ancestorsOf_eq (h : Exact F t.paths) (hx : F.Lineage x above) :
    t.ancestorsOf x = above := by
  rw [ancestorsOf, pathsTo_eq h hx, Forest.lineageRows_eq]
  have hproper : ∀ r ∈ above.mapIdx fun k a => (⟨a, x, k + 1⟩ : FolderPath), !r.isSelf := by
    intro r hr
    obtain ⟨k, hk, rfl⟩ := List.mem_mapIdx.mp hr
    have hne : above[k] ≠ x := fun he => hx.not_mem (he ▸ List.getElem_mem hk)
    simpa [FolderPath.isSelf] using hne
  rw [List.filter_cons_of_neg (by simp [FolderPath.self, FolderPath.isSelf]),
    List.filter_eq_self.mpr hproper]
  exact List.ext_getElem (by simp) fun k hk _ => by simp

end Tables

namespace Forest

/-- The rows that end in `x`: its own, its parent's and so on, up to the root's. -/
structure RowsUp (F : Forest) (x : Uuid) (rows : List FolderPath) : Prop where
  head : rows.head? = some (.self x)
  lengths {d : Nat} : F.Depth x d → rows.map (·.length) = List.range (d + 1)
  mem_iff (r : FolderPath) : r ∈ rows ↔ r.descendant = x ∧ F.Climbs x r.length r.ancestor

/-- The rows that start at `x`: one for each node of its subtree, nearest first. -/
structure RowsDown (F : Forest) (x : Uuid) (rows : List FolderPath) : Prop where
  head : rows.head? = some (.self x)
  once : (rows.map (·.descendant)).Nodup
  mem_iff (r : FolderPath) : r ∈ rows ↔ r.ancestor = x ∧ F.Climbs r.descendant r.length x
  sorted : rows.Pairwise (·.length ≤ ·.length)
  height : F.Height x (subtreeHeight rows)

/-- The nodes of a subtree, nearest first. -/
structure NodesDown (F : Forest) (x : Uuid) (ids : List Uuid) : Prop where
  head : ids.head? = some x
  once : ids.Nodup
  mem_iff (y : Uuid) : y ∈ ids ↔ F.Below x y
  sorted : ids.Pairwise fun y z => ∀ j k, F.Climbs y j x → F.Climbs z k x → j ≤ k

theorem RowsDown.nodes {F : Forest} {x : Uuid} {rows : List FolderPath} (hF : F.Grounded)
    (h : F.RowsDown x rows) : F.NodesDown x (rows.map (·.descendant)) where
  head := by rw [List.head?_map, h.head]; rfl
  once := h.once
  mem_iff y := by
    rw [List.mem_map]
    constructor
    · rintro ⟨r, hr, rfl⟩
      exact ⟨r.length, ((h.mem_iff r).mp hr).2⟩
    · rintro ⟨k, hk⟩
      exact ⟨⟨x, y, k⟩, (h.mem_iff _).mpr ⟨rfl, hk⟩, rfl⟩
  sorted := by
    refine List.pairwise_map.mpr (h.sorted.imp_of_mem fun {r s} hr hs hle j k hj hk => ?_)
    rw [hF.length_unique hj ((h.mem_iff r).mp hr).2, hF.length_unique hk ((h.mem_iff s).mp hs).2]
    exact hle

end Forest

namespace Tables

variable {F : Forest} {t : Tables} {x : Uuid}

theorem rowsUp_pathsTo (hF : F.Grounded) (h : Exact F t.paths) (hx : (F x).isSome) :
    F.RowsUp x (t.pathsTo x) := by
  obtain ⟨d, hd⟩ := hF x hx
  obtain ⟨above, habove⟩ := hd.lineage
  rw [pathsTo_eq h habove]
  refine ⟨by simp [Forest.lineageRows_eq], fun {e} he => ?_, fun r => Forest.mem_lineageRows habove⟩
  rw [Forest.lineageRows_lengths, he.unique habove.depth]

theorem rowsDown_pathsFrom (hF : F.Grounded) (h : Exact F t.paths) (hx : (F x).isSome) :
    F.RowsDown x (t.pathsFrom x) := by
  have hmem (a d : Uuid) (k : Nat) : (⟨a, d, k⟩ : FolderPath) ∈ t.pathsFrom x ↔
      a = x ∧ F.Climbs d k x := by
    rw [mem_pathsFrom, h.mem_mk]
    constructor
    · rintro ⟨hd, rfl⟩
      exact ⟨rfl, hd⟩
    · rintro ⟨rfl, hd⟩
      exact ⟨hd, rfl⟩
  have hsorted : (t.pathsFrom x).Pairwise (·.length ≤ ·.length) := pathsFrom_sorted
  refine ⟨?_, ?_, fun r => hmem _ _ _, hsorted, h.height (fun _ => mem_pathsFrom) hx⟩
  · -- Only the row of `x` itself has length 0, so nothing can come before it.
    have hself : FolderPath.self x ∈ t.pathsFrom x := (hmem ..).mpr ⟨rfl, .here hx⟩
    cases hrows : t.pathsFrom x with
    | nil => simp [hrows] at hself
    | cons r rest =>
      rw [hrows] at hsorted hself
      obtain ⟨a, d, k⟩ := r
      obtain ⟨ha, hd⟩ := (hmem a d k).mp (hrows ▸ List.mem_cons_self)
      have hzero : k = 0 := by
        rcases List.mem_cons.mp hself with he | hlater
        · exact congrArg FolderPath.length he.symm
        · exact Nat.le_zero.mp ((List.pairwise_cons.mp hsorted).1 _ hlater)
      subst hzero
      obtain ⟨hxd, _⟩ := Forest.climbs_zero.mp hd
      rw [ha, ← hxd]
      rfl
  · apply (pathsFrom_nodup h.nodup).map_on
    intro r hr s hs hd
    obtain ⟨hr, hra⟩ := mem_pathsFrom.mp hr
    obtain ⟨hs, hsa⟩ := mem_pathsFrom.mp hs
    exact h.key_inj hF hr hs (Prod.ext (hra.trans hsa.symm) hd)

theorem pathsTo_unknown (h : Exact F t.paths) (hx : F x = none) : t.pathsTo x = [] := by
  rw [List.eq_nil_iff_forall_not_mem]
  intro r hr
  obtain ⟨hrow, rfl⟩ := mem_pathsTo.mp hr
  simpa [hx] using ((h.mem_iff r).mp hrow).node

theorem pathsFrom_unknown (h : Exact F t.paths) (hx : F x = none) : t.pathsFrom x = [] := by
  rw [List.eq_nil_iff_forall_not_mem]
  intro r hr
  obtain ⟨hrow, rfl⟩ := mem_pathsFrom.mp hr
  simpa [hx] using ((h.mem_iff r).mp hrow).target

end Tables

namespace Session

variable {F : Forest} {s : Session}

/-- Each query on the closure table of a session is answered from a forest. -/
structure Charts (s : Session) (F : Forest) : Prop where
  findAncestors (stamp : Stamp) {x : Uuid} : (F x).isSome → ∃ above,
    s.perform stamp (.findAncestors x) = (.ok above, s) ∧ F.Lineage x above
  findAncestorPaths (stamp : Stamp) {x : Uuid} : (F x).isSome → ∃ rows,
    s.perform stamp (.findAncestorPaths x) = (.ok rows, s) ∧ F.RowsUp x (rows.map (·.path))
  findSubtree (stamp : Stamp) {x : Uuid} : (F x).isSome → ∃ rows,
    s.perform stamp (.findSubtree x) = (.ok rows, s) ∧ F.RowsDown x (rows.map (·.path))
  findDescendants (stamp : Stamp) {x : Uuid} : (F x).isSome → ∃ ids,
    s.perform stamp (.findDescendants x) = (.ok ids, s) ∧ F.NodesDown x ids
  unknown (stamp : Stamp) {x : Uuid} : F x = none →
    s.perform stamp (.findAncestors x) = (.ok [], s) ∧
    s.perform stamp (.findAncestorPaths x) = (.ok [], s) ∧
    s.perform stamp (.findSubtree x) = (.ok [], s) ∧
    s.perform stamp (.findDescendants x) = (.ok [], s)

theorem closure_queries_chart (hF : F.Grounded) (h : Exact F s.tables.paths) : s.Charts F where
  findAncestors stamp x hx := by
    obtain ⟨d, hd⟩ := hF x hx
    obtain ⟨above, habove⟩ := hd.lineage
    refine ⟨above, ?_, habove⟩
    rw [perform, Tables.ancestorsOf_eq h habove]
  findAncestorPaths stamp x hx := ⟨_, rfl, Tables.rowsUp_pathsTo hF h hx⟩
  findSubtree stamp x hx := ⟨_, rfl, Tables.rowsDown_pathsFrom hF h hx⟩
  findDescendants stamp x hx := ⟨_, rfl, (Tables.rowsDown_pathsFrom hF h hx).nodes hF⟩
  unknown stamp x hx := by
    have hto : s.tables.recordsTo x = [] := List.map_eq_nil_iff.mp (Tables.pathsTo_unknown h hx)
    have hfrom : s.tables.recordsFrom x = [] :=
      List.map_eq_nil_iff.mp (Tables.pathsFrom_unknown h hx)
    simp only [perform, Tables.ancestorsOf, Tables.descendantsOf, Tables.pathsTo, Tables.pathsFrom,
      hto, hfrom, List.filter_nil, List.map_nil, and_self]

theorem closure_queries_chart_grove :
    let F := forestOf grove
    let s := fresh { pathRecords := groveRows.reverse.map (⟨·, 0⟩) }
    F.Grounded ∧ Exact F s.tables.paths ∧ s.Charts F := by
  intro F s
  have hids : (grove.map (·.id)).Nodup := by decide
  have hclean : verifyClosure grove groveRows.reverse = [] := by decide
  obtain ⟨hdepth, hexact⟩ := (verifyClosure_eq_nil_iff hids).mp hclean
  have hF : F.Grounded := grounded_of_depth hdepth
  have h : Exact F s.tables.paths := hexact
  exact ⟨hF, h, closure_queries_chart hF h⟩

end Session

end DriveAccess
