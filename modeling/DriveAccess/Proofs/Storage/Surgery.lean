import DriveAccess.Proofs.Hierarchy.Verification
import DriveAccess.Proofs.Storage.Sessions
/-!
What the requests on the closure table make of a forest: a new leaf or root, a subtree in another
place, a subtree or a leaf less.
-/
namespace DriveAccess.Session

/-- A request succeeds with a reply, leaves exactly the ways up of a forest in the closure table,
and touches no other table. -/
structure Reshapes (stamp : Stamp) (s : Session) (r : Request) (answer : r.Answer) (F : Forest) :
    Prop where
  outcome : (s.perform stamp r).1 = .ok answer
  grounded : F.Grounded
  exact : Exact F (s.perform stamp r).2.tables.paths
  frame : (s.perform stamp r).2.tables =
    { s.tables with pathRecords := (s.perform stamp r).2.tables.pathRecords }

variable {stamp : Stamp} {s : Session} {F : Forest} {x f : Uuid} {q : Option Uuid}
  {batch : List FolderPath}

theorem perform_insertPaths (stamp : Stamp) (h : s.tables.clashingPath? batch = none)
    (hne : batch ≠ []) : s.perform stamp (.insertPaths batch) =
      (.ok (), s.write (s.tables.addPaths stamp.time batch)) := by
  have hsome : (!batch.isEmpty) = true := by simpa using hne
  simp only [perform, insertPaths, h, hsome]
  rfl

theorem removePaths_tables (keep : FolderPath → Bool) :
    (s.removePaths (s.tables.keepPaths keep)).2.tables = s.tables.keepPaths keep := by
  refine remove_tables (·.pathRecords) ?_
  intro hall
  rw [Tables.keepPaths, hall]

/-- Some rows of the closure table are gone, the others stay in their order. -/
structure Drops (s u : Session) (n : Nat) : Prop where
  kept : u.tables.pathRecords.Sublist s.tables.pathRecords
  count : n + u.tables.pathRecords.length = s.tables.pathRecords.length

theorem drops_removePaths (keep : FolderPath → Bool) :
    let left := s.tables.keepPaths keep
    s.Drops (s.removePaths left).2 (s.removePaths left).1 := by
  intro left
  have hleft : (s.removePaths left).2.tables = left := removePaths_tables keep
  have hkept : left.pathRecords.Sublist s.tables.pathRecords := List.filter_sublist
  constructor
  · rw [hleft]
    exact hkept
  · rw [hleft]
    exact Nat.sub_add_cancel hkept.length_le

/-- A request that answers by a removal of closure rows. -/
theorem reshapes_of_removal {r : Request} {answer : r.Answer} (keep : FolderPath → Bool)
    (hr : s.perform stamp r = (.ok answer, (s.removePaths (s.tables.keepPaths keep)).2))
    (hF : F.Grounded) (h : Exact F (s.tables.paths.filter keep)) :
    s.Reshapes stamp r answer F := by
  have htables := removePaths_tables (s := s) keep
  constructor
  · rw [hr]
  · exact hF
  · rw [hr, htables, Tables.paths_keepPaths]
    exact h
  · rw [hr, htables]
    rfl

variable (hF : F.Grounded) (h : Exact F s.tables.paths)

include hF h

theorem reshapes_insertPaths (hx : F x = none) (hq : ∀ p, q = some p → (F p).isSome) :
    s.Reshapes stamp (.insertPaths (ancestorPaths x (s.tables.upper q))) () (F.place x q) := by
  have hrec : F.Receives x q := Forest.receives_new hx hq
  have hnew : Exact (F.place x q)
      (s.tables.paths ++ ancestorPaths x (s.tables.upper q)) :=
    h.plant hF hx hrec (Tables.upper_nodup h.nodup) fun _ => Tables.mem_upper
  have hkeys := hnew.keys_nodup (hF.place hrec)
  have hfree := Tables.clashingPath?_eq_none hkeys
  have hrun := perform_insertPaths stamp hfree (List.cons_ne_nil _ _)
  constructor
  · rw [hrun]
  · exact hF.place hrec
  · rw [hrun, write_tables, Tables.paths_addPaths]
    exact hnew
  · rw [hrun]
    rfl

theorem reshapes_moveSubtree (hf : (F f).isSome) (hq : F.Receives f q) :
    s.Reshapes stamp (.moveSubtree f (s.tables.upper q)) () (F.place f q) := by
  have hsome : (s.tables.recordsFrom f).isEmpty = false := by
    simpa [Tables.pathsFrom] using Tables.pathsFrom_ne_nil h hf
  have hrun : s.perform stamp (.moveSubtree f (s.tables.upper q)) =
      (.ok (), s.write (s.tables.moveSubtree stamp.time f (s.tables.upper q))) := by
    rw [perform, hsome]
    rfl
  have hnew : Exact (F.place f q) (s.tables.moveSubtree stamp.time f (s.tables.upper q)).paths := by
    rw [Tables.paths_moveSubtree]
    exact h.regraft hF hf hq (fun _ => Tables.mem_pathsFrom) (Tables.pathsFrom_nodup h.nodup)
        (fun _ => Tables.mem_upper) (Tables.upper_nodup h.nodup)
  constructor
  · rw [hrun]
  · exact hF.place hq
  · rw [hrun]
    exact hnew
  · rw [hrun]
    rfl

theorem reshapes_deleteSubtreePaths (f : Uuid) :
    ∃ n : Nat, s.Reshapes stamp (.deleteSubtreePaths f) n (F.cut f) ∧
      s.Drops (s.perform stamp (.deleteSubtreePaths f)).2 n := by
  let keep (p : FolderPath) : Bool := !(s.tables.descendantsOf f).contains p.descendant
  have hnew : Exact (F.cut f) (s.tables.paths.filter keep) :=
    h.prune hF fun _ => Tables.mem_pathsFrom
  have hrun : s.Reshapes stamp (.deleteSubtreePaths f) _ (F.cut f) :=
    reshapes_of_removal keep rfl (hF.cut f) hnew
  exact ⟨_, hrun, drops_removePaths keep⟩

theorem reshapes_deletePathsTouching (hf : F.Leaf f) :
    ∃ n : Nat, s.Reshapes stamp (.deletePathsTouching f) n (Function.update F f none) ∧
      s.Drops (s.perform stamp (.deletePathsTouching f)).2 n := by
  let keep (p : FolderPath) : Bool := p.descendant != f && p.ancestor != f
  have hnew : Exact (F.cut f) (s.tables.paths.filter keep) := h.pluck hF hf
  have hrun : s.Reshapes stamp (.deletePathsTouching f) _ (F.cut f) :=
    reshapes_of_removal keep rfl (hF.cut f) hnew
  rw [Forest.cut_leaf hf] at hrun
  exact ⟨_, hrun, drops_removePaths keep⟩

/-- A table that holds the ways up of a forest is taken by each request to the table of the forest
with a new leaf or root, with a subtree in another place, or with a subtree or a leaf less. -/
theorem forest_surgery (stamp : Stamp) :
    (∀ p, ∃ rows, s.perform stamp (.findAncestorPaths p) = (.ok rows, s) ∧
      rows.map (·.path) = s.tables.upper (some p)) ∧
    (∀ x q, F x = none → (∀ p, q = some p → (F p).isSome) →
      s.Reshapes stamp (.insertPaths (ancestorPaths x (s.tables.upper q))) () (F.place x q)) ∧
    (∀ f q, (F f).isSome → F.Receives f q →
      s.Reshapes stamp (.moveSubtree f (s.tables.upper q)) () (F.place f q)) ∧
    (∀ f, ∃ n : Nat, s.Reshapes stamp (.deleteSubtreePaths f) n (F.cut f) ∧
      s.Drops (s.perform stamp (.deleteSubtreePaths f)).2 n) ∧
    ∀ f, F.Leaf f → ∃ n : Nat,
      s.Reshapes stamp (.deletePathsTouching f) n (Function.update F f none) ∧
        s.Drops (s.perform stamp (.deletePathsTouching f)).2 n := by
  refine ⟨fun _ => ⟨_, rfl, rfl⟩, ?_, ?_, ?_, ?_⟩
  · intro x q hx hq
    exact reshapes_insertPaths hF h hx hq
  · intro f q hf hq
    exact reshapes_moveSubtree hF h hf hq
  · exact reshapes_deleteSubtreePaths hF h
  · intro f hf
    exact reshapes_deletePathsTouching hF h hf

omit hF h

/-- A root with a chain of two folders below it, and a root on its own. -/
def grove : List Folder :=
  let folder (id : Nat) (parent : Option Nat) (depth : Nat) : Folder :=
    ⟨.ofNat id, "", parent.map Uuid.ofNat, .ofNat 50, depth, 0, 0⟩
  [folder 1 none 0, folder 2 (some 1) 1, folder 3 (some 2) 2, folder 4 none 0]

def groveRows : List FolderPath :=
  [.self (.ofNat 1), ⟨.ofNat 1, .ofNat 2, 1⟩, .self (.ofNat 2), ⟨.ofNat 1, .ofNat 3, 2⟩,
    ⟨.ofNat 2, .ofNat 3, 1⟩, .self (.ofNat 3), .self (.ofNat 4)]

theorem forest_surgery_grove :
    let F := forestOf grove
    let s := fresh { pathRecords := groveRows.map (⟨·, 0⟩) }
    F.Grounded ∧ Exact F s.tables.paths ∧
    s.Reshapes ⟨.ofNat 9, 0⟩
      (.insertPaths (ancestorPaths (.ofNat 5) (s.tables.upper (some (.ofNat 3))))) ()
      (F.place (.ofNat 5) (some (.ofNat 3))) ∧
    s.Reshapes ⟨.ofNat 9, 0⟩ (.moveSubtree (.ofNat 2) (s.tables.upper (some (.ofNat 4)))) ()
      (F.place (.ofNat 2) (some (.ofNat 4))) ∧
    s.Reshapes ⟨.ofNat 9, 0⟩ (.deleteSubtreePaths (.ofNat 2)) (5 : Nat) (F.cut (.ofNat 2)) ∧
    s.Reshapes ⟨.ofNat 9, 0⟩ (.deletePathsTouching (.ofNat 3)) (3 : Nat)
      (Function.update F (.ofNat 3) none) := by
  intro F s
  have hids : (grove.map (·.id)).Nodup := by decide
  have hclean : verifyClosure grove groveRows = [] := by decide
  obtain ⟨hdepth, hexact⟩ := (verifyClosure_eq_nil_iff hids).mp hclean
  have hF : F.Grounded := grounded_of_depth hdepth
  have h : Exact F s.tables.paths := hexact
  obtain ⟨_, hinsert, hmove, hcut, hpluck⟩ := forest_surgery hF h ⟨.ofNat 9, 0⟩
  have hoff : ¬ F.Below (.ofNat 2) (.ofNat 4) := by
    rw [← h.mem_below fun _ => Tables.mem_pathsFrom]
    decide
  have hreceives : F.Receives (.ofNat 2) (some (.ofNat 4)) := by
    intro p hp
    cases hp
    exact ⟨by decide, by decide, hoff⟩
  have hleaf : F.Leaf (.ofNat 3) := by
    intro x hx
    obtain ⟨f, hf, hparent⟩ := Option.map_eq_some_iff.mp hx
    have hno : ∀ f ∈ grove, f.parent ≠ some (.ofNat 3) := by decide
    exact hno f (List.mem_of_find?_eq_some hf) hparent
  have hparent : ∀ p, some (Uuid.ofNat 3) = some p → (F p).isSome := by
    intro p hp
    cases hp
    decide
  refine ⟨hF, h, hinsert _ _ (by decide) hparent, hmove _ _ (by decide) hreceives, ?_, ?_⟩
  · obtain ⟨n, hn, _⟩ := hcut (.ofNat 2)
    cases hn.outcome
    exact hn
  · obtain ⟨n, hn, _⟩ := hpluck _ hleaf
    cases hn.outcome
    exact hn

end DriveAccess.Session
