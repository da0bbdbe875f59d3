import DriveAccess.Proofs.Hierarchy.Walks
/-!
The comparison of a closure table with the folders tells exactly where they disagree, each
disagreement once, whatever folders and rows it is given.
-/
namespace DriveAccess

namespace FolderPath

variable {p q : FolderPath}

theorem sameKey_iff : p.sameKey q = true ↔ q.key = p.key := by
  simp only [sameKey, key, Bool.and_eq_true, beq_iff_eq, Prod.mk.injEq]
  exact and_congr eq_comm eq_comm

theorem sameKey_eq (p : FolderPath) : (p.sameKey ·) = fun q => q.key == p.key := by
  funext q
  rw [Bool.eq_iff_iff, sameKey_iff, beq_iff_eq]

end FolderPath

section FirstRows

variable {rows : List FolderPath} {p : FolderPath} {a d : Uuid} {n : Nat}

theorem mem_firstRows : p ∈ firstRows rows ↔ rows.find? (·.key == p.key) = some p := by
  induction rows with
  | nil => simp [firstRows]
  | cons r rest ih =>
    rw [firstRows, List.mem_cons, List.mem_filter, ih, List.find?_cons, Bool.not_eq_true',
      ← Bool.not_eq_true, FolderPath.sameKey_iff]
    by_cases hk : r.key = p.key
    · simp [hk, eq_comm]
    · have hne : p ≠ r := by
        intro he
        exact hk (congrArg FolderPath.key he.symm)
      have hkey : (r.key == p.key) = false := by simpa using hk
      simp [hne, hkey, Ne.symm hk]

theorem firstRows_keys (rows : List FolderPath) :
    (firstRows rows).Pairwise fun p q => p.key ≠ q.key := by
  induction rows with
  | nil => exact .nil
  | cons r rest ih =>
    refine List.pairwise_cons.mpr ⟨?_, ih.filter _⟩
    intro q hq he
    have hother := (List.mem_filter.mp hq).2
    rw [Bool.not_eq_true', ← Bool.not_eq_true, FolderPath.sameKey_iff] at hother
    exact hother he.symm

theorem mem_of_mem_firstRows (h : p ∈ firstRows rows) : p ∈ rows :=
  List.mem_of_find?_eq_some (mem_firstRows.mp h)

/-- Every key that occurs has a first row. -/
theorem exists_first (h : (a, d) ∈ rows.map FolderPath.key) :
    ∃ n, (⟨a, d, n⟩ : FolderPath) ∈ firstRows rows := by
  obtain ⟨r, hr, hrk⟩ := List.mem_map.mp h
  cases hfind : rows.find? (·.key == (a, d)) with
  | none =>
    have hno := List.find?_eq_none.mp hfind r hr
    simp [hrk] at hno
  | some p =>
    have hkey : p.key = (a, d) := by simpa using List.find?_some hfind
    obtain ⟨rfl, rfl⟩ := Prod.mk.inj hkey
    exact ⟨p.length, mem_firstRows.mpr hfind⟩

theorem not_any_sameKey :
    (!rows.any (p.sameKey ·)) = true ↔ p.key ∉ rows.map FolderPath.key := by
  rw [Bool.not_eq_true', ← Bool.not_eq_true, p.sameKey_eq, List.any_eq_true, List.mem_map]
  simp only [beq_iff_eq]

/-- The length in the first row from `d` up to `a`. -/
def firstLength? (rows : List FolderPath) (a d : Uuid) : Option Nat :=
  (rows.find? (·.key == (a, d))).map (·.length)

theorem firstLength?_eq_some :
    firstLength? rows a d = some n ↔ (⟨a, d, n⟩ : FolderPath) ∈ firstRows rows := by
  rw [firstLength?, mem_firstRows, Option.map_eq_some_iff]
  constructor
  · intro hrow
    obtain ⟨p, hfind, rfl⟩ := hrow
    have hkey : p.key = (a, d) := by simpa using List.find?_some hfind
    obtain ⟨rfl, rfl⟩ := Prod.mk.inj hkey
    exact hfind
  · intro hfind
    exact ⟨_, hfind, rfl⟩

end FirstRows

namespace Violation

/-- When a disagreement is there. What lies how far above a folder is told by where its way up
meets it first. -/
def Occurs (fs : List Folder) (rows : List FolderPath) : Violation → Prop
  | unknownParent f p => (forestOf fs).RunsInto f p
  | cycle f => (forestOf fs).Circles f
  | depthMismatch f recorded actual =>
    (∃ g ∈ fs, g.id = f ∧ g.depth = recorded) ∧ (forestOf fs).Depth f actual ∧ actual ≠ recorded
  | duplicatePath a d => 1 < (rows.map FolderPath.key).count (a, d)
  | strayPath a d => (a, d) ∈ rows.map FolderPath.key ∧ ∀ n, ¬ (forestOf fs).Meets d n a
  | wrongLength a d expected actual => (forestOf fs).Meets d expected a ∧
      firstLength? rows a d = some actual ∧ actual ≠ expected
  | missingSelf d => (∃ g ∈ fs, g.id = d) ∧ (d, d) ∉ rows.map FolderPath.key
  | missingPath a d expected => a ≠ d ∧ (forestOf fs).Meets d expected a ∧
      (a, d) ∉ rows.map FolderPath.key

/-- What is wrong: a folder, a row that is there or one that is not. -/
inductive Fault
  | folder
  | row
  | gap

def fault : Violation → Fault
  | unknownParent _ _ | cycle _ | depthMismatch _ _ _ => .folder
  | duplicatePath _ _ | strayPath _ _ | wrongLength _ _ _ _ => .row
  | missingSelf _ | missingPath _ _ _ => .gap

/-- The ends of the way that a disagreement is about; a folder is at both ends of its own. -/
def place : Violation → Uuid × Uuid
  | unknownParent f _ | cycle f | depthMismatch f _ _ | missingSelf f => (f, f)
  | duplicatePath a d | strayPath a d | wrongLength a d _ _ | missingPath a d _ => (a, d)

end Violation

/-- Findings at different places are different. -/
theorem nodup_findings {α : Type} {xs : List α} {find : α → List Violation} {at' : α → Uuid × Uuid}
    (hxs : xs.Pairwise fun x y => at' x ≠ at' y) (hfind : ∀ x ∈ xs, (find x).Nodup)
    (hat : ∀ x ∈ xs, ∀ v ∈ find x, v.place = at' x) : (xs.flatMap find).Nodup := by
  refine List.nodup_flatMap.mpr ⟨hfind, hxs.imp_of_mem ?_⟩
  intro x y hx hy hne
  simp only [Function.onFun, List.disjoint_left]
  intro v hvx hvy
  exact hne ((hat x hx v hvx).symm.trans (hat y hy v hvy))

section

variable {fs : List Folder} {rows : List FolderPath} {f : Folder} {p : FolderPath} {v : Violation}
  {a d : Uuid} {n : Nat} (h : (fs.map (·.id)).Nodup)

include h

/-! What is expected. -/

theorem mem_expected : p ∈ fs.flatMap (Folder.expectedPaths fs) ↔
    (forestOf fs).Meets p.descendant p.length p.ancestor := by
  rw [List.mem_flatMap]
  constructor
  · intro hf
    obtain ⟨f, hf, hp⟩ := hf
    obtain ⟨i, hi, rfl⟩ := List.mem_mapIdx.mp hp
    exact (Folder.walk_follows h hf).met_iff.mp (List.getElem?_eq_getElem hi)
  · intro hmeets
    obtain ⟨f, hf, hid⟩ := forestOf_isSome.mp hmeets.1.node
    rw [← hid] at hmeets
    obtain ⟨hi, hget⟩ :=
      List.getElem?_eq_some_iff.mp ((Folder.walk_follows h hf).met_iff.mpr hmeets)
    refine ⟨f, hf, List.mem_mapIdx.mpr ⟨p.length, hi, ?_⟩⟩
    rw [hget, hid]

/-- All rows expected at one key have one length, so each of them is listed as the first. -/
theorem mem_firstRows_expected : p ∈ firstRows (fs.flatMap (Folder.expectedPaths fs)) ↔
    (forestOf fs).Meets p.descendant p.length p.ancestor := by
  constructor
  · intro hp
    exact (mem_expected h).mp (mem_of_mem_firstRows hp)
  · intro hmeets
    have hrow := (mem_expected h).mpr hmeets
    obtain ⟨n, hfirst⟩ := exists_first (List.mem_map_of_mem hrow)
    have hother := (mem_expected h).mp (mem_of_mem_firstRows hfirst)
    obtain rfl : n = p.length := hother.unique hmeets
    exact hfirst

theorem expectedLength?_eq_some : expectedLength? (fs.flatMap (Folder.expectedPaths fs)) a d =
    some n ↔ (forestOf fs).Meets d n a := by
  rw [expectedLength?, Option.map_eq_some_iff]
  constructor
  · intro hrow
    obtain ⟨r, hr, rfl⟩ := hrow
    obtain ⟨rfl, rfl⟩ : r.ancestor = a ∧ r.descendant = d := by simpa using List.find?_some hr
    exact (mem_expected h).mp (List.mem_reverse.mp (List.mem_of_find?_eq_some hr))
  · intro hmeets
    have hrow : (⟨a, d, n⟩ : FolderPath) ∈ fs.flatMap (Folder.expectedPaths fs) :=
      (mem_expected h).mpr hmeets
    cases hfind : (fs.flatMap (Folder.expectedPaths fs)).reverse.find? fun r =>
        r.ancestor == a && r.descendant == d with
    | none =>
      have hno := List.find?_eq_none.mp hfind _ (List.mem_reverse.mpr hrow)
      simp at hno
    | some r =>
      obtain ⟨rfl, rfl⟩ : r.ancestor = a ∧ r.descendant = d := by
        simpa using List.find?_some hfind
      have hr := (mem_expected h).mp (List.mem_reverse.mp (List.mem_of_find?_eq_some hfind))
      exact ⟨r, rfl, hr.unique hmeets⟩

theorem expectedLength?_eq_none : expectedLength? (fs.flatMap (Folder.expectedPaths fs)) a d =
    none ↔ ∀ n, ¬ (forestOf fs).Meets d n a := by
  rw [Option.eq_none_iff_forall_ne_some]
  exact forall_congr' fun n => not_congr (expectedLength?_eq_some h)

/-! Findings about one folder, one key of the rows, one row that is missing. -/

theorem mem_folder_violations (hf : f ∈ fs) : v ∈ f.violations fs ↔
    (∃ p, v = .unknownParent f.id p ∧ (forestOf fs).RunsInto f.id p) ∨
      (v = .cycle f.id ∧ (forestOf fs).Circles f.id) ∨
      ∃ n, v = .depthMismatch f.id f.depth n ∧ (forestOf fs).Depth f.id n ∧ n ≠ f.depth := by
  have hw := Folder.walk_follows h hf
  have hunknown (p : Uuid) : (forestOf fs).RunsInto f.id p ↔ (f.walk fs).stop = .unknown p :=
    (hw.stop_iff (e := .unknown p)).symm
  have hcycle : (forestOf fs).Circles f.id ↔ (f.walk fs).stop = .cycle :=
    (hw.stop_iff (e := .cycle)).symm
  simp only [hunknown, hcycle, hw.depth_iff, Folder.violations]
  cases hs : (f.walk fs).stop with
  | unknown p => simp
  | cycle => simp
  | root =>
    obtain ⟨n, hn⟩ := hw.stop_iff.mp hs
    have hlen : (f.walk fs).met.length = n + 1 := (hw.depth_iff.mp hn).2
    by_cases hdepth : n = f.depth
    · simp [hlen, hdepth]
    · simp [hlen, hdepth]

theorem mem_row_violations : v ∈ p.violations (fs.flatMap (Folder.expectedPaths fs)) rows ↔
    (v = .duplicatePath p.ancestor p.descendant ∧ 1 < (rows.map FolderPath.key).count p.key) ∨
      (v = .strayPath p.ancestor p.descendant ∧
        ∀ n, ¬ (forestOf fs).Meets p.descendant n p.ancestor) ∨
      ∃ n, v = .wrongLength p.ancestor p.descendant n p.length ∧
        (forestOf fs).Meets p.descendant n p.ancestor ∧ p.length ≠ n := by
  have hcount : rows.countP (p.sameKey ·) = (rows.map FolderPath.key).count p.key := by
    rw [p.sameKey_eq, List.count_eq_countP, List.countP_map]
    rfl
  rw [FolderPath.violations, List.mem_append, hcount]
  apply or_congr
  · by_cases hdup : 1 < (rows.map FolderPath.key).count p.key <;> simp [hdup]
  · cases hlen : expectedLength? (fs.flatMap (Folder.expectedPaths fs)) p.ancestor
        p.descendant with
    | none =>
      have hno := (expectedLength?_eq_none h).mp hlen
      simp [hno]
    | some n =>
      have hmeets := (expectedLength?_eq_some h).mp hlen
      have hmet : ¬ ∀ m, ¬ (forestOf fs).Meets p.descendant m p.ancestor := fun hno => hno n hmeets
      have hunique (m : Nat) : (forestOf fs).Meets p.descendant m p.ancestor ↔ m = n :=
        ⟨fun hm => hm.unique hmeets, fun he => he ▸ hmeets⟩
      by_cases hl : p.length = n
      · simp [hunique, hl]
      · simp [hunique, hl]

theorem absence_eq (hp : (forestOf fs).Meets p.descendant p.length p.ancestor) :
    p.absence (fs.flatMap (Folder.expectedPaths fs)) =
      if p.ancestor = p.descendant then .missingSelf p.descendant
      else .missingPath p.ancestor p.descendant p.length := by
  have hlen := (expectedLength?_eq_some h).mpr hp
  rw [FolderPath.absence, hlen, FolderPath.isSelf]
  by_cases hself : p.ancestor = p.descendant <;> simp [hself]

/-! The three kinds of findings. -/

theorem mem_folder_findings (rows : List FolderPath) : v ∈ fs.flatMap (Folder.violations fs) ↔
    v.fault = .folder ∧ v.Occurs fs rows := by
  rw [List.mem_flatMap]
  constructor
  · intro hv
    obtain ⟨f, hf, hv⟩ := hv
    obtain ⟨p, rfl, hp⟩ | ⟨rfl, hc⟩ | ⟨n, rfl, hn, hne⟩ := (mem_folder_violations h hf).mp hv
    · exact ⟨rfl, hp⟩
    · exact ⟨rfl, hc⟩
    · exact ⟨rfl, ⟨f, hf, rfl, rfl⟩, hn, hne⟩
  · intro hv
    obtain ⟨hfault, hoccurs⟩ := hv
    cases v with
    | unknownParent x p =>
      have hruns : (forestOf fs).RunsInto x p := hoccurs
      obtain ⟨n, a, hc, _⟩ := id hruns
      obtain ⟨f, hf, rfl⟩ := forestOf_isSome.mp hc.node
      exact ⟨f, hf, (mem_folder_violations h hf).mpr (.inl ⟨p, rfl, hruns⟩)⟩
    | cycle x =>
      have hcircles : (forestOf fs).Circles x := hoccurs
      obtain ⟨m, n, a, _, hc, _⟩ := id hcircles
      obtain ⟨f, hf, rfl⟩ := forestOf_isSome.mp hc.node
      exact ⟨f, hf, (mem_folder_violations h hf).mpr (.inr (.inl ⟨rfl, hcircles⟩))⟩
    | depthMismatch x recorded actual =>
      obtain ⟨⟨f, hf, rfl, rfl⟩, hd, hne⟩ := hoccurs
      exact ⟨f, hf, (mem_folder_violations h hf).mpr (.inr (.inr ⟨actual, rfl, hd, hne⟩))⟩
    | duplicatePath | strayPath | wrongLength | missingSelf | missingPath => cases hfault

theorem mem_row_findings : v ∈ (firstRows rows).flatMap
      (FolderPath.violations (fs.flatMap (Folder.expectedPaths fs)) rows) ↔
    v.fault = .row ∧ v.Occurs fs rows := by
  rw [List.mem_flatMap]
  constructor
  · intro hv
    obtain ⟨p, hp, hv⟩ := hv
    have hkey : p.key ∈ rows.map FolderPath.key :=
      List.mem_map_of_mem (mem_of_mem_firstRows hp)
    have hfirst : firstLength? rows p.ancestor p.descendant = some p.length :=
      firstLength?_eq_some.mpr hp
    obtain ⟨rfl, hdup⟩ | ⟨rfl, hno⟩ | ⟨n, rfl, hn, hne⟩ := (mem_row_violations h).mp hv
    · exact ⟨rfl, hdup⟩
    · exact ⟨rfl, hkey, hno⟩
    · exact ⟨rfl, hn, hfirst, hne⟩
  · intro hv
    obtain ⟨hfault, hoccurs⟩ := hv
    -- whatever it is, a first row of its key is there to find it at
    cases v with
    | duplicatePath a d =>
      have hdup : 1 < (rows.map FolderPath.key).count (a, d) := hoccurs
      have hk : (a, d) ∈ rows.map FolderPath.key := List.count_pos_iff.mp (by omega)
      obtain ⟨n, hp⟩ := exists_first hk
      exact ⟨_, hp, (mem_row_violations h).mpr (.inl ⟨rfl, hdup⟩)⟩
    | strayPath a d =>
      obtain ⟨hk, hno⟩ := hoccurs
      obtain ⟨n, hp⟩ := exists_first hk
      exact ⟨_, hp, (mem_row_violations h).mpr (.inr (.inl ⟨rfl, hno⟩))⟩
    | wrongLength a d expected actual =>
      obtain ⟨hn, hlen, hne⟩ := hoccurs
      have hp := firstLength?_eq_some.mp hlen
      exact ⟨_, hp, (mem_row_violations h).mpr (.inr (.inr ⟨expected, rfl, hn, hne⟩))⟩
    | unknownParent | cycle | depthMismatch | missingSelf | missingPath => cases hfault

theorem mem_gap_findings : v ∈ ((firstRows (fs.flatMap (Folder.expectedPaths fs))).filter
      fun p => !rows.any (p.sameKey ·)).map
        (FolderPath.absence (fs.flatMap (Folder.expectedPaths fs))) ↔
    v.fault = .gap ∧ v.Occurs fs rows := by
  rw [List.mem_map]
  simp only [List.mem_filter, mem_firstRows_expected h, not_any_sameKey]
  constructor
  · intro hv
    obtain ⟨p, ⟨hmeets, hno⟩, rfl⟩ := hv
    have hnode := forestOf_isSome.mp hmeets.1.node
    rw [absence_eq h hmeets]
    by_cases hself : p.ancestor = p.descendant
    · have hkey : p.key = (p.descendant, p.descendant) := by rw [FolderPath.key, hself]
      rw [if_pos hself]
      exact ⟨rfl, hnode, hkey ▸ hno⟩
    · rw [if_neg hself]
      exact ⟨rfl, hself, hmeets, hno⟩
  · intro hv
    obtain ⟨hfault, hoccurs⟩ := hv
    cases v with
    | missingSelf d =>
      obtain ⟨hd, hno⟩ := hoccurs
      have hself : (forestOf fs).Meets d 0 d :=
        ⟨.here (forestOf_isSome.mpr hd), fun m hm => absurd hm (Nat.not_lt_zero m)⟩
      refine ⟨⟨d, d, 0⟩, ⟨hself, hno⟩, ?_⟩
      rw [absence_eq h hself, if_pos rfl]
    | missingPath a d n =>
      obtain ⟨hne, hn, hno⟩ := hoccurs
      refine ⟨⟨a, d, n⟩, ⟨hn, hno⟩, ?_⟩
      rw [absence_eq h hn, if_neg hne]
    | unknownParent | cycle | depthMismatch | duplicatePath | strayPath | wrongLength =>
      cases hfault

/-! All findings together. -/

theorem mem_verifyClosure : v ∈ verifyClosure fs rows ↔ v.Occurs fs rows := by
  rw [verifyClosure, List.mem_append, List.mem_append, mem_folder_findings h rows,
    mem_row_findings h, mem_gap_findings h, ← or_and_right, ← or_and_right, and_iff_right_iff_imp]
  intro _
  cases v <;> simp [Violation.fault]

theorem folder_findings_nodup : (fs.flatMap (Folder.violations fs)).Nodup := by
  have hids : fs.Pairwise fun f g => (f.id, f.id) ≠ (g.id, g.id) :=
    (List.pairwise_map.mp h).imp fun hne he => hne (congrArg Prod.fst he)
  refine nodup_findings hids ?_ ?_
  · intro f _
    rw [Folder.violations]
    cases (f.walk fs).stop with
    | unknown p => exact List.nodup_singleton _
    | cycle => exact List.nodup_singleton _
    | root =>
      dsimp only
      split
      · exact .nil
      · exact List.nodup_singleton _
  · intro f hf v hv
    obtain ⟨p, rfl, _⟩ | ⟨rfl, _⟩ | ⟨n, rfl, _⟩ := (mem_folder_violations h hf).mp hv <;> rfl

theorem row_findings_nodup : ((firstRows rows).flatMap
    (FolderPath.violations (fs.flatMap (Folder.expectedPaths fs)) rows)).Nodup := by
  refine nodup_findings (firstRows_keys rows) ?_ ?_
  · intro p _
    rw [FolderPath.violations]
    cases expectedLength? (fs.flatMap (Folder.expectedPaths fs)) p.ancestor p.descendant with
    | none => split <;> simp
    | some n =>
      dsimp only
      split <;> split <;> simp
  · intro p _ v hv
    obtain ⟨rfl, _⟩ | ⟨rfl, _⟩ | ⟨n, rfl, _⟩ := (mem_row_violations h).mp hv <;> rfl

theorem gap_findings_nodup (keep : FolderPath → Bool) :
    (((firstRows (fs.flatMap (Folder.expectedPaths fs))).filter keep).map
      (FolderPath.absence (fs.flatMap (Folder.expectedPaths fs)))).Nodup := by
  have hplace (p : FolderPath) (hp : p ∈ firstRows (fs.flatMap (Folder.expectedPaths fs))) :
      (p.absence (fs.flatMap (Folder.expectedPaths fs))).place = p.key := by
    rw [absence_eq h ((mem_firstRows_expected h).mp hp)]
    by_cases hself : p.ancestor = p.descendant
    · simp [hself, Violation.place, FolderPath.key]
    · simp [hself, Violation.place, FolderPath.key]
  refine List.pairwise_map.mpr ((firstRows_keys _).filter _ |>.imp_of_mem ?_)
  intro p q hp hq hne he
  have hsame := congrArg Violation.place he
  rw [hplace p (List.mem_of_mem_filter hp), hplace q (List.mem_of_mem_filter hq)] at hsame
  exact hne hsame

/-- Findings of different kinds are different. -/
theorem verifyClosure_nodup : (verifyClosure fs rows).Nodup := by
  rw [verifyClosure]
  refine List.nodup_append.mpr
    ⟨List.nodup_append.mpr ⟨folder_findings_nodup h, row_findings_nodup h, ?_⟩,
      gap_findings_nodup h _, ?_⟩
  · intro v hv w hw he
    have hv := ((mem_folder_findings h rows).mp hv).1
    have hw := ((mem_row_findings h).mp hw).1
    rw [he, hw] at hv
    cases hv
  · intro v hv w hw he
    have hw := ((mem_gap_findings h).mp hw).1
    obtain hv | hv := List.mem_append.mp hv
    · have hv := ((mem_folder_findings h rows).mp hv).1
      rw [he, hw] at hv
      cases hv
    · have hv := ((mem_row_findings h).mp hv).1
      rw [he, hw] at hv
      cases hv

theorem verifyClosure_eq_nil_iff_forall :
    verifyClosure fs rows = [] ↔ ∀ v : Violation, ¬ v.Occurs fs rows := by
  rw [List.eq_nil_iff_forall_not_mem]
  exact forall_congr' fun v => not_congr (mem_verifyClosure h)

theorem depth_of_no_violation (hno : ∀ v : Violation, ¬ v.Occurs fs rows) (hf : f ∈ fs) :
    (forestOf fs).Depth f.id f.depth := by
  have hw := Folder.walk_follows h hf
  have hleads := hw.stop_iff.mp rfl
  cases hs : (f.walk fs).stop with
  | unknown p =>
    rw [hs] at hleads
    exact absurd hleads (hno (.unknownParent f.id p))
  | cycle =>
    rw [hs] at hleads
    exact absurd hleads (hno (.cycle f.id))
  | root =>
    rw [hs] at hleads
    obtain ⟨n, hn⟩ := hleads
    by_cases hdepth : n = f.depth
    · exact hdepth ▸ hn
    · exact absurd ⟨⟨f, hf, rfl, rfl⟩, hn, hdepth⟩ (hno (.depthMismatch f.id f.depth n))

omit h in
theorem exact_of_no_violation (hF : (forestOf fs).Grounded)
    (hno : ∀ v : Violation, ¬ v.Occurs fs rows) : Exact (forestOf fs) rows := by
  have hkeys : (rows.map FolderPath.key).Nodup := by
    rw [List.nodup_iff_count_le_one]
    intro k
    have hdup := hno (.duplicatePath k.1 k.2)
    exact Nat.le_of_not_lt hdup
  have honly (p : FolderPath) (hp : p ∈ rows) :
      (forestOf fs).Climbs p.descendant p.length p.ancestor := by
    have hk : p.key ∈ rows.map FolderPath.key := List.mem_map_of_mem hp
    obtain ⟨m, hm⟩ := exists_first hk
    have hfirst := List.inj_on_of_nodup_map hkeys (mem_of_mem_firstRows hm) hp rfl
    rw [hfirst] at hm
    have hmet : ∃ n, (forestOf fs).Meets p.descendant n p.ancestor := by
      by_contra hstray
      exact hno (.strayPath p.ancestor p.descendant) ⟨hk, not_exists.mp hstray⟩
    obtain ⟨n, hn⟩ := hmet
    by_cases hlen : p.length = n
    · exact hlen ▸ hn.1
    · have hwrong : (Violation.wrongLength p.ancestor p.descendant n p.length).Occurs fs rows :=
        ⟨hn, firstLength?_eq_some.mpr hm, hlen⟩
      exact absurd hwrong (hno _)
  refine ⟨hkeys.of_map _, fun p => ⟨honly p, fun hc => ?_⟩⟩
  have hk : p.key ∈ rows.map FolderPath.key := by
    by_contra hgap
    by_cases hself : p.ancestor = p.descendant
    · have hnode := forestOf_isSome.mp hc.node
      have hkey : p.key = (p.descendant, p.descendant) := by rw [FolderPath.key, hself]
      exact hno (.missingSelf p.descendant) ⟨hnode, hkey ▸ hgap⟩
    · obtain ⟨n, hn⟩ := hc.exists_meets
      exact hno (.missingPath p.ancestor p.descendant n) ⟨hself, hn, hgap⟩
  obtain ⟨r, hr, hrk⟩ := List.mem_map.mp hk
  obtain ⟨a, d, n⟩ := p
  obtain ⟨b, e, m⟩ := r
  obtain ⟨rfl, rfl⟩ := Prod.mk.inj hrk
  obtain rfl := hF.length_unique (honly _ hr) hc
  exact hr

omit h in
theorem no_violation (hdepth : ∀ f ∈ fs, (forestOf fs).Depth f.id f.depth)
    (hexact : Exact (forestOf fs) rows) (v : Violation) : ¬ v.Occurs fs rows := by
  have hF := grounded_of_depth hdepth
  intro hv
  cases v with
  | unknownParent x p =>
    obtain ⟨n, a, _, hp, hnone⟩ := hv
    have hnode := hF.parent hp
    simp [hnone] at hnode
  | cycle x =>
    obtain ⟨m, n, a, hlt, hm, hn⟩ := hv
    have hlen := hF.length_unique hm hn
    omega
  | depthMismatch x recorded actual =>
    obtain ⟨⟨f, hf, rfl, rfl⟩, hd, hne⟩ := hv
    exact hne (hd.unique (hdepth f hf))
  | duplicatePath a d =>
    have hone := List.nodup_iff_count_le_one.mp (hexact.keys_nodup hF) (a, d)
    exact absurd hv (Nat.not_lt_of_le hone)
  | strayPath a d =>
    obtain ⟨hk, hno⟩ := hv
    obtain ⟨r, hr, hrk⟩ := List.mem_map.mp hk
    obtain ⟨rfl, rfl⟩ := Prod.mk.inj hrk
    obtain ⟨n, hn⟩ := ((hexact.mem_iff r).mp hr).exists_meets
    exact hno n hn
  | wrongLength a d expected actual =>
    obtain ⟨hn, hlen, hne⟩ := hv
    have hrow := mem_of_mem_firstRows (firstLength?_eq_some.mp hlen)
    exact hne (hF.length_unique (hexact.mem_mk.mp hrow) hn.1)
  | missingSelf d =>
    obtain ⟨hd, hgap⟩ := hv
    have hrow := hexact.mem_mk.mpr (.here (forestOf_isSome.mpr hd))
    exact hgap (List.mem_map.mpr ⟨_, hrow, rfl⟩)
  | missingPath a d n =>
    obtain ⟨_, hn, hgap⟩ := hv
    exact hgap (List.mem_map.mpr ⟨_, hexact.mem_mk.mpr hn.1, rfl⟩)

/-- Nothing is found exactly where every depth is the distance from a root and the rows are the ways
up, each once. -/
theorem verifyClosure_eq_nil_iff : verifyClosure fs rows = [] ↔
    (∀ f ∈ fs, (forestOf fs).Depth f.id f.depth) ∧ Exact (forestOf fs) rows := by
  rw [verifyClosure_eq_nil_iff_forall h]
  constructor
  · intro hno
    have hdepth (f : Folder) (hf : f ∈ fs) := depth_of_no_violation h hno hf
    exact ⟨hdepth, exact_of_no_violation (grounded_of_depth hdepth) hno⟩
  · intro hgood
    exact no_violation hgood.1 hgood.2

end

theorem Hierarchical.verifyClosure_eq_nil {fs : List Folder} {rows : List FolderPath}
    (h : Hierarchical fs rows) : verifyClosure fs rows = [] :=
  (verifyClosure_eq_nil_iff h.ids_nodup).mpr ⟨h.depth, h.exact⟩

/-- The comparison tells what there is to tell, each disagreement once and nothing else; it is
silent exactly where folders and rows agree. -/
theorem verification_exact {fs : List Folder} (h : (fs.map (·.id)).Nodup)
    (rows : List FolderPath) : (verifyClosure fs rows).Nodup ∧
      (∀ v, v ∈ verifyClosure fs rows ↔ v.Occurs fs rows) ∧
      (verifyClosure fs rows = [] ↔
        (∀ f ∈ fs, (forestOf fs).Depth f.id f.depth) ∧ Exact (forestOf fs) rows) :=
  ⟨verifyClosure_nodup h, fun _ => mem_verifyClosure h, verifyClosure_eq_nil_iff h⟩

/-- Two folders under each other and one under them, one under a folder that is gone, and a child of
a root at a wrong depth. -/
def tangle : List Folder :=
  let folder (id : Nat) (parent : Option Nat) (depth : Nat) : Folder :=
    ⟨.ofNat id, "", parent.map Uuid.ofNat, .ofNat 50, depth, 0, 0⟩
  [folder 1 (some 2) 0, folder 2 (some 1) 0, folder 3 (some 1) 0, folder 4 (some 9) 0,
    folder 5 none 0, folder 6 (some 5) 4]

/-- A key twice with two wrong lengths, a row from a child down to its root, and two gaps. -/
def tangledRows : List FolderPath :=
  [⟨.ofNat 5, .ofNat 6, 3⟩, .self (.ofNat 1), .self (.ofNat 2), .self (.ofNat 3),
    ⟨.ofNat 1, .ofNat 2, 1⟩, ⟨.ofNat 2, .ofNat 1, 1⟩, ⟨.ofNat 2, .ofNat 3, 2⟩,
    .self (.ofNat 5), .self (.ofNat 6), ⟨.ofNat 6, .ofNat 5, 1⟩, ⟨.ofNat 5, .ofNat 6, 2⟩]

theorem verification_exact_tangle : (tangle.map (·.id)).Nodup ∧
    verifyClosure tangle tangledRows =
      [.cycle (.ofNat 1), .cycle (.ofNat 2), .cycle (.ofNat 3),
        .unknownParent (.ofNat 4) (.ofNat 9), .depthMismatch (.ofNat 6) 4 1,
        .duplicatePath (.ofNat 5) (.ofNat 6), .wrongLength (.ofNat 5) (.ofNat 6) 1 3,
        .strayPath (.ofNat 6) (.ofNat 5), .missingPath (.ofNat 1) (.ofNat 3) 1,
        .missingSelf (.ofNat 4)] ∧
    (Violation.missingPath (.ofNat 1) (.ofNat 3) 1).Occurs tangle tangledRows ∧
    ¬ (Violation.missingPath (.ofNat 2) (.ofNat 3) 2).Occurs tangle tangledRows := by
  have hids : (tangle.map (·.id)).Nodup := by decide
  obtain ⟨_, hoccurs, _⟩ := verification_exact hids tangledRows
  have hmissing : (Violation.missingPath (.ofNat 1) (.ofNat 3) 1).Occurs tangle tangledRows :=
    (hoccurs _).mp (by decide)
  have hpresent : ¬ (Violation.missingPath (.ofNat 2) (.ofNat 3) 2).Occurs tangle tangledRows :=
    mt (hoccurs _).mpr (by decide)
  exact ⟨hids, by decide, hmissing, hpresent⟩

end DriveAccess
