import DriveAccess.Proofs.Storage.Rows
import DriveAccess.Proofs.Storage.Sessions
/-!
Requests on a session in memory happen whole or not at all: which batches of rows and of depths are
refused, and that a session keeps no trace of what was refused.
-/
namespace DriveAccess

namespace Tables

theorem folder?_isNone {t : Tables} {id : Uuid} :
    (t.folder? id).isNone ↔ ∀ f ∈ t.folders, f.id ≠ id := by
  simp [folder?]

theorem not_admitsRows {t : Tables} {batch : List FolderPath} : ¬ t.AdmitsRows batch ↔
    ¬ (batch.map FolderPath.key).Nodup ∨ ∃ p ∈ batch, p.key ∈ t.paths.map FolderPath.key := by
  constructor
  · intro hrefused
    by_contra hnone
    push Not at hnone
    exact hrefused ⟨hnone.1, hnone.2⟩
  · rintro (hapart | ⟨p, hp, hstored⟩) hadmits
    · exact hapart hadmits.apart
    · exact hadmits.free p hp hstored

/-- There is a folder for each of the depths. -/
def HasFolders (t : Tables) (depths : List (Uuid × Nat)) : Prop :=
  ∀ d ∈ depths, ∃ f ∈ t.folders, f.id = d.1

theorem not_hasFolders {t : Tables} {depths : List (Uuid × Nat)} :
    ¬ t.HasFolders depths ↔ ∃ d ∈ depths, ∀ f ∈ t.folders, f.id ≠ d.1 := by
  simp [HasFolders]

end Tables

namespace Session

variable {s : Session} {stamp : Stamp}

section Outcomes

variable {α : Type} {x : Except StorageError α × Session} {P : Prop} {E : StorageError → Prop}
  {a : α} {u : Session} (hok : P → x = (.ok a, u)) (hfail : ¬ P → ∃ e, E e ∧ x = (.error e, s))

include hok hfail

/-- Where a condition decides between success and failure, the outcome tells of the condition. -/
theorem fails_iff_not : (∃ e, x.1 = .error e) ↔ ¬ P := by
  constructor
  · rintro ⟨e, he⟩ hP
    rw [hok hP] at he
    cases he
  · intro hP
    obtain ⟨e, _, he⟩ := hfail hP
    exact ⟨e, congrArg Prod.fst he⟩

theorem error_of_fails {e : StorageError} (h : x.1 = .error e) : E e := by
  obtain ⟨e', he', hx⟩ := hfail ((fails_iff_not hok hfail).mp ⟨e, h⟩)
  rw [hx] at h
  cases h
  exact he'

theorem after_ok (h : x.1 = .ok a) : x.2 = u := by
  by_cases hP : P
  · rw [hok hP]
  · obtain ⟨e, _, he⟩ := hfail hP
    rw [he] at h
    cases h

end Outcomes

section Rows

variable {now : Instant} {batch : List FolderPath}

theorem insertPaths_admitted (h : s.tables.AdmitsRows batch) : s.insertPaths now batch =
    (.ok (), s.writeIf (!batch.isEmpty) (s.tables.addPaths now batch)) := by
  rw [insertPaths, Tables.clashingPath?_eq_none_iff.mpr h]

/-- The error names the first row that cannot come in after those before it. -/
theorem insertPaths_refused (h : ¬ s.tables.AdmitsRows batch) : ∃ e,
    (∃ front p back, batch = front ++ p :: back ∧ s.tables.AdmitsRows front ∧
      ¬ s.tables.AdmitsRows (front ++ [p]) ∧ e = .duplicate (.path p.ancestor p.descendant)) ∧
    s.insertPaths now batch = (.error e, s) := by
  cases hclash : s.tables.clashingPath? batch with
  | none => exact absurd (Tables.clashingPath?_eq_none_iff.mp hclash) h
  | some p =>
    obtain ⟨front, back, hbatch, hfront, hp⟩ := Tables.clashingPath?_eq_some hclash
    exact ⟨_, ⟨front, p, back, hbatch, hfront, hp, rfl⟩, by rw [insertPaths, hclash]⟩

end Rows

section Depths

variable {depths : List (Uuid × Nat)}

theorem setFolderDepths_found (h : s.tables.HasFolders depths) :
    s.perform stamp (.setFolderDepths depths) = (.ok (), s.writeIf (!depths.isEmpty)
      { s.tables with folders := s.tables.folders.map (Tables.redepth stamp.time depths) }) := by
  rw [perform]
  split
  · rename_i id _ hmissing
    have hgone := List.find?_some hmissing
    obtain ⟨f, hf, hid⟩ := h _ (List.mem_of_find?_eq_some hmissing)
    exact absurd hid (Tables.folder?_isNone.mp hgone f hf)
  · rw [Tables.setDepths_eq]

/-- The error names the first folder that is not there. -/
theorem setFolderDepths_missing (h : ¬ s.tables.HasFolders depths) : ∃ e,
    (∃ front d back, depths = front ++ d :: back ∧ s.tables.HasFolders front ∧
      (∀ f ∈ s.tables.folders, f.id ≠ d.1) ∧ e = .notFound (.folder d.1)) ∧
    s.perform stamp (.setFolderDepths depths) = (.error e, s) := by
  rw [perform]
  split
  · rename_i id depth hmissing
    obtain ⟨hgone, front, back, hdepths, hfront⟩ := List.find?_eq_some_iff_append.mp hmissing
    have hthere : s.tables.HasFolders front := by
      by_contra hlacks
      obtain ⟨d, hd, hnone⟩ := Tables.not_hasFolders.mp hlacks
      have hsome := hfront d hd
      simp [Tables.folder?_isNone.mpr hnone] at hsome
    exact ⟨_, ⟨front, (id, depth), back, hdepths, hthere, Tables.folder?_isNone.mp hgone, rfl⟩, rfl⟩
  · rename_i hnone
    obtain ⟨d, hd, hgone⟩ := Tables.not_hasFolders.mp h
    exact absurd (Tables.folder?_isNone.mpr hgone) (List.find?_eq_none.mp hnone d hd)

end Depths

section Attempts

/-- Makes requests with given stamps, one after the other, whatever becomes of each. -/
def performAll (s : Session) : List (Stamp × Request) → Session
  | [] => s
  | (stamp, r) :: rest => (s.perform stamp r).2.performAll rest

/-- Those of the requests that succeed when all are made. -/
def succeeding (s : Session) : List (Stamp × Request) → List (Stamp × Request)
  | [] => []
  | (stamp, r) :: rest =>
    match s.perform stamp r with
    | (.ok _, s) => (stamp, r) :: s.succeeding rest
    | (.error _, s) => s.succeeding rest

/-- A session is left as if what failed in it had never been asked. -/
theorem performAll_succeeding (s : Session) (attempts : List (Stamp × Request)) :
    s.performAll (s.succeeding attempts) = s.performAll attempts := by
  induction attempts generalizing s with
  | nil => rfl
  | cons attempt rest ih =>
    obtain ⟨stamp, r⟩ := attempt
    obtain ⟨e, he⟩ | ⟨a, b, t, ha⟩ := perform_cases stamp r s
    · simp only [succeeding, performAll, he]
      exact ih s
    · simp only [succeeding, performAll, ha]
      exact ih _

end Attempts

/-- A session in which a request either does all it is to do or nothing. -/
structure AllOrNothing (s : Session) : Prop where
  failed {stamp : Stamp} {r : Request} {e : StorageError} :
    (s.perform stamp r).1 = .error e → (s.perform stamp r).2 = s
  /-- Failures in between make no difference to what a sequence of requests comes to. -/
  failures_vanish (attempts : List (Stamp × Request)) :
    s.performAll (s.succeeding attempts) = s.performAll attempts
  insertPaths_fails {stamp : Stamp} {batch : List FolderPath} :
    (∃ e, (s.perform stamp (.insertPaths batch)).1 = .error e) ↔
      ¬ (batch.map FolderPath.key).Nodup ∨
        ∃ p ∈ batch, p.key ∈ s.tables.paths.map FolderPath.key
  /-- The first row in the way is named. -/
  insertPaths_error {stamp : Stamp} {batch : List FolderPath} {e : StorageError} :
    (s.perform stamp (.insertPaths batch)).1 = .error e → ∃ front p back,
      batch = front ++ p :: back ∧ s.tables.AdmitsRows front ∧
      ¬ s.tables.AdmitsRows (front ++ [p]) ∧ e = .duplicate (.path p.ancestor p.descendant)
  insertPaths_ok {stamp : Stamp} {batch : List FolderPath} :
    (s.perform stamp (.insertPaths batch)).1 = .ok () →
      (s.perform stamp (.insertPaths batch)).2 =
        s.writeIf (!batch.isEmpty) { s.tables with
          pathRecords := s.tables.pathRecords ++ batch.map (⟨·, stamp.time⟩) }
  setFolderDepths_fails {stamp : Stamp} {depths : List (Uuid × Nat)} :
    (∃ e, (s.perform stamp (.setFolderDepths depths)).1 = .error e) ↔
      ∃ d ∈ depths, ∀ f ∈ s.tables.folders, f.id ≠ d.1
  /-- The first folder that is not there is named. -/
  setFolderDepths_error {stamp : Stamp} {depths : List (Uuid × Nat)} {e : StorageError} :
    (s.perform stamp (.setFolderDepths depths)).1 = .error e → ∃ front d back,
      depths = front ++ d :: back ∧ s.tables.HasFolders front ∧
      (∀ f ∈ s.tables.folders, f.id ≠ d.1) ∧ e = .notFound (.folder d.1)
  /-- Of several depths for one folder the last one counts. -/
  setFolderDepths_ok {stamp : Stamp} {depths : List (Uuid × Nat)} :
    (s.perform stamp (.setFolderDepths depths)).1 = .ok () →
      (s.perform stamp (.setFolderDepths depths)).2 = s.writeIf (!depths.isEmpty)
        { s.tables with
          folders := s.tables.folders.map fun f => (depths.reverse.lookup f.id).elim f
            fun depth => { f with depth, updatedAt := stamp.time } }

/-- No request leaves a session half changed, whatever its tables are. -/
theorem all_or_nothing (s : Session) : s.AllOrNothing where
  failed := perform_failed
  failures_vanish := s.performAll_succeeding
  insertPaths_fails :=
    (fails_iff_not insertPaths_admitted insertPaths_refused).trans Tables.not_admitsRows
  insertPaths_error := error_of_fails insertPaths_admitted insertPaths_refused
  insertPaths_ok := after_ok insertPaths_admitted insertPaths_refused
  setFolderDepths_fails :=
    (fails_iff_not setFolderDepths_found setFolderDepths_missing).trans Tables.not_hasFolders
  setFolderDepths_error := error_of_fails setFolderDepths_found setFolderDepths_missing
  setFolderDepths_ok {stamp depths} hok := by
    rw [after_ok setFolderDepths_found setFolderDepths_missing hok,
      funext (Tables.redepth_eq_lookup stamp.time depths)]

end Session

end DriveAccess
