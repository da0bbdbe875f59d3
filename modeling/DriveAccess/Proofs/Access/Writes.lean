import DriveAccess.Access.Command
import DriveAccess.Proofs.Access.Running
import DriveAccess.Proofs.Storage.Coherence
import DriveAccess.Proofs.Storage.Rows
/-!
What the requests that write make of the tables, where they succeed.
-/
namespace DriveAccess.Program

variable {stamp : Stamp} {t : Tables} {id : Uuid} {f : Folder}

theorem yields_createRelationship {u : Tuple} (hnew : u ∉ t.tuples)
    (hone : u.relation.isSingular → subjectsIn t.tuples u.relation u.object = []) :
    Yields stamp (createRelationship u) t () (t.addTuple stamp u) := by
  have hc : t.tuples.contains u = false := by simpa using hnew
  have hs : (u.relation.isSingular &&
      t.tuples.any fun v => v.relation == u.relation && v.object == u.object) = false := by
    rw [Bool.and_eq_false_iff, or_iff_not_imp_left, Bool.not_eq_false]
    intro hsing
    exact any_eq_false_iff.mpr (hone hsing)
  have hx : (Session.fresh t).perform stamp (.createRelationship u) =
      (.ok (t.newRow stamp u), (Session.fresh t).write (t.addTuple stamp u)) := by
    simp only [Session.perform, hc, hs]
    rfl
  refine Yields.bind (yields_request (a := t.newRow stamp u) ?_ ?_) (yields_pure ())
  · rw [hx]
  · rw [hx]
    rfl

/-- An object that has no such tuple yet takes one of any relation. -/
theorem yields_createFirst {u : Tuple} (h : subjectsIn t.tuples u.relation u.object = []) :
    Yields stamp (createRelationship u) t () (t.addTuple stamp u) :=
  yields_createRelationship (not_mem_of_subjectsIn h) fun _ => h

theorem yields_deleteRelationship (u : Tuple) :
    ∃ b, Yields stamp (request (.deleteRelationship u)) t b (t.removeTuples (.exact u)) :=
  ⟨_, yields_request rfl (Session.removeTuples_tables _)⟩

theorem yields_deleteByObject (o : Object) :
    ∃ n, Yields stamp (request (.deleteByObject o)) t n (t.removeTuples (.ofObject o)) :=
  ⟨_, yields_request rfl (Session.removeTuples_tables _)⟩

theorem yields_deleteBySubject (s : Subject) :
    ∃ n, Yields stamp (request (.deleteBySubject s)) t n (t.removeTuples (.ofSubject s)) :=
  ⟨_, yields_request rfl (Session.removeTuples_tables _)⟩

theorem yields_deleteGrantsFor (r : Resource) : ∃ n, Yields stamp (request (.deleteGrantsFor r)) t n
    { t with grants := t.grants.filter (!·.resource == r) } :=
  ⟨_, yields_request rfl (Session.removeGrants_tables _)⟩

theorem yields_deleteSubtreePaths (id : Uuid) :
    ∃ n, Yields stamp (request (.deleteSubtreePaths id)) t n (t.removeSubtreePaths id) := by
  refine ⟨_, yields_request rfl (Session.remove_tables (·.pathRecords) ?_)⟩
  intro h
  rw [Tables.removeSubtreePaths, Tables.keepPaths, h]

theorem yields_deleteFolders (ids : List Uuid) :
    ∃ n, Yields stamp (request (.deleteFolders ids)) t n
      { t with folders := t.folders.filter (!ids.contains ·.id) } := by
  refine ⟨_, yields_request rfl (Session.remove_tables (·.folders) ?_)⟩
  intro h
  simp only [h]

theorem yields_insertPaths {batch : List FolderPath}
    (h : ((t.paths ++ batch).map FolderPath.key).Nodup) :
    Yields stamp (request (.insertPaths batch)) t () (t.addPaths stamp.time batch) := by
  have hc := Tables.clashingPath?_eq_none h
  refine yields_request ?_ ?_
  · simp only [Session.perform, Session.insertPaths, hc]
  · simp only [Session.perform, Session.insertPaths, hc]
    cases batch with
    | nil => simp [Session.writeIf, Tables.addPaths]
    | cons p rest => rfl

theorem yields_requireFolder (h : t.folder? id = some f) :
    Yields stamp (requireFolder id) t f t := by
  refine Yields.bind (yields_request (a := some f) ?_ rfl) (yields_pure f)
  simp only [Session.perform, h]

theorem yields_setFolderParent (h : t.Lives id) (parent : Option Uuid) :
    Yields stamp (request (.setFolderParent id parent)) t ()
      (t.updateFolder id ({ · with parent, updatedAt := stamp.time })) := by
  obtain ⟨f, hf⟩ := Option.isSome_iff_exists.mp h
  refine yields_request ?_ ?_ <;> simp [Session.perform, Session.changeFolder, hf]

theorem yields_setFolderOwner (h : t.Lives id) (owner : Uuid) :
    Yields stamp (request (.setFolderOwner id owner)) t ()
      (t.updateFolder id ({ · with owner, updatedAt := stamp.time })) := by
  obtain ⟨f, hf⟩ := Option.isSome_iff_exists.mp h
  refine yields_request ?_ ?_ <;> simp [Session.perform, Session.changeFolder, hf]

theorem yields_setFolderDepths {depths : List (Uuid × Nat)} (h : ∀ d ∈ depths, t.Lives d.1) :
    Yields stamp (request (.setFolderDepths depths)) t () (t.setDepths stamp.time depths) := by
  have hf : depths.find? (fun d => (t.folder? d.1).isNone) = none := by
    rw [List.find?_eq_none]
    intro d hd
    have hd := h d hd
    simpa [Tables.Lives, Option.isSome_iff_ne_none] using hd
  refine yields_request ?_ ?_
  · simp only [Session.perform, hf]
  · simp only [Session.perform, hf]
    cases depths with
    | nil => rfl
    | cons d rest => rfl

theorem yields_setParent (o : Object) (parent : Option Subject) :
    Yields stamp (request (.setParent o parent)) t ()
      ((t.removeTuples ((TupleFilter.ofObject o).withRelation .parent)).addTuples stamp
        (parent.map (Tuple.parent · o)).toList) := by
  cases parent with
  | none =>
    apply yields_request rfl
    simp [Session.perform, Tables.addTuples_nil]
  | some p =>
    apply yields_request rfl
    simp [Session.perform, Tables.addTuples_cons, Tables.addTuples_nil]

end DriveAccess.Program
