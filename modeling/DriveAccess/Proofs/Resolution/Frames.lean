import DriveAccess.Proofs.Access.FolderDeletion
import DriveAccess.Proofs.Access.FolderCreation
import DriveAccess.Proofs.Access.Mediation
/-!
Changes that leave the roles on what exists alone: new files and folders, deletions, and ownership
that goes to somebody else.
-/
namespace DriveAccess.Tables

variable {t t' : Tables} {stamp : Stamp} {user owner file folder id : Uuid} {files : List Uuid}
  {f : Folder} {r d a : Resource} {o : Object} {role : Role}

theorem Exists.ne_nil (h : t.Exists r) : subjectsIn t.tuples .owner r.object ≠ [] := by
  obtain ⟨user, howns⟩ := h
  exact List.ne_nil_of_mem (mem_subjectsIn.mpr howns)

theorem Coherent.exists_folder (h : t.Coherent) (hx : t.Lives id) : t.Exists (.folder id) := by
  obtain ⟨f, hf⟩ := Option.isSome_iff_exists.mp hx
  refine ⟨f.owner, mem_subjectsIn.mp ?_⟩
  rw [Resource.object_folder, (h.folder id).owner, hf]
  simp

/-- No chain comes across what nobody owned, if it starts at something that exists. -/
theorem Coherent.within_fresh (h : t.Coherent) (ho : subjectsIn t.tuples .owner o = [])
    (htuples : ∀ u ∈ t'.tuples, u.object ≠ o → u ∈ t.tuples) (hd : t.Exists d)
    (hw : t'.Within d a) : t.Within d a ∧ a.object ≠ o := by
  -- each step leaves something that existed, so that its tuple is an old one
  induction hw with
  | refl =>
    refine ⟨.refl, ?_⟩
    intro he
    exact hd.ne_nil (he ▸ ho)
  | tail _ hstep ih =>
    obtain ⟨hold, hne⟩ := ih
    have hin : t.LiesIn _ _ := htuples _ hstep hne
    obtain ⟨x, rfl, hx, _⟩ := h.liesIn_folder hin
    refine ⟨hold.tail hin, ?_⟩
    intro he
    exact (h.exists_folder hx).ne_nil (he ▸ ho)

/-- What comes into being gives nobody a role on what was there before. -/
theorem Coherent.height_effectiveRole_fresh (h : t.Coherent)
    (ho : subjectsIn t.tuples .owner o = [])
    (htuples : ∀ u ∈ t'.tuples, u.object ≠ o → u ∈ t.tuples) (hgrants : t'.grants = t.grants)
    (hmembers : t'.memberships = t.memberships) (hd : t.Exists d) :
    Role.height (t'.effectiveRole user d) ≤ Role.height (t.effectiveRole user d) := by
  apply height_effectiveRole_mono
  · intro a ha
    exact (h.within_fresh ho htuples hd ha).1
  · intro a role ha hheld
    have hne := (h.within_fresh ho htuples hd ha).2
    obtain ⟨rfl, howns⟩ | ⟨g, hg, hr, hrole, hreach⟩ := hheld
    · exact .inl ⟨rfl, htuples _ howns hne⟩
    · rw [hgrants] at hg
      rw [Reaches, hmembers] at hreach
      exact .inr ⟨g, hg, hr, hrole, hreach⟩

theorem Coherent.height_effectiveRole_addFolder (h : t.Coherent) (hf : t.Welcomes f)
    (hd : t.Exists d) : Role.height ((t.addFolder stamp f).effectiveRole user d) ≤
      Role.height (t.effectiveRole user d) := by
  refine h.height_effectiveRole_fresh (h.no_tuples hf.new).1 ?_ rfl rfl hd
  intro u hu hne
  rw [tuples_addFolder] at hu
  rcases List.mem_append.mp hu with hu | hu
  · exact hu
  · exact absurd (Folder.object_of_mem_tuples hu) hne

theorem Coherent.height_effectiveRole_addFile (h : t.Coherent)
    (howner : subjectsIn t.tuples .owner (.file file) = []) (hd : t.Exists d) :
    Role.height ((t.addFile stamp file owner folder).effectiveRole user d) ≤
      Role.height (t.effectiveRole user d) := by
  refine h.height_effectiveRole_fresh howner ?_ rfl rfl hd
  intro u hu hne
  rw [tuples_addFile] at hu
  rcases List.mem_append.mp hu with hu | hu
  · exact hu
  · obtain rfl | rfl : u = _ ∨ u = _ := by simpa [fileTuples] using hu
    · exact absurd rfl hne
    · exact absurd rfl hne

theorem height_effectiveRole_dropFiles : Role.height ((t.dropFiles files).effectiveRole user d) ≤
    Role.height (t.effectiveRole user d) := by
  refine height_effectiveRole_subset (fun u hu => ?_) (fun _ hg => List.mem_of_mem_filter hg) rfl
  rw [tuples_dropFiles] at hu
  exact List.mem_of_mem_filter hu

theorem height_effectiveRole_deleteTree : Role.height ((t.deleteTree id).effectiveRole user d) ≤
    Role.height (t.effectiveRole user d) := by
  refine height_effectiveRole_subset (fun u hu => ?_)
    (fun _ hg => List.mem_of_mem_filter (List.mem_of_mem_filter hg)) rfl
  rw [deleteTree, tuples_dropSubtree, tuples_dropFiles] at hu
  exact List.mem_of_mem_filter (List.mem_of_mem_filter hu)

/-- Nothing is granted on what nobody owns. -/
theorem Coherent.not_granted (h : t.Coherent) (ho : subjectsIn t.tuples .owner r.object = [])
    {g : Grant} (hg : g ∈ t.grants) : g.resource ≠ r := by
  intro hr
  exact h.grant_owned g hg (hr ▸ ho)

theorem Coherent.grantsFor_eq_nil (h : t.Coherent)
    (ho : subjectsIn t.tuples .owner r.object = []) : t.grantsFor r = [] := by
  have hnone : t.grants.filter (·.resource == r) = [] := by
    rw [List.filter_eq_nil_iff]
    intro g hg
    simpa using h.not_granted ho hg
  rw [grantsFor, hnone]
  rfl

/-- The roles on a new file are the owner's, and what the folder passes down. -/
theorem Coherent.effectiveRole_addFile (h : t.Coherent) (hlives : t.Lives folder)
    (howner : subjectsIn t.tuples .owner (.file file) = [])
    (hparent : subjectsIn t.tuples .parent (.file file) = []) :
    (t.addFile stamp file owner folder).effectiveRole user (.folder folder) =
        t.effectiveRole user (.folder folder) ∧
      (t.addFile stamp file owner folder).effectiveRole user (.file file) =
        if user = owner then some .owner else t.effectiveRole user (.folder folder) := by
  have hlater : (t.addFile stamp file owner folder).Coherent := h.addFile hlives howner hparent
  have hin : (t.addFile stamp file owner folder).LiesIn (.file file) (.folder folder) := by
    rw [LiesIn, tuples_addFile]
    apply List.mem_append_right
    simp [fileTuples, Tuple.owner, Tuple.parent, Resource.file, Resource.object]
  have hfolder : (t.addFile stamp file owner folder).effectiveRole user (.folder folder) =
      t.effectiveRole user (.folder folder) := by
    apply Role.height_inj
    apply Nat.le_antisymm (h.height_effectiveRole_addFile howner (h.exists_folder hlives))
    refine height_effectiveRole_subset (fun u hu => ?_) (fun _ hg => hg) rfl
    rw [tuples_addFile]
    exact List.mem_append_left _ hu
  refine ⟨hfolder, ?_⟩
  have howners : (t.addFile stamp file owner folder).Owns user (.file file) ↔ user = owner := by
    rw [Owns, Tuple.owner, ← mem_subjectsIn]
    simp [fileTuples, Tuple.owner, Tuple.parent, Resource.file, Resource.object, howner,
      Subject.user]
  split_ifs with huser
  · exact effectiveRole_of_owns .refl (howners.mpr huser)
  · have hself : (t.addFile stamp file owner folder).roleAmong user (· = .file file) = none := by
      apply roleAmong_none
      intro a role ha hheld
      subst ha
      obtain ⟨_, howns⟩ | ⟨g, hg, hr, _⟩ := hheld
      · exact huser (howners.mp howns)
      · exact h.not_granted (r := .file file) howner hg hr
    rw [hlater.effectiveRole_parent hin, hself, hfolder]
    rfl

/-- Who hands a resource over gains nothing by it. -/
theorem height_effectiveRole_handOver (hne : user ≠ owner) :
    Role.height ((t.handOver stamp r owner).effectiveRole user d) ≤
      Role.height (t.effectiveRole user d) := by
  have hold (u : Tuple) (hu : u ∈ (t.handOver stamp r owner).tuples)
      (hnew : u ≠ .owner owner r.object) : u ∈ t.tuples := by
    rw [tuples_handOver] at hu
    rcases List.mem_append.mp hu with hu | hu
    · exact List.mem_of_mem_filter hu
    · exact absurd (List.mem_singleton.mp hu) hnew
  -- the one new tuple is no parent tuple, and makes somebody else an owner
  apply height_effectiveRole_mono
  · intro a ha
    refine Relation.ReflTransGen.mono ?_ _ _ ha
    intro b p hin
    exact hold _ hin (by simp [Tuple.parent, Tuple.owner])
  · intro a role _ hheld
    obtain ⟨rfl, howns⟩ | hgrant := hheld
    · refine .inl ⟨rfl, hold _ howns ?_⟩
      simp [Tuple.owner, Subject.user, hne]
    · exact .inr hgrant

end DriveAccess.Tables
