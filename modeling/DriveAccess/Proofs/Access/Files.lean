import DriveAccess.Access.Files
import DriveAccess.Proofs.Access.Reads
import DriveAccess.Proofs.Access.Writes
/-!
Files that are registered in a folder, and what is attached to them taken away.
-/
namespace DriveAccess

namespace Tables

/-- What is said of a file that lies in a folder. -/
def fileTuples (file owner folder : Uuid) : List Tuple :=
  [.owner owner (.file file), .parent (.folder folder) (.file file)]

def addFile (t : Tables) (stamp : Stamp) (file owner folder : Uuid) : Tables :=
  t.addTuples stamp (fileTuples file owner folder)

/-- Takes away all tuples and grants on files. -/
def dropFiles (t : Tables) (files : List Uuid) : Tables :=
  { t.keepTuples fun u => !(files.map Object.file).contains u.object with
    grants := t.grants.filter fun g => !(files.map Resource.file).contains g.resource }

variable {t : Tables} {stamp : Stamp} {file owner folder : Uuid} {files : List Uuid} {r : Relation}
  {o : Object}

@[simp] theorem tuples_addFile :
    (t.addFile stamp file owner folder).tuples = t.tuples ++ fileTuples file owner folder :=
  tuples_addTuples _

@[simp] theorem tuples_dropFiles : (t.dropFiles files).tuples =
    t.tuples.filter fun u => !(files.map Object.file).contains u.object := by
  rw [tuples, tuples, List.filter_map]
  rfl

theorem mem_filesOf : file ∈ t.filesOf folder ↔
    ⟨.folder folder, .parent, .file file⟩ ∈ t.tuples := by
  simp only [filesOf, objectsOf, tuplesWhere_eq, TupleFilter.selects_ofSubject_withRelation,
    List.mem_map, List.mem_filter, decide_eq_true_eq, beq_iff_eq]
  constructor
  · intro hfile
    obtain ⟨o, ⟨⟨u, ⟨hu, hs, hr⟩, ho⟩, hk⟩, hid⟩ := hfile
    obtain ⟨s, r, o'⟩ := u
    obtain rfl : o' = o := ho
    obtain rfl : o' = .file file := by
      obtain ⟨k, x⟩ := o'
      obtain rfl : k = .file := hk
      obtain rfl : x = file := hid
      rfl
    obtain rfl : s = .folder folder := hs
    obtain rfl : r = .parent := hr
    exact hu
  · intro hm
    exact ⟨_, ⟨⟨_, ⟨hm, rfl, rfl⟩, rfl⟩, rfl⟩, rfl⟩

theorem subjectsIn_addFile (ho : o ≠ .file file) :
    subjectsIn (t.addFile stamp file owner folder).tuples r o = subjectsIn t.tuples r o := by
  simp [fileTuples, Tuple.owner, Tuple.parent, Ne.symm ho]

theorem Coherent.addFile (h : t.Coherent) (hlives : t.Lives folder)
    (howner : subjectsIn t.tuples .owner (.file file) = [])
    (hparent : subjectsIn t.tuples .parent (.file file) = []) :
    (t.addFile stamp file owner folder).Coherent where
  hierarchy := h.hierarchy
  folder x :=
    (h.folder x).congr (subjectsIn_addFile Object.folder_ne_file)
      (subjectsIn_addFile Object.folder_ne_file)
  file x := by
    by_cases hx : x = file
    · subst hx
      refine .inr ⟨owner, folder, hlives, ?_, ?_⟩
      · simp [fileTuples, Tuple.owner, Tuple.parent, howner]
      · simp [fileTuples, Tuple.owner, Tuple.parent, hparent]
    · have hne : Object.file x ≠ .file file := fun he => hx (Object.file_inj he)
      exact (h.file x).congr (subjectsIn_addFile hne) (subjectsIn_addFile hne)
  group_owner x := (subjectsIn_addFile Object.group_ne_file).trans (h.group_owner x)
  group_parent x := (subjectsIn_addFile Object.group_ne_file).trans (h.group_parent x)
  members := by
    rw [tuples_addFile]
    refine (members_append ?_).trans h.members
    simp [fileTuples, Tuple.owner, Tuple.parent]
  memberships_nodup := h.memberships_nodup
  grant_owned g hg := by
    rw [tuples_addFile, subjectsIn_append]
    exact List.append_ne_nil_of_left_ne_nil (h.grant_owned g hg) _
  grant_role := h.grant_role
  grants_nodup := h.grants_nodup

theorem subjectsIn_dropFiles : subjectsIn (t.dropFiles files).tuples r o =
    if o ∈ files.map Object.file then [] else subjectsIn t.tuples r o := by
  by_cases ho : o ∈ files.map Object.file
  · simp only [tuples_dropFiles, subjectsIn_filter, List.contains_iff_mem.mpr ho, ho]
    simp
  · have hc : (files.map Object.file).contains o = false := by simpa using ho
    simp only [tuples_dropFiles, subjectsIn_filter, hc, ho]
    simp

theorem subjectsIn_dropFiles_of_ne (ho : ∀ x, o ≠ .file x) :
    subjectsIn (t.dropFiles files).tuples r o = subjectsIn t.tuples r o := by
  have hout : o ∉ files.map Object.file := by
    intro hm
    obtain ⟨x, _, rfl⟩ := List.mem_map.mp hm
    exact ho x rfl
  rw [subjectsIn_dropFiles, if_neg hout]

theorem Coherent.dropFiles (h : t.Coherent) (files : List Uuid) : (t.dropFiles files).Coherent where
  hierarchy := h.hierarchy
  folder x :=
    (h.folder x).congr (subjectsIn_dropFiles_of_ne fun _ => Object.folder_ne_file)
      (subjectsIn_dropFiles_of_ne fun _ => Object.folder_ne_file)
  file x := by
    by_cases hx : Object.file x ∈ files.map Object.file
    · exact .inl ⟨by rw [subjectsIn_dropFiles, if_pos hx], by rw [subjectsIn_dropFiles, if_pos hx]⟩
    · exact (h.file x).congr (by rw [subjectsIn_dropFiles, if_neg hx])
        (by rw [subjectsIn_dropFiles, if_neg hx])
  group_owner x :=
    (subjectsIn_dropFiles_of_ne fun _ => Object.group_ne_file).trans (h.group_owner x)
  group_parent x :=
    (subjectsIn_dropFiles_of_ne fun _ => Object.group_ne_file).trans (h.group_parent x)
  members := by
    rw [tuples_dropFiles]
    refine (members_filter ?_).trans h.members
    intro u hu hm
    obtain ⟨m, _, rfl⟩ := h.member_mem hu hm
    simp [Membership.tuple, Tuple.member, Object.file, Object.group]
  memberships_nodup := h.memberships_nodup
  grant_owned g hg := by
    obtain ⟨hg, hkeep⟩ := List.mem_filter.mp hg
    have hout : g.resource.object ∉ files.map Object.file := by
      rw [Resource.object_mem_files]
      simpa using hkeep
    rw [subjectsIn_dropFiles, if_neg hout]
    exact h.grant_owned g hg
  grant_role g hg := h.grant_role g (List.mem_of_mem_filter hg)
  grants_nodup := h.grants_nodup.sublist (List.filter_sublist.map _)

end Tables

namespace Program

variable {stamp : Stamp} {s : Session} {c : Context} {t : Tables} {actor owner file folder : Uuid}

theorem yields_detachFiles (files : List Uuid) :
    Yields stamp (detachFiles files) t () (t.dropFiles files) := by
  induction files generalizing t with
  | nil =>
    have ht : t.dropFiles [] = t := by simp [Tables.dropFiles, Tables.keepTuples]
    rw [ht]
    exact yields_pure ()
  | cons x rest ih =>
    apply Yields.next (yields_deleteByObject _)
    intro _
    apply Yields.next (yields_deleteGrantsFor _)
    intro _
    have ht : t.dropFiles (x :: rest) = Tables.dropFiles
        { t.removeTuples (.ofObject (.file x)) with
          grants := t.grants.filter (!·.resource == .file x) } rest := by
      simp only [Tables.dropFiles, Tables.removeTuples, Tables.keepTuples,
        TupleFilter.selects_ofObject, List.filter_filter, List.map_cons, List.contains_cons,
        Bool.not_or]
      simp only [Bool.and_comm, Bool.beq_eq_decide_eq]
    rw [ht]
    exact ih

theorem registerFile_settles :
    Settles stamp (registerFile c owner file folder) s fun _ t =>
      s.tables.Lives folder ∧ subjectsIn s.tables.tuples .owner (.file file) = [] ∧
        subjectsIn s.tables.tuples .parent (.file file) = [] ∧
        t = s.tables.addFile stamp file owner folder := by
  apply Settles.read (reads_requireFolder folder)
  intro f hf
  apply Settles.read (consults_requirePermission ..).reads
  intro _ _
  apply Settles.read (consults_isRegistered file).reads
  intro registered hreg
  cases registered with
  | true => exact settles_fail _
  | false =>
    obtain ⟨howner, hparent⟩ := isRegistered_ok hreg
    have hf := requireFolder_ok hf
    rw [Tables.subjectsOf_eq] at howner
    rw [Tables.parentOf_eq, List.head?_eq_none_iff] at hparent
    have hid : f.resource.subject = .folder folder := by
      rw [← (Tables.folder?_mem hf).2]
      rfl
    refine Yields.settles (a := Resource.file file)
      (t := s.tables.addFile stamp file owner folder) ?_
      ⟨by simp [Tables.Lives, hf], howner, hparent, rfl⟩
    rw [Tables.addFile, Tables.fileTuples, Tables.addTuples_cons, Tables.addTuples_cons,
      Tables.addTuples_nil]
    apply Yields.bind (yields_createFirst howner)
    refine Yields.bind (yields_createFirst ?_) ?_
    · simp [Tuple.owner, Tuple.parent, hparent]
    · rw [hid]
      exact yields_pure _

theorem deleteFile_settles : Settles stamp (deleteFile c actor file) s fun _ t =>
    t = s.tables.dropFiles [file] := by
  apply Settles.read (consults_requireResource _).reads
  intro _ _
  apply Settles.read (consults_requirePermission ..).reads
  intro _ _
  exact (yields_detachFiles [file]).settles rfl

end Program

end DriveAccess
