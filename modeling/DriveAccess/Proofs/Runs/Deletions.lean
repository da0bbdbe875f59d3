import DriveAccess.Proofs.Access.Deletions
import DriveAccess.Proofs.Resolution.Frames
import DriveAccess.Proofs.Runs.Commands
/-!
What deletions take away and what they leave, whatever has happened before, and what is left of an
earlier life when a deleted file is registered again.
-/
namespace DriveAccess.World

/-- What is deleted has been there. -/
theorem Succeeds.lives {w : MemoryWorld} {t : Turn} {actor id : Uuid} {d : DeletedSubtree}
    {before later : Tables} (h : w.Succeeds t (.deleteFolder actor id) d before later) :
    before.Lives id := by
  obtain ⟨c, s, u, _, _, rfl, _, hrun⟩ := h.run
  obtain ⟨_, _, hrest⟩ := Program.Reads.run_bind (Program.reads_request rfl) hrun
  obtain ⟨f, hf, _⟩ := Program.Reads.run_bind (Program.reads_requireFolder id) hrest
  rw [Tables.Lives, Program.requireFolder_ok hf]
  rfl

theorem deletions_exact {turns : List Turn} (h : ∀ t ∈ turns, t.event.viaCommands) (t : Turn)
    (before later : Tables) :
    (∀ actor id d, (after turns).Succeeds t (.deleteFolder actor id) d before later →
      id ∈ d.folders ∧ d.folders.Nodup ∧
        (∀ x, x ∈ d.folders ↔ (forestOf before.folders).Below id x) ∧
        d.files.Nodup ∧
        (∀ x, x ∈ d.files ↔
          ∃ f ∈ d.folders, Tuple.parent (.folder f) (.file x) ∈ before.tuples) ∧
        later = before.without d.resources) ∧
    (∀ actor file done, (after turns).Succeeds t (.deleteFile actor file) done before later →
      later = before.without [.file file]) ∧
    ∀ owner file folder r,
      (after turns).Succeeds t (.registerFile owner file folder) r before later →
        later.Answers (.listGrants (.file file)) [] ∧
        ∀ user, ∃ inherited, before.Answers (.effectiveRole user (.folder folder)) inherited ∧
          later.Answers (.effectiveRole user (.folder folder)) inherited ∧
          later.Answers (.effectiveRole user (.file file))
            (if user = owner then some .owner else inherited) ∧
          later.Answers (.collectPermissions user (.file file))
            (Role.permits (if user = owner then some .owner else inherited)) := by
  refine ⟨?_, ?_, ?_⟩
  · intro actor id d hturn
    obtain ⟨hbefore, _, c, rfl, rfl⟩ := hturn.reached h
    have hself : id ∈ before.descendantsOf id :=
      hbefore.mem_descendantsOf.mpr ⟨0, .here (Tables.forestOf_isSome_iff.mpr hturn.lives)⟩
    exact ⟨hself, hbefore.descendantsOf_nodup id, fun _ => hbefore.mem_descendantsOf,
      hbefore.filesBelow_nodup id, fun _ => Tables.mem_filesBelow,
      hbefore.deleteTree_eq_without id⟩
  · intro actor file done hturn
    obtain ⟨hbefore, _, c, rfl⟩ := hturn.reached h
    exact hbefore.dropFiles_eq_without [file]
  · intro owner file folder r hturn
    obtain ⟨hbefore, hlater, c, hlives, howner, hparent, rfl⟩ := hturn.reached h
    constructor
    · have hnone : before.grantsFor (.file file) = [] := hbefore.grantsFor_eq_nil howner
      rw [← hnone]
      exact Tables.answers_listGrants _
    · intro user
      have habove := hlater.answers_effectiveRole user (.folder folder)
      have hroles := hlater.answers_effectiveRole user (.file file)
      have hheld := hlater.answers_collectPermissions user (.file file)
      rw [(hbefore.effectiveRole_addFile hlives howner hparent).1] at habove
      rw [(hbefore.effectiveRole_addFile hlives howner hparent).2] at hroles hheld
      exact ⟨_, hbefore.answers_effectiveRole user _, habove, hroles, hheld⟩

/-- The owner deletes everything. -/
def clearance : Turn :=
  ⟨21, ⟨.ofNat 50, 500⟩, .command (.ofNat 7) (.deleteFolder (.ofNat 50) (.ofNat 1))⟩

/-- The owner lets somebody see the file. -/
def gift : Turn :=
  ⟨21, ⟨.ofNat 51, 501⟩, .command (.ofNat 7)
    (.grantRole (.file (.ofNat 60)) (.user (.ofNat 52)) .viewer (.ofNat 50))⟩

def farewell : Turn :=
  ⟨21, ⟨.ofNat 52, 502⟩, .command (.ofNat 7) (.deleteFile (.ofNat 50) (.ofNat 60))⟩

/-- The file comes back in another folder. -/
def comeback : Turn :=
  ⟨21, ⟨.ofNat 53, 503⟩, .command (.ofNat 7)
    (.registerFile (.ofNat 50) (.ofNat 60) (.ofNat 1))⟩

theorem deletions_exact_comeback : (∀ t ∈ rehearsal ++ [gift, farewell], t.event.viaCommands) ∧
    (∃ before later,
      (after rehearsal).Succeeds clearance (.deleteFolder (.ofNat 50) (.ofNat 1))
        ⟨[.ofNat 1, .ofNat 4], [.ofNat 60]⟩ before later ∧
      later = before.without [.folder (.ofNat 1), .folder (.ofNat 4), .file (.ofNat 60)]) ∧
    (∃ before later,
      (after (rehearsal ++ [gift])).Succeeds farewell (.deleteFile (.ofNat 50) (.ofNat 60)) ()
        before later ∧
      before.grants.length = 2 ∧ later = before.without [.file (.ofNat 60)]) ∧
    ∃ r before later,
      (after (rehearsal ++ [gift, farewell])).Succeeds comeback
        (.registerFile (.ofNat 50) (.ofNat 60) (.ofNat 1)) r before later ∧
      later.Answers (.listGrants (.file (.ofNat 60))) [] ∧
      ∃ inherited, before.Answers (.effectiveRole (.ofNat 52) (.folder (.ofNat 1))) inherited ∧
        later.Answers (.effectiveRole (.ofNat 52) (.file (.ofNat 60))) inherited := by
  have hrun : ∀ t ∈ rehearsal ++ [gift, farewell], t.event.viaCommands := by decide
  refine ⟨hrun, ?_, ?_, ?_⟩
  · have hturn : (after rehearsal).Succeeds clearance (.deleteFolder (.ofNat 50) (.ofNat 1))
        ⟨[.ofNat 1, .ofNat 4], [.ofNat 60]⟩ ((after rehearsal).shared.get (.ofNat 7)).tables
        (((after rehearsal).turn clearance).2.shared.get (.ofNat 7)).tables :=
      ⟨rfl, rfl, ⟨_, rfl⟩, rfl⟩
    have hfirst : ∀ t ∈ rehearsal, t.event.viaCommands := by decide
    obtain ⟨_, _, _, _, _, hlater⟩ := (deletions_exact hfirst _ _ _).1 _ _ _ hturn
    exact ⟨_, _, hturn, hlater⟩
  · have hturn : (after (rehearsal ++ [gift])).Succeeds farewell
        (.deleteFile (.ofNat 50) (.ofNat 60)) ()
        ((after (rehearsal ++ [gift])).shared.get (.ofNat 7)).tables
        (((after (rehearsal ++ [gift])).turn farewell).2.shared.get (.ofNat 7)).tables :=
      ⟨rfl, rfl, ⟨_, rfl⟩, rfl⟩
    have hgift : ∀ t ∈ rehearsal ++ [gift], t.event.viaCommands := by decide
    have hlater := (deletions_exact hgift _ _ _).2.1 _ _ _ hturn
    exact ⟨_, _, hturn, by decide, hlater⟩
  · have hturn : (after (rehearsal ++ [gift, farewell])).Succeeds comeback
        (.registerFile (.ofNat 50) (.ofNat 60) (.ofNat 1)) _
        ((after (rehearsal ++ [gift, farewell])).shared.get (.ofNat 7)).tables
        (((after (rehearsal ++ [gift, farewell])).turn comeback).2.shared.get (.ofNat 7)).tables :=
      ⟨rfl, rfl, ⟨_, rfl⟩, rfl⟩
    obtain ⟨hgrants, hroles⟩ := (deletions_exact hrun _ _ _).2.2 _ _ _ _ hturn
    obtain ⟨inherited, hbefore, _, hlater, _⟩ := hroles (.ofNat 52)
    exact ⟨_, _, _, hturn, hgrants, inherited, hbefore, hlater⟩

end DriveAccess.World
