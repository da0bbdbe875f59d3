import DriveAccess.Proofs.Access.Undoing
import DriveAccess.Proofs.Runs.Grants
/-!
Creating and deleting, whatever has happened before: who has just made something can unmake it, and
everything is then as it was, in the same order.
-/
namespace DriveAccess

/-- A command succeeds on these tables and leaves those, whoever puts it and wherever it is run, as
long as the resolver follows chains of any length. -/
def Tables.Leads (t : Tables) (command : Command) (t' : Tables) : Prop :=
  ∀ (w : MemoryWorld) (turn : Turn), 21 ≤ turn.maxDepth → turn.event.command? = some command →
    w.tables? turn.event = some t → ∃ answer, w.Succeeds turn command answer t t'

theorem Tables.leads_of_yields {t t' : Tables} {command : Command}
    (h : ∀ stamp (c : Context), 21 ≤ c.maxDepth →
      ∃ a, Program.Yields stamp (command.body c) t a t') :
    t.Leads command t' := by
  intro w turn hdepth hcommand htables
  obtain ⟨c, s, audit, hc, _, hs, houtcome, hlater⟩ := World.runs_command hcommand htables
  obtain ⟨a, hyields⟩ := h turn.stamp c (hc ▸ hdepth)
  obtain ⟨u, hrun, rfl⟩ := hyields s hs
  rw [hrun] at houtcome hlater
  exact ⟨a, hcommand, htables, ⟨audit, houtcome⟩, hlater rfl⟩

namespace World

/-- A folder that is made belongs to the one who makes it. -/
theorem Succeeds.createFolder {w : MemoryWorld} {t : Turn} {owner : Uuid} {name : String}
    {parent : Option Uuid} {f : Folder} {before later : Tables}
    (h : w.Succeeds t (.createFolder owner name parent) f before later) (hw : before.Coherent) :
    f.owner = owner ∧ before.Welcomes f ∧ later = before.addFolder t.stamp f := by
  obtain ⟨c, s, u, _, _, rfl, rfl, hrun⟩ := h.run
  exact (Program.createFolder_settles hw).ok hrun

theorem Succeeds.addGroupMember {w : MemoryWorld} {t : Turn} {group user : Uuid}
    {role : MembershipRole} {m : Membership} {before later : Tables}
    (h : w.Succeeds t (.addGroupMember group user role) m before later) (hw : before.Coherent) :
    m = ⟨group, user, role⟩ ∧ before.hasMember m.group m.user = false ∧
      later = before.addMember t.stamp m := by
  obtain ⟨c, s, u, _, _, rfl, rfl, hrun⟩ := h.run
  exact (Program.addGroupMember_settles hw).ok hrun

/-- Who creates, registers, grants or adds may delete, revoke or remove it at once, which leads back
to the tables from before. A grant is known by its identifier only, which has to be new. -/
theorem creations_undone {turns : List Turn} (h : ∀ t ∈ turns, t.event.viaCommands) {t : Turn}
    (hdepth : 21 ≤ t.maxDepth) (before later : Tables) :
    (∀ user name parent f,
      (after turns).Succeeds t (.createFolder user name parent) f before later →
        later.Leads (.deleteFolder user f.id) before) ∧
    (∀ user file folder r,
      (after turns).Succeeds t (.registerFile user file folder) r before later →
        later.Leads (.deleteFile user file) before) ∧
    (((turns ++ [t]).filterMap Turn.drawn?).Nodup → ∀ r grantee role grantedBy g,
      (after turns).Succeeds t (.grantRole r grantee role grantedBy) g before later →
        later.Leads (.revokeGrant g.id grantedBy) before) ∧
    ∀ group user role m,
      (after turns).Succeeds t (.addGroupMember group user role) m before later →
        later.Leads (.removeGroupMember group user) before := by
  refine ⟨?_, ?_, ?_, ?_⟩
  · intro user name parent f hturn
    have hbefore := (all_coherent h).tables hturn.before
    obtain ⟨howner, hf, rfl⟩ := hturn.createFolder hbefore
    have hleads : (before.addFolder t.stamp f).Leads (.deleteFolder f.owner f.id) before :=
      Tables.leads_of_yields fun _ _ hc => Program.yields_deleteFolder_addFolder hbefore hc hf
    rwa [howner] at hleads
  · intro user file folder r hturn
    obtain ⟨hbefore, _, c, hlives, howner, hparent, rfl⟩ := hturn.reached h
    exact Tables.leads_of_yields fun _ _ hc =>
      ⟨(), Program.yields_deleteFile_addFile hbefore hc hlives howner hparent⟩
  · intro hfresh r grantee role grantedBy g hturn
    rw [List.filterMap_append] at hfresh
    obtain ⟨hold, _, hnew⟩ := List.nodup_append.mp hfresh
    obtain ⟨hbefore, hdrawn⟩ := (all_grantsDrawn h hold).tables hturn.before
    have habove : before.Above role grantedBy r := hturn.authorized hbefore hdepth
    have hdraws : [t].filterMap Turn.drawn? = [t.stamp.id] := by
      simp [Turn.drawn?, hturn.runs, Command.draws]
    obtain ⟨c, _, hstamp, rfl, hadmits, rfl⟩ := hturn.effect hbefore
    have hids (k : Grant) (hk : k ∈ before.grants) : k.id ≠ c.stamp.id := by
      rw [hstamp]
      exact hnew _ (hdrawn.drawn k hk) _ (by simp [hdraws])
    exact Tables.leads_of_yields fun _ _ hc =>
      ⟨_, Program.yields_revokeGrant_addGrant hbefore hc hadmits hids habove⟩
  · intro group user role m hturn
    have hbefore := (all_coherent h).tables hturn.before
    obtain ⟨rfl, hnew, rfl⟩ := hturn.addGroupMember hbefore
    exact Tables.leads_of_yields fun _ _ _ =>
      ⟨(), Program.yields_removeGroupMember_addMember hbefore hnew⟩

/-- The owner makes a folder. -/
def drawer : Turn :=
  ⟨21, ⟨.ofNat 70, 700⟩, .command (.ofNat 7)
    (.createFolder (.ofNat 50) "drawer" (some (.ofNat 4)))⟩

/-- The owner does away with the folder. -/
def shredding : Turn :=
  ⟨21, ⟨.ofNat 71, 701⟩, .command (.ofNat 7) (.deleteFolder (.ofNat 50) (.ofNat 70))⟩

/-- The owner has one more file. -/
def duplicate : Turn :=
  ⟨21, ⟨.ofNat 72, 702⟩, .command (.ofNat 7)
    (.registerFile (.ofNat 50) (.ofNat 61) (.ofNat 4))⟩

/-- The group has one more member. -/
def recruitment : Turn :=
  ⟨21, ⟨.ofNat 73, 703⟩, .command (.ofNat 7)
    (.addGroupMember (.ofNat 80) (.ofNat 52) .member)⟩

theorem creations_undone_rehearsal : (∀ t ∈ rehearsal, t.event.viaCommands) ∧
    ((rehearsal ++ [invitation]).filterMap Turn.drawn?).Nodup ∧
    (∃ f d before later,
      (after rehearsal).Succeeds drawer (.createFolder (.ofNat 50) "drawer" (some (.ofNat 4))) f
        before later ∧ before ≠ later ∧
      (after (rehearsal ++ [drawer])).Succeeds shredding (.deleteFolder (.ofNat 50) (.ofNat 70)) d
        later before) ∧
    (∃ r before later,
      (after rehearsal).Succeeds duplicate (.registerFile (.ofNat 50) (.ofNat 61) (.ofNat 4)) r
        before later ∧ later.Leads (.deleteFile (.ofNat 50) (.ofNat 61)) before) ∧
    (∃ g before later,
      (after rehearsal).Succeeds invitation
        (.grantRole (.folder (.ofNat 1)) (.user (.ofNat 52)) .viewer (.ofNat 50)) g before later ∧
      later.Leads (.revokeGrant g.id (.ofNat 50)) before) ∧
    ∃ m before later,
      (after rehearsal).Succeeds recruitment (.addGroupMember (.ofNat 80) (.ofNat 52) .member) m
        before later ∧ later.Leads (.removeGroupMember (.ofNat 80) (.ofNat 52)) before := by
  have hrun : ∀ t ∈ rehearsal, t.event.viaCommands := by decide
  have hfresh : ((rehearsal ++ [invitation]).filterMap Turn.drawn?).Nodup := by decide
  refine ⟨hrun, hfresh, ?_, ?_, ?_, ?_⟩
  · have hturn := succeeds_command (w := after rehearsal) (t := drawer) rfl ⟨_, rfl⟩
    have hleads := (creations_undone hrun (t := drawer) (by decide) _ _).1 _ _ _ _ hturn
    obtain ⟨d, hundone⟩ := hleads (after (rehearsal ++ [drawer])) shredding (by decide) rfl
      (by rw [after_snoc]; rfl)
    exact ⟨_, d, _, _, hturn, by decide, hundone⟩
  · have hturn := succeeds_command (w := after rehearsal) (t := duplicate) rfl ⟨_, rfl⟩
    have hleads := (creations_undone hrun (t := duplicate) (by decide) _ _).2.1 _ _ _ _ hturn
    exact ⟨_, _, _, hturn, hleads⟩
  · have hturn := succeeds_command (w := after rehearsal) (t := invitation) rfl ⟨_, rfl⟩
    have hleads := (creations_undone hrun (t := invitation) (by decide) _ _).2.2.1 hfresh _ _ _ _ _
      hturn
    exact ⟨_, _, _, hturn, hleads⟩
  · have hturn := succeeds_command (w := after rehearsal) (t := recruitment) rfl ⟨_, rfl⟩
    have hleads := (creations_undone hrun (t := recruitment) (by decide) _ _).2.2.2 _ _ _ _ hturn
    exact ⟨_, _, _, hturn, hleads⟩

end World

end DriveAccess
