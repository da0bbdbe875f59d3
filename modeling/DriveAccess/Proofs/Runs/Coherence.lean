import DriveAccess.Proofs.Access.Commands
import DriveAccess.Proofs.Hierarchy.Verification
import DriveAccess.Proofs.Runs.Worlds
import Mathlib.Data.List.Induction
/-!
What holds of all tables that commands leave, published or not, however many sessions take turns.
-/
namespace DriveAccess

/-- Events that reach the tables through commands only. -/
def Event.viaCommands : Event → Bool
  | .request _ _ => false
  | _ => true

namespace World

/-- Said of what each tenant has published and of what each open session works on. -/
structure All (P : Tables → Prop) (w : MemoryWorld) : Prop where
  published : ∀ tenant, P (w.shared.get tenant).tables
  held : ∀ name tenant s, w.session? name = some (tenant, s) → P s.session.tables

variable {P : Tables → Prop} {w : MemoryWorld} {t : Turn} {outcome : Outcome} {stores : Stores}
  {name : String} {session : Option (Uuid × TenantSession)}

theorem All.mono {Q : Tables → Prop} (hw : w.All P) (h : ∀ t, P t → Q t) : w.All Q :=
  ⟨fun tenant => h _ (hw.published tenant),
    fun name tenant s hs => h _ (hw.held name tenant s hs)⟩

theorem Does.all (hdoes : w.Does t outcome stores name session) (hw : w.All P)
    (hstores : ∀ tenant, P (stores.get tenant).tables)
    (hsession : ∀ tenant s, session = some (tenant, s) → P s.session.tables) :
    (w.turn t).2.All P where
  published tenant := by
    rw [hdoes.shared]
    exact hstores tenant
  held n tenant s hs := by
    rw [hdoes.sessions] at hs
    by_cases hn : n = name
    · rw [if_pos hn] at hs
      exact hsession tenant s hs
    · rw [if_neg hn] at hs
      exact hw.held n tenant s hs

theorem all_advance {store : Store} {s : Session} (hstore : P store.tables) (hs : P s.tables) :
    P (store.advance s).tables := by
  rw [Store.advance]
  split
  · exact hs
  · exact hstore

/-- What the command of a turn makes of the tables that it works on is what the turn makes of the
tables. -/
theorem All.turn {Q : Tables → Prop} (hw : w.All P) (hPQ : ∀ tables, P tables → Q tables)
    (hrun : ∀ command, t.event.command? = some command → ∀ tenant (s : Session), P s.tables →
      Q (s.run t.stamp (command.body ⟨tenant, t.maxDepth, t.stamp⟩)).2.tables)
    (ht : t.event.viaCommands) : (w.turn t).2.All Q := by
  have hQ : w.All Q := hw.mono hPQ
  have hgone (tenant : Uuid) (s : TenantSession) (hs : none = some (tenant, s)) :
      Q s.session.tables := by cases hs
  obtain ⟨name, hname, hnone⟩ | hopen := t.event.closed_or_open w.session?
  · exact (does_nothing hname hnone).all hQ hQ.published hgone
  · obtain ⟨maxDepth, stamp, event⟩ := t
    cases event with
    | request name r => cases ht
    | begin tenant name =>
      apply does_begin.all hQ hQ.published
      intro x s hs
      cases hs
      exact hQ.published tenant
    | command tenant command =>
      refine (does_command "").all hQ ?_ (hQ.held "")
      intro y
      rw [(Backend.execute_memory ..).2.2]
      split
      · exact all_advance (hQ.published tenant) (hrun _ rfl _ _ (hw.published tenant))
      · exact hQ.published y
    | commit name =>
      obtain ⟨⟨tenant, s⟩, hs⟩ := hopen name rfl
      refine (does_commit hs).all hQ ?_ hgone
      intro y
      rw [(Backend.commit_memory ..).2]
      split
      · exact all_advance (hQ.published s.tenant) (hQ.held name tenant s hs)
      · exact hQ.published y
    | rollback name =>
      obtain ⟨x, hx⟩ := hopen name rfl
      exact (does_rollback hx).all hQ hQ.published hgone
    | drop name =>
      obtain ⟨x, hx⟩ := hopen name rfl
      exact (does_drop hx).all hQ hQ.published hgone
    | commandIn name command =>
      obtain ⟨⟨tenant, s⟩, hs⟩ := hopen name rfl
      apply (does_commandIn hs).all hQ hQ.published
      intro _ _ hafter
      cases hafter
      exact hrun _ rfl _ _ (hw.held name tenant s hs)

theorem all_start (h : P {}) : start.All P := by
  refine ⟨fun _ => h, fun name tenant s hs => ?_⟩
  cases hs

/-- Induction over runs of commands. -/
theorem all_after (hstart : P {})
    (hP : ∀ stamp c (s : Session) (command : Command), P s.tables →
      P (s.run stamp (command.body c)).2.tables)
    {turns : List Turn} (h : ∀ t ∈ turns, t.event.viaCommands) : (after turns).All P := by
  induction turns using List.reverseRecOn with
  | nil => exact all_start hstart
  | append_singleton turns t ih =>
    rw [after_snoc]
    have hbefore := ih fun u hu => h u (by simp [hu])
    exact hbefore.turn (fun _ ht => ht) (fun command _ _ s => hP _ _ s command) (h t (by simp))

theorem all_coherent {turns : List Turn} (h : ∀ t ∈ turns, t.event.viaCommands) :
    (after turns).All Tables.Coherent :=
  all_after Tables.coherent_empty (fun _ _ _ command hs => command.run_coherent hs) h

end World

namespace Tables

/-- What is required of folder rows and of the closure table. -/
structure SoundHierarchy (t : Tables) : Prop where
  verified : ∀ c (s : TenantSession) stores, s.session.tables = t →
    (Backend.memory.runIn c.stamp (Command.verifyHierarchy.body c) s stores).1 = .ok []
  ids_nodup : (t.folders.map (·.id)).Nodup
  exact : Exact (forestOf t.folders) t.paths
  keys_nodup : (t.paths.map FolderPath.key).Nodup
  depth : ∀ f ∈ t.folders, (forestOf t.folders).Depth f.id f.depth
  acyclic : ∀ x n, ¬ (forestOf t.folders).Climbs x (n + 1) x
  parent_lives : ∀ f ∈ t.folders, ∀ p, f.parent = some p → ∃ g ∈ t.folders, g.id = p
  depth_le : ∀ f ∈ t.folders, f.depth ≤ 20
  length_le : ∀ p ∈ t.paths, p.length ≤ 20

theorem run_verifyHierarchy {stamp : Stamp} {s : Session} : s.run stamp Program.verifyHierarchy =
    (.ok (verifyClosure s.tables.foldersInOrder s.tables.paths), s) := rfl

theorem Coherent.soundHierarchy {t : Tables} (h : t.Coherent) : t.SoundHierarchy where
  verified c s stores hs := by
    subst hs
    have hsorted := h.hierarchy.perm foldersInOrder_perm.symm
    rw [(Backend.runIn_memory ..).1]
    change (s.session.run c.stamp Program.verifyHierarchy).1 = _
    rw [run_verifyHierarchy, hsorted.verifyClosure_eq_nil]
  ids_nodup := h.hierarchy.ids_nodup
  exact := h.hierarchy.exact
  keys_nodup := h.hierarchy.exact.keys_nodup h.hierarchy.grounded
  depth := h.hierarchy.depth
  acyclic x n hcycle := by
    have hlength := h.hierarchy.grounded.acyclic hcycle
    omega
  parent_lives f hf p hp := by
    have hrow := h.folder?_eq_some.mpr ⟨hf, rfl⟩
    exact lives_iff.mp (h.parent_lives hrow hp)
  depth_le := h.hierarchy.depth_le
  length_le p hp := h.hierarchy.length_le hp

/-- What is required of the tables that tell the same facts. -/
structure CopiesAgree (t : Tables) : Prop where
  folder_owner : ∀ f ∈ t.folders, t.subjectsOf .owner (.folder f.id) = [.user f.owner]
  folder_parent : ∀ f ∈ t.folders,
    t.subjectsOf .parent (.folder f.id) = (f.parent.map Subject.folder).toList
  parent_lives : ∀ f ∈ t.folders, ∀ p, f.parent = some p → ∃ g ∈ t.folders, g.id = p
  file : ∀ u ∈ t.tuples, ∀ x, u.object = .file x ∨ u.subject = .file x →
    ∃ user, t.subjectsOf .owner (.file x) = [.user user] ∧
      ∃ f ∈ t.folders, t.subjectsOf .parent (.file x) = [.folder f.id]
  nothing_else : ∀ u ∈ t.tuples, u.relation = .owner ∨ u.relation = .parent →
    (∃ f ∈ t.folders, u.object = .folder f.id) ∨ ∃ x, u.object = .file x
  grant_owned : ∀ g ∈ t.grants, ∃ u ∈ t.tuples, u.relation = .owner ∧ u.object = g.resource.object
  grant_role : ∀ g ∈ t.grants, g.role ≠ .owner
  grants_nodup : (t.grants.map fun g => (g.resource, g.grantee, g.role)).Nodup
  members : t.tuples.filter (·.relation == .member) =
    t.memberships.map fun m => .member m.user m.group
  members_nodup : (t.memberships.map fun m => Tuple.member m.user m.group).Nodup

namespace Coherent

variable {t : Tables} (h : t.Coherent)

include h

/-- Files own nothing, hold nothing and belong to no group. -/
theorem subject_ne_file {u : Tuple} (hu : u ∈ t.tuples) {x : Uuid} : u.subject ≠ .file x := by
  obtain ⟨user, hs⟩ | ⟨d, hs, _⟩ := h.subject_kind hu
  · simp [hs, Subject.user, Subject.file]
  · simp [hs, Subject.folder, Subject.file]

theorem file_tuples {u : Tuple} (hu : u ∈ t.tuples) {x : Uuid} (hx : u.object = .file x) :
    ∃ user, t.subjectsOf .owner (.file x) = [.user user] ∧
      ∃ f ∈ t.folders, t.subjectsOf .parent (.file x) = [.folder f.id] := by
  obtain ⟨s, r, o⟩ := u
  obtain rfl : o = .file x := hx
  simp only [subjectsOf_eq]
  obtain ⟨hnone, hroot⟩ | ⟨user, d, hd, howner, hparent⟩ := h.file x
  · cases r with
    | owner => exact absurd hu (not_mem_of_subjectsIn hnone)
    | parent => exact absurd hu (not_mem_of_subjectsIn hroot)
    | member =>
      obtain ⟨m, _, hm⟩ := h.member_mem hu rfl
      have hgroup : Object.group m.group = .file x := congrArg Tuple.object hm
      exact absurd hgroup Object.group_ne_file
  · obtain ⟨f, hf, rfl⟩ := lives_iff.mp hd
    exact ⟨user, howner, f, hf, hparent⟩

theorem owned_object {u : Tuple} (hu : u ∈ t.tuples)
    (hr : u.relation = .owner ∨ u.relation = .parent) :
    (∃ f ∈ t.folders, u.object = .folder f.id) ∨ ∃ x, u.object = .file x := by
  obtain ⟨s, r, o⟩ := u
  obtain ⟨x, rfl⟩ | ⟨x, rfl⟩ | ⟨x, rfl⟩ := o.kinds
  · have hlives : t.Lives x := by
      rcases hr with hr | hr <;> obtain rfl := hr <;> have hs := mem_subjectsIn.mpr hu
      · exact h.lives_of_owner (List.ne_nil_of_mem hs)
      · rw [(h.folder x).parent] at hs
        cases hx : t.folder? x with
        | none => simp [hx] at hs
        | some f => simp [Lives, hx]
    obtain ⟨f, hf, rfl⟩ := lives_iff.mp hlives
    exact .inl ⟨f, hf, rfl⟩
  · exact .inr ⟨x, rfl⟩
  · rcases hr with hr | hr <;> obtain rfl := hr
    · exact absurd hu (not_mem_of_subjectsIn (h.group_owner x))
    · exact absurd hu (not_mem_of_subjectsIn (h.group_parent x))

theorem copiesAgree : t.CopiesAgree where
  folder_owner f hf := by
    rw [subjectsOf_eq, (h.folder f.id).owner, h.folder?_eq_some.mpr ⟨hf, rfl⟩]
    rfl
  folder_parent f hf := by
    rw [subjectsOf_eq, (h.folder f.id).parent, h.folder?_eq_some.mpr ⟨hf, rfl⟩]
    rfl
  parent_lives f hf p hp := lives_iff.mp (h.parent_lives (h.folder?_eq_some.mpr ⟨hf, rfl⟩) hp)
  file u hu x hx := by
    rcases hx with hx | hx
    · exact h.file_tuples hu hx
    · exact absurd hx (h.subject_ne_file hu)
  nothing_else u hu hr := h.owned_object hu hr
  grant_owned g hg := by
    obtain ⟨s, hs⟩ := List.exists_mem_of_ne_nil _ (h.grant_owned g hg)
    exact ⟨_, mem_subjectsIn.mp hs, rfl, rfl⟩
  grant_role := h.grant_role
  grants_nodup := h.grants_nodup
  members := h.members
  members_nodup := by
    have hkeys : (t.memberships.map fun m => Tuple.member m.user m.group).map
        (fun u => (u.object.id, u.subject.id)) = t.memberships.map Membership.key :=
      List.map_map
    exact List.Nodup.of_map _ (hkeys ▸ h.memberships_nodup)

end Coherent

end Tables

namespace World

theorem hierarchy_sound {turns : List Turn} (h : ∀ t ∈ turns, t.event.viaCommands) :
    (after turns).All Tables.SoundHierarchy :=
  (all_coherent h).mono fun _ ht => ht.soundHierarchy

/-- Two sessions that change folders, files and groups at the same time, one of them in vain. -/
def rehearsal : List Turn :=
  let tenant := Uuid.ofNat 7
  let user := Uuid.ofNat 50
  [⟨10, ⟨.ofNat 1, 100⟩, .command tenant (.createFolder user "work" none)⟩,
    ⟨10, ⟨.ofNat 2, 101⟩, .begin tenant "plans"⟩,
    ⟨10, ⟨.ofNat 3, 102⟩, .begin tenant "staff"⟩,
    ⟨10, ⟨.ofNat 4, 103⟩, .commandIn "plans" (.createFolder user "plans" (some (.ofNat 1)))⟩,
    ⟨10, ⟨.ofNat 5, 104⟩, .commandIn "plans" (.moveFolder user (.ofNat 1) (some (.ofNat 4)))⟩,
    ⟨10, ⟨.ofNat 6, 105⟩, .commandIn "plans" (.registerFile user (.ofNat 60) (.ofNat 4))⟩,
    ⟨10, ⟨.ofNat 7, 106⟩, .commandIn "staff" (.addGroupMember (.ofNat 80) user .member)⟩,
    ⟨10, ⟨.ofNat 8, 107⟩, .commit "plans"⟩,
    ⟨10, ⟨.ofNat 9, 108⟩, .commit "staff"⟩,
    ⟨10, ⟨.ofNat 10, 109⟩,
      .command tenant (.grantRole (.folder (.ofNat 4)) (.group (.ofNat 80)) .contributor user)⟩,
    ⟨10, ⟨.ofNat 11, 110⟩, .begin tenant "plans"⟩,
    ⟨10, ⟨.ofNat 12, 111⟩, .commandIn "plans" (.moveFolder user (.ofNat 4) none)⟩]

theorem hierarchy_sound_rehearsal : (∀ t ∈ rehearsal, t.event.viaCommands) ∧
    ((after rehearsal).shared.get (.ofNat 7)).tables.folders.map (·.depth) = [0, 1] ∧
    (after rehearsal).All Tables.SoundHierarchy :=
  ⟨by decide, by decide, hierarchy_sound (by decide)⟩

theorem copies_agree {turns : List Turn} (h : ∀ t ∈ turns, t.event.viaCommands) :
    (after turns).All Tables.CopiesAgree :=
  (all_coherent h).mono fun _ ht => ht.copiesAgree

theorem copies_agree_rehearsal : (∀ t ∈ rehearsal, t.event.viaCommands) ∧
    ((after rehearsal).shared.get (.ofNat 7)).tables.tuples.length = 5 ∧
    (after rehearsal).All Tables.CopiesAgree :=
  ⟨by decide, by decide, copies_agree (by decide)⟩

end World

end DriveAccess
