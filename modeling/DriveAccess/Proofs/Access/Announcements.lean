import DriveAccess.Proofs.Access.Composition
import DriveAccess.Proofs.Courses
import DriveAccess.Proofs.Storage.Coherence
import DriveAccess.Proofs.Storage.Sessions
/-!
Announcements: a command puts on record that something was done when it is done, and apart from a
last look at a folder moved there is nothing left that could fail.
-/
namespace DriveAccess

open Dialogue

variable {σ S α β : Type} {b : Backend σ S} {stamp : Stamp} {Q : Working σ S → Prop}
  {p : Program α} {f : α → Program β} {w : Working σ S}

namespace Program

/-- Announces nothing. -/
def Silent (p : Program α) : Prop := p.Asks fun q => ∀ e ∈ q.events, e.announces = false

theorem composes_silent : Composes Silent where
  pure a := asks_pure a
  fail e := asks_fail e
  request _ := asks_query fun e he => by cases he
  resolve d := asks_rephrase (fun _ e he => by cases he) d
  deny c d := (asks_query (q := Action.record (.accessDenied c.tenant d)) fun e he => by
    cases List.mem_singleton.mp he
    rfl).bind fun _ => asks_fail _
  bind := Asks.bind

/-- Announcements on record after a silent program were there before. -/
theorem Silent.audit (h : Silent p) {e : AuditEvent} (he : e.announces)
    (hmem : e ∈ (p.run (b.act stamp) w).2.audit) : e ∈ w.audit := by
  have hlog := course_log (d := p) (s := w) (fun w => w.audit) (fun m => m.1.events)
    (audit_act b stamp)
  rw [hlog, List.mem_append, List.mem_flatMap] at hmem
  obtain hw | ⟨m, hm, hevent⟩ := hmem
  · exact hw
  · have hsilent := h.course m hm e hevent
    rw [he] at hsilent
    cases hsilent

/-- If the program announces anything, it succeeds, and leaves things as described. -/
def Sincere (b : Backend σ S) (stamp : Stamp) (Q : Working σ S → Prop) (p : Program α)
    (w : Working σ S) : Prop :=
  ∀ e : AuditEvent, e.announces → e ∈ (p.run (b.act stamp) w).2.audit →
    e ∈ w.audit ∨ ∃ a u, p.run (b.act stamp) w = (.ok a, u) ∧ Q u

theorem Silent.sincere (h : Silent p) : Sincere b stamp Q p w :=
  fun _ he hmem => .inl (h.audit he hmem)

theorem sincere_of_ok {a : α} {u : Working σ S} (h : p.run (b.act stamp) w = (.ok a, u))
    (hu : Q u) : Sincere b stamp Q p w :=
  fun _ _ _ => .inr ⟨a, u, h, hu⟩

/-- What comes after a silent program counts only if that succeeds. -/
theorem Silent.sincere_bind (h : Silent p)
    (hf : ∀ a u, p.run (b.act stamp) w = (.ok a, u) → Sincere b stamp Q (f a) u) :
    Sincere b stamp Q (p >>= f) w := by
  intro e he hmem
  have hquiet : e ∈ (p.run (b.act stamp) w).2.audit → e ∈ w.audit := h.audit he
  rw [run_bind] at hmem ⊢
  rcases hrun : p.run (b.act stamp) w with ⟨error | a, u⟩ <;> rw [hrun] at hmem hquiet
  · exact .inl (hquiet hmem)
  · exact (hf a u hrun e he hmem).imp_left hquiet

end Program

open Program

/-- What a change of authority that succeeds makes true, and no action makes false again. -/
structure Backend.Marks (b : Backend σ S) (stamp : Stamp) (Q : Working σ S → Prop) : Prop where
  keeps : ∀ q w, Q w → Q (b.act stamp q w).2
  grant : ∀ g w u, b.act stamp (.store (.createGrant g)) w = (.ok (), u) → Q u
  revocation : ∀ id w u, b.act stamp (.store (.deleteGrant id)) w = (.ok true, u) → Q u
  transfer : ∀ o user w t u, b.act stamp (.store (.replaceOwner o user)) w = (.ok t, u) → Q u

namespace Backend.Marks

variable (h : b.Marks stamp Q) (c : Context)

include h

theorem run (p : Program α) (hw : Q w) : Q (p.run (b.act stamp) w).2 :=
  run_keeps (fun w u => Q w → Q u) (fun _ => id) (fun _ _ _ h k hw => k (h hw))
    (fun q w => h.keeps q w) hw

theorem grantRole (r : Resource) (grantee : Grantee) (role : Role) (grantedBy : Uuid) :
    Sincere b stamp Q (Program.grantRole c r grantee role grantedBy) w := by
  refine (composes_silent.ofExcept _).sincere_bind fun _ _ _ => ?_
  refine (composes_silent.requireResource r).sincere_bind fun _ _ _ => ?_
  refine (composes_silent.requireGranter ..).sincere_bind fun _ _ _ => ?_
  refine (composes_silent.request _).sincere_bind fun held _ _ => ?_
  split
  · exact Silent.sincere (asks_fail _)
  · refine (composes_silent.request _).sincere_bind fun _ u hrun => ?_
    rw [request, run_query] at hrun
    exact sincere_of_ok rfl (h.keeps (.record _) u (h.grant _ _ _ hrun))

theorem revokeGrant (id revokedBy : Uuid) :
    Sincere b stamp Q (Program.revokeGrant c id revokedBy) w := by
  refine (composes_silent.requireGrant id).sincere_bind fun grant _ _ => ?_
  split
  · exact Silent.sincere (asks_fail _)
  · refine (composes_silent.requireGranter ..).sincere_bind fun _ _ _ => ?_
    refine (composes_silent.request _).sincere_bind fun removed u hrun => ?_
    rw [request, run_query] at hrun
    cases removed with
    | false => exact Silent.sincere (asks_fail _)
    | true => exact sincere_of_ok rfl (h.keeps (.record _) u (h.revocation _ _ _ hrun))

theorem transferOwnership (actor : Uuid) (r : Resource) (newOwner : Uuid) :
    Sincere b stamp Q (Program.transferOwnership c actor r newOwner) w := by
  refine (composes_silent.requireResource r).sincere_bind fun owners _ _ => ?_
  refine (composes_silent.requireOwner ..).sincere_bind fun _ _ _ => ?_
  split
  · exact Silent.sincere (asks_fail _)
  · refine (composes_silent.request _).sincere_bind fun _ u hrun => ?_
    rw [request, run_query] at hrun
    have hu : Q u := h.transfer _ _ _ _ _ hrun
    refine (composes_silent.recordOwner newOwner r).sincere_bind fun _ v hrecord => ?_
    have hv : Q v := by
      have hkept := h.run (Program.recordOwner r newOwner) hu
      rwa [hrecord] at hkept
    exact sincere_of_ok rfl (h.keeps (.record _) v hv)

/-- Commands other than moves are through with what they announce. -/
theorem sincere {command : Command} (hmove : ∀ x y z, command ≠ .moveFolder x y z) :
    Sincere b stamp Q (command.body c) w := by
  by_cases hannounces : command.announces
  · cases command with
    | grantRole r grantee role grantedBy => exact h.grantRole c r grantee role grantedBy
    | revokeGrant id revokedBy => exact h.revokeGrant c id revokedBy
    | transferOwnership actor r newOwner => exact h.transferOwnership c actor r newOwner
    | moveFolder x y z => exact absurd rfl (hmove x y z)
    | _ => cases hannounces
  · have hsilent : Silent (command.body c) :=
      composes_silent.body c command fun hcommand => absurd hcommand hannounces
    exact hsilent.sincere

end Backend.Marks

theorem Backend.marks_nothing (b : Backend σ S) (stamp : Stamp) : b.Marks stamp fun _ => True where
  keeps _ _ _ := trivial
  grant _ _ _ _ := trivial
  revocation _ _ _ _ := trivial
  transfer _ _ _ _ _ _ := trivial

/-! In memory. -/

namespace Session

variable {s u : Session}

theorem perform_dirty {r : Request} (h : s.dirty) : (s.perform stamp r).2.dirty := by
  have hfollows : Follows s (s.perform stamp r).2 := perform_follows
  obtain hsame | hdirty := hfollows.dirty
  · rwa [hsame]
  · exact hdirty

theorem createGrant_dirty {g : Grant} (h : s.perform stamp (.createGrant g) = (.ok (), u)) :
    u.dirty := by
  rw [perform] at h
  split at h <;> cases h
  rfl

theorem remove_dirty {m n : Nat} {t : Tables} (h : 0 < (s.remove m n t).1) :
    (s.remove m n t).2.dirty := by
  have hless : n < m := Nat.lt_of_sub_pos h
  simp [remove, writeIf, hless, write]

theorem deleteGrant_dirty {id : Uuid} (h : s.perform stamp (.deleteGrant id) = (.ok true, u)) :
    u.dirty := by
  obtain ⟨hremoved, rfl⟩ := Prod.mk.inj h
  exact remove_dirty (of_decide_eq_true (Except.ok.inj hremoved))

theorem replaceOwner_dirty {o : Object} {user : Uuid} {row : Relationship}
    (h : s.perform stamp (.replaceOwner o user) = (.ok row, u)) : u.dirty := by
  simp only [perform] at h
  split at h <;> cases h
  rfl

/-- The session has something to publish, and it has the folder. -/
def Holds (s : Session) (id : Uuid) : Prop := s.dirty ∧ s.tables.Lives id

theorem setFolderParent_holds {id : Uuid} {parent : Option Uuid}
    (h : s.perform stamp (.setFolderParent id parent) = (.ok (), u)) : u.Holds id := by
  let change (f : Folder) : Folder := { f with parent, updatedAt := stamp.time }
  have hkeep := Tables.lives_updateFolder (t := s.tables) (x := id) (g := change) (fun _ => rfl) id
  rw [perform, changeFolder] at h
  split at h
  · cases h
  · rename_i f hf
    cases h
    exact ⟨rfl, hkeep.mpr (by rw [Tables.Lives, hf]; rfl)⟩

variable {id : Uuid}

theorem Holds.setFolderDepths (hs : s.Holds id) {depths : List (Uuid × Nat)}
    (h : s.perform stamp (.setFolderDepths depths) = (.ok (), u)) : u.Holds id := by
  have hdirty : (s.perform stamp (.setFolderDepths depths)).2.dirty := perform_dirty hs.1
  have hdepths : (s.tables.setDepths stamp.time depths).Lives id := by
    obtain ⟨f, hf, rfl⟩ := Tables.lives_iff.mp hs.2
    rw [Tables.setDepths_eq, Tables.lives_iff]
    exact ⟨_, List.mem_map_of_mem hf, Tables.redepth_id⟩
  rw [h] at hdirty
  refine ⟨hdirty, ?_⟩
  rw [perform] at h
  split at h
  · cases h
  · cases h
    rw [writeIf]
    split
    · exact hdepths
    · exact hs.2

theorem Holds.setParent (hs : s.Holds id) {child : Object} {parent : Option Subject}
    (h : s.perform stamp (.setParent child parent) = (.ok (), u)) : u.Holds id := by
  have hdirty : (s.perform stamp (.setParent child parent)).2.dirty := perform_dirty hs.1
  have hfolders : (s.perform stamp (.setParent child parent)).2.tables.folders =
      s.tables.folders := by
    cases parent <;> simp only [perform, write_tables, removeTuples_tables] <;> rfl
  rw [h] at hdirty hfolders
  refine ⟨hdirty, ?_⟩
  rw [Tables.lives_iff, hfolders, ← Tables.lives_iff]
  exact hs.2

end Session

namespace Backend

theorem act_memory_ok {r : Request} {a : r.Reply} {w u : Working Stores TenantSession}
    (h : memory.act stamp (.store r) w = (.ok a, u)) :
    ∃ answer, w.session.session.perform stamp r = (.ok answer, u.session.session) ∧
      r.reply answer = a := by
  obtain ⟨hreply, rfl⟩ := Prod.mk.inj h
  change ((w.session.session.perform stamp r).1.map r.reply).mapError _ = _ at hreply
  cases hperform : (w.session.session.perform stamp r).1 with
  | ok answer =>
    rw [hperform] at hreply
    exact ⟨answer, Prod.ext hperform rfl, Except.ok.inj hreply⟩
  | error e =>
    rw [hperform] at hreply
    cases hreply

theorem marks_memory (stamp : Stamp) : memory.Marks stamp fun w => w.session.session.dirty where
  keeps q w h := by
    cases q with
    | store r => exact Session.perform_dirty h
    | look l => exact Session.perform_dirty h
    | record e => exact h
  grant _ _ _ h := by
    obtain ⟨_, hperform, _⟩ := act_memory_ok h
    exact Session.createGrant_dirty hperform
  revocation _ _ _ h := by
    obtain ⟨removed, hperform, hremoved⟩ := act_memory_ok h
    obtain rfl : removed = true := hremoved
    exact Session.deleteGrant_dirty hperform
  transfer _ _ _ _ _ h := by
    obtain ⟨_, hperform, _⟩ := act_memory_ok h
    exact Session.replaceOwner_dirty hperform

theorem run_requireFolder_memory {id : Uuid} {w : Working Stores TenantSession}
    (h : w.session.session.tables.Lives id) :
    ∃ f, (requireFolder id).run (memory.act stamp) w = (.ok f, w) := by
  obtain ⟨f, hf⟩ := Option.isSome_iff_exists.mp h
  have hfind : memory.act stamp (.store (.findFolder id)) w = (.ok (some f), w) := by
    rw [← hf]
    rfl
  refine ⟨f, ?_⟩
  rw [requireFolder, findFolder, request, run_bind, run_query, hfind]
  rfl

/-- After the writes of a move the folder is still there. -/
theorem holds_of_moved {id : Uuid} {parent : Option Uuid} {depths : List (Uuid × Nat)}
    {child : Object} {above : Option Subject} {w u₁ u₂ u₃ : Working Stores TenantSession}
    (hrow : memory.act stamp (.store (.setFolderParent id parent)) w = (.ok (), u₁))
    (hdepths : memory.act stamp (.store (.setFolderDepths depths)) u₁ = (.ok (), u₂))
    (htuple : memory.act stamp (.store (.setParent child above)) u₂ = (.ok (), u₃)) :
    u₃.session.session.Holds id := by
  obtain ⟨_, hrow, _⟩ := act_memory_ok hrow
  obtain ⟨_, hdepths, _⟩ := act_memory_ok hdepths
  obtain ⟨_, htuple, _⟩ := act_memory_ok htuple
  exact ((Session.setFolderParent_holds hrow).setFolderDepths hdepths).setParent htuple

/-- In memory the last look at a folder moved finds it. -/
theorem sincere_moveFolder (c : Context) (actor id : Uuid) (newParent : Option Uuid)
    (w : Working Stores TenantSession) : Sincere memory stamp (fun w => w.session.session.dirty)
      (Program.moveFolder c actor id newParent) w := by
  have hs := composes_silent
  refine (hs.request _).sincere_bind fun _ _ _ => ?_
  refine (hs.requireFolder id).sincere_bind fun folder _ _ => ?_
  refine (hs.requireNewParent newParent).sincere_bind fun parent _ _ => ?_
  refine (hs.requireMove ..).sincere_bind fun _ _ _ => ?_
  refine (hs.request _).sincere_bind fun descendants _ _ => ?_
  refine (hs.request _).sincere_bind fun subtree _ _ => ?_
  refine (hs.ofHierarchy _).sincere_bind fun depth _ _ => ?_
  refine (hs.newParentPaths parent).sincere_bind fun upper _ _ => ?_
  refine (hs.request _).sincere_bind fun _ _ _ => ?_
  refine (hs.request _).sincere_bind fun _ w₁ h₁ => ?_
  refine (hs.request _).sincere_bind fun _ w₂ h₂ => ?_
  refine (hs.request _).sincere_bind fun _ w₃ h₃ => ?_
  rw [request, run_query] at h₁ h₂ h₃
  have hholds : w₃.session.session.Holds id := holds_of_moved h₁ h₂ h₃
  obtain ⟨f, hfind⟩ := run_requireFolder_memory (w := { w₃ with
    audit := w₃.audit ++ [.folderMoved c.tenant id newParent actor subtree.length] }) hholds.2
  exact sincere_of_ok hfind hholds.1

/-- A command in memory that announces anything succeeds and has something to publish. -/
theorem sincere_memory (c : Context) (command : Command) (w : Working Stores TenantSession) :
    Sincere memory stamp (fun w => w.session.session.dirty) (command.body c) w := by
  by_cases hmove : ∃ actor id newParent, command = .moveFolder actor id newParent
  · obtain ⟨actor, id, newParent, rfl⟩ := hmove
    exact sincere_moveFolder c actor id newParent w
  · exact (marks_memory stamp).sincere c fun x y z hcommand => hmove ⟨x, y, z, hcommand⟩

end Backend

end DriveAccess
