import DriveAccess.Proofs.Runs.Commands
import DriveAccess.Proofs.Storage.Keys
/-!
The move of a folder: where it is turned down, and what it changes where it is carried out.
-/
namespace DriveAccess

/-- A closure row that links a folder of a subtree to one outside. -/
def FolderPath.Crosses (r : FolderPath) (F : Forest) (top : Uuid) : Prop :=
  F.Below top r.descendant ∧ ¬ F.Below top r.ancestor

/-- What the move of the subtree of `top` makes of a folder row. -/
structure Folder.Carried (F : Forest) (top : Uuid) (q : Option Uuid) (depth : Nat)
    (old new : Folder) : Prop where
  parent : new.parent = if old.id = top then q else old.parent
  depth : ∀ k, F.Climbs old.id k top → new.depth = depth + k
  /-- No other column is touched. -/
  kept : { new with parent := old.parent, depth := old.depth, updatedAt := old.updatedAt } = old
  outside : ¬ F.Below top old.id → new = old

open Classical in
/-- The subtree of `top` has got another place and the depths that go with it. The folder edge of
`top` and the closure rows that lead out of the subtree are new, all else is as it was. -/
structure Tables.Moved (t later : Tables) (top : Uuid) (q : Option Uuid) (depth : Nat)
    (f : Folder) : Prop where
  answer : f.id = top ∧ f.parent = q ∧ f.depth = depth
  row : later.folder? top = some f
  folders : List.Forall₂ (Folder.Carried (forestOf t.folders) top q depth) t.folders later.folders
  edge : later.tuples.filter (fun u => u.relation = .parent ∧ u.object = .folder top) =
    (q.map fun p => Tuple.parent (.folder p) (.folder top)).toList
  relationships :
    later.relationships.filter
        (fun u => ¬ (u.tuple.relation = .parent ∧ u.tuple.object = .folder top)) =
      t.relationships.filter
        fun u => ¬ (u.tuple.relation = .parent ∧ u.tuple.object = .folder top)
  pathRecords : later.pathRecords.filter (fun r => ¬ r.path.Crosses (forestOf t.folders) top) =
    t.pathRecords.filter (fun r => ¬ r.path.Crosses (forestOf t.folders) top)
  grants : later.grants = t.grants
  membershipRecords : later.membershipRecords = t.membershipRecords

namespace Tables

variable {t : Tables} {stamp : Stamp} {now : Instant} {f : Folder} {id : Uuid} {q : Option Uuid}
  {depth : Nat}

theorem Coherent.carried_movedRow (h : t.Coherent) (hlives : t.Lives id) (f : Folder) :
    Folder.Carried (forestOf t.folders) id q depth f (t.movedRow stamp id q depth f) where
  parent := movedRow_parent
  depth k hk := by
    have hr : (⟨id, f.id, k⟩ : FolderPath) ∈ t.pathsFrom id :=
      mem_pathsFrom.mpr ⟨h.hierarchy.exact.mem_mk.mpr hk, rfl⟩
    refine redepth_depth h.depthsBelow_nodup (List.mem_map.mpr ⟨_, hr, ?_⟩)
    rw [rehang_id]
  kept := by
    obtain ⟨d, u, hrow⟩ := redepth_eq stamp.time (t.depthsBelow id depth) (rehang stamp id q f)
    rw [movedRow, hrow, rehang]
    split <;> rfl
  outside hout := by
    have hself := Forest.Below.refl (forestOf_isSome_iff.mpr hlives)
    have hne : f.id ≠ id := by
      intro he
      exact hout (he ▸ hself)
    have hrehang : rehang stamp id q f = f := by simp [rehang, hne]
    rw [movedRow, hrehang, redepth_of_not_mem]
    rw [depthsBelow, List.map_map]
    exact fun hmem => hout (h.mem_descendantsOf.mp hmem)

open Classical in
/-- Cutting a subtree off and linking it elsewhere concerns the rows across its border only. -/
theorem Coherent.uncrossed_moveSubtree (h : t.Coherent)
    (hq : (forestOf t.folders).Receives id q) :
    (t.moveSubtree now id (t.upper q)).pathRecords.filter
        (fun r => ¬ r.path.Crosses (forestOf t.folders) id) =
      t.pathRecords.filter (fun r => ¬ r.path.Crosses (forestOf t.folders) id) := by
  have hcut (r : FolderPath) : (!(t.descendantsOf id).contains r.descendant ||
      (t.descendantsOf id).contains r.ancestor) = decide (¬ r.Crosses (forestOf t.folders) id) := by
    rw [Bool.eq_iff_iff]
    simp [FolderPath.Crosses, h.mem_descendantsOf, imp_iff_not_or]
  have hlink : ∀ r ∈ attachPaths (t.pathsFrom id) (t.upper q),
      r.Crosses (forestOf t.folders) id := by
    intro r hr
    obtain ⟨k, hk, p, m, hp, _, hm⟩ :=
      (h.hierarchy.exact.mem_attachPaths (fun _ => mem_pathsFrom) (fun _ => mem_upper)).mp hr
    exact ⟨⟨k, hk⟩, fun hin => (hq p hp).2.2 (hin.trans ⟨m, hm⟩)⟩
  have hnone : ((attachPaths (t.pathsFrom id) (t.upper q)).map fun p => PathRecord.mk p now).filter
      (fun r => ¬ r.path.Crosses (forestOf t.folders) id) = [] := by
    rw [List.filter_eq_nil_iff, List.forall_mem_map]
    intro r hr
    simpa using hlink r hr
  simp only [moveSubtree, addPaths, keepPaths, List.filter_append, hnone, List.append_nil, hcut,
    List.filter_filter, Bool.and_self]

theorem Coherent.moved_moveFolder (h : t.Coherent) (hm : t.Relocates id q depth)
    (hf : t.folder? id = some f) :
    t.Moved (t.moveFolder stamp id q depth) id q depth (t.movedRow stamp id q depth f) where
  answer := by
    have hid := (folder?_mem hf).2
    have hcarried : Folder.Carried (forestOf t.folders) id q depth f
        (t.movedRow stamp id q depth f) := h.carried_movedRow hm.lives f
    have htop : (forestOf t.folders).Climbs f.id 0 id :=
      Forest.climbs_zero.mpr ⟨hid.symm, by rw [hid, forestOf_isSome_iff]; exact hm.lives⟩
    exact ⟨movedRow_id.trans hid, by rw [movedRow_parent, if_pos hid], hcarried.depth 0 htop⟩
  row := by
    rw [folder?_moveFolder, hf]
    rfl
  folders := by
    rw [Tables.moveFolder, List.forall₂_map_right_iff, List.forall₂_same]
    exact fun f _ => h.carried_movedRow hm.lives f
  edge := by
    rw [tuples_moveFolder, List.filter_append, List.filter_filter]
    cases q <;> simp [Tuple.parent]
  relationships := by
    have hedge : ∀ u ∈ (q.map fun p => Tuple.parent (.folder p) (.folder id)).toList,
        u.relation = .parent ∧ u.object = .folder id := by
      simp [Tuple.parent]
    simp only [decide_not]
    exact (reassigns hedge).others
  pathRecords := h.uncrossed_moveSubtree hm.receives
  grants := rfl
  membershipRecords := rfl

section

variable (h : t.Coherent) (hf : t.folder? id = some f) (height : Nat)

include h hf

/-- A place inside the subtree is turned down whatever its depth. -/
theorem Coherent.validateMove_inside {p : Uuid} (hp : t.Lives p)
    (hin : (forestOf t.folders).Below id p) :
    f.validateMove (t.folder? p) (t.descendantsOf id) height = .error (.circularMove id p) := by
  obtain ⟨g, hg⟩ := Option.isSome_iff_exists.mp hp
  obtain ⟨_, rfl⟩ := folder?_mem hf
  obtain ⟨_, rfl⟩ := folder?_mem hg
  have hbelow : g.id ∈ t.descendantsOf f.id := h.mem_descendantsOf.mpr hin
  rw [hg, Folder.validateMove_inside (.inr hbelow)]

theorem Coherent.validateMove_outside
    (hout : ∀ p, q = some p → ¬ (forestOf t.folders).Below id p) :
    f.validateMove (q.bind t.folder?) (t.descendantsOf id) height =
      if maxFolderDepth < placeDepth (q.bind t.folder?) + height then
        .error (.maxDepthExceeded (placeDepth (q.bind t.folder?) + height) maxFolderDepth)
      else .ok (placeDepth (q.bind t.folder?)) := by
  obtain ⟨_, rfl⟩ := folder?_mem hf
  have hlives : t.Lives f.id := by simp [Lives, hf]
  have hself := Forest.Below.refl (forestOf_isSome_iff.mpr hlives)
  apply Folder.validateMove_outside
  intro g hg
  obtain ⟨p, hp, hg⟩ := Option.bind_eq_some_iff.mp hg
  obtain ⟨_, rfl⟩ := folder?_mem hg
  rw [h.mem_descendantsOf]
  refine ⟨?_, hout _ hp⟩
  intro he
  exact hout _ hp (he ▸ hself)

end

end Tables

namespace Program

open Dialogue

variable {stamp : Stamp} {s : Session} {c : Context} {f : Folder} {actor id : Uuid}
  {parent : Option Uuid} {depth : Nat} {e : HierarchyError}

section

variable (h : s.tables.Coherent) (hdepth : maxFolderDepth + 1 ≤ c.maxDepth)
  (hnamed : Command.Named s.tables (.moveFolder actor id parent))
  (hauthority : Command.Authorized s.tables (.moveFolder actor id parent))

include h hdepth hnamed hauthority

section

variable (hf : s.tables.folder? id = some f)

include hf

/-- With authority and on folders that exist, all depends on the new place. -/
theorem run_moveFolder : s.run stamp (moveFolder c actor id parent) =
    s.run stamp (ofHierarchy (f.validateMove (parent.bind s.tables.folder?)
        (s.tables.descendantsOf id) (subtreeHeight (s.tables.pathsFrom id))) >>=
      relocate c actor id parent f (parent.bind s.tables.folder?) (s.tables.pathsFrom id)) := by
  have hnew : s.run stamp (requireNewParent parent) = _ := run_requireNewParent hnamed.2
  have hids := (requireNewParent_ok hnew).2
  have hresource : f.resource = .folder id := by
    rw [Folder.resource, (Tables.folder?_mem hf).2]
  have hmay : s.run stamp (requireMove c actor f (parent.bind s.tables.folder?)) = (.ok (), s) :=
    (guards_requireMove h hdepth hresource hids).passes hauthority
  rw [moveFolder_eq, run_bind_read rfl]
  refine (run_bind_ok (run_requireFolder hf)).trans ?_
  refine (run_bind_ok hnew).trans ?_
  refine (run_bind_ok hmay).trans ?_
  rw [← Session.run, run_bind_read rfl, run_bind_read rfl]
  rfl

theorem run_moveFolder_refused (hvalid : f.validateMove (parent.bind s.tables.folder?)
      (s.tables.descendantsOf id) (subtreeHeight (s.tables.pathsFrom id)) = .error e) :
    s.run stamp (moveFolder c actor id parent) = (.error (.ofHierarchy e), s) := by
  rw [run_moveFolder h hdepth hnamed hauthority hf, hvalid]
  rfl

theorem run_moveFolder_accepted (hvalid : f.validateMove (parent.bind s.tables.folder?)
      (s.tables.descendantsOf id) (subtreeHeight (s.tables.pathsFrom id)) = .ok depth) :
    ∃ g u, s.run stamp (moveFolder c actor id parent) = (.ok g, u) ∧
      s.tables.Moved u.tables id parent depth g := by
  have hnew : s.run stamp (requireNewParent parent) = _ := run_requireNewParent hnamed.2
  have hids := (requireNewParent_ok hnew).2
  have hm := relocates_of_checks h hf rfl hids hvalid
  have hrest : Yields stamp (relocate c actor id parent f (parent.bind s.tables.folder?)
      (s.tables.pathsFrom id) depth) s.tables _ _ := yields_relocate h hm hf hids
  obtain ⟨u, hrun, hu⟩ := hrest s rfl
  refine ⟨_, u, ?_, hu ▸ h.moved_moveFolder hm hf⟩
  rw [run_moveFolder h hdepth hnamed hauthority hf, hvalid]
  exact hrun

end

/-- The three ways in which a move turns out. -/
theorem moveFolder_cases (stamp : Stamp) :
    let place := placeDepth (parent.bind s.tables.folder?)
    let height := subtreeHeight (s.tables.pathsFrom id)
    (∃ p, parent = some p ∧ (forestOf s.tables.folders).Below id p ∧
      s.run stamp (moveFolder c actor id parent) = (.error (.circularMove id p), s)) ∨
    (∀ p, parent = some p → ¬ (forestOf s.tables.folders).Below id p) ∧
      (maxFolderDepth < place + height ∧ s.run stamp (moveFolder c actor id parent) =
        (.error (.maxDepthExceeded (place + height) maxFolderDepth), s) ∨
      place + height ≤ maxFolderDepth ∧ ∃ g u,
        s.run stamp (moveFolder c actor id parent) = (.ok g, u) ∧
          s.tables.Moved u.tables id parent place g) := by
  intro place height
  obtain ⟨f, hf⟩ := Option.isSome_iff_exists.mp hnamed.1
  by_cases hin : ∃ p, parent = some p ∧ (forestOf s.tables.folders).Below id p
  · obtain ⟨p, rfl, hbelow⟩ := hin
    have hvalid := h.validateMove_inside hf height (hnamed.2 p rfl) hbelow
    exact .inl ⟨p, rfl, hbelow, run_moveFolder_refused h hdepth hnamed hauthority hf hvalid⟩
  · have hout (p : Uuid) (hp : parent = some p) :
        ¬ (forestOf s.tables.folders).Below id p := fun hbelow => hin ⟨p, hp, hbelow⟩
    have hvalid := h.validateMove_outside hf height hout
    refine .inr ⟨hout, ?_⟩
    split at hvalid
    · rename_i hdeep
      exact .inl ⟨hdeep, run_moveFolder_refused h hdepth hnamed hauthority hf hvalid⟩
    · rename_i hfits
      exact .inr ⟨Nat.le_of_not_lt hfits,
        run_moveFolder_accepted h hdepth hnamed hauthority hf hvalid⟩

end

end Program

namespace World

/-- A move under the folder itself or under one below it is circular, one that would put a folder
deeper than the limit exceeds it, and every other one is carried out. -/
theorem relocations_exact {turns : List Turn} (h : ∀ t ∈ turns, t.event.viaCommands) {t : Turn}
    (hdepth : 21 ≤ t.maxDepth) {actor id : Uuid} {parent : Option Uuid} {before : Tables}
    (hcommand : t.event.command? = some (.moveFolder actor id parent))
    (hbefore : (after turns).tables? t.event = some before)
    (hnamed : Command.Named before (.moveFolder actor id parent))
    (hauthority : Command.Authorized before (.moveFolder actor id parent)) :
    ∃ (outcome : Except AccessError Folder) (audit : _) (height : Nat),
      ((after turns).turn t).1 = .answered (.moveFolder actor id parent) outcome audit ∧
      (forestOf before.folders).Height id height ∧
      (∀ p, outcome = .error (.circularMove id p) ↔
        parent = some p ∧ (forestOf before.folders).Below id p) ∧
      ((∀ p, parent = some p → ¬ (forestOf before.folders).Below id p) →
        let depth := placeDepth (parent.bind before.folder?)
        (outcome = .error (.maxDepthExceeded (depth + height) maxFolderDepth) ↔
          maxFolderDepth < depth + height) ∧
        (depth + height ≤ maxFolderDepth → ∃ f later, outcome = .ok f ∧
          ((after turns).turn t).2.tables? t.event = some later ∧
          before.Moved later id parent depth f)) := by
  have hcoherent := (all_coherent h).tables hbefore
  obtain ⟨c, s, audit, hc, _, rfl, houtcome, hlater⟩ := runs_command hcommand hbefore
  have hheight := hcoherent.height_subtree hnamed.1
  have hcases := Program.moveFolder_cases hcoherent (hc ▸ hdepth) hnamed hauthority t.stamp
  rw [Command.body] at houtcome hlater
  obtain ⟨p, rfl, hin, hrun⟩ | ⟨hout, hrest⟩ := hcases
  · rw [hrun] at houtcome
    refine ⟨_, audit, _, houtcome, hheight, ?_, fun hout => absurd hin (hout p rfl)⟩
    intro p'
    constructor
    · intro he
      cases he
      exact ⟨rfl, hin⟩
    · intro hinside
      cases hinside.1
      rfl
  · have hno (p : Uuid) : ¬ (parent = some p ∧ (forestOf s.tables.folders).Below id p) :=
      fun hinside => hout p hinside.1 hinside.2
    obtain ⟨hdeep, hrun⟩ | ⟨hfits, f, u, hrun, hmoved⟩ := hrest
    · rw [hrun] at houtcome
      refine ⟨_, audit, _, houtcome, hheight, fun p => by simp [hno p], ?_⟩
      intro _
      exact ⟨iff_of_true rfl hdeep, fun hfits => absurd hdeep (Nat.not_lt.mpr hfits)⟩
    · rw [hrun] at houtcome hlater
      refine ⟨_, audit, _, houtcome, hheight, fun p => by simp [hno p], ?_⟩
      intro _
      refine ⟨iff_of_false (by simp) (Nat.not_lt.mpr hfits), ?_⟩
      intro _
      exact ⟨f, u.tables, rfl, hlater rfl, hmoved⟩

/-- Two roots, and a folder with one more folder below it under the first. -/
def shelving : List Turn :=
  let tenant := Uuid.ofNat 7
  let user := Uuid.ofNat 50
  [⟨21, ⟨.ofNat 1, 100⟩, .command tenant (.createFolder user "work" none)⟩,
    ⟨21, ⟨.ofNat 2, 101⟩, .command tenant (.createFolder user "plans" (some (.ofNat 1)))⟩,
    ⟨21, ⟨.ofNat 3, 102⟩, .command tenant (.createFolder user "drafts" (some (.ofNat 2)))⟩,
    ⟨21, ⟨.ofNat 4, 103⟩, .command tenant (.createFolder user "archive" none)⟩]

/-- The owner puts the first root under another folder. -/
def refile (parent : Nat) : Turn :=
  ⟨21, ⟨.ofNat 5, 104⟩,
    .command (.ofNat 7) (.moveFolder (.ofNat 50) (.ofNat 1) (some (.ofNat parent)))⟩

theorem relocations_exact_shelving : (∀ t ∈ shelving, t.event.viaCommands) ∧
    let before := ((after shelving).shared.get (.ofNat 7)).tables
    (forestOf before.folders).Below (.ofNat 1) (.ofNat 3) ∧
    ∃ f later, ((after shelving).turn (refile 4)).2.tables? (refile 4).event = some later ∧
      before.Moved later (.ofNat 1) (some (.ofNat 4)) 1 f ∧
      later.folders.map (·.depth) = [1, 2, 3, 0] := by
  have hrun : ∀ t ∈ shelving, t.event.viaCommands := by decide
  let before := ((after shelving).shared.get (.ofNat 7)).tables
  have hnamed (parent : Nat) (h : (before.folder? (.ofNat parent)).isSome) : Command.Named before
      (.moveFolder (.ofNat 50) (.ofNat 1) (some (.ofNat parent))) := by
    have hlives : (before.folder? (.ofNat 1)).isSome := by decide
    refine ⟨hlives, ?_⟩
    intro p hp
    cases hp
    exact h
  have hauthority (parent : Nat) (h : before.Owns (.ofNat 50) (.folder (.ofNat parent))) :
      Command.Authorized before
        (.moveFolder (.ofNat 50) (.ofNat 1) (some (.ofNat parent))) := by
    have hfolder : before.Owns (.ofNat 50) (.folder (.ofNat 1)) := by decide
    exact ⟨hfolder.atLeast _, h.atLeast _⟩
  have hbelow : (forestOf before.folders).Below (.ofNat 1) (.ofNat 3) := by
    obtain ⟨outcome, audit, height, hturn, _, hcircular, _⟩ :=
      relocations_exact hrun (t := refile 3) (by decide) rfl rfl (hnamed 3 (by decide))
        (hauthority 3 (by decide))
    have houtcome : outcome = .error (.circularMove (.ofNat 1) (.ofNat 3)) := by
      injection hturn with _ h
      exact h.symm
    exact ((hcircular _).mp houtcome).2
  refine ⟨hrun, hbelow, ?_⟩
  obtain ⟨outcome, audit, height, hturn, _, hcircular, hfits⟩ :=
    relocations_exact hrun (t := refile 4) (by decide) rfl rfl (hnamed 4 (by decide))
      (hauthority 4 (by decide))
  rcases outcome with e | f
  · injection hturn with _ h
    cases h
  · have hout (p : Uuid) (hp : some (Uuid.ofNat 4) = some p) :
        ¬ (forestOf before.folders).Below (.ofNat 1) p := by
      intro hbelow
      cases (hcircular p).mpr ⟨hp, hbelow⟩
    obtain ⟨hdeep, hdone⟩ := hfits hout
    have hle := Nat.le_of_not_lt (mt hdeep.mpr (by simp))
    obtain ⟨g, later, hg, hlater, hmoved⟩ := hdone hle
    have hdepths : later.folders.map (·.depth) = [1, 2, 3, 0] := by
      cases hlater
      decide
    exact ⟨g, later, hlater, hmoved, hdepths⟩

end World

end DriveAccess
