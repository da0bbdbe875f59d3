import DriveAccess.Proofs.Resolution.Grants
import DriveAccess.Proofs.Runs.Commands
import DriveAccess.Proofs.Runs.Ledgers
/-!
What grants and revocations do to everybody's access, whatever has happened before.
-/
namespace DriveAccess

/-- Whether a command draws an identifier for what it makes. -/
def Command.draws : Command → Bool
  | grantRole _ _ _ _ | createFolder _ _ _ => true
  | _ => false

/-- The identifier that a turn draws. -/
def Turn.drawn? (t : Turn) : Option Uuid :=
  (t.event.command?.filter Command.draws).map fun _ => t.stamp.id

namespace Tables

/-- Each grant has an identifier of its own, which is among those drawn. -/
structure GrantsDrawn (ids : List Uuid) (t : Tables) : Prop where
  nodup : (t.grants.map (·.id)).Nodup
  drawn : ∀ g ∈ t.grants, g.id ∈ ids

variable {t t' : Tables} {ids more : List Uuid} {g : Grant}

theorem GrantsDrawn.mono (h : t.GrantsDrawn ids) (hmore : ids ⊆ more) : t.GrantsDrawn more :=
  ⟨h.nodup, fun g hg => hmore (h.drawn g hg)⟩

theorem GrantsDrawn.sublist (h : t.GrantsDrawn ids) (hsub : t'.grants.Sublist t.grants) :
    t'.GrantsDrawn ids :=
  ⟨h.nodup.sublist (hsub.map _), fun g hg => h.drawn g (hsub.subset hg)⟩

theorem GrantsDrawn.addGrant (h : t.GrantsDrawn ids) (hnew : g.id ∉ ids) :
    (t.addGrant g).GrantsDrawn (ids ++ [g.id]) where
  nodup := by
    rw [Tables.addGrant, List.map_append]
    refine nodup_snoc h.nodup fun hmem => ?_
    obtain ⟨k, hk, he⟩ : ∃ k ∈ t.grants, k.id = g.id := List.mem_map.mp hmem
    exact hnew (he ▸ h.drawn k hk)
  drawn k hk := by
    rcases List.mem_append.mp hk with hk | hk
    · exact List.mem_append_left _ (h.drawn k hk)
    · obtain rfl : k = g := by simpa using hk
      simp

end Tables

/-- Only granting adds a grant. -/
theorem Command.Effect.grants_sublist {stamp : Stamp} {c : Context} {t t' : Tables}
    {command : Command} {answer : command.Answer} (h : command.Effect stamp c t answer t')
    (hno : ∀ r grantee role grantedBy, command ≠ .grantRole r grantee role grantedBy) :
    t'.grants.Sublist t.grants := by
  cases command with
  | checkAccess | collectPermissions | effectiveRole | canGrantRole | authorizeShare | isInSubtree
  | listGrants | verifyHierarchy =>
    obtain rfl : t' = t := h
    exact List.Sublist.refl _
  | grantRole r grantee role grantedBy => exact absurd rfl (hno r grantee role grantedBy)
  | revokeGrant grant revokedBy =>
    obtain ⟨_, rfl⟩ := h
    exact List.filter_sublist
  | transferOwnership actor r newOwner =>
    obtain ⟨_, _, rfl⟩ := h
    exact List.Sublist.refl _
  | createFolder owner name parent =>
    obtain ⟨_, rfl⟩ := h
    exact List.Sublist.refl _
  | moveFolder actor folder newParent =>
    obtain ⟨_, _, rfl, _⟩ := h
    exact List.Sublist.refl _
  | deleteFolder actor folder =>
    obtain ⟨_, rfl⟩ := h
    exact List.filter_sublist.trans List.filter_sublist
  | registerFile owner file folder =>
    obtain ⟨_, _, _, rfl⟩ := h
    exact List.Sublist.refl _
  | deleteFile actor file =>
    obtain rfl : t' = _ := h
    exact List.filter_sublist
  | addGroupMember group user role =>
    obtain ⟨_, rfl⟩ := h
    exact List.Sublist.refl _
  | removeGroupMember group user =>
    obtain rfl : t' = _ := h
    exact List.Sublist.refl _

namespace World

/-- As long as no identifier is drawn twice, no two grants have the same. -/
theorem all_grantsDrawn {turns : List Turn} (h : ∀ t ∈ turns, t.event.viaCommands)
    (hfresh : (turns.filterMap Turn.drawn?).Nodup) :
    (after turns).All fun t => t.Coherent ∧ t.GrantsDrawn (turns.filterMap Turn.drawn?) := by
  induction turns using List.reverseRecOn with
  | nil => exact all_start ⟨Tables.coherent_empty, .nil, by simp⟩
  | append_singleton turns t ih =>
    rw [List.filterMap_append] at hfresh ⊢
    obtain ⟨hold, _, hnew⟩ := List.nodup_append.mp hfresh
    have hbefore := ih (fun u hu => h u (by simp [hu])) hold
    have hkeep (tables : Tables) (ht : tables.GrantsDrawn (turns.filterMap Turn.drawn?)) :
        tables.GrantsDrawn (turns.filterMap Turn.drawn? ++ [t].filterMap Turn.drawn?) :=
      ht.mono (List.subset_append_left _ _)
    rw [after_snoc]
    refine hbefore.turn (fun tables ht => ⟨ht.1, hkeep tables ht.2⟩) ?_ (h t (by simp))
    intro command hcommand tenant s hs
    refine ⟨command.run_coherent hs.1, Command.run_keeps hs.1 (hkeep _ hs.2) ?_⟩
    intro answer t' heffect
    -- a grant takes the identifier of its own turn, and no other command adds one
    by_cases hgrant : ∃ r grantee role grantedBy, command = .grantRole r grantee role grantedBy
    · obtain ⟨r, grantee, role, grantedBy, rfl⟩ := hgrant
      obtain ⟨rfl, _, rfl⟩ := heffect
      have hdrawn : [t].filterMap Turn.drawn? = [t.stamp.id] := by
        simp [Turn.drawn?, hcommand, Command.draws]
      rw [hdrawn] at hnew ⊢
      let g : Grant := ⟨t.stamp.id, r, grantee, role, grantedBy, t.stamp.time⟩
      exact hs.2.addGrant (g := g) fun hmem => hnew _ hmem t.stamp.id (by simp) rfl
    · have hsub := heffect.grants_sublist fun r grantee role grantedBy he =>
        hgrant ⟨r, grantee, role, grantedBy, he⟩
      exact (hkeep _ hs.2).sublist hsub

theorem grants_exact {turns : List Turn} (h : ∀ t ∈ turns, t.event.viaCommands) {t : Turn}
    (hdepth : 21 ≤ t.maxDepth) :
    (∀ r grantee role grantedBy g before later,
      (after turns).Succeeds t (.grantRole r grantee role grantedBy) g before later →
        (∀ user d, ∃ old, before.Answers (.effectiveRole user d) old ∧
          (before.Reaches user grantee ∧ before.Within d r →
            later.Answers (.effectiveRole user d) (Role.higher old (some role))) ∧
          (¬ (before.Reaches user grantee ∧ before.Within d r) →
            later.Answers (.effectiveRole user d) old) ∧
          (user = grantedBy → later.Answers (.effectiveRole user d) old)) ∧
        ∀ d, d ≠ r → ∃ grants, before.Answers (.listGrants d) grants ∧
          later.Answers (.listGrants d) grants) ∧
    ((turns.filterMap Turn.drawn?).Nodup →
      ∀ id revokedBy g before later,
        (after turns).Succeeds t (.revokeGrant id revokedBy) g before later →
          (∀ user d, ∃ old new, before.Answers (.effectiveRole user d) old ∧
            later.Answers (.effectiveRole user d) new ∧ Role.height new ≤ Role.height old ∧
            (¬ (before.Reaches user g.grantee ∧ before.Within d g.resource) → new = old)) ∧
          ∀ d, d ≠ g.resource → ∃ grants, before.Answers (.listGrants d) grants ∧
            later.Answers (.listGrants d) grants) := by
  constructor
  · intro r grantee role grantedBy g before later hturn
    have hbefore := (all_coherent h).tables hturn.before
    obtain ⟨c, _, _, heffect⟩ := hturn.effect hbefore
    have hlater := heffect.coherent hbefore
    obtain ⟨rfl, _, rfl⟩ := heffect
    let grant : Grant := ⟨c.stamp.id, r, grantee, role, grantedBy, c.stamp.time⟩
    have habove : grant.role.level < Role.height (before.effectiveRole grantedBy grant.resource) :=
      hturn.authorized hbefore hdepth
    refine ⟨fun user d => ⟨_, hbefore.answers_effectiveRole user d, ?_, ?_, ?_⟩, ?_⟩
    · intro hcovers
      have hroles := hlater.answers_effectiveRole user d
      rwa [Tables.effectiveRole_addGrant_of_covers (g := grant) hcovers] at hroles
    · intro hcovers
      have hroles := hlater.answers_effectiveRole user d
      rwa [Tables.effectiveRole_addGrant_of_not_covers (g := grant) hcovers] at hroles
    · intro huser
      subst huser
      have hroles := hlater.answers_effectiveRole user d
      rwa [Tables.effectiveRole_addGrant_of_le (Nat.le_of_lt habove)] at hroles
    · intro d hd
      refine ⟨_, Tables.answers_listGrants d, ?_⟩
      rw [← Tables.grantsFor_addGrant (g := grant) (Ne.symm hd)]
      exact Tables.answers_listGrants d
  · intro hfresh id revokedBy g before later hturn
    obtain ⟨hbefore, hdrawn⟩ := (all_grantsDrawn h hfresh).tables hturn.before
    obtain ⟨c, _, _, heffect⟩ := hturn.effect hbefore
    have hlater := heffect.coherent hbefore
    obtain ⟨hg, rfl⟩ := heffect
    have hone (k : Grant) (hk : k ∈ before.grants) (hid : k.id = id) : k = g :=
      Tables.eq_of_grant? hdrawn.nodup hg hk hid
    constructor
    · intro user d
      refine ⟨_, _, hbefore.answers_effectiveRole user d, hlater.answers_effectiveRole user d,
        Tables.height_effectiveRole_dropGrant, ?_⟩
      intro hcovers
      apply Tables.effectiveRole_dropGrant_of_not_covers
      intro k hk hid
      rwa [hone k hk hid]
    · intro d hd
      refine ⟨_, Tables.answers_listGrants d, ?_⟩
      have hsame : (before.dropGrant id).grantsFor d = before.grantsFor d := by
        apply Tables.grantsFor_dropGrant
        intro k hk hid
        rw [hone k hk hid]
        exact Ne.symm hd
      rw [← hsame]
      exact Tables.answers_listGrants d

/-- The owner lets somebody see a folder. -/
def invitation : Turn :=
  ⟨21, ⟨.ofNat 30, 300⟩, .command (.ofNat 7)
    (.grantRole (.folder (.ofNat 1)) (.user (.ofNat 52)) .viewer (.ofNat 50))⟩

/-- The owner takes back what a group was granted. -/
def dismissal : Turn :=
  ⟨21, ⟨.ofNat 31, 301⟩, .command (.ofNat 7) (.revokeGrant (.ofNat 10) (.ofNat 50))⟩

theorem grants_exact_rehearsal : (∀ t ∈ rehearsal, t.event.viaCommands) ∧
    (rehearsal.filterMap Turn.drawn?).Nodup ∧
    (∃ g before later,
      (after rehearsal).Succeeds invitation
        (.grantRole (.folder (.ofNat 1)) (.user (.ofNat 52)) .viewer (.ofNat 50)) g before later ∧
      ∃ old, before.Answers (.effectiveRole (.ofNat 52) (.file (.ofNat 60))) old ∧
        later.Answers (.effectiveRole (.ofNat 52) (.file (.ofNat 60)))
          (Role.higher old (some .viewer))) ∧
    ∃ g before later,
      (after rehearsal).Succeeds dismissal (.revokeGrant (.ofNat 10) (.ofNat 50)) g before later ∧
      ∃ grants, before.Answers (.listGrants (.folder (.ofNat 1))) grants ∧
        later.Answers (.listGrants (.folder (.ofNat 1))) grants := by
  have hrun : ∀ t ∈ rehearsal, t.event.viaCommands := by decide
  have hfresh : (rehearsal.filterMap Turn.drawn?).Nodup := by decide
  refine ⟨hrun, hfresh, ?_, ?_⟩
  · have hturn : (after rehearsal).Succeeds invitation _ _
        ((after rehearsal).shared.get (.ofNat 7)).tables
        (((after rehearsal).turn invitation).2.shared.get (.ofNat 7)).tables :=
      ⟨rfl, rfl, ⟨_, rfl⟩, rfl⟩
    have hreaches : ((after rehearsal).shared.get (.ofNat 7)).tables.Reaches (.ofNat 52)
        (.user (.ofNat 52)) := .inl rfl
    have hwithin : ((after rehearsal).shared.get (.ofNat 7)).tables.Within (.file (.ofNat 60))
        (.folder (.ofNat 1)) := by
      have hfile : Tables.LiesIn ((after rehearsal).shared.get (.ofNat 7)).tables
          (.file (.ofNat 60)) (.folder (.ofNat 4)) := by
        rw [Tables.LiesIn]
        decide
      have hfolder : Tables.LiesIn ((after rehearsal).shared.get (.ofNat 7)).tables
          (.folder (.ofNat 4)) (.folder (.ofNat 1)) := by
        rw [Tables.LiesIn]
        decide
      exact hfolder.within.below hfile
    obtain ⟨hroles, _⟩ := (grants_exact hrun (t := invitation) (by decide)).1 _ _ _ _ _ _ _ hturn
    obtain ⟨old, hold, hnew, _⟩ := hroles (.ofNat 52) (.file (.ofNat 60))
    exact ⟨_, _, _, hturn, old, hold, hnew ⟨hreaches, hwithin⟩⟩
  · have hturn : (after rehearsal).Succeeds dismissal _ _
        ((after rehearsal).shared.get (.ofNat 7)).tables
        (((after rehearsal).turn dismissal).2.shared.get (.ofNat 7)).tables :=
      ⟨rfl, rfl, ⟨_, rfl⟩, rfl⟩
    obtain ⟨_, hlists⟩ :=
      (grants_exact hrun (t := dismissal) (by decide)).2 hfresh _ _ _ _ _ hturn
    exact ⟨_, _, _, hturn, hlists (.folder (.ofNat 1)) (by decide)⟩

end World

end DriveAccess
