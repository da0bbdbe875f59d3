import DriveAccess.Proofs.Resolution.Frames
import DriveAccess.Proofs.Resolution.Grants
import DriveAccess.Proofs.Resolution.Moves
import DriveAccess.Proofs.Runs.Commands
/-!
What users can do to their own access. Only by moving a folder into one that they own can they come
to more than they had.
-/
namespace DriveAccess

/-- On whose behalf a command changes files, folders or access to them. -/
def Command.issuer? : Command → Option Uuid
  | grantRole _ _ _ user | revokeGrant _ user | transferOwnership user _ _ | createFolder user _ _
  | moveFolder user _ _ | deleteFolder user _ | registerFile user _ _ | deleteFile user _ =>
    some user
  | _ => none

namespace Tables

variable {t t' : Tables} {stamp : Stamp} {user id x : Uuid} {q : Option Uuid} {depth : Nat}
  {d : Resource}

/-- Who moves a folder that they manage gains on what is below it only by owning the new parent. -/
theorem Coherent.moveFolder_raises (h : t.Coherent) (hm : t.Relocates id (some x) depth)
    (hmanages : t.AtLeast .contentManager user (.folder id)) (hd : t.Within d (.folder id)) :
    Role.height ((t.moveFolder stamp id (some x) depth).effectiveRole user d) ≤
        Role.height (t.effectiveRole user d) ∨
      t.effectiveRole user (.folder x) = some .owner ∧
        t.effectiveRole user d = some .contentManager ∧
        (t.moveFolder stamp id (some x) depth).effectiveRole user d = some .owner := by
  -- what is held between `d` and the folder counted before the move as well, so that any gain comes
  -- from the new parent, and who has more than a manager there is its owner
  have hsegment : Role.height (t.roleAmong user fun a => t.Within d a ∧ t.Within a (.folder id)) ≤
      Role.height (t.effectiveRole user d) :=
    height_roleAmong_mono fun a role ha hheld => ⟨ha.1, hheld⟩
  have hbelow : Role.contentManager.level ≤ Role.height (t.effectiveRole user d) :=
    Nat.le_trans hmanages (height_effectiveRole_le hd)
  have htop := Role.height_le (t.effectiveRole user (.folder x))
  have hmanager : Role.height (some .contentManager) = 3 := rfl
  have howner : Role.height (some .owner) = 4 := rfl
  simp only [Role.height_some] at hmanager howner
  rw [h.effectiveRole_moveFolder_of_within hm hd]
  by_cases hle : Role.height (t.effectiveRole user (.folder x)) ≤
      Role.height (t.effectiveRole user d)
  · left
    rw [Option.bind_some, Role.height_higher]
    omega
  · right
    have hx : t.effectiveRole user (.folder x) = some .owner := by
      apply Role.height_inj
      simp only [Role.height_some]
      omega
    refine ⟨hx, ?_, ?_⟩
    · apply Role.height_inj
      simp only [Role.height_some]
      omega
    · rw [Option.bind_some, hx, Role.higher_owner]

end Tables

/-- A command raises no role of the one who issues it, unless it moves a folder into one that they
own. -/
theorem Command.Effect.raises {stamp : Stamp} {c : Context} {t t' : Tables} {command : Command}
    {answer : command.Answer} {user : Uuid} {d : Resource}
    (heffect : command.Effect stamp c t answer t') (h : t.Coherent)
    (hauthorized : command.Authorized t) (hissuer : command.issuer? = some user)
    (hd : t.Exists d) :
    Role.height (t'.effectiveRole user d) ≤ Role.height (t.effectiveRole user d) ∨
      ∃ folder p, command = .moveFolder user folder (some p) ∧ t.Within d (.folder folder) ∧
        t.effectiveRole user (.folder p) = some .owner ∧
        t.effectiveRole user d = some .contentManager ∧ t'.effectiveRole user d = some .owner := by
  cases command with
  | checkAccess | collectPermissions | effectiveRole | canGrantRole | authorizeShare | isInSubtree
  | listGrants | verifyHierarchy | addGroupMember | removeGroupMember => cases hissuer
  | grantRole r grantee role grantedBy =>
    obtain rfl := Option.some.inj hissuer
    obtain ⟨rfl, _, rfl⟩ := heffect
    left
    let grant : Grant := ⟨c.stamp.id, r, grantee, role, grantedBy, c.stamp.time⟩
    have hle : grant.role.level ≤ Role.height (t.effectiveRole grantedBy grant.resource) :=
      Nat.le_of_lt hauthorized
    exact Nat.le_of_eq (congrArg Role.height (Tables.effectiveRole_addGrant_of_le (g := grant) hle))
  | revokeGrant id revokedBy =>
    obtain ⟨_, rfl⟩ := heffect
    exact .inl Tables.height_effectiveRole_dropGrant
  | transferOwnership actor r newOwner =>
    obtain rfl := Option.some.inj hissuer
    obtain ⟨_, hother, rfl⟩ := heffect
    left
    apply Tables.height_effectiveRole_handOver
    intro he
    exact hother (he ▸ hauthorized)
  | createFolder owner name parent =>
    obtain ⟨hf, rfl⟩ := heffect
    exact .inl (h.height_effectiveRole_addFolder hf hd)
  | moveFolder actor folder parent =>
    obtain rfl := Option.some.inj hissuer
    obtain ⟨depth, hm, rfl, _⟩ := heffect
    obtain ⟨hmanages, hplace⟩ := hauthorized
    by_cases hwithin : t.Within d (.folder folder)
    · cases parent with
      | none =>
        left
        rw [Tables.effectiveRole_of_owns hwithin hplace]
        exact Role.height_le _
      | some p =>
        obtain hle | ⟨howner, hmanager, hnew⟩ := h.moveFolder_raises hm hmanages hwithin
        · exact .inl hle
        · exact .inr ⟨folder, p, rfl, hwithin, howner, hmanager, hnew⟩
    · left
      exact Nat.le_of_eq (congrArg Role.height (Tables.effectiveRole_moveFolder_of_not hwithin))
  | deleteFolder actor folder =>
    obtain ⟨_, rfl⟩ := heffect
    exact .inl Tables.height_effectiveRole_deleteTree
  | registerFile owner file folder =>
    obtain ⟨_, howner, _, rfl⟩ := heffect
    exact .inl (h.height_effectiveRole_addFile howner hd)
  | deleteFile actor file =>
    obtain rfl : t' = _ := heffect
    exact .inl Tables.height_effectiveRole_dropFiles

namespace World

theorem no_gain_except_by_annexing {turns : List Turn} (h : ∀ t ∈ turns, t.event.viaCommands)
    {t : Turn} (hdepth : 21 ≤ t.maxDepth) {command : Command} {answer : command.Answer}
    {before later : Tables} (hturn : (after turns).Succeeds t command answer before later)
    {user : Uuid} (hissuer : command.issuer? = some user) {d : Resource} (hd : before.Exists d) :
    ∃ old new, before.Answers (.effectiveRole user d) old ∧
      later.Answers (.effectiveRole user d) new ∧
      (Role.height new ≤ Role.height old ∨
        ∃ folder p, command = .moveFolder user folder (some p) ∧
          before.Within d (.folder folder) ∧
          before.Answers (.effectiveRole user (.folder p)) (some .owner) ∧
          old = some .contentManager ∧ new = some .owner) := by
  have hbefore := (all_coherent h).tables hturn.before
  have hauthorized := hturn.authorized hbefore hdepth
  obtain ⟨c, _, _, heffect⟩ := hturn.effect hbefore
  have hlater := heffect.coherent hbefore
  refine ⟨_, _, hbefore.answers_effectiveRole user d, hlater.answers_effectiveRole user d, ?_⟩
  obtain hle | ⟨folder, p, hmove, hwithin, howner, hmanager, hnew⟩ :=
    heffect.raises hbefore hauthorized hissuer hd
  · exact .inl hle
  · have hanswer := hbefore.answers_effectiveRole user (.folder p)
    rw [howner] at hanswer
    exact .inr ⟨folder, p, hmove, hwithin, hanswer, hmanager, hnew⟩

/-- A user becomes content manager of another's folder, and has a folder of their own. -/
def appointment : List Turn :=
  let tenant := Uuid.ofNat 7
  let owner := Uuid.ofNat 50
  let manager := Uuid.ofNat 51
  [⟨21, ⟨.ofNat 1, 100⟩, .command tenant (.createFolder owner "team" none)⟩,
    ⟨21, ⟨.ofNat 2, 101⟩,
      .command tenant (.grantRole (.folder (.ofNat 1)) (.user manager) .contentManager owner)⟩,
    ⟨21, ⟨.ofNat 3, 102⟩, .command tenant (.createFolder manager "mine" none)⟩,
    ⟨21, ⟨.ofNat 4, 103⟩, .command tenant (.addGroupMember (.ofNat 80) manager .member)⟩]

/-- The manager lets a group of theirs work in the folder. -/
def delegation : Turn :=
  ⟨21, ⟨.ofNat 5, 104⟩, .command (.ofNat 7)
    (.grantRole (.folder (.ofNat 1)) (.group (.ofNat 80)) .contributor (.ofNat 51))⟩

/-- The manager takes the folder into their own. -/
def annexation : Turn :=
  ⟨21, ⟨.ofNat 6, 105⟩, .command (.ofNat 7) (.moveFolder (.ofNat 51) (.ofNat 1) (some (.ofNat 3)))⟩

theorem no_gain_except_by_annexing_delegation : (∀ t ∈ appointment, t.event.viaCommands) ∧
    ∃ g before later,
      (after appointment).Succeeds delegation
        (.grantRole (.folder (.ofNat 1)) (.group (.ofNat 80)) .contributor (.ofNat 51)) g before
        later ∧
      before.Exists (.folder (.ofNat 1)) ∧
      ∃ old new, before.Answers (.effectiveRole (.ofNat 51) (.folder (.ofNat 1))) old ∧
        later.Answers (.effectiveRole (.ofNat 51) (.folder (.ofNat 1))) new ∧
        Role.height new ≤ Role.height old := by
  have hrun : ∀ t ∈ appointment, t.event.viaCommands := by decide
  have hturn : (after appointment).Succeeds delegation
      (.grantRole (.folder (.ofNat 1)) (.group (.ofNat 80)) .contributor (.ofNat 51)) _
      ((after appointment).shared.get (.ofNat 7)).tables
      (((after appointment).turn delegation).2.shared.get (.ofNat 7)).tables :=
    ⟨rfl, rfl, ⟨_, rfl⟩, rfl⟩
  have hexists : ((after appointment).shared.get (.ofNat 7)).tables.Exists (.folder (.ofNat 1)) :=
    ⟨.ofNat 50, by decide⟩
  obtain ⟨old, new, hold, hnew, hle | ⟨_, _, hmove, _⟩⟩ :=
    no_gain_except_by_annexing hrun (by decide) hturn rfl hexists
  · exact ⟨hrun, _, _, _, hturn, hexists, old, new, hold, hnew, hle⟩
  · cases hmove

/-- A move can make an owner of a content manager. -/
theorem manager_becomes_owner : (∀ t ∈ appointment, t.event.viaCommands) ∧
    ∃ f before later,
      (after appointment).Succeeds annexation
        (.moveFolder (.ofNat 51) (.ofNat 1) (some (.ofNat 3))) f before later ∧
      before.Exists (.folder (.ofNat 1)) ∧
      before.Answers (.effectiveRole (.ofNat 51) (.folder (.ofNat 1))) (some .contentManager) ∧
      later.Answers (.effectiveRole (.ofNat 51) (.folder (.ofNat 1))) (some .owner) ∧
      Role.height (some .contentManager) < Role.height (some .owner) := by
  have hrun : ∀ t ∈ appointment, t.event.viaCommands := by decide
  let moved : Folder := ⟨.ofNat 1, "team", some (.ofNat 3), .ofNat 50, 1, 100, 105⟩
  have hturn : (after appointment).Succeeds annexation
      (.moveFolder (.ofNat 51) (.ofNat 1) (some (.ofNat 3))) moved
      ((after appointment).shared.get (.ofNat 7)).tables
      (((after appointment).turn annexation).2.shared.get (.ofNat 7)).tables :=
    ⟨rfl, rfl, ⟨_, rfl⟩, rfl⟩
  have hbefore := (all_coherent hrun).tables hturn.before
  obtain ⟨_, _, _, heffect⟩ := hturn.effect hbefore
  have hlater := heffect.coherent hbefore
  exact ⟨hrun, moved, _, _, hturn, ⟨.ofNat 50, by decide⟩, hbefore.answers_of_told _ _ rfl,
    hlater.answers_of_told _ _ rfl, by decide⟩

end World

end DriveAccess
