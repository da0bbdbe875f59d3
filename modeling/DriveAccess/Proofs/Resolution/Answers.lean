import DriveAccess.Proofs.Access.Reads
import DriveAccess.Proofs.Resolution.Data
import DriveAccess.Proofs.Resolution.EffectiveRoles
/-!
The resolver on coherent tables: it always has an answer, and the answer is the role and the
permissions that the tables tell of.
-/
namespace DriveAccess

open Dialogue

namespace Tables

/-- What tables reply to a lookup. -/
def reply (t : Tables) : (l : Lookup) → l.Reply
  | .groupsOf user => (t.memberships.filter (·.user == user)).map (·.group)
  | .holds u => t.tuples.contains u
  | .rolesGranted r kind grantees => (t.grantsTo r kind grantees).map (·.role)
  | .parentOf r => (t.parentOf r.object).bind Resource.ofSubject?

variable {t : Tables} {user group : Uuid} {r p : Resource} {role : Role} {limit visits : Nat}
  {found : Option Role}

/-- What of the tables the resolver reads. -/
def data (t : Tables) : AccessData where
  tuples := t.tuples
  grants := t.grants.map fun g => (g.resource, g.grantee, g.role)
  memberships := t.memberships.map fun m => (m.group, m.user)

theorem data_parentOf : t.data.parentOf r = (t.parentOf r.object).bind Resource.ofSubject? := by
  have hselects : ((TupleFilter.ofObject r.object).withRelation .parent).selects =
      fun u => u.relation == .parent && u.object == r.object := by
    rw [TupleFilter.selects_ofObject_withRelation]
    funext u
    rw [Bool.decide_and]
    rfl
  rw [AccessData.parentOf, parentOf, tuplesWhere_eq, hselects, List.head?_filter, Option.bind_map]
  rfl

theorem reply_eq : t.reply = t.data.reply := by
  funext l
  cases l with
  | groupsOf user =>
    simp only [reply, AccessData.reply, AccessData.groupsOf, data, List.filter_map, List.map_map]
    rfl
  | holds u => rfl
  | rolesGranted r kind grantees =>
    simp only [reply, AccessData.reply, AccessData.rolesGranted, grantsTo, data, List.filter_map,
      List.map_map]
    rfl
  | parentOf r => exact data_parentOf.symm

theorem reply_holds : t.reply (.holds (.owner user r.object)) = true ↔ t.Owns user r :=
  List.contains_iff_mem

theorem data_reaches {g : Grantee} : t.data.Reaches user g ↔ t.Reaches user g := by
  simp [AccessData.Reaches, Reaches, data, and_assoc]

theorem mem_rolesFrom :
    role ∈ Resolver.rolesFrom t.reply user (t.reply (.groupsOf user)) r ↔
      ∃ g ∈ t.grants, g.resource = r ∧ g.role = role ∧ t.Reaches user g.grantee := by
  rw [reply_eq]
  refine AccessData.mem_rolesFrom.trans ?_
  simp only [AccessData.GrantedOn, data_reaches]
  constructor
  · rintro ⟨_, hg, hreach⟩
    obtain ⟨g, hmem, hassigned⟩ := List.mem_map.mp hg
    cases hassigned
    exact ⟨g, hmem, rfl, rfl, hreach⟩
  · rintro ⟨g, hg, rfl, rfl, hreach⟩
    exact ⟨g.grantee, List.mem_map.mpr ⟨g, hg, rfl⟩, hreach⟩

theorem grantedAmong_self : t.grantedAmong user (· = r) =
    Role.highest (Resolver.rolesFrom t.reply user (t.reply (.groupsOf user)) r) := by
  apply Role.eq_of_reaches
  intro n
  rw [le_height_grantedAmong, Role.le_height_highest]
  apply or_congr_right
  simp only [mem_rolesFrom]
  constructor
  · intro hgrant
    obtain ⟨g, hg, hr, hreach, hle⟩ := hgrant
    exact ⟨g.role, ⟨g, hg, hr, rfl, hreach⟩, hle⟩
  · intro hrole
    obtain ⟨_, ⟨g, hg, hr, rfl, hreach⟩, hle⟩ := hrole
    exact ⟨g, hg, hr, hreach, hle⟩

namespace Coherent

variable (h : t.Coherent)

include h

/-- What the resolver finds from a resource upwards is added to what it has found below. -/
theorem roleOn_told (hvisits : t.level r < visits) :
    (Resolver.roleOn limit user (t.reply (.groupsOf user)) visits found r).told t.reply =
      .ok (Role.higher found (t.effectiveRole user r)) := by
  -- each hop goes down a level, so that the visits do not run out before the chain ends
  induction visits generalizing found r with
  | zero => omega
  | succ visits ih =>
    rw [Resolver.roleOn_told_succ]
    split_ifs with howns
    · rw [effectiveRole_of_owns .refl (reply_holds.mp howns), Role.higher_owner]
    · have hself : t.roleAmong user (· = r) =
          Role.highest (Resolver.rolesFrom t.reply user (t.reply (.groupsOf user)) r) := by
        rw [roleAmong_self fun hr => howns (reply_holds.mpr hr), grantedAmong_self]
      dsimp only
      rw [← hself]
      cases hp : t.reply (.parentOf r) with
      | none =>
        have hroot (p : Resource) : ¬ t.LiesIn r p := by
          intro hin
          have hsome : t.reply (.parentOf r) = some p := h.parentOf_eq_some.mpr hin
          simp [hp] at hsome
        rw [effectiveRole_root hroot]
      | some p =>
        have hin : t.LiesIn r p := h.parentOf_eq_some.mp hp
        obtain ⟨_, _, _, hlevel⟩ := h.liesIn_folder hin
        rw [h.effectiveRole_parent hin, ← Role.higher_assoc]
        exact ih (by omega)

variable (hlimit : maxFolderDepth + 1 ≤ limit)

include hlimit

theorem effectiveRole_told :
    (Resolver.effectiveRole limit user r).told t.reply = .ok (t.effectiveRole user r) := by
  have hlevel := h.level_le r
  simp only [Resolver.effectiveRole, Resolver.groupsOf, told_bind, told_query]
  exact h.roleOn_told (by omega)

theorem collectPermissions_told : (Resolver.collectPermissions limit user r).told t.reply =
    .ok (Role.permits (t.effectiveRole user r)) := by
  rw [Resolver.collectPermissions_told, h.effectiveRole_told hlimit]
  rfl

theorem hasPermission_told {p : Permission} :
    (Resolver.hasPermission limit user r p).told t.reply =
      .ok (decide (p.least.level ≤ Role.height (t.effectiveRole user r))) := by
  have hheld : (Role.permits (t.effectiveRole user r)).contains p =
      decide (p.least.level ≤ Role.height (t.effectiveRole user r)) := by
    rw [Bool.eq_iff_iff, decide_eq_true_iff]
    exact Role.mem_permits
  rw [Resolver.hasPermission, told_bind, h.collectPermissions_told hlimit, ← hheld]
  rfl

theorem canGrantRole_told : (Resolver.canGrantRole limit user r role).told t.reply =
    .ok (decide (role ≠ .owner ∧ role.level < Role.height (t.effectiveRole user r))) := by
  have hgrants : (t.effectiveRole user r).any (·.canGrant role) =
      decide (role ≠ .owner ∧ role.level < Role.height (t.effectiveRole user r)) := by
    rw [Bool.eq_iff_iff, decide_eq_true_iff]
    exact Role.any_canGrant
  rw [Resolver.canGrantRole, told_bind, h.effectiveRole_told hlimit, ← hgrants]
  rfl

end Coherent

theorem isOwner_told :
    (Resolver.isOwner user r).told t.reply = .ok (decide (t.Owns user r)) := by
  rw [Resolver.isOwner, Resolver.holds, told_query]
  congr 1
  rw [Bool.eq_iff_iff, decide_eq_true_iff]
  exact reply_holds

end Tables

namespace Program

variable {α : Type} {stamp : Stamp} {s : Session}

/-- In a session the resolver reads the session's tables and is refused nothing. -/
theorem run_resolve (d : Resolution α) :
    s.run stamp (resolve d) = ((d.told s.tables.reply).mapError .resolve, s) := by
  apply run_rephrase
  intro l
  refine ⟨s.tables.reply l, ?_, rfl⟩
  cases l with
  | groupsOf user =>
    rw [Tables.reply, Tables.memberships, List.filter_map]
    rfl
  | holds _ | rolesGranted _ _ _ | parentOf _ => rfl

end Program

end DriveAccess
