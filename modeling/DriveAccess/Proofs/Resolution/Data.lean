import DriveAccess.Proofs.Resolution.Traversals
/-!
The resolver on fixed data. The chain of a resource goes from parent to parent, wherever the data
lead it: an owner met within the limit has every role, a chain that is longer is an error, and
otherwise the roles granted on the chain count.
-/
namespace DriveAccess

open Dialogue

namespace Resolver

variable {reply : (l : Lookup) → l.Reply} {limit visits : Nat} {user : Uuid} {groups : List Uuid}
  {found : Option Role} {r : Resource}

/-- The roles granted on a resource itself. -/
def rolesFrom (reply : (l : Lookup) → l.Reply) (user : Uuid) (groups : List Uuid) (r : Resource) :
    List Role :=
  reply (.rolesGranted r .user [user]) ++
    if groups.isEmpty then [] else reply (.rolesGranted r .group groups)

theorem directRoles_told :
    (directRoles user groups r).told reply = .ok (rolesFrom reply user groups r) := by
  simp only [directRoles, rolesGranted, told_bind, told_query, rolesFrom]
  change Dialogue.told reply (if _ then _ else _) = _
  split
  · simp
  · rfl

theorem visit_told {α : Type} {top : α} {adds : List Role → α}
    {goOn : α → Resource → Resolution α} : (visit user groups r top adds goOn).told reply =
    if reply (.holds (.owner user r.object)) then .ok top
    else
      let above := adds (rolesFrom reply user groups r)
      match reply (.parentOf r) with
      | none => .ok above
      | some p => (goOn above p).told reply := by
  rw [visit, told_bind]
  change Dialogue.told reply (if (reply (.holds _) : Bool) then _ else _) = _
  split
  · rfl
  · rw [told_bind, directRoles_told]
    change Dialogue.told reply (parentOf r >>= _) = _
    rw [told_bind, parentOf, told_query]
    cases reply (.parentOf r) <;> rfl

theorem roleOn_told_succ : (roleOn limit user groups (visits + 1) found r).told reply =
    if reply (.holds (.owner user r.object)) then .ok (some .owner)
    else
      let above := Role.higher found (Role.highest (rolesFrom reply user groups r))
      match reply (.parentOf r) with
      | none => .ok above
      | some p => (roleOn limit user groups visits above p).told reply := visit_told

theorem collectPermissions_told : (collectPermissions limit user r).told reply =
    ((effectiveRole limit user r).told reply).map Role.permits := by
  rw [collectPermissions_eq, told_map]

end Resolver

namespace AccessData

variable {d d' : AccessData} {user group : Uuid} {r a p : Resource} {role : Role}
  {grantee : Grantee} {limit visits hops : Nat} {groups : List Uuid} {found : Option Role}

/-- The resource so many hops above `r`, each to the resource that the first parent tuple names. -/
def ancestor (d : AccessData) : Nat → Resource → Option Resource
  | 0, r => some r
  | hops + 1, r => (d.parentOf r).bind (d.ancestor hops)

def Owns (d : AccessData) (user : Uuid) (r : Resource) : Prop :=
  Tuple.owner user r.object ∈ d.tuples

/-- A grant to a user reaches that user; a grant to a group reaches its members. -/
def Reaches (d : AccessData) (user : Uuid) (grantee : Grantee) : Prop :=
  grantee = .user user ∨ ∃ group, (group, user) ∈ d.memberships ∧ grantee = .group group

/-- A role is granted to a user on a resource itself. -/
def GrantedOn (d : AccessData) (user : Uuid) (r : Resource) (role : Role) : Prop :=
  ∃ grantee, (r, grantee, role) ∈ d.grants ∧ d.Reaches user grantee

/-- A role is granted to a user on the chain of a resource. -/
def Granted (d : AccessData) (user : Uuid) (r : Resource) (role : Role) : Prop :=
  ∃ hops a, d.ancestor hops r = some a ∧ d.GrantedOn user a role

/-- A user owns what is met on the chain of a resource within so many hops. -/
def OwnsWithin (d : AccessData) (limit : Nat) (user : Uuid) (r : Resource) : Prop :=
  ∃ hops a, hops ≤ limit ∧ d.ancestor hops r = some a ∧ d.Owns user a

theorem ancestor_succ (h : d.parentOf r = some p) :
    d.ancestor (hops + 1) r = d.ancestor hops p := by
  rw [ancestor, h, Option.bind_some]

theorem ancestor_succ_none (h : d.parentOf r = none) : d.ancestor (hops + 1) r = none := by
  rw [ancestor, h, Option.bind_none]

theorem mem_groupsOf : group ∈ d.groupsOf user ↔ (group, user) ∈ d.memberships := by
  simp [groupsOf, and_comm]

theorem mem_rolesGranted {kind : GranteeKind} {grantees : List Uuid} :
    role ∈ d.rolesGranted r kind grantees ↔
      ∃ x ∈ grantees, (r, ⟨kind, x⟩, role) ∈ d.grants := by
  simp only [rolesGranted, List.mem_map, List.mem_filter, Bool.and_eq_true, beq_iff_eq,
    List.contains_iff_mem]
  constructor
  · intro hrole
    obtain ⟨⟨_, ⟨_, x⟩, _⟩, ⟨hg, ⟨rfl, rfl⟩, hx⟩, rfl⟩ := hrole
    exact ⟨x, hx, hg⟩
  · intro hgrant
    obtain ⟨x, hx, hg⟩ := hgrant
    exact ⟨_, ⟨hg, ⟨rfl, rfl⟩, hx⟩, rfl⟩

theorem reply_holds : d.reply (.holds (.owner user r.object)) = true ↔ d.Owns user r :=
  List.contains_iff_mem

/-- Without groups nothing is granted to groups, so that the lookup may be left out. -/
theorem rolesFrom_reply : Resolver.rolesFrom d.reply user groups r =
    d.rolesGranted r .user [user] ++ d.rolesGranted r .group groups := by
  have hnone : d.rolesGranted r .group [] = [] := by
    rw [List.eq_nil_iff_forall_not_mem]
    intro role hrole
    obtain ⟨x, hx, _⟩ := mem_rolesGranted.mp hrole
    simp at hx
  cases groups with
  | nil => rw [hnone]; rfl
  | cons group rest => rfl

theorem mem_rolesFrom :
    role ∈ Resolver.rolesFrom d.reply user (d.groupsOf user) r ↔ d.GrantedOn user r role := by
  rw [rolesFrom_reply, List.mem_append, mem_rolesGranted, mem_rolesGranted]
  simp only [mem_groupsOf, List.mem_singleton, exists_eq_left]
  constructor
  · rintro (hown | ⟨group, hmember, hgroup⟩)
    · exact ⟨_, hown, .inl rfl⟩
    · exact ⟨_, hgroup, .inr ⟨group, hmember, rfl⟩⟩
  · rintro ⟨_, hg, rfl | ⟨group, hmember, rfl⟩⟩
    · exact .inl hg
    · exact .inr ⟨group, hmember, hg⟩

/-- What is granted on a chain is granted at its start or on the rest of it. -/
theorem granted_iff : d.Granted user r role ↔
    d.GrantedOn user r role ∨ ∃ p, d.parentOf r = some p ∧ d.Granted user p role := by
  constructor
  · rintro ⟨hops, a, ha, hrole⟩
    cases hops with
    | zero =>
      obtain rfl : r = a := Option.some.inj ha
      exact .inl hrole
    | succ hops =>
      obtain ⟨p, hp, ha⟩ := Option.bind_eq_some_iff.mp ha
      exact .inr ⟨p, hp, hops, a, ha, hrole⟩
  · rintro (hrole | ⟨p, hp, hops, a, ha, hrole⟩)
    · exact ⟨0, r, rfl, hrole⟩
    · exact ⟨hops + 1, a, (ancestor_succ hp).trans ha, hrole⟩

/-- An owner is met before the visits run out. -/
theorem roleOn_of_owns (hhops : hops < visits) (ha : d.ancestor hops r = some a)
    (howns : d.Owns user a) :
    (Resolver.roleOn limit user groups visits found r).told d.reply = .ok (some .owner) := by
  induction visits generalizing hops found r with
  | zero => omega
  | succ visits ih =>
    rw [Resolver.roleOn_told_succ]
    split
    · rfl
    · rename_i hnot
      cases hops with
      | zero =>
        obtain rfl : r = a := Option.some.inj ha
        exact absurd (reply_holds.mpr howns) hnot
      | succ hops =>
        obtain ⟨p, hp, ha⟩ := Option.bind_eq_some_iff.mp ha
        have hreply : d.reply (.parentOf r) = some p := hp
        rw [hreply]
        exact ih (by omega) ha

/-- One visit to what the user does not own. -/
theorem roleOn_visit (hnot : ¬ d.Owns user r) :
    (Resolver.roleOn limit user groups (visits + 1) found r).told d.reply =
      match d.parentOf r with
      | none => .ok (Role.higher found (Role.highest (Resolver.rolesFrom d.reply user groups r)))
      | some p => (Resolver.roleOn limit user groups visits
          (Role.higher found (Role.highest (Resolver.rolesFrom d.reply user groups r))) p).told
            d.reply := by
  have hreply : d.reply (.parentOf r) = d.parentOf r := rfl
  rw [Resolver.roleOn_told_succ, if_neg (mt reply_holds.mp hnot), hreply]
  cases d.parentOf r <;> rfl

/-- Nothing met in so many visits is owned by the user. -/
def OwnsNone (d : AccessData) (visits : Nat) (user : Uuid) (r : Resource) : Prop :=
  ∀ hops a, hops < visits → d.ancestor hops r = some a → ¬ d.Owns user a

theorem OwnsNone.here (h : d.OwnsNone (visits + 1) user r) : ¬ d.Owns user r :=
  h 0 r (Nat.zero_lt_succ visits) rfl

theorem OwnsNone.above (h : d.OwnsNone (visits + 1) user r) (hp : d.parentOf r = some p) :
    d.OwnsNone visits user p := by
  intro hops a hlt ha
  exact h (hops + 1) a (by omega) ((ancestor_succ hp).trans ha)

/-- On a chain that goes on after the last visit the resolver gives up. -/
theorem roleOn_of_deep (hnone : d.OwnsNone visits user r) (hdeep : (d.ancestor visits r).isSome) :
    (Resolver.roleOn limit user groups visits found r).told d.reply =
      .error (.maxDepthExceeded limit) := by
  induction visits generalizing found r with
  | zero => rfl
  | succ visits ih =>
    rw [roleOn_visit hnone.here]
    cases hp : d.parentOf r with
    | none => simp [ancestor_succ_none hp] at hdeep
    | some p =>
      rw [ancestor_succ hp] at hdeep
      exact ih (hnone.above hp) hdeep

/-- On a chain that ends before, what it finds reaches what was found below and what is granted on
the chain. -/
theorem roleOn_of_ends (hnone : d.OwnsNone visits user r) (hends : d.ancestor visits r = none) :
    ∃ role, (Resolver.roleOn limit user (d.groupsOf user) visits found r).told d.reply = .ok role ∧
      ∀ n, n ≤ Role.height role ↔
        n ≤ Role.height found ∨ n = 0 ∨ ∃ q, d.Granted user r q ∧ n ≤ q.level := by
  induction visits generalizing found r with
  | zero => cases hends
  | succ visits ih =>
    rw [roleOn_visit hnone.here]
    have hhere (n : Nat) : n ≤ Role.height (Role.higher found (Role.highest
        (Resolver.rolesFrom d.reply user (d.groupsOf user) r))) ↔
          n ≤ Role.height found ∨ n = 0 ∨ ∃ q, d.GrantedOn user r q ∧ n ≤ q.level := by
      simp only [Role.le_height_higher, Role.le_height_highest, mem_rolesFrom]
    cases hp : d.parentOf r with
    | none =>
      refine ⟨_, rfl, fun n => ?_⟩
      rw [hhere]
      simp only [granted_iff (r := r), hp, reduceCtorEq, false_and, exists_false, or_false]
    | some p =>
      rw [ancestor_succ hp] at hends
      obtain ⟨role, hrole, hreaches⟩ := ih (hnone.above hp) hends
      refine ⟨role, hrole, fun n => ?_⟩
      rw [hreaches, hhere]
      simp only [granted_iff (r := r), hp, Option.some.injEq, exists_eq_left', or_and_right,
        exists_or]
      grind

theorem effectiveRole_told : (Resolver.effectiveRole limit user r).told d.reply =
    (Resolver.roleOn limit user (d.groupsOf user) (limit + 1) none r).told d.reply := by
  simp only [Resolver.effectiveRole, Resolver.groupsOf, told_bind, told_query]
  rfl

/-- Two data sets tell of a user's access the same: what the chain is up to the limit, what of it
the user owns, which groups the user is in and what is granted on the chain to the user or these. -/
structure TellsSame (d : AccessData) (limit : Nat) (user : Uuid) (r : Resource)
    (d' : AccessData) : Prop where
  parentOf : ∀ hops a, hops ≤ limit → d.ancestor hops r = some a → d'.parentOf a = d.parentOf a
  owns : ∀ hops a, hops ≤ limit → d.ancestor hops r = some a → (d'.Owns user a ↔ d.Owns user a)
  member : ∀ group, (group, user) ∈ d'.memberships ↔ (group, user) ∈ d.memberships
  grants : ∀ hops a, hops ≤ limit → d.ancestor hops r = some a → ∀ grantee role,
    d.Reaches user grantee → ((a, grantee, role) ∈ d'.grants ↔ (a, grantee, role) ∈ d.grants)

namespace TellsSame

theorem above (h : d.TellsSame (limit + 1) user r d') (hp : d.parentOf r = some p) :
    d.TellsSame limit user p d' where
  parentOf hops a hle ha := h.parentOf (hops + 1) a (by omega) ((ancestor_succ hp).trans ha)
  owns hops a hle ha := h.owns (hops + 1) a (by omega) ((ancestor_succ hp).trans ha)
  member := h.member
  grants hops a hle ha := h.grants (hops + 1) a (by omega) ((ancestor_succ hp).trans ha)

theorem grantedOn (h : d.TellsSame limit user r d') :
    d'.GrantedOn user r role ↔ d.GrantedOn user r role := by
  refine exists_congr fun grantee => ?_
  have hreaches : d'.Reaches user grantee ↔ d.Reaches user grantee := by
    simp only [Reaches, h.member]
  rw [hreaches]
  exact and_congr_left (h.grants 0 r (Nat.zero_le limit) rfl grantee role)

theorem highest (h : d.TellsSame limit user r d') :
    Role.highest (Resolver.rolesFrom d'.reply user (d'.groupsOf user) r) =
      Role.highest (Resolver.rolesFrom d.reply user (d.groupsOf user) r) := by
  apply Role.eq_of_reaches
  intro n
  simp only [Role.le_height_highest, mem_rolesFrom, h.grantedOn]

theorem holds (h : d.TellsSame limit user r d') :
    d'.reply (.holds (.owner user r.object)) = d.reply (.holds (.owner user r.object)) := by
  rw [Bool.eq_iff_iff, reply_holds, reply_holds]
  exact h.owns 0 r (Nat.zero_le limit) rfl

theorem parent (h : d.TellsSame limit user r d') :
    d'.reply (.parentOf r) = d.reply (.parentOf r) := h.parentOf 0 r (Nat.zero_le limit) rfl

/-- The bound `m` goes into the error only. -/
theorem roleOn {m : Nat} (h : d.TellsSame limit user r d') :
    (Resolver.roleOn m user (d'.groupsOf user) (limit + 1) found r).told d'.reply =
      (Resolver.roleOn m user (d.groupsOf user) (limit + 1) found r).told d.reply := by
  induction limit generalizing found r with
  | zero =>
    rw [Resolver.roleOn_told_succ, Resolver.roleOn_told_succ, h.holds, h.highest, h.parent]
    rfl
  | succ limit ih =>
    rw [Resolver.roleOn_told_succ, Resolver.roleOn_told_succ, h.holds, h.highest, h.parent]
    split
    · rfl
    · cases hp : d.reply (.parentOf r) with
      | none => rfl
      | some p => exact ih (h.above hp)

theorem effectiveRole (h : d.TellsSame limit user r d') :
    (Resolver.effectiveRole limit user r).told d'.reply =
      (Resolver.effectiveRole limit user r).told d.reply := by
  rw [effectiveRole_told, effectiveRole_told]
  exact h.roleOn

end TellsSame

theorem run_answer {α : Type} (q : Resolution α) : q.run d.answer () = (q.told d.reply, ()) :=
  run_told (fun _ => rfl) q

theorem effectiveRole_of_ends (hnone : d.OwnsNone (limit + 1) user r)
    (hends : d.ancestor (limit + 1) r = none) :
    ∃ role, (Resolver.effectiveRole limit user r).told d.reply = .ok role ∧
      ∀ n, n ≤ Role.height role ↔ n = 0 ∨ ∃ q, d.Granted user r q ∧ n ≤ q.level := by
  obtain ⟨role, hrole, hreaches⟩ := roleOn_of_ends hnone hends
  refine ⟨role, effectiveRole_told.trans hrole, fun n => ?_⟩
  rw [hreaches, Role.height_none, Nat.le_zero, or_self_left]

theorem ownsNone_of_not (h : ¬ d.OwnsWithin limit user r) : d.OwnsNone (limit + 1) user r := by
  intro hops a hlt ha howns
  exact h ⟨hops, a, by omega, ha, howns⟩

/-- What the resolver finds out about a user and a resource. -/
structure Resolved (d : AccessData) (limit : Nat) (user : Uuid) (r : Resource) : Prop where
  owner : d.OwnsWithin limit user r →
    (Resolver.effectiveRole limit user r).run d.answer () = (.ok (some .owner), ()) ∧
    (Resolver.collectPermissions limit user r).run d.answer () = (.ok .full, ())
  deep : ¬ d.OwnsWithin limit user r → (d.ancestor (limit + 1) r).isSome →
    (Resolver.effectiveRole limit user r).run d.answer () =
      (.error (.maxDepthExceeded limit), ()) ∧
    (Resolver.collectPermissions limit user r).run d.answer () =
      (.error (.maxDepthExceeded limit), ())
  granted : ¬ d.OwnsWithin limit user r → d.ancestor (limit + 1) r = none →
    ∃ role held, (Resolver.effectiveRole limit user r).run d.answer () = (.ok role, ()) ∧
      (Resolver.collectPermissions limit user r).run d.answer () = (.ok held, ()) ∧
      Role.Greatest (d.Granted user r) role ∧
      ∀ p, p ∈ held ↔ ∃ q, d.Granted user r q ∧ p ∈ q.permissions
  /-- The order of the data, repetitions and what concerns others only have no part in it. -/
  same : ∀ d', d.TellsSame limit user r d' →
    (Resolver.effectiveRole limit user r).run d'.answer () =
      (Resolver.effectiveRole limit user r).run d.answer () ∧
    (Resolver.collectPermissions limit user r).run d'.answer () =
      (Resolver.collectPermissions limit user r).run d.answer ()

/-- The resolver does as much on all data, cycles and several parents of a resource included. -/
theorem resolved (d : AccessData) (limit : Nat) (user : Uuid) (r : Resource) :
    d.Resolved limit user r where
  owner howns := by
    obtain ⟨hops, a, hle, ha, howns⟩ := howns
    have hrole : (Resolver.effectiveRole limit user r).told d.reply = .ok (some .owner) :=
      effectiveRole_told.trans (roleOn_of_owns (Nat.lt_succ_of_le hle) ha howns)
    rw [run_answer, run_answer, Resolver.collectPermissions_told, hrole, ← Role.permissions_owner]
    exact ⟨rfl, rfl⟩
  deep hnot hdeep := by
    have hrole : (Resolver.effectiveRole limit user r).told d.reply =
        .error (.maxDepthExceeded limit) :=
      effectiveRole_told.trans (roleOn_of_deep (ownsNone_of_not hnot) hdeep)
    rw [run_answer, run_answer, Resolver.collectPermissions_told, hrole]
    exact ⟨rfl, rfl⟩
  granted hnot hends := by
    obtain ⟨role, hrole, hreaches⟩ := effectiveRole_of_ends (ownsNone_of_not hnot) hends
    refine ⟨role, Role.permits role, ?_, ?_, Role.greatest_of_reaches hreaches, fun p => ?_⟩
    · rw [run_answer, hrole]
    · rw [run_answer, Resolver.collectPermissions_told, hrole]
      rfl
    · have hpos : p.least.level ≠ 0 := Nat.ne_of_gt p.least.level_pos
      simp only [Role.mem_permits, Role.mem_permissions, hreaches, hpos, false_or]
  same d' htells := by
    have hrole := htells.effectiveRole
    simp only [run_answer, Resolver.collectPermissions_told, hrole, and_self]

end AccessData

end DriveAccess
