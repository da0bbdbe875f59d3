import DriveAccess.Proofs.Dialogues
import DriveAccess.Proofs.Roles
import DriveAccess.Resolver
/-!
The two traversals of the parent chain. One of them joins the permissions of the roles that it
meets, the other keeps the highest of these roles; otherwise they are the same program.
-/
namespace DriveAccess

open Dialogue

/-- The permissions of many roles are those of the highest among them. -/
theorem Role.permits_highest (roles : List Role) :
    Role.permits (Role.highest roles) = Resolver.unionOf roles := by
  have grow (found : Option Role) :
      Role.permits (roles.foldl (fun best r => Role.higher best (some r)) found) =
        roles.foldl (fun held r => held ∪ r.permissions) (Role.permits found) := by
    induction roles generalizing found with
    | nil => rfl
    | cons r rest ih =>
      rw [List.foldl_cons, List.foldl_cons, ih, Role.permits_higher]
      rfl
  exact grow none

namespace Resolver

variable {limit visits : Nat} {user : Uuid} {groups : List Uuid} {found : Option Role}
  {held : PermissionSet} {r : Resource} {p : Permission}

/-- One visit of a traversal: an owner has all that there is to have; for anybody else the roles
granted here are added, and the traversal goes on from the parent. -/
def visit {α : Type} (user : Uuid) (groups : List Uuid) (r : Resource) (top : α)
    (adds : List Role → α) (goOn : α → Resource → Resolution α) : Resolution α := do
  if ← isOwner user r then
    return top
  let above := adds (← directRoles user groups r)
  match ← parentOf r with
  | none => return above
  | some p => goOn above p

theorem permissionsOn_succ : permissionsOn limit user groups (visits + 1) held r =
    visit user groups r Role.owner.permissions (fun roles => held ∪ unionOf roles)
      (permissionsOn limit user groups visits) := rfl

theorem roleOn_succ : roleOn limit user groups (visits + 1) found r =
    visit user groups r (some .owner) (fun roles => Role.higher found (Role.highest roles))
      (roleOn limit user groups visits) := rfl

theorem map_visit {α β : Type} (g : α → β) {top : α} {adds : List Role → α}
    {goOn : α → Resource → Resolution α} {goOn' : β → Resource → Resolution β}
    (h : ∀ a p, g <$> goOn a p = goOn' (g a) p) : g <$> visit user groups r top adds goOn =
      visit user groups r (g top) (fun roles => g (adds roles)) goOn' := by
  rw [visit, visit, map_bind]
  congr 1
  funext owns
  cases owns with
  | true => rfl
  | false =>
    change g <$> (directRoles user groups r >>= _) = directRoles user groups r >>= _
    rw [map_bind]
    congr 1
    funext roles
    rw [map_bind]
    congr 1
    funext parent
    cases parent with
    | none => rfl
    | some p => exact h _ p

theorem permissionsOn_eq : permissionsOn limit user groups visits (Role.permits found) r =
    Role.permits <$> roleOn limit user groups visits found r := by
  induction visits generalizing found r with
  | zero => rfl
  | succ visits ih =>
    rw [permissionsOn_succ, roleOn_succ, map_visit Role.permits fun _ _ => ih.symm]
    congr 1
    funext roles
    rw [Role.permits_higher, Role.permits_highest]

/-- Collecting permissions is finding the effective role and reading its permissions off. -/
theorem collectPermissions_eq :
    collectPermissions limit user r = Role.permits <$> effectiveRole limit user r := by
  rw [collectPermissions, effectiveRole, map_bind]
  congr 1
  funext groups
  have hstart : Role.permits none = ∅ := rfl
  rw [← hstart, permissionsOn_eq]

theorem hasPermission_eq : hasPermission limit user r p =
    (fun a => (Role.permits a).contains p) <$> effectiveRole limit user r := by
  rw [hasPermission, collectPermissions_eq]
  exact bind_assoc _ _ _

/-- What the two traversals have in common in some surroundings: the questions, the error, and a
role with its permissions. -/
structure Agree {σ : Type} (answer : Answerer Lookup Lookup.Reply ResolveError σ) (s : σ)
    (limit : Nat) (user : Uuid) (r : Resource) : Prop where
  asked : (collectPermissions limit user r).asked answer s =
    (effectiveRole limit user r).asked answer s
  error : ∀ e u, (collectPermissions limit user r).run answer s = (.error e, u) ↔
    (effectiveRole limit user r).run answer s = (.error e, u)
  ok : ∀ a u, (effectiveRole limit user r).run answer s = (.ok a, u) →
    (collectPermissions limit user r).run answer s = (.ok (Role.permits a), u)
  carries : ∀ p u, (hasPermission limit user r p).run answer s = (.ok true, u) ↔
    ∃ a, (effectiveRole limit user r).run answer s = (.ok (some a), u) ∧ a.hasPermission p = true

/-- The surroundings may answer by all that they were asked so far, contradict themselves and
refuse: the two traversals come out alike. -/
theorem traversals_agree {σ : Type} (answer : Answerer Lookup Lookup.Reply ResolveError σ) (s : σ)
    (limit : Nat) (user : Uuid) (r : Resource) : Agree answer s limit user r where
  asked := by rw [collectPermissions_eq, asked_map]
  error e u := by
    rw [collectPermissions_eq, run_map]
    rcases (effectiveRole limit user r).run answer s with ⟨e' | a, u'⟩ <;> simp [Except.map]
  ok a u h := by
    rw [collectPermissions_eq, run_map, h]
    rfl
  carries p u := by
    rw [hasPermission_eq, run_map]
    rcases (effectiveRole limit user r).run answer s with ⟨e | a, u'⟩
    · simp [Except.map]
    · cases a with
      | none =>
        have hnone : (Role.permits none).contains p = false := rfl
        simp [Except.map, hnone]
      | some a =>
        have hsome : (Role.permits (some a)).contains p = a.hasPermission p := rfl
        simp only [Except.map, hsome, Prod.mk.injEq, Except.ok.injEq, Option.some.injEq]
        constructor
        · intro h
          exact ⟨a, ⟨rfl, h.2⟩, h.1⟩
        · rintro ⟨_, ⟨rfl, hu⟩, hp⟩
          exact ⟨hp, hu⟩

end Resolver

end DriveAccess
