import DriveAccess.Proofs.Resolution.Chains
import DriveAccess.Proofs.Roles
/-!
The role that a user has on a resource, read off the tables: `owner` for who owns something on the
parent chain, else the highest role granted on the chain to the user or to a group of the user's.
-/
namespace DriveAccess

namespace Tables

def Owns (t : Tables) (user : Uuid) (r : Resource) : Prop := Tuple.owner user r.object ∈ t.tuples

instance (t : Tables) (user : Uuid) (r : Resource) : Decidable (t.Owns user r) :=
  inferInstanceAs (Decidable (_ ∈ _))

/-- A grant to a user reaches that user; a grant to a group reaches its members. -/
def Reaches (t : Tables) (user : Uuid) (g : Grantee) : Prop :=
  g = .user user ∨ ∃ m ∈ t.memberships, m.user = user ∧ g = .group m.group

open Classical in
/-- The highest role granted to a user on any of some resources. -/
noncomputable def grantedAmong (t : Tables) (user : Uuid) (among : Resource → Prop) :
    Option Role :=
  Role.highest ((t.grants.filter fun g => among g.resource ∧ t.Reaches user g.grantee).map
    (·.role))

open Classical in
/-- The role that a user holds on any of some resources. -/
noncomputable def roleAmong (t : Tables) (user : Uuid) (among : Resource → Prop) : Option Role :=
  if ∃ r, among r ∧ t.Owns user r then some .owner else t.grantedAmong user among

noncomputable def effectiveRole (t : Tables) (user : Uuid) (r : Resource) : Option Role :=
  t.roleAmong user (t.Within r)

/-- A user holds a role on a resource itself, whatever the parent chain passes down. -/
def Holds (t : Tables) (user : Uuid) (r : Resource) (role : Role) : Prop :=
  (role = .owner ∧ t.Owns user r) ∨
    ∃ g ∈ t.grants, g.resource = r ∧ g.role = role ∧ t.Reaches user g.grantee

variable {t t' : Tables} {user : Uuid} {among among' : Resource → Prop} {r p : Resource} {n : Nat}

theorem le_height_grantedAmong : n ≤ Role.height (t.grantedAmong user among) ↔
    n = 0 ∨ ∃ g ∈ t.grants, among g.resource ∧ t.Reaches user g.grantee ∧ n ≤ g.role.level := by
  simp only [grantedAmong, Role.le_height_highest, List.mem_map, List.mem_filter,
    decide_eq_true_eq]
  apply or_congr_right
  constructor
  · intro hrole
    obtain ⟨_, ⟨g, ⟨hg, hamong, hreach⟩, rfl⟩, hle⟩ := hrole
    exact ⟨g, hg, hamong, hreach, hle⟩
  · intro hgrant
    obtain ⟨g, hg, hamong, hreach, hle⟩ := hgrant
    exact ⟨g.role, ⟨g, ⟨hg, hamong, hreach⟩, rfl⟩, hle⟩

/-- The role among some resources is the highest that is held on one of them. -/
theorem le_height_roleAmong : n ≤ Role.height (t.roleAmong user among) ↔
    n = 0 ∨ ∃ r role, among r ∧ t.Holds user r role ∧ n ≤ role.level := by
  rw [roleAmong]
  split_ifs with howned
  · obtain ⟨r, hr, howns⟩ := howned
    simp only [Role.height_some]
    constructor
    · intro hle
      exact .inr ⟨r, .owner, hr, .inl ⟨rfl, howns⟩, hle⟩
    · intro hheld
      obtain rfl | ⟨_, role, _, _, hle⟩ := hheld
      · exact Nat.zero_le _
      · exact Nat.le_trans hle role.level_le
  · rw [le_height_grantedAmong]
    apply or_congr_right
    constructor
    · intro hgrant
      obtain ⟨g, hg, hamong, hreach, hle⟩ := hgrant
      exact ⟨g.resource, g.role, hamong, .inr ⟨g, hg, rfl, rfl, hreach⟩, hle⟩
    · intro hheld
      obtain ⟨r, _, hr, ⟨rfl, howns⟩ | ⟨g, hg, rfl, rfl, hreach⟩, hle⟩ := hheld
      · exact absurd ⟨r, hr, howns⟩ howned
      · exact ⟨g, hg, hr, hreach, hle⟩

theorem roleAmong_none (h : ∀ r role, among r → ¬ t.Holds user r role) :
    t.roleAmong user among = none := by
  apply Role.eq_of_reaches
  intro n
  rw [le_height_roleAmong, Role.height_none, Nat.le_zero]
  apply or_iff_left
  intro hheld
  obtain ⟨r, role, hr, hholds, _⟩ := hheld
  exact h r role hr hholds

theorem roleAmong_congr
    (h : ∀ r role, (among r ∧ t.Holds user r role) ↔ (among' r ∧ t'.Holds user r role)) :
    t.roleAmong user among = t'.roleAmong user among' := by
  apply Role.eq_of_reaches
  intro n
  simp only [le_height_roleAmong, ← and_assoc, h]

theorem height_roleAmong_mono
    (h : ∀ r role, among r → t.Holds user r role → among' r ∧ t'.Holds user r role) :
    Role.height (t.roleAmong user among) ≤ Role.height (t'.roleAmong user among') := by
  -- the height is itself reached by something held, which is held afterwards too
  have hself : Role.height (t.roleAmong user among) ≤ Role.height (t.roleAmong user among) :=
    Nat.le_refl _
  obtain hzero | ⟨r, role, hr, hholds, hle⟩ := le_height_roleAmong.mp hself
  · omega
  · obtain ⟨hr', hholds'⟩ := h r role hr hholds
    exact le_height_roleAmong.mpr (.inr ⟨r, role, hr', hholds', hle⟩)

theorem roleAmong_union : t.roleAmong user (fun r => among r ∨ among' r) =
    Role.higher (t.roleAmong user among) (t.roleAmong user among') := by
  apply Role.eq_of_reaches
  intro n
  simp only [Role.le_height_higher, le_height_roleAmong, or_and_right, exists_or]
  exact or_or_distrib_left

/-- What can only lose chains and holdings can only lose roles. -/
theorem height_effectiveRole_mono (hwithin : ∀ a, t'.Within r a → t.Within r a)
    (hholds : ∀ a role, t'.Within r a → t'.Holds user a role → t.Holds user a role) :
    Role.height (t'.effectiveRole user r) ≤ Role.height (t.effectiveRole user r) :=
  height_roleAmong_mono fun a role ha hheld => ⟨hwithin a ha, hholds a role ha hheld⟩

theorem height_effectiveRole_subset (htuples : ∀ u ∈ t'.tuples, u ∈ t.tuples)
    (hgrants : ∀ g ∈ t'.grants, g ∈ t.grants) (hmembers : t'.memberships = t.memberships) :
    Role.height (t'.effectiveRole user r) ≤ Role.height (t.effectiveRole user r) := by
  apply height_effectiveRole_mono
  · intro a ha
    exact Relation.ReflTransGen.mono (fun _ _ hin => htuples _ hin) _ _ ha
  · intro a role _ hheld
    obtain ⟨rfl, howns⟩ | ⟨g, hg, hr, hrole, hreach⟩ := hheld
    · exact .inl ⟨rfl, htuples _ howns⟩
    · rw [Reaches, hmembers] at hreach
      exact .inr ⟨g, hgrants g hg, hr, hrole, hreach⟩

/-- Roles are passed down: who has one on what lies above has no lower one below. -/
theorem height_effectiveRole_le (h : t.Within r p) :
    Role.height (t.effectiveRole user p) ≤ Role.height (t.effectiveRole user r) :=
  height_roleAmong_mono fun _ _ hp hholds => ⟨h.trans hp, hholds⟩

theorem roleAmong_self (h : ¬ t.Owns user r) :
    t.roleAmong user (· = r) = t.grantedAmong user (· = r) := by
  rw [roleAmong, if_neg]
  intro howned
  obtain ⟨_, rfl, howns⟩ := howned
  exact h howns

theorem effectiveRole_root (h : ∀ p, ¬ t.LiesIn r p) :
    t.effectiveRole user r = t.roleAmong user (· = r) := by
  have hchain : t.Within r = (· = r) := by
    funext a
    rw [within_iff]
    simp [h]
  rw [effectiveRole, hchain]

theorem Coherent.effectiveRole_parent (h : t.Coherent) (hp : t.LiesIn r p) :
    t.effectiveRole user r =
      Role.higher (t.roleAmong user (· = r)) (t.effectiveRole user p) := by
  have hchain : t.Within r = fun a => a = r ∨ t.Within p a :=
    funext fun _ => propext (h.within_parent hp)
  rw [effectiveRole, hchain]
  exact roleAmong_union

theorem effectiveRole_of_owns (h : t.Within r p) (howns : t.Owns user p) :
    t.effectiveRole user r = some .owner :=
  if_pos ⟨p, h, howns⟩

end Tables

end DriveAccess
