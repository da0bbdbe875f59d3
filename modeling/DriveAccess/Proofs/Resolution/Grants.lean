import DriveAccess.Proofs.Access.Sharing
import DriveAccess.Proofs.Resolution.EffectiveRoles
/-!
What a single grant does to everybody's roles, and to the lists of grants.
-/
namespace DriveAccess.Tables

variable {t : Tables} {g : Grant} {user id : Uuid} {r : Resource} {role : Role}

/-- Whom a grant gives its role, and on what: on its resource and on all that lies below. -/
def Covers (t : Tables) (g : Grant) (user : Uuid) (r : Resource) : Prop :=
  t.Reaches user g.grantee ∧ t.Within r g.resource

theorem within_addGrant : (t.addGrant g).Within = t.Within := rfl

theorem within_dropGrant : (t.dropGrant id).Within = t.Within := rfl

theorem holds_addGrant : (t.addGrant g).Holds user r role ↔
    t.Holds user r role ∨ (g.resource = r ∧ g.role = role ∧ t.Reaches user g.grantee) := by
  have hgrants (k : Grant) : k ∈ (t.addGrant g).grants ↔ k ∈ t.grants ∨ k = g := by
    simp [addGrant]
  simp only [Holds, hgrants, or_and_right, exists_or, exists_eq_left, ← or_assoc]
  exact Iff.rfl

/-- A new grant raises the roles that it covers to its own at least, and no others. -/
theorem effectiveRole_addGrant_of_covers (h : t.Covers g user r) :
    (t.addGrant g).effectiveRole user r = Role.higher (t.effectiveRole user r) (some g.role) := by
  obtain ⟨hreach, hwithin⟩ := h
  apply Role.eq_of_reaches
  intro n
  simp only [effectiveRole, le_height_roleAmong, Role.le_height_higher, within_addGrant,
    holds_addGrant, Role.height_some, or_assoc]
  constructor
  · intro hheld
    obtain hzero | ⟨a, role, ha, hold | ⟨_, rfl, _⟩, hle⟩ := hheld
    · exact .inl hzero
    · exact .inr (.inl ⟨a, role, ha, hold, hle⟩)
    · exact .inr (.inr hle)
  · intro hheld
    obtain hzero | ⟨a, role, ha, hold, hle⟩ | hle := hheld
    · exact .inl hzero
    · exact .inr ⟨a, role, ha, .inl hold, hle⟩
    · exact .inr ⟨g.resource, g.role, hwithin, .inr ⟨rfl, rfl, hreach⟩, hle⟩

theorem effectiveRole_addGrant_of_not_covers (h : ¬ t.Covers g user r) :
    (t.addGrant g).effectiveRole user r = t.effectiveRole user r := by
  apply roleAmong_congr
  intro a role
  rw [within_addGrant, holds_addGrant]
  constructor
  · intro hheld
    obtain ⟨ha, hold | ⟨rfl, _, hreach⟩⟩ := hheld
    · exact ⟨ha, hold⟩
    · exact absurd ⟨hreach, ha⟩ h
  · intro hheld
    exact ⟨hheld.1, .inl hheld.2⟩

/-- Who outranks a grant does not gain by it. -/
theorem effectiveRole_addGrant_of_le
    (h : g.role.level ≤ Role.height (t.effectiveRole user g.resource)) :
    (t.addGrant g).effectiveRole user r = t.effectiveRole user r := by
  by_cases hcovers : t.Covers g user r
  · have hbelow : Role.height (t.effectiveRole user g.resource) ≤
        Role.height (t.effectiveRole user r) := height_effectiveRole_le hcovers.2
    rw [effectiveRole_addGrant_of_covers hcovers]
    exact Role.higher_of_le (Nat.le_trans h hbelow)
  · exact effectiveRole_addGrant_of_not_covers hcovers

theorem height_effectiveRole_dropGrant :
    Role.height ((t.dropGrant id).effectiveRole user r) ≤ Role.height (t.effectiveRole user r) :=
  height_effectiveRole_subset (fun _ hu => hu) (fun _ hg => List.mem_of_mem_filter hg) rfl

theorem effectiveRole_dropGrant_of_not_covers
    (h : ∀ g ∈ t.grants, g.id = id → ¬ t.Covers g user r) :
    (t.dropGrant id).effectiveRole user r = t.effectiveRole user r := by
  apply roleAmong_congr
  intro a role
  rw [within_dropGrant]
  apply and_congr_right
  intro ha
  apply or_congr_right
  constructor
  · intro hgrant
    obtain ⟨g, hg, hr, hrole, hreach⟩ := hgrant
    exact ⟨g, List.mem_of_mem_filter hg, hr, hrole, hreach⟩
  · intro hgrant
    obtain ⟨g, hg, rfl, hrole, hreach⟩ := hgrant
    have hid : g.id ≠ id := fun he => h g hg he ⟨hreach, ha⟩
    exact ⟨g, List.mem_filter.mpr ⟨hg, by simpa using hid⟩, rfl, hrole, hreach⟩

theorem grantsFor_addGrant (h : g.resource ≠ r) : (t.addGrant g).grantsFor r = t.grantsFor r := by
  simp [grantsFor, addGrant, h]

theorem grantsFor_dropGrant (h : ∀ g ∈ t.grants, g.id = id → g.resource ≠ r) :
    (t.dropGrant id).grantsFor r = t.grantsFor r := by
  rw [grantsFor, grantsFor, dropGrant, List.filter_filter]
  congr 1
  apply List.filter_congr
  intro g hg
  by_cases hid : g.id = id
  · simp [h g hg hid]
  · simp [hid]

/-- Only one grant goes by an identifier. -/
theorem eq_of_grant? (hids : (t.grants.map (·.id)).Nodup) (h : t.grant? id = some g) {k : Grant}
    (hk : k ∈ t.grants) (hid : k.id = id) : k = g := by
  have hg : g.id = id := by simpa using List.find?_some h
  exact List.inj_on_of_nodup_map hids hk (List.mem_of_find?_eq_some h) (hid.trans hg.symm)

end DriveAccess.Tables
