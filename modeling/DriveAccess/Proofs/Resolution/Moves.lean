import DriveAccess.Proofs.Access.FolderMoves
import DriveAccess.Proofs.Resolution.EffectiveRoles
/-!
What the move of a folder does to parent chains, and by that to everybody's roles.
-/
namespace DriveAccess.Tables

variable {t : Tables} {stamp : Stamp} {id x user : Uuid} {q : Option Uuid} {depth : Nat}
  {r p a d : Resource} {role : Role}

theorem liesIn_moveFolder_self : (t.moveFolder stamp id q depth).LiesIn (.folder id) p ↔
    ∃ x, q = some x ∧ p = .folder x := by
  have hparents : p.subject ∈ (q.map Subject.folder).toList ↔ ∃ x, q = some x ∧ p = .folder x := by
    simp only [Option.mem_toList, Option.map_eq_some_iff]
    apply exists_congr
    intro x
    apply and_congr_right
    intro _
    constructor
    · intro hp
      exact Resource.subject_inj (s := .folder x) hp.symm
    · intro hp
      rw [hp]
      rfl
  rw [liesIn_iff, Resource.object_folder, subjectsIn_moveFolder_self]
  exact hparents

theorem liesIn_moveFolder (hr : r ≠ .folder id) :
    (t.moveFolder stamp id q depth).LiesIn r p ↔ t.LiesIn r p := by
  have ho : r.object ≠ .folder id := fun he => hr (Resource.object_eq_folder.mp he)
  rw [liesIn_iff, liesIn_iff, subjectsIn_moveFolder (.inr ho)]

/-- A move changes what lies where, but not who owns or was granted what. -/
theorem holds_moveFolder : (t.moveFolder stamp id q depth).Holds user r role ↔
    t.Holds user r role := by
  have howns : (t.moveFolder stamp id q depth).Owns user r ↔ t.Owns user r := by
    rw [Owns, Owns, Tuple.owner, ← mem_subjectsIn, ← mem_subjectsIn,
      subjectsIn_moveFolder (.inl (by simp))]
  apply or_congr
  · exact and_congr_right fun _ => howns
  · exact Iff.rfl

/-- Chains that do not pass the folder that moves stay as they are. -/
theorem within_moveFolder_of_not (hd : ¬ t.Within d (.folder id)) :
    (t.moveFolder stamp id q depth).Within d a ↔ t.Within d a := by
  constructor
  · intro hw
    induction hw with
    | refl => exact .refl
    | tail _ hstep ih =>
      have hne : _ ≠ Resource.folder id := fun he => hd (he ▸ ih)
      exact ih.tail ((liesIn_moveFolder hne).mp hstep)
  · intro hw
    induction hw with
    | refl => exact .refl
    | tail hold hstep ih =>
      have hne : _ ≠ Resource.folder id := fun he => hd (he ▸ hold)
      exact ih.tail ((liesIn_moveFolder hne).mpr hstep)

theorem effectiveRole_moveFolder_of_not (hd : ¬ t.Within d (.folder id)) :
    (t.moveFolder stamp id q depth).effectiveRole user d = t.effectiveRole user d := by
  apply roleAmong_congr
  intro a role
  rw [within_moveFolder_of_not hd, holds_moveFolder]

namespace Coherent

variable (h : t.Coherent)

include h

/-- What a folder lies in does not lie below the folder. -/
theorem ne_of_liesIn (hp : t.LiesIn r p) (hw : t.Within p a) : r ≠ a := by
  intro he
  obtain ⟨_, _, _, hlevel⟩ := h.liesIn_folder hp
  obtain hself | hup := h.within_level hw
  · rw [he, hself] at hlevel
    omega
  · rw [he] at hlevel
    omega

/-- Below the folder that moves chains stay as they are. -/
theorem within_moveFolder_below (hw : t.Within d a) (ha : t.Within a (.folder id)) :
    (t.moveFolder stamp id q depth).Within d a := by
  induction hw with
  | refl => exact .refl
  | tail _ hstep ih =>
    have hne := h.ne_of_liesIn hstep ha
    have hstep' : (t.moveFolder stamp id q depth).LiesIn _ _ := (liesIn_moveFolder hne).mpr hstep
    exact (ih (.below hstep ha)).tail hstep'

variable (hm : t.Relocates id q depth)

include hm

/-- The new parent does not lie below the folder, for nothing lies below itself after the move. -/
theorem not_within_of_relocates (hx : q = some x) : ¬ t.Within (.folder x) (.folder id) := by
  intro hw
  have hback : (t.moveFolder ⟨id, 0⟩ id q depth).Within (.folder x) (.folder id) :=
    h.within_moveFolder_below hw .refl
  have hin : (t.moveFolder ⟨id, 0⟩ id q depth).LiesIn (.folder id) (.folder x) :=
    liesIn_moveFolder_self.mpr ⟨x, hx, rfl⟩
  exact (h.moveFolder hm).ne_of_liesIn hin hback rfl

/-- From below the folder the chain goes up to it as before, and on from its new parent. -/
theorem within_moveFolder_of_within (hd : t.Within d (.folder id)) :
    (t.moveFolder stamp id q depth).Within d a ↔
      (t.Within d a ∧ t.Within a (.folder id)) ∨ ∃ x, q = some x ∧ t.Within (.folder x) a := by
  constructor
  · intro hw
    -- the chain leaves what is below the folder only by the folder itself
    induction hw with
    | refl => exact .inl ⟨.refl, hd⟩
    | @tail b p _ hstep ih =>
      by_cases hb : b = .folder id
      · subst hb
        obtain ⟨x, hx, rfl⟩ := liesIn_moveFolder_self.mp hstep
        exact .inr ⟨x, hx, .refl⟩
      · have hold := (liesIn_moveFolder hb).mp hstep
        obtain ⟨hdown, hup⟩ | ⟨x, hx, hw⟩ := ih
        · have hp := ((h.within_parent hold).mp hup).resolve_left (Ne.symm hb)
          exact .inl ⟨hdown.tail hold, hp⟩
        · exact .inr ⟨x, hx, hw.tail hold⟩
  · intro hw
    obtain ⟨hdown, hup⟩ | ⟨x, hx, hw⟩ := hw
    · exact h.within_moveFolder_below hdown hup
    · -- up to the folder, by the new parent tuple, and on above it
      have hself : (t.moveFolder stamp id q depth).Within d (.folder id) :=
        h.within_moveFolder_below hd .refl
      have hstep : (t.moveFolder stamp id q depth).LiesIn (.folder id) (.folder x) :=
        liesIn_moveFolder_self.mpr ⟨x, hx, rfl⟩
      have hon : (t.moveFolder stamp id q depth).Within (.folder x) a :=
        (within_moveFolder_of_not (h.not_within_of_relocates hm hx)).mpr hw
      exact (hself.tail hstep).trans hon

/-- The role that a folder's place passes down to it. -/
theorem effectiveRole_moveFolder_of_within (hd : t.Within d (.folder id)) :
    (t.moveFolder stamp id q depth).effectiveRole user d =
      Role.higher (t.roleAmong user fun a => t.Within d a ∧ t.Within a (.folder id))
        (q.bind fun x => t.effectiveRole user (.folder x)) := by
  have hchain : (t.moveFolder stamp id q depth).effectiveRole user d = t.roleAmong user fun a =>
      (t.Within d a ∧ t.Within a (.folder id)) ∨ ∃ x, q = some x ∧ t.Within (.folder x) a := by
    apply roleAmong_congr
    intro a role
    rw [h.within_moveFolder_of_within hm hd, holds_moveFolder]
  rw [hchain, roleAmong_union]
  congr 1
  cases q with
  | none =>
    apply Role.eq_of_reaches
    intro n
    simp [le_height_roleAmong]
  | some x => simp [effectiveRole]

end Coherent

end DriveAccess.Tables
