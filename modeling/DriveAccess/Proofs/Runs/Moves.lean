import DriveAccess.Proofs.Resolution.Moves
import DriveAccess.Proofs.Runs.Commands
/-!
What the move of a folder does to everybody's access, whatever has happened before.
-/
namespace DriveAccess.World

theorem moves_exact {turns : List Turn} (h : ∀ t ∈ turns, t.event.viaCommands) {t : Turn}
    {actor id : Uuid} {parent : Option Uuid} {f : Folder} {before later : Tables}
    (hturn : (after turns).Succeeds t (.moveFolder actor id parent) f before later) :
    (∀ user d, ¬ before.Within d (.folder id) →
      (∃ role, before.Answers (.effectiveRole user d) role ∧
        later.Answers (.effectiveRole user d) role) ∧
      ∃ held, before.Answers (.collectPermissions user d) held ∧
        later.Answers (.collectPermissions user d) held) ∧
    ∀ user d, before.Within d (.folder id) →
      ∃ passed, (∀ p, parent = some p →
          before.Answers (.effectiveRole user (.folder p)) passed) ∧
        (parent = none → passed = none) ∧
        later.Answers (.effectiveRole user d)
          (Role.higher
            (before.roleAmong user fun a => before.Within d a ∧ before.Within a (.folder id))
            passed) := by
  have hbefore := (all_coherent h).tables hturn.before
  obtain ⟨c, _, _, heffect⟩ := hturn.effect hbefore
  have hlater := heffect.coherent hbefore
  obtain ⟨depth, hm, rfl, _⟩ := heffect
  constructor
  · intro user d hd
    have hroles := hlater.answers_effectiveRole user d
    have hheld := hlater.answers_collectPermissions user d
    rw [Tables.effectiveRole_moveFolder_of_not hd] at hroles hheld
    exact ⟨⟨_, hbefore.answers_effectiveRole user d, hroles⟩,
      _, hbefore.answers_collectPermissions user d, hheld⟩
  · intro user d hd
    have hroles := hlater.answers_effectiveRole user d
    rw [hbefore.effectiveRole_moveFolder_of_within hm hd] at hroles
    refine ⟨_, ?_, ?_, hroles⟩
    · intro p hp
      subst hp
      exact hbefore.answers_effectiveRole user (.folder p)
    · intro hp
      subst hp
      rfl

/-- The owner takes a folder out of another one. -/
def separation : Turn :=
  ⟨21, ⟨.ofNat 40, 400⟩, .command (.ofNat 7) (.moveFolder (.ofNat 50) (.ofNat 4) none)⟩

theorem moves_exact_separation : (∀ t ∈ rehearsal, t.event.viaCommands) ∧
    ∃ f before later,
      (after rehearsal).Succeeds separation (.moveFolder (.ofNat 50) (.ofNat 4) none) f before
        later ∧
      later.Answers (.effectiveRole (.ofNat 50) (.file (.ofNat 60)))
        (Role.higher (before.roleAmong (.ofNat 50) fun a =>
          before.Within (.file (.ofNat 60)) a ∧ before.Within a (.folder (.ofNat 4))) none) := by
  have hrun : ∀ t ∈ rehearsal, t.event.viaCommands := by decide
  have hturn : (after rehearsal).Succeeds separation (.moveFolder (.ofNat 50) (.ofNat 4) none) _
      ((after rehearsal).shared.get (.ofNat 7)).tables
      (((after rehearsal).turn separation).2.shared.get (.ofNat 7)).tables :=
    ⟨rfl, rfl, ⟨_, rfl⟩, rfl⟩
  have hfile : Tables.LiesIn ((after rehearsal).shared.get (.ofNat 7)).tables
      (.file (.ofNat 60)) (.folder (.ofNat 4)) := by
    rw [Tables.LiesIn]
    decide
  obtain ⟨passed, _, hroot, hroles⟩ :=
    (moves_exact hrun hturn).2 (.ofNat 50) (.file (.ofNat 60)) hfile.within
  rw [hroot rfl] at hroles
  exact ⟨hrun, _, _, _, hturn, hroles⟩

end DriveAccess.World
