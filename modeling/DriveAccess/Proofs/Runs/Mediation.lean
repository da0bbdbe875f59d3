import DriveAccess.Proofs.Runs.Atomicity
import DriveAccess.Proofs.Runs.Commands
/-!
Commands are denied exactly where authority is lacking, whatever has happened before.
-/
namespace DriveAccess.World

theorem mediation_complete {turns : List Turn} (h : ∀ t ∈ turns, t.event.viaCommands) {t : Turn}
    (hdepth : 21 ≤ t.maxDepth) {command : Command} {tables : Tables}
    (hcommand : t.event.command? = some command)
    (htables : (after turns).tables? t.event = some tables) :
    ∃ answer audit, ((after turns).turn t).1 = .answered command answer audit ∧
      (command.Named tables → command.Valid → (Denied answer ↔ ¬ command.Authorized tables)) ∧
      (answer.isOk → command.Authorized tables) := by
  have hcoherent := (all_coherent h).tables htables
  obtain ⟨c, s, audit, hc, _, rfl, houtcome, _⟩ := runs_command hcommand htables
  have hjudged : Program.Judged t.stamp (command.body c) s _ _ :=
    command.judged hcoherent (hc ▸ hdepth)
  refine ⟨_, audit, houtcome, ?_, hjudged.passed⟩
  intro hnamed hvalid
  exact hjudged.denied ⟨hnamed, hvalid⟩

/-- A stranger wants a folder of the owner's for the root. -/
def burglary : Turn :=
  ⟨21, ⟨.ofNat 20, 200⟩, .command (.ofNat 7) (.moveFolder (.ofNat 51) (.ofNat 4) none)⟩

theorem mediation_complete_burglary : (∀ t ∈ rehearsal, t.event.viaCommands) ∧
    ((after rehearsal).turn burglary).1.error?.map (·.kind) = some .forbidden ∧
    ¬ Command.Authorized ((after rehearsal).shared.get (.ofNat 7)).tables
      (.moveFolder (.ofNat 51) (.ofNat 4) none) := by
  have hrun : ∀ t ∈ rehearsal, t.event.viaCommands := by decide
  have hnamed : (((after rehearsal).shared.get (.ofNat 7)).tables.folder? (.ofNat 4)).isSome := by
    decide
  have hkind : ((after rehearsal).turn burglary).1.error?.map (·.kind) = some .forbidden := by
    decide
  refine ⟨hrun, hkind, ?_⟩
  obtain ⟨answer, audit, houtcome, hdenied, _⟩ :=
    mediation_complete hrun (t := burglary) (by decide) rfl rfl
  rw [houtcome] at hkind
  apply (hdenied ⟨hnamed, by simp⟩ trivial).mp
  cases answer with
  | ok a => cases hkind
  | error e =>
    cases e with
    | forbidden d => exact ⟨d, rfl⟩
    | _ => cases hkind

end DriveAccess.World
