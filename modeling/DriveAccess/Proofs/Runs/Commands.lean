import DriveAccess.Proofs.Access.Mediation
import DriveAccess.Proofs.Runs.Coherence
/-!
Turns that run a command, in an open session or in one of its own: the tables that the command finds
and those that it leaves.
-/
namespace DriveAccess

namespace World

/-- The tables that the command of an event works on: those of its session, or the published ones
of its tenant. -/
def tables? (w : MemoryWorld) : Event → Option Tables
  | .commandIn name _ => (w.session? name).map (·.2.session.tables)
  | .command tenant _ => some (w.shared.get tenant).tables
  | _ => none

/-- A turn runs a command with success: the answer, and the tables before and after. -/
structure Succeeds (w : MemoryWorld) (t : Turn) (command : Command) (answer : command.Answer)
    (before later : Tables) : Prop where
  runs : t.event.command? = some command
  before : w.tables? t.event = some before
  outcome : ∃ audit, (w.turn t).1 = .answered command (.ok answer) audit
  later : (w.turn t).2.tables? t.event = some later

variable {w : MemoryWorld} {t : Turn} {command : Command} {answer : command.Answer}
  {before later : Tables} {P : Tables → Prop}

/-- In a session of its own, a command goes from published tables to published tables. -/
theorem succeeds_command {tenant : Uuid} (hevent : t.event = .command tenant command)
    (houtcome : ∃ audit, (w.turn t).1 = .answered command (.ok answer) audit) :
    w.Succeeds t command answer (w.shared.get tenant).tables
      ((w.turn t).2.shared.get tenant).tables where
  runs := by rw [hevent, Event.command?]
  before := by rw [hevent, tables?]
  outcome := houtcome
  later := by rw [hevent, tables?]

theorem All.tables (hw : w.All P) (h : w.tables? t.event = some before) : P before := by
  obtain ⟨maxDepth, stamp, event⟩ := t
  cases event with
  | commandIn name c =>
    obtain ⟨⟨tenant, s⟩, hs, rfl⟩ := Option.map_eq_some_iff.mp h
    exact hw.held name tenant s hs
  | command tenant c =>
    obtain rfl := Option.some.inj h
    exact hw.published tenant
  | begin | commit | rollback | drop | request => cases h

/-- Wherever a command is run, it is a program that runs in a session. -/
theorem runs_command (hcommand : t.event.command? = some command)
    (hbefore : w.tables? t.event = some before) : ∃ (c : Context) (s : Session) (audit : _),
      c.maxDepth = t.maxDepth ∧ c.stamp = t.stamp ∧ s.tables = before ∧
      (w.turn t).1 = .answered command (s.run t.stamp (command.body c)).1 audit ∧
      ((s.run t.stamp (command.body c)).1.isOk →
        (w.turn t).2.tables? t.event = some (s.run t.stamp (command.body c)).2.tables) := by
  obtain ⟨maxDepth, stamp, event⟩ := t
  cases event with
  | commandIn name c =>
    obtain rfl := Option.some.inj hcommand
    obtain ⟨⟨tenant, s⟩, hs, rfl⟩ := Option.map_eq_some_iff.mp hbefore
    have hdoes : w.Does ⟨maxDepth, stamp, .commandIn name c⟩ _ _ _ _ := does_commandIn hs
    refine ⟨⟨tenant, maxDepth, stamp⟩, s.session, _, rfl, rfl, rfl, hdoes.outcome, ?_⟩
    intro _
    rw [tables?, hdoes.sessions, if_pos rfl]
    rfl
  | command tenant c =>
    obtain rfl := Option.some.inj hcommand
    obtain rfl := Option.some.inj hbefore
    have hdoes : w.Does ⟨maxDepth, stamp, .command tenant c⟩ _ _ "" _ := does_command ""
    refine ⟨⟨tenant, maxDepth, stamp⟩, (w.shared.get tenant).begin, _, rfl, rfl, rfl,
      hdoes.outcome, ?_⟩
    intro hok
    rw [tables?, hdoes.shared, (Backend.execute_memory ..).2.2, if_pos ⟨rfl, hok⟩,
      Store.advance_tables Session.run_follows]
  | begin | commit | rollback | drop | request => cases hcommand

theorem Succeeds.run (h : w.Succeeds t command answer before later) :
    ∃ (c : Context) (s u : Session), c.maxDepth = t.maxDepth ∧ c.stamp = t.stamp ∧
      s.tables = before ∧ u.tables = later ∧
      s.run t.stamp (command.body c) = (.ok answer, u) := by
  obtain ⟨c, s, audit, hdepth, hstamp, hs, houtcome, hlater⟩ := runs_command h.runs h.before
  obtain ⟨_, hanswer⟩ := h.outcome
  rw [houtcome] at hanswer
  rcases hrun : s.run t.stamp (command.body c) with ⟨outcome, u⟩
  rw [hrun] at hanswer hlater
  obtain rfl : outcome = .ok answer := by
    injection hanswer
  refine ⟨c, s, u, hdepth, hstamp, hs, ?_, hrun⟩
  have hu := hlater rfl
  rw [h.later] at hu
  exact (Option.some.inj hu).symm

theorem Succeeds.effect (h : w.Succeeds t command answer before later) (hw : before.Coherent) :
    ∃ c : Context, c.maxDepth = t.maxDepth ∧ c.stamp = t.stamp ∧
      command.Effect t.stamp c before answer later := by
  obtain ⟨c, s, u, hdepth, hstamp, rfl, rfl, hrun⟩ := h.run
  exact ⟨c, hdepth, hstamp, Command.effect_of_run hw hrun⟩

/-- Who succeeds has the authority that it takes. -/
theorem Succeeds.authorized (h : w.Succeeds t command answer before later) (hw : before.Coherent)
    (hdepth : 21 ≤ t.maxDepth) : command.Authorized before := by
  obtain ⟨c, s, u, hc, _, rfl, rfl, hrun⟩ := h.run
  have hjudged : Program.Judged t.stamp (command.body c) s _ _ :=
    command.judged hw (hc ▸ hdepth)
  apply hjudged.passed
  rw [hrun]
  rfl

/-- A success leads from coherent tables to coherent tables. -/
theorem Succeeds.reached {turns : List Turn}
    (hturn : (after turns).Succeeds t command answer before later)
    (h : ∀ t ∈ turns, t.event.viaCommands) : before.Coherent ∧ later.Coherent ∧
      ∃ c : Context, command.Effect t.stamp c before answer later := by
  have hbefore := (all_coherent h).tables hturn.before
  obtain ⟨c, _, _, heffect⟩ := hturn.effect hbefore
  exact ⟨hbefore, heffect.coherent hbefore, c, heffect⟩

end World

namespace Tables

/-- Tables answer a query in one way, whoever puts it and wherever it is run, as long as the
resolver follows chains of any length. -/
def Answers (t : Tables) (query : Command) (answer : query.Answer) : Prop :=
  ∀ (w : MemoryWorld) (turn : Turn), 21 ≤ turn.maxDepth → turn.event.command? = some query →
    w.tables? turn.event = some t → ∃ audit, (w.turn turn).1 = .answered query (.ok answer) audit

variable {t : Tables}

theorem answers_of_run {query : Command} {answer : query.Answer}
    (h : ∀ stamp (c : Context) (s : Session), 21 ≤ c.maxDepth → s.tables = t →
      (s.run stamp (query.body c)).1 = .ok answer) : t.Answers query answer := by
  intro w turn hdepth hquery htables
  obtain ⟨c, s, audit, hc, _, hs, houtcome, _⟩ := World.runs_command hquery htables
  rw [h _ c s (hc ▸ hdepth) hs] at houtcome
  exact ⟨audit, houtcome⟩

theorem answers_listGrants (r : Resource) : t.Answers (.listGrants r) (t.grantsFor r) := by
  apply answers_of_run
  intro stamp c s _ hs
  rw [← hs]
  rfl

variable (h : t.Coherent) (user : Uuid) (r : Resource)

include h

theorem Coherent.answers_effectiveRole :
    t.Answers (.effectiveRole user r) (t.effectiveRole user r) := by
  apply answers_of_run
  intro stamp c s hdepth hs
  subst hs
  rw [Command.body, Program.effectiveRole, Program.run_resolve, h.effectiveRole_told hdepth]
  rfl

/-- A resolver that follows 21 hops finds what all do that follow more. -/
theorem Coherent.answers_of_told {role : Option Role}
    (hrole : (Resolver.effectiveRole 21 user r).told t.reply = .ok role) :
    t.Answers (.effectiveRole user r) role := by
  have htold : (Resolver.effectiveRole 21 user r).told t.reply = .ok (t.effectiveRole user r) :=
    h.effectiveRole_told (Nat.le_refl 21)
  obtain rfl := Except.ok.inj (hrole.symm.trans htold)
  exact h.answers_effectiveRole user r

theorem Coherent.answers_collectPermissions :
    t.Answers (.collectPermissions user r) (Role.permits (t.effectiveRole user r)) := by
  apply answers_of_run
  intro stamp c s hdepth hs
  subst hs
  rw [Command.body, Program.collectPermissions, Program.run_resolve,
    h.collectPermissions_told hdepth]
  rfl

end Tables

end DriveAccess
