import DriveAccess.Proofs.Access.Timestamps
import DriveAccess.Proofs.Runs.Coherence
/-!
Commands that fail within a session leave it as it was, so a session of commands does what the
commands do one by one.
-/
namespace DriveAccess

/-- An outcome without the timestamps in it. -/
def Outcome.timeless : Outcome → Outcome
  | .answered command answer audit =>
    .answered command (answer.map command.timeless) (audit.map AuditEvent.timeless)
  | .replied r reply => .replied r (reply.map r.timeless)
  | outcome => outcome

/-- The error of a command that fails. -/
def Outcome.error? : Outcome → Option AccessError
  | .answered _ (.error e) _ => some e
  | _ => none

/-- A command to be run in a session that others share and, apart from that, in one of its own. -/
structure Job where
  command : Command
  maxDepth : Nat
  id : Uuid
  timeWithin : Instant
  timeApart : Instant

def Job.within (j : Job) (name : String) : Turn :=
  ⟨j.maxDepth, ⟨j.id, j.timeWithin⟩, .commandIn name j.command⟩

def Job.apart (j : Job) (tenant : Uuid) : Turn :=
  ⟨j.maxDepth, ⟨j.id, j.timeApart⟩, .command tenant j.command⟩

/-- A session opened and committed under a name, with all turns that are taken meanwhile. -/
def Job.together (meanwhile : List Turn) (name : String) (tenant : Uuid) (maxDepth : Nat)
    (opening closing : Stamp) : List Turn :=
  ⟨maxDepth, opening, .begin tenant name⟩ :: meanwhile ++ [⟨maxDepth, closing, .commit name⟩]

namespace World

variable {w v : MemoryWorld} {name : String} {tenant : Uuid} {store : Store} {s : Session}
  {maxDepth : Nat} {stamp : Stamp}

theorem failed_unchanged {x : TenantSession} (hs : w.session? name = some (tenant, x))
    (hcoherent : x.session.tables.Coherent) {command : Command}
    (hfail : (w.turn ⟨maxDepth, stamp, .commandIn name command⟩).1.error?.isSome) :
    (w.turn ⟨maxDepth, stamp, .commandIn name command⟩).2.shared = w.shared ∧
      ∀ n, (w.turn ⟨maxDepth, stamp, .commandIn name command⟩).2.session? n = w.session? n := by
  have hdoes : w.Does ⟨maxDepth, stamp, .commandIn name command⟩ _ _ _ _ := does_commandIn hs
  have hsame : (x.session.run stamp (command.body ⟨tenant, maxDepth, stamp⟩)).2 =
      x.session := by
    rw [hdoes.outcome] at hfail
    rcases hrun : (x.session.run stamp (command.body ⟨tenant, maxDepth, stamp⟩)).1 with e | a
    · exact command.failed_unchanged hcoherent hrun
    · rw [hrun] at hfail
      cases hfail
  refine ⟨hdoes.shared, fun n => ?_⟩
  rw [hdoes.sessions, hsame]
  by_cases hn : n = name
  · rw [if_pos hn, hn, hs]
  · rw [if_neg hn]

/-- A session that began on what a store still is in one world, beside a world where the store has
the same tables, timestamps aside. -/
structure Abreast (name : String) (tenant : Uuid) (store : Store) (s : Session)
    (w v : MemoryWorld) : Prop where
  shared : w.shared.get tenant = store
  held : w.session? name = some (tenant, ⟨tenant, s⟩)
  follows : Session.Follows store.begin s
  coherent : s.tables.Coherent
  tables : s.tables.timeless = (v.shared.get tenant).tables.timeless

/-- The session runs a command, and so does the other world. -/
theorem Abreast.job (h : Abreast name tenant store s w v) {j : Job} (hj : j.command.alters) :
    (w.turn (j.within name)).1.timeless = (v.turn (j.apart tenant)).1.timeless ∧
      ∃ s', Abreast name tenant store s' (w.turn (j.within name)).2
        (v.turn (j.apart tenant)).2 := by
  let stamp : Stamp := ⟨j.id, j.timeWithin⟩
  let c : Context := ⟨tenant, j.maxDepth, stamp⟩
  let other := v.shared.get tenant
  let mine := s.run stamp (j.command.body c)
  let own := other.begin.run (stamp.withTime j.timeApart) (j.command.body (c.withTime j.timeApart))
  obtain ⟨hmatches, htables, haudit⟩ : Matches
      (fun a b => j.command.timeless a = j.command.timeless b) mine.1 own.1 ∧
      mine.2.tables.timeless = own.2.tables.timeless ∧ _ :=
    Command.run_alike hj (s := ⟨tenant, s⟩) (u := ⟨tenant, other.begin⟩) h.tables
  have hw : w.Does (j.within name) _ _ _ _ := does_commandIn h.held
  have hv : v.Does (j.apart tenant) _ _ name _ := does_command name
  constructor
  · rw [hw.outcome, hv.outcome]
    simp only [Outcome.timeless]
    exact congrArg₂ (Outcome.answered j.command) hmatches.map_eq haudit
  · have hstore : (w.turn (j.within name)).2.shared.get tenant = store := by
      rw [hw.shared, h.shared]
    have hheld : (w.turn (j.within name)).2.session? name = some (tenant, ⟨tenant, mine.2⟩) := by
      rw [hw.sessions, if_pos rfl]
    have hfollows : Session.Follows store.begin mine.2 := h.follows.trans Session.run_follows
    refine ⟨mine.2, hstore, hheld, hfollows, j.command.run_coherent h.coherent, ?_⟩
    have hpublish := (Backend.execute_memory (c.withTime j.timeApart)
      (j.command.body (c.withTime j.timeApart)) v.shared).2.2 tenant
    rw [hv.shared, hpublish]
    change _ = (if _ ∧ own.1.isOk then other.advance own.2 else other).tables.timeless
    rcases hm : mine.1 with e | a
    · have hkeep : mine.2 = s := j.command.failed_unchanged h.coherent hm
      have hfail : own.1.isOk = false := by rw [← hmatches.isOk_eq, hm]; rfl
      simpa [hfail, hkeep] using h.tables
    · have hsuccess : own.1.isOk := by rw [← hmatches.isOk_eq, hm]; rfl
      rw [if_pos ⟨rfl, hsuccess⟩, Store.advance_tables Session.run_follows, htables]

/-- Others take a turn and do not publish. -/
theorem Abreast.others (h : Abreast name tenant store s w v) {t : Turn}
    (habout : t.event.about ≠ some name)
    (hkeep : (w.turn t).2.shared.get tenant = w.shared.get tenant) :
    Abreast name tenant store s (w.turn t).2 v where
  shared := hkeep.trans h.shared
  held := (session?_turn habout).trans h.held
  follows := h.follows
  coherent := h.coherent
  tables := h.tables

/-- Turns of which those of the session are jobs, while nobody publishes. -/
theorem Abreast.play (h : Abreast name tenant store s w v) {jobs : List Job} {turns : List Turn}
    (hjobs : ∀ j ∈ jobs, j.command.alters)
    (hturns : turns.filter (·.event.about = some name) = jobs.map (·.within name))
    (hversion : ((w.play turns).2.shared.get tenant).version = store.version) :
    (w.heard name turns).map Outcome.timeless =
        (v.play (jobs.map (·.apart tenant))).1.map Outcome.timeless ∧
      ∃ s', Abreast name tenant store s' (w.play turns).2
        (v.play (jobs.map (·.apart tenant))).2 := by
  induction turns generalizing s w v jobs with
  | nil =>
    obtain rfl : jobs = [] := List.map_eq_nil_iff.mp hturns.symm
    exact ⟨rfl, s, h⟩
  | cons t rest ih =>
    have hkeep : (w.turn t).2.shared.get tenant = w.shared.get tenant := by
      have hturn := version_turn w t tenant
      have hrest : ((w.turn t).2.shared.get tenant).version ≤
          ((w.play (t :: rest)).2.shared.get tenant).version := by
        obtain hsame | hlater := version_play (w.turn t).2 rest tenant
        · simp only [World.play, hsame, Nat.le_refl]
        · exact Nat.le_of_lt hlater
      rw [hversion, ← h.shared] at hrest
      obtain hsame | hcounted := hturn
      · exact hsame
      · omega
    by_cases habout : t.event.about = some name
    · rw [List.filter_cons_of_pos (by simpa using habout)] at hturns
      obtain ⟨j, jobs', rfl, rfl, hrest⟩ := List.map_eq_cons_iff.mp hturns.symm
      obtain ⟨houtcome, s', hjob⟩ := h.job (hjobs j (by simp))
      obtain ⟨houtcomes, hafter⟩ := ih hjob (fun k hk => hjobs k (by simp [hk])) hrest.symm hversion
      simp only [heard, World.play, List.map_cons, habout, if_true]
      rw [houtcome, houtcomes]
      exact ⟨rfl, hafter⟩
    · rw [List.filter_cons_of_neg (by simpa using habout)] at hturns
      obtain ⟨houtcomes, hafter⟩ := ih (h.others habout hkeep) hjobs hturns hversion
      simp only [heard, World.play, habout, if_false]
      exact ⟨houtcomes, hafter⟩

theorem abreast_begin (hw : (w.shared.get tenant).tables.Coherent) :
    Abreast name tenant (w.shared.get tenant) (w.shared.get tenant).begin
      (w.turn ⟨maxDepth, stamp, .begin tenant name⟩).2 w := by
  have hbegin : w.Does ⟨maxDepth, stamp, .begin tenant name⟩ _ _ _ _ := does_begin
  have hheld : (w.turn ⟨maxDepth, stamp, .begin tenant name⟩).2.session? name = _ :=
    (hbegin.sessions name).trans (if_pos rfl)
  exact ⟨by rw [hbegin.shared], hheld, .refl, hw, rfl⟩

/-- Nobody has published since the session began, so it publishes what it has made. -/
theorem Abreast.commit (h : Abreast name tenant store s w v) :
    (w.turn ⟨maxDepth, stamp, .commit name⟩).1 = .ended (.ok ()) ∧
      (((w.turn ⟨maxDepth, stamp, .commit name⟩).2.shared.get tenant).tables.timeless =
        (v.shared.get tenant).tables.timeless) := by
  have hcommit : w.Does ⟨maxDepth, stamp, .commit name⟩ _ _ _ _ := does_commit h.held
  obtain ⟨houtcome, hpublish⟩ := Backend.commit_memory ⟨tenant, s⟩ w.shared
  have hcurrent : ¬ (s.dirty ∧ (w.shared.get tenant).version ≠ s.base) := by
    rw [h.shared, h.follows.base]
    exact fun hstale => hstale.2 rfl
  rw [if_neg hcurrent] at houtcome
  constructor
  · rw [hcommit.outcome, houtcome]
  · rw [hcommit.shared, hpublish, if_pos ⟨rfl, hcurrent⟩, h.shared,
      Store.advance_tables h.follows, h.tables]

/-- One session of all commands answers and publishes what a session for each of them does. -/
theorem together_as_apart (hw : (w.shared.get tenant).tables.Coherent) {opening closing : Stamp}
    {jobs : List Job} {meanwhile : List Turn} (hjobs : ∀ j ∈ jobs, j.command.alters)
    (hturns : meanwhile.filter (·.event.about = some name) = jobs.map (·.within name))
    (hversion : ((w.play (⟨maxDepth, opening, .begin tenant name⟩ :: meanwhile)).2.shared.get
      tenant).version = (w.shared.get tenant).version) :
    (w.heard name (Job.together meanwhile name tenant maxDepth opening closing)).map
        Outcome.timeless =
        .begun (.ok ()) :: (w.play (jobs.map (·.apart tenant))).1.map Outcome.timeless ++
          [.ended (.ok ())] ∧
      ((w.play (Job.together meanwhile name tenant maxDepth opening closing)).2.shared.get
          tenant).tables.timeless =
        ((w.play (jobs.map (·.apart tenant))).2.shared.get tenant).tables.timeless := by
  let opened := (w.turn ⟨maxDepth, opening, .begin tenant name⟩).2
  let worked := (opened.play meanwhile).2
  let close : Turn := ⟨maxDepth, closing, .commit name⟩
  have hbegin : Abreast name tenant (w.shared.get tenant) _ opened w := abreast_begin hw
  obtain ⟨houtcomes, s, hplay⟩ := hbegin.play hjobs hturns hversion
  obtain ⟨hend, htables⟩ : (worked.turn close).1 = _ ∧ _ := hplay.commit
  have hheard : w.heard name (Job.together meanwhile name tenant maxDepth opening closing) =
      .begun (.ok ()) :: opened.heard name meanwhile ++ [(worked.turn close).1] := by
    rw [Job.together, heard_append]
    simp only [heard, World.play, Event.about, Event.within, if_true, opened, worked, close]
    rw [does_begin.outcome]
  have hplayed : (w.play (Job.together meanwhile name tenant maxDepth opening closing)).2 =
      (worked.turn close).2 := by
    rw [Job.together, play_append]
    rfl
  rw [hheard, hplayed]
  refine ⟨?_, htables⟩
  simp only [List.map_append, List.map_cons, List.map_nil, hend, houtcomes, Outcome.timeless]

theorem failures_leave_no_trace {turns : List Turn} (h : ∀ t ∈ turns, t.event.viaCommands) :
    (∀ name tenant s, (after turns).session? name = some (tenant, s) →
      ∀ maxDepth stamp command,
        ((after turns).turn ⟨maxDepth, stamp, .commandIn name command⟩).1.error?.isSome →
        ((after turns).turn ⟨maxDepth, stamp, .commandIn name command⟩).2.shared =
            (after turns).shared ∧
          ∀ n, ((after turns).turn ⟨maxDepth, stamp, .commandIn name command⟩).2.session? n =
            (after turns).session? n) ∧
    ∀ name tenant maxDepth opening closing, ∀ jobs : List Job, (∀ j ∈ jobs, j.command.alters) →
      ∀ meanwhile : List Turn,
        meanwhile.filter (·.event.about = some name) = jobs.map (·.within name) →
        (((after turns).play (⟨maxDepth, opening, .begin tenant name⟩ :: meanwhile)).2.shared.get
          tenant).version = ((after turns).shared.get tenant).version →
        ((after turns).heard name
            (Job.together meanwhile name tenant maxDepth opening closing)).map Outcome.timeless =
          .begun (.ok ()) ::
            ((after turns).play (jobs.map (·.apart tenant))).1.map Outcome.timeless ++
              [.ended (.ok ())] ∧
        (((after turns).play
            (Job.together meanwhile name tenant maxDepth opening closing)).2.shared.get
            tenant).tables.timeless =
          (((after turns).play (jobs.map (·.apart tenant))).2.shared.get
            tenant).tables.timeless := by
  have hcoherent := all_coherent h
  constructor
  · intro name tenant s hs maxDepth stamp command hfail
    exact failed_unchanged hs (hcoherent.held name tenant s hs) hfail
  · intro name tenant maxDepth opening closing jobs hjobs meanwhile hturns hversion
    exact together_as_apart (hcoherent.published tenant) hjobs hturns hversion

/-- Of three commands in a session the second fails. -/
def workday : List Job :=
  let user := Uuid.ofNat 50
  [⟨.createFolder user "new" (some (.ofNat 1)), 10, .ofNat 21, 201, 301⟩,
    ⟨.moveFolder user (.ofNat 1) (some (.ofNat 21)), 10, .ofNat 22, 202, 302⟩,
    ⟨.deleteFolder user (.ofNat 4), 10, .ofNat 23, 203, 303⟩]

/-- Before the workday is over another session comes and goes. -/
def bustle : List Turn :=
  ⟨10, ⟨.ofNat 26, 198⟩, .begin (.ofNat 7) "visit"⟩ :: workday.map (·.within "work") ++
    [⟨10, ⟨.ofNat 27, 204⟩, .commandIn "visit" (.addGroupMember (.ofNat 80) (.ofNat 52) .member)⟩,
      ⟨10, ⟨.ofNat 28, 205⟩, .rollback "visit"⟩]

/-- A stranger is turned away. -/
def intrusion : Turn :=
  ⟨10, ⟨.ofNat 20, 200⟩, .commandIn "plans" (.createFolder (.ofNat 51) "loot" (some (.ofNat 1)))⟩

theorem failures_leave_no_trace_rehearsal : (∀ t ∈ rehearsal, t.event.viaCommands) ∧
    (∀ j ∈ workday, j.command.alters) ∧ ((after rehearsal).session? "plans").isSome ∧
    ((after rehearsal).turn intrusion).1.error?.isSome ∧
    ((after rehearsal).turn intrusion).2.session? "plans" = (after rehearsal).session? "plans" ∧
    ((after rehearsal).play (workday.map (·.apart (.ofNat 7)))).1.map (·.error?.isSome) =
      [false, true, false] ∧
    ((after rehearsal).heard "work" (Job.together bustle "work" (.ofNat 7) 10 ⟨.ofNat 24, 199⟩
      ⟨.ofNat 25, 206⟩)).map Outcome.timeless = .begun (.ok ()) ::
        ((after rehearsal).play (workday.map (·.apart (.ofNat 7)))).1.map Outcome.timeless ++
          [.ended (.ok ())] := by
  have hopen : ((after rehearsal).session? "plans").isSome := by decide
  obtain ⟨⟨tenant, s⟩, hs⟩ := Option.isSome_iff_exists.mp hopen
  have hdenied : ((after rehearsal).turn intrusion).1.error?.isSome := by decide
  have hjobs : ∀ j ∈ workday, j.command.alters := by decide
  obtain ⟨hkeep, hbatch⟩ := @failures_leave_no_trace rehearsal (by decide)
  obtain ⟨_, hsession⟩ := hkeep "plans" tenant s hs _ _ _ hdenied
  obtain ⟨houtcomes, _⟩ := hbatch "work" (.ofNat 7) 10 ⟨.ofNat 24, 199⟩ ⟨.ofNat 25, 206⟩ _ hjobs
    bustle rfl (by decide)
  exact ⟨by decide, hjobs, hopen, hdenied, hsession "plans", by decide, houtcomes⟩

end World

end DriveAccess
