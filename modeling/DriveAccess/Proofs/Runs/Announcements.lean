import DriveAccess.Proofs.Access.Announcements
import DriveAccess.Proofs.Runs.Worlds
import DriveAccess.Proofs.Server.Transactions
import Mathlib.Data.List.Infix
/-!
What becomes of commands that put on record that something was done: only the end of the session is
left to decide whether it is committed.
-/
namespace DriveAccess

open Dialogue

variable {σ S α : Type}

/-- A state, and the changes that others are yet to make to it. -/
abbrev Amid (σ : Type) := List (σ → σ) × σ

/-- The first change by others takes place, if any is left. -/
def meanwhile : Amid σ → Amid σ
  | ([], x) => ([], x)
  | (change :: others, x) => (others, change x)

namespace Backend

/-- A place that others work on too: before each call comes the next of their changes. -/
def amid (b : Backend σ S) : Backend (Amid σ) S where
  begin tenant y :=
    let (others, x) := meanwhile y
    let (r, x) := b.begin tenant x
    (r, others, x)
  perform stamp r s y :=
    let (others, x) := meanwhile y
    let (reply, s, x) := b.perform stamp r s x
    (reply, s, others, x)
  commit s y :=
    let (others, x) := meanwhile y
    let (r, x) := b.commit s x
    (r, others, x)
  rollback s y :=
    let (others, x) := meanwhile y
    let (r, x) := b.rollback s x
    (r, others, x)
  drop s y :=
    let (others, x) := meanwhile y
    (others, b.drop s x)

/-- Others do not disturb what a session in memory does. -/
theorem runIn_amid (stamp : Stamp) (p : Program α) (s : TenantSession) (y : Amid Stores)
    (x : Stores) : (memory.amid.runIn stamp p s y).1 = (memory.runIn stamp p s x).1 ∧
      (memory.amid.runIn stamp p s y).2.session = (memory.runIn stamp p s x).2.session ∧
      (memory.amid.runIn stamp p s y).2.audit = (memory.runIn stamp p s x).2.audit := by
  let Same (w : Working (Amid Stores) TenantSession)
      (v : Working Stores TenantSession) : Prop := w.session = v.session ∧ w.audit = v.audit
  have hstep (q : Action) w v (_ : True) (h : Same w v) :
      (memory.amid.act stamp q w).1 = (memory.act stamp q v).1 ∧
        Same (memory.amid.act stamp q w).2 (memory.act stamp q v).2 := by
    obtain ⟨y, s, audit⟩ := w
    obtain ⟨x, s', audit'⟩ := v
    obtain ⟨rfl, rfl⟩ : s = s' ∧ audit = audit' := h
    cases q <;> exact ⟨rfl, rfl, rfl⟩
  exact (asks_any p).run_related Same hstep ⟨rfl, rfl⟩

/-- A session ends on what it meets then. -/
theorem finish_amid (b : Backend σ S) (outcome : Except AccessError α)
    (w : Working (Amid σ) S) :
    let here : Working σ S := ⟨(meanwhile w.shared).2, w.session, w.audit⟩
    (b.amid.finish outcome w).outcome = (b.finish outcome here).outcome ∧
      (b.amid.finish outcome w).shared.2 = (b.finish outcome here).shared := by
  cases outcome with
  | error e => exact ⟨rfl, rfl⟩
  | ok a =>
    simp only [finish, amid]
    cases (b.commit w.session (meanwhile w.shared).2).1 <;> exact ⟨rfl, rfl⟩

/-- A session in memory with something to publish does so unless others have in the meantime. -/
theorem finish_memory {s : TenantSession} (a : α) (stores : Stores) (audit : List AuditEvent)
    (hdirty : s.session.dirty) :
    let store := stores.get s.tenant
    let r := memory.finish (.ok a) ⟨stores, s, audit⟩
    (store.version = s.session.base ∧ r.outcome = .ok a ∧
      r.shared = stores.set s.tenant ⟨store.version + 1, s.session.tables⟩) ∨
    (store.version ≠ s.session.base ∧ r.outcome = .error (.storage .serializationConflict) ∧
      r.shared = stores) := by
  simp only [finish, memory, Store.commit_eq, Store.advance, hdirty, true_and, if_true]
  by_cases hversion : (stores.get s.tenant).version = s.session.base
  · exact .inl ⟨hversion, by simp [hversion]⟩
  · exact .inr ⟨hversion, by simp [hversion, AccessError.ofStorage]⟩

end Backend

/-- A command in a session of its own in memory, amid the changes of others. -/
structure Visit where
  context : Context
  command : Command
  others : List (Stores → Stores)
  stores : Stores

namespace Visit

variable (v : Visit)

def body : Program v.command.Answer := v.command.body v.context

def result : Result (Amid Stores) v.command.Answer :=
  Backend.memory.amid.execute v.context v.body (v.others, v.stores)

/-- What the session finds as it begins. -/
def found : Stores := (meanwhile (v.others, v.stores)).2

/-- What the body comes to, on what was found. -/
def work : Except AccessError v.command.Answer × Session :=
  (v.found.get v.context.tenant).begin.run v.context.stamp v.body

/-- What the session meets as it ends. -/
def met : Stores :=
  (meanwhile (Backend.memory.amid.runIn v.context.stamp v.body
    ⟨v.context.tenant, (v.found.get v.context.tenant).begin⟩
    (meanwhile (v.others, v.stores))).2.shared).2

/-- Nobody else has published in the store of the tenant. -/
def Undisturbed : Prop :=
  (v.met.get v.context.tenant).version = (v.found.get v.context.tenant).version

variable {v}

theorem result_eq_finish : v.result =
    let (outcome, w) := Backend.memory.amid.runIn v.context.stamp v.body
      ⟨v.context.tenant, (v.found.get v.context.tenant).begin⟩ (meanwhile (v.others, v.stores))
    Backend.memory.amid.finish outcome w := rfl

/-- A command that announces anything is through with its body, and has something to publish. -/
theorem work_of_announced {e : AuditEvent} (he : e ∈ v.result.audit) (hannounces : e.announces) :
    ∃ a, v.work.1 = .ok a ∧ v.work.2.dirty := by
  let s : TenantSession := ⟨v.context.tenant, (v.found.get v.context.tenant).begin⟩
  obtain ⟨_, _, haudit⟩ := Backend.runIn_amid v.context.stamp v.body s
    (meanwhile (v.others, v.stores)) v.found
  obtain ⟨houtcome, hsession, _⟩ := Backend.runIn_memory v.context.stamp v.body s v.found
  have hmem : e ∈ (Backend.memory.runIn v.context.stamp v.body s v.found).2.audit := by
    rw [← haudit]
    rwa [result_eq_finish, audit_finish] at he
  obtain hnone | ⟨a, u, hrun, hdirty⟩ :=
    Backend.sincere_memory v.context v.command ⟨v.found, s, []⟩ e hannounces hmem
  · cases hnone
  · rw [Backend.runIn, show v.body = v.command.body v.context from rfl, hrun] at houtcome hsession
    refine ⟨a, houtcome.symm, ?_⟩
    rw [hsession] at hdirty
    exact hdirty

/-- Whether others have published meanwhile decides the outcome. -/
theorem result_of_work {a : v.command.Answer} (hwork : v.work.1 = .ok a)
    (hdirty : v.work.2.dirty) :
    (v.Undisturbed ∧ v.result.outcome = .ok a ∧
      v.result.shared.2 = v.met.set v.context.tenant
        ⟨(v.met.get v.context.tenant).version + 1, v.work.2.tables⟩) ∨
    (¬ v.Undisturbed ∧ v.result.outcome = .error (.storage .serializationConflict) ∧
      v.result.shared.2 = v.met) := by
  let s : TenantSession := ⟨v.context.tenant, (v.found.get v.context.tenant).begin⟩
  let w := (Backend.memory.amid.runIn v.context.stamp v.body s
    (meanwhile (v.others, v.stores))).2
  obtain ⟨houtcome, hsession, _⟩ := Backend.runIn_amid v.context.stamp v.body s
    (meanwhile (v.others, v.stores)) v.found
  obtain ⟨hrun, hend, _⟩ := Backend.runIn_memory v.context.stamp v.body s v.found
  have hresult : v.result = Backend.memory.amid.finish (.ok a) w := by
    rw [result_eq_finish, ← hwork]
    exact congrArg (Backend.memory.amid.finish · w) (houtcome.trans hrun)
  have hw : w.session = ⟨v.context.tenant, v.work.2⟩ := hsession.trans hend
  have hbase : v.work.2.base = (v.found.get v.context.tenant).version :=
    Session.run_follows.base
  obtain ⟨hreported, hshared⟩ := Backend.finish_amid Backend.memory (.ok a) w
  have hfinish := Backend.finish_memory (s := ⟨v.context.tenant, v.work.2⟩) a v.met w.audit hdirty
  rw [hw] at hreported hshared
  rw [Undisturbed, hresult, hreported, hshared, ← hbase]
  exact hfinish

/-- What the session meets is what others have made of what it found. -/
theorem met_of_found (v : Visit) : ∃ changes, changes <+: v.others.tail ∧
    v.met = changes.foldl (fun stores change => change stores) v.found := by
  let Goes (y y' : Amid Stores) : Prop :=
    ∃ changes, y.1 = changes ++ y'.1 ∧ y'.2 = changes.foldl (fun stores change => change stores) y.2
  have hrefl y : Goes y y := ⟨[], rfl, rfl⟩
  have htrans y y' y'' (h : Goes y y') (h' : Goes y' y'') : Goes y y'' := by
    obtain ⟨changes, hothers, hstores⟩ := h
    obtain ⟨more, hothers', hstores'⟩ := h'
    exact ⟨changes ++ more, by rw [hothers, hothers', List.append_assoc],
      by rw [hstores', hstores, List.foldl_append]⟩
  have hmeanwhile y : Goes y (meanwhile y) := by
    obtain ⟨_ | ⟨change, others⟩, x⟩ := y
    · exact hrefl _
    · exact ⟨[change], rfl, rfl⟩
  have hact (q : Action) w :
      Goes w.shared (Backend.memory.amid.act v.context.stamp q w).2.shared := by
    cases q with
    | store r => exact hmeanwhile _
    | look l => exact hmeanwhile _
    | record e => exact hrefl _
  have hrun := run_keeps (d := v.body) (s := ⟨meanwhile (v.others, v.stores),
      ⟨v.context.tenant, (v.found.get v.context.tenant).begin⟩, []⟩)
    (fun (w w' : Working (Amid Stores) TenantSession) => Goes w.shared w'.shared)
    (fun _ => hrefl _) (fun _ _ _ => htrans _ _ _) hact
  obtain ⟨changes, hothers, hmet⟩ := htrans _ _ _ hrun (hmeanwhile _)
  refine ⟨changes, ⟨_, hothers.symm.trans ?_⟩, hmet⟩
  cases v.others <;> rfl

end Visit

namespace Transaction

variable {t : Transaction}

theorem opened_of_announced {e : AuditEvent} (he : e ∈ t.result.audit) : t.opening.1 = .ok () := by
  cases hopening : t.opening.1 with
  | ok => rfl
  | error refusal =>
    rw [result_unopened hopening] at he
    cases he

/-- A command other than a move that announces anything is through with its body. -/
theorem work_of_announced {e : AuditEvent} (he : e ∈ t.result.audit) (hannounces : e.announces)
    (hmove : ∀ actor id newParent, t.command ≠ .moveFolder actor id newParent) :
    t.work.1.isOk := by
  rw [audit_result (opened_of_announced he)] at he
  obtain hnone | ⟨a, u, hrun, _⟩ := (Backend.database.marks_nothing t.context.stamp).sincere
    t.context hmove (w := t.start) e hannounces he
  · cases hnone
  · rw [work, body, hrun]
    rfl

end Transaction

/-- Who announces something has made all changes, and the commit decides whether they last. In
memory it fails if others have published since the session began; on a database server it fails if
the server refuses it. There a move looks at the folder again before that. -/
theorem announcements_await_commit :
    (∀ (v : Visit) (e : AuditEvent), e ∈ v.result.audit → e.announces →
      (∃ changes, changes <+: v.others.tail ∧
        v.met = changes.foldl (fun stores change => change stores) v.found) ∧
      ∃ a, v.work.1 = .ok a ∧
        ((v.Undisturbed ∧ v.result.outcome = .ok a ∧
          v.result.shared.2 = v.met.set v.context.tenant
            ⟨(v.met.get v.context.tenant).version + 1, v.work.2.tables⟩) ∨
        (¬ v.Undisturbed ∧ v.result.outcome = .error (.storage .serializationConflict) ∧
          v.result.shared.2 = v.met))) ∧
    ∀ (t : Transaction) (e : AuditEvent), e ∈ t.result.audit → e.announces →
      t.opening.1 = .ok () ∧
      (∀ a, t.result.outcome = .ok a →
        t.work.1 = .ok a ∧ t.closing = .commit ∧ t.ending = .ok ()) ∧
      ((∀ actor id newParent, t.command ≠ .moveFolder actor id newParent) ∨ t.work.1.isOk →
        ∃ a, t.work.1 = .ok a ∧ t.closing = .commit ∧ t.result.outcome =
          match t.ending with
          | .ok () => .ok a
          | .error refusal => .error (.storage refusal.toStorage)) := by
  constructor
  · intro v e he hannounces
    obtain ⟨a, hwork, hdirty⟩ := Visit.work_of_announced he hannounces
    exact ⟨v.met_of_found, a, hwork, Visit.result_of_work hwork hdirty⟩
  · intro t e he hannounces
    have hopening := Transaction.opened_of_announced he
    refine ⟨hopening, fun a ha => (Transaction.committed ha).2, fun hthrough => ?_⟩
    have hwork : t.work.1.isOk := hthrough.elim (Transaction.work_of_announced he hannounces) id
    have hclosing : t.closing = .commit := by rw [Transaction.closing, if_pos hwork]
    cases ha : t.work.1 with
    | error e => simp [ha, Except.isOk, Except.toBool] at hwork
    | ok a => exact ⟨a, rfl, hclosing, Transaction.outcome_of_success hopening ha⟩

/-- What the owner of a folder puts on record who lets somebody view it. -/
def invited : AuditEvent :=
  .grantCreated (.ofNat 7)
    ⟨.ofNat 9, .folder (.ofNat 1), .user (.ofNat 3), .viewer, .ofNat 2, 100⟩

/-- The owner does so in memory, amid others. -/
def Visit.invitation (others : List (Stores → Stores)) : Visit where
  context := ⟨.ofNat 7, 10, ⟨.ofNat 9, 100⟩⟩
  command := .grantRole (.folder (.ofNat 1)) (.user (.ofNat 3)) .viewer (.ofNat 2)
  others := others
  stores :=
    let owned : Relationship := ⟨.ofNat 5, .owner (.ofNat 2) (.folder (.ofNat 1)), 50⟩
    ⟨[(.ofNat 7, ⟨4, { relationships := [owned] }⟩)]⟩

/-- The owner does so on a database server, which may refuse to begin or to end the transaction. -/
def Transaction.invitation (refusals : List (Boundary × Refusal)) : Transaction where
  context := ⟨.ofNat 7, 10, ⟨.ofNat 9, 100⟩⟩
  command := .grantRole (.folder (.ofNat 1)) (.user (.ofNat 3)) .viewer (.ofNat 2)
  server :=
    { replies := [
        .ok ⟨[Relationship.encode ⟨.ofNat 5, .owner (.ofNat 2) (.folder (.ofNat 1)), 50⟩], 1⟩,
        .ok ⟨[], 0⟩, .ok ⟨[[.bool true]], 1⟩, .ok ⟨[[.bool false]], 1⟩, .ok ⟨[], 1⟩]
      boundaryRefusals := refusals }

/-- Others publish once the session has begun. -/
def disturbance : List (Stores → Stores) := [id, fun stores => stores.set (.ofNat 7) ⟨5, {}⟩]

def congestion : List (Boundary × Refusal) := [(.commit, ⟨some "40001", "could not serialize"⟩)]

theorem announcements_await_commit_invitation :
    invited ∈ (Visit.invitation disturbance).result.audit ∧
    invited ∈ (Transaction.invitation []).result.audit ∧ invited.announces ∧
    (Visit.invitation disturbance).result.outcome = .error (.storage .serializationConflict) ∧
    (Visit.invitation disturbance).result.shared.2 = (Visit.invitation disturbance).met ∧
    ∃ a, (Transaction.invitation []).work.1 = .ok a ∧
      (Transaction.invitation []).result.outcome = .ok a := by
  have hvisit : invited ∈ (Visit.invitation disturbance).result.audit := by decide
  have htransaction : invited ∈ (Transaction.invitation []).result.audit := by decide
  obtain ⟨_, _, _, hcommit⟩ := announcements_await_commit.1 _ _ hvisit rfl
  obtain ⟨_, _, hthrough⟩ := announcements_await_commit.2 _ _ htransaction rfl
  obtain ⟨a, hwork, _, houtcome⟩ := hthrough (.inr (by decide))
  obtain ⟨hundisturbed, _⟩ | ⟨_, hconflict, hshared⟩ := hcommit
  · have hdisturbed : ¬ (Visit.invitation disturbance).Undisturbed := by
      rw [Visit.Undisturbed]
      decide
    exact absurd hundisturbed hdisturbed
  · exact ⟨hvisit, htransaction, rfl, hconflict, hshared, a, hwork, houtcome⟩

/-- The owner of a folder moves it to the root, on a server that does not find it afterwards. -/
def Transaction.departure : Transaction where
  context := ⟨.ofNat 7, 10, ⟨.ofNat 9, 100⟩⟩
  command := .moveFolder (.ofNat 2) (.ofNat 1) none
  server :=
    let folder : Row := Folder.encode ⟨.ofNat 1, "plans", some (.ofNat 4), .ofNat 2, 1, 50, 50⟩
    let path : Row := PathRecord.encode ⟨⟨.ofNat 1, .ofNat 1, 0⟩, 50⟩
    { replies := [
        .ok ⟨[], 0⟩, .ok ⟨[folder], 1⟩, .ok ⟨[], 0⟩, .ok ⟨[[.bool true]], 1⟩,
        .ok ⟨[[.bool true]], 1⟩, .ok ⟨[path], 1⟩, .ok ⟨[path], 1⟩, .ok ⟨[path], 1⟩, .ok ⟨[], 1⟩,
        .ok ⟨[], 1⟩, .ok ⟨[], 1⟩, .ok ⟨[], 1⟩, .ok ⟨[], 0⟩] }

/-- What is announced may come to nothing: in memory, when a server refuses to commit, and when the
last look at a folder moved does not find it there. -/
theorem announced_in_vain :
    (¬ ∀ (v : Visit) (e : AuditEvent), e ∈ v.result.audit → e.announces → v.result.outcome.isOk) ∧
    (¬ ∀ (t : Transaction) (e : AuditEvent), e ∈ t.result.audit → e.announces → t.work.1.isOk →
      t.result.outcome.isOk) ∧
    ¬ ∀ (t : Transaction) (e : AuditEvent), e ∈ t.result.audit → e.announces →
      t.result.outcome.isOk ∨ t.closing = .commit := by
  refine ⟨fun h => ?_, fun h => ?_, fun h => ?_⟩
  · have hok := h (.invitation disturbance) invited (by decide) rfl
    revert hok
    decide
  · have hok := h (.invitation congestion) invited (by decide) rfl (by decide)
    revert hok
    decide
  · have hok := h .departure (.folderMoved (.ofNat 7) (.ofNat 1) none (.ofNat 2) 1) (by decide) rfl
    revert hok
    decide

end DriveAccess
