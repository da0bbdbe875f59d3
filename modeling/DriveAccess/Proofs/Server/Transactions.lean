import DriveAccess.Proofs.Access.Composition
import DriveAccess.Proofs.Server.Replies
/-!
Commands as transactions on a database server: what is sent, in which order, and how the replies
decide the outcome.
-/
namespace DriveAccess

variable {α : Type} {stamp : Stamp} {q : Action} {w : Working Exchange String} {p : Program α}

/-- The request that an action puts to the storage. -/
def Action.request? : Action → Option Request
  | store r => some r
  | look l => some l.request
  | record _ => none

/-- How an action reports an error of the storage. -/
def Action.report : Action → StorageError → AccessError
  | look _, e => .resolve (.storage e.message)
  | store _, e | record _, e => .ofStorage e

/-- What one action of a body comes to on a server: what is said, and whether it succeeds. -/
structure Errand where
  action : Action
  talk : List (Statement × Except Refusal Results)
  outcome : Except AccessError Unit

def Errand.statements (o : Errand) : List Statement := o.talk.map (·.1)

/-- Whether a reply fails the action. -/
def Errand.failsOn (o : Errand) (place : Nat) (reply : Except Refusal Results) : Bool :=
  o.action.request?.any (·.failsOn place reply)

/-- What an action comes to where it finds a body at work. -/
def Action.errand (stamp : Stamp) (m : Action × Working Exchange String) : Errand where
  action := m.1
  talk := match m.1.request? with
    | none => []
    | some r => (r.conversation m.2.session ⟨m.2.shared.spare, stamp.time⟩).talk
      { m.2.shared with spare := m.2.shared.spare.next }
  outcome := (Backend.database.act stamp m.1 m.2).1.map fun _ => ()

/-- A command in a session of its own on a database server. -/
structure Transaction where
  context : Context
  command : Command
  server : Exchange

namespace Transaction

variable (t : Transaction)

def body : Program t.command.Answer := t.command.body t.context

def result : Result Exchange t.command.Answer :=
  Backend.database.execute t.context t.body t.server

/-- The reply to the statement that begins the transaction, and the server after it. -/
def opening : Except Refusal Unit × Exchange := t.server.mark .begin

/-- Where the body starts. -/
def start : Working Exchange String := ⟨t.opening.2, schemaName t.context.tenant, []⟩

/-- What the body comes to. -/
def work : Except AccessError t.command.Answer × Working Exchange String :=
  t.body.run (Backend.database.act t.context.stamp) t.start

/-- The actions of the body, one after the other. -/
def errands : List Errand :=
  (t.body.course (Backend.database.act t.context.stamp) t.start).map
    (Action.errand t.context.stamp)

/-- The statements of the body. -/
def statements : List Statement := t.errands.flatMap (·.statements)

/-- A success is to be committed, a failure to be rolled back. -/
def closing : Boundary := if t.work.1.isOk then .commit else .rollback

/-- The reply to the statement that ends the transaction. -/
def ending : Except Refusal Unit := (t.work.2.shared.mark t.closing).1

/-- After a refusal to end the transaction it is rolled back as it is let go. -/
def aftermath : List Boundary :=
  match t.ending with
  | .ok () => []
  | .error _ => [.rollback]

end Transaction

/-- Commands that change the folder tree, one of them at a time. -/
def Command.locks : Command → Bool
  | createFolder _ _ _ | moveFolder _ _ _ | deleteFolder _ _ => true
  | _ => false

/-! Actions on a server. -/

theorem sent_act (stamp : Stamp) (q : Action) (w : Working Exchange String) :
    (Backend.database.act stamp q w).2.shared.sent =
      w.shared.sent ++ (Action.errand stamp (q, w)).statements.map .statement := by
  cases q with
  | store r =>
    rw [Errand.statements, List.map_map]
    exact Conversation.sent_run
  | look l =>
    rw [Errand.statements, List.map_map]
    exact Conversation.sent_run
  | record e => exact (List.append_nil _).symm

/-- An action is over with the first reply that fails it. -/
theorem Action.errand_stops {s : Statement} {reply : Except Refusal Results}
    {front back : List (Statement × Except Refusal Results)}
    (h : (Action.errand stamp (q, w)).talk = front ++ (s, reply) :: back)
    (hfail : (Action.errand stamp (q, w)).failsOn front.length reply) :
    back = [] ∧ ∃ e : StorageError, e.Explains s reply ∧
      (Action.errand stamp (q, w)).outcome = .error (q.report e) := by
  cases q with
  | store r =>
    obtain ⟨hback, e, hrun, hexplains⟩ := Request.stops h hfail
    refine ⟨hback, e, hexplains, ?_⟩
    simp only [errand, Backend.act, Backend.serve, Backend.database, Backend.databaseIn, hrun]
    rfl
  | look l =>
    obtain ⟨hback, e, hrun, hexplains⟩ := Request.stops h hfail
    refine ⟨hback, e, hexplains, ?_⟩
    simp only [errand, Backend.act, Backend.serve, Backend.database, Backend.databaseIn, hrun]
    rfl
  | record e => simp [errand, request?] at h

theorem Action.errand_lock :
    (Action.errand stamp (.store .lockHierarchy, w)).statements = [.lockHierarchy w.session] := by
  have hconversation : Request.lockHierarchy.conversation w.session ⟨w.shared.spare, stamp.time⟩ =
      .ask (.lockHierarchy w.session) fun _ => .done () := rfl
  simp only [Errand.statements, errand, request?, hconversation, Conversation.talk, Dialogue.course]
  split <;> rfl

theorem Refusal.ofStorage_toStorage (r : Refusal) :
    AccessError.ofStorage r.toStorage = .storage r.toStorage := by
  rw [toStorage]
  split <;> rfl

namespace Exchange

variable {x : Exchange} {b : Boundary}

theorem sent_mark : (x.mark b).2.sent = x.sent ++ [.boundary b] := by
  rw [mark]
  split <;> rfl

theorem sent_finish_ok (h : (x.mark b).1 = .ok ()) :
    (x.finish b).1 = .ok () ∧ (x.finish b).2.sent = x.sent ++ [.boundary b] := by
  have hsent := sent_mark (x := x) (b := b)
  rw [finish]
  rcases hmark : x.mark b with ⟨refusal | ⟨⟩, y⟩ <;> rw [hmark] at h hsent
  · cases h
  · exact ⟨rfl, hsent⟩

theorem sent_finish_error {refusal : Refusal} (h : (x.mark b).1 = .error refusal) :
    (x.finish b).1 = .error refusal.toStorage ∧
      (x.finish b).2.sent = x.sent ++ [.boundary b, .boundary .rollback] := by
  have hsent := sent_mark (x := x) (b := b)
  rw [finish]
  rcases hmark : x.mark b with ⟨refusal' | ⟨⟩, y⟩ <;> rw [hmark] at h hsent
  · cases h
    exact ⟨rfl, by rw [sent_mark, hsent]; simp⟩
  · cases h

end Exchange

namespace Transaction

variable {t : Transaction}

theorem sent_work : t.work.2.shared.sent = t.opening.2.sent ++ t.statements.map .statement := by
  have hlog := Dialogue.course_log (d := t.body) (s := t.start) (fun w => w.shared.sent)
    (fun m => (Action.errand t.context.stamp m).statements.map .statement)
    (sent_act t.context.stamp)
  rw [work, hlog, statements, errands, List.map_flatMap, List.flatMap_map]
  rfl

theorem result_unopened {refusal : Refusal} (h : t.opening.1 = .error refusal) :
    t.result = ⟨.error (.storage refusal.toStorage), t.opening.2, []⟩ := by
  rw [opening] at h ⊢
  rw [result, Backend.execute, ← refusal.ofStorage_toStorage]
  simp only [Backend.database, Backend.databaseIn]
  rcases hmark : t.server.mark .begin with ⟨refusal' | ⟨⟩, x⟩ <;> rw [hmark] at h
  · cases h
    rfl
  · cases h

theorem result_opened (h : t.opening.1 = .ok ()) :
    t.result = Backend.database.finish t.work.1 t.work.2 := by
  rw [opening] at h
  rw [result, Backend.execute, work, start, opening]
  simp only [Backend.database, Backend.databaseIn]
  rcases hmark : t.server.mark .begin with ⟨refusal | ⟨⟩, x⟩ <;> rw [hmark] at h
  · cases h
  · rfl

/-- Whatever is replied to the rollback. -/
theorem outcome_of_failure {e : AccessError} (h : t.opening.1 = .ok ())
    (hwork : t.work.1 = .error e) : t.result.outcome = .error e := by
  rw [result_opened h, hwork]
  rfl

theorem stops {front back : List Errand} {o : Errand} {e : AccessError}
    (h : t.errands = front ++ o :: back) (ho : o.outcome = .error e) :
    back = [] ∧ t.work.1 = .error e := by
  obtain ⟨before, rest, hcourse, rfl, hrest⟩ := List.map_eq_append_iff.mp h
  obtain ⟨⟨q, w⟩, after, rfl, rfl, rfl⟩ := List.map_eq_cons_iff.mp hrest
  rw [Action.errand] at ho
  rcases hact : Backend.database.act t.context.stamp q w with ⟨e' | a, v⟩ <;>
    simp only [hact] at ho
  · cases ho
    obtain ⟨rfl, hrun⟩ := Dialogue.course_stops hcourse hact
    exact ⟨rfl, by rw [work, hrun]⟩
  · cases ho

/-- The reply to the commit decides the outcome of a success. -/
theorem outcome_of_success {a : t.command.Answer} (h : t.opening.1 = .ok ())
    (hwork : t.work.1 = .ok a) : t.result.outcome =
      match t.ending with
      | .ok () => .ok a
      | .error refusal => .error (.storage refusal.toStorage) := by
  rw [result_opened h, ending, closing, hwork]
  simp only [Except.isOk, Except.toBool, if_true]
  cases hmark : (t.work.2.shared.mark .commit).1 with
  | ok =>
    have hfinish := (Exchange.sent_finish_ok hmark).1
    simp only [Backend.finish, Backend.database, Backend.databaseIn, hfinish]
  | error refusal =>
    have hfinish := (Exchange.sent_finish_error hmark).1
    simp only [Backend.finish, Backend.database, Backend.databaseIn, hfinish,
      Refusal.ofStorage_toStorage]

/-- Success means that the commit was acknowledged. -/
theorem committed {a : t.command.Answer} (h : t.result.outcome = .ok a) :
    t.opening.1 = .ok () ∧ t.work.1 = .ok a ∧ t.closing = .commit ∧ t.ending = .ok () := by
  cases hopening : t.opening.1 with
  | error refusal =>
    rw [result_unopened hopening] at h
    cases h
  | ok =>
    cases hwork : t.work.1 with
    | error e =>
      rw [outcome_of_failure hopening hwork] at h
      cases h
    | ok a' =>
      have hclosing : t.closing = .commit := by
        rw [closing, hwork]
        rfl
      rw [outcome_of_success hopening hwork] at h
      cases hending : t.ending <;> rw [hending] at h <;> cases h
      exact ⟨rfl, rfl, hclosing, rfl⟩

theorem shared_result (h : t.opening.1 = .ok ()) :
    t.result.shared = (t.work.2.shared.finish t.closing).2 := by
  rw [result_opened h, closing]
  cases t.work.1 with
  | error e => rfl
  | ok a =>
    simp only [Backend.finish, Backend.database, Backend.databaseIn, Except.isOk, Except.toBool,
      if_true]
    split <;> rfl

theorem audit_result (h : t.opening.1 = .ok ()) : t.result.audit = t.work.2.audit := by
  rw [result_opened h, audit_finish]

theorem sent_result (h : t.opening.1 = .ok ()) : t.result.shared.sent = t.server.sent ++
    (.boundary .begin :: t.statements.map .statement ++
      (t.closing :: t.aftermath).map .boundary) := by
  have hopening : t.opening.2.sent = t.server.sent ++ [.boundary .begin] := Exchange.sent_mark
  have hend : (t.work.2.shared.finish t.closing).2.sent =
      t.work.2.shared.sent ++ (t.closing :: t.aftermath).map .boundary := by
    rw [aftermath]
    cases hending : t.ending with
    | ok => exact (Exchange.sent_finish_ok hending).2
    | error refusal => exact (Exchange.sent_finish_error hending).2
  rw [shared_result h, hend, sent_work, hopening]
  simp only [List.append_assoc, List.cons_append, List.nil_append]

theorem body_locks (h : t.command.locks) :
    ∃ next, t.body = .ask (.store .lockHierarchy) next := by
  rw [body]
  cases hcommand : t.command <;> rw [hcommand] at h <;> first
    | exact ⟨_, rfl⟩
    | cases h

theorem statements_lock (h : t.command.locks) :
    ∃ rest, t.statements = .lockHierarchy (schemaName t.context.tenant) :: rest := by
  obtain ⟨next, hbody⟩ := body_locks h
  rw [statements, errands, hbody, Dialogue.course, List.map_cons, List.flatMap_cons,
    Action.errand_lock]
  exact ⟨_, rfl⟩

/-- How a transaction goes. -/
structure Disciplined (t : Transaction) : Prop where
  /-- Nothing follows a statement to begin that is refused. -/
  unopened : ∀ refusal, t.opening.1 = .error refusal →
    t.result.outcome = .error (.storage refusal.toStorage) ∧
      t.result.shared.sent = t.server.sent ++ [.boundary .begin]
  /-- The body stands between the beginning and a commit if it succeeded, a rollback otherwise. -/
  opened : t.opening.1 = .ok () → t.result.shared.sent = t.server.sent ++
    (.boundary .begin :: t.statements.map .statement ++
      (t.closing :: t.aftermath).map .boundary)
  /-- An action is over with the first reply that fails it. -/
  breaks : ∀ o ∈ t.errands, ∀ front s reply back, o.talk = front ++ (s, reply) :: back →
    o.failsOn front.length reply → back = [] ∧ ∃ e, o.outcome = .error e
  /-- The body is over with the first action that fails. -/
  stops : ∀ front o back e, t.errands = front ++ o :: back → o.outcome = .error e →
    back = [] ∧ t.work.1 = .error e
  /-- Success means that the commit was acknowledged. -/
  committed : ∀ a, t.result.outcome = .ok a →
    t.opening.1 = .ok () ∧ t.work.1 = .ok a ∧ t.closing = .commit ∧ t.ending = .ok ()
  /-- The error of the body is reported whatever becomes of the rollback. -/
  reported : t.opening.1 = .ok () → ∀ e, t.work.1 = .error e → t.result.outcome = .error e
  /-- What changes the folder tree takes the lock named by the schema before all else. -/
  locked : t.command.locks → ∃ lock rest, t.statements = lock :: rest ∧
    lock.text = "SELECT pg_advisory_xact_lock(hashtext($1))" ∧
    lock.params = [.text (schemaName t.context.tenant)]

theorem disciplined (t : Transaction) : t.Disciplined where
  unopened refusal h := by
    rw [result_unopened h]
    exact ⟨rfl, Exchange.sent_mark⟩
  opened := sent_result
  breaks o ho front s reply back htalk hfail := by
    obtain ⟨m, _, rfl⟩ := List.mem_map.mp ho
    obtain ⟨hback, e, _, houtcome⟩ := Action.errand_stops htalk hfail
    exact ⟨hback, _, houtcome⟩
  stops front o back e := Transaction.stops
  committed _ := committed
  reported h _ := outcome_of_failure h
  locked h := by
    obtain ⟨rest, hstatements⟩ := statements_lock h
    exact ⟨_, rest, hstatements, rfl, rfl⟩

end Transaction

end DriveAccess
