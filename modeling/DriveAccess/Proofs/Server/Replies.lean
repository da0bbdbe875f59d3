import DriveAccess.Proofs.Courses
import DriveAccess.Sql.Exchange
/-!
What a request makes of the replies of a database server: a refused statement ends it, and so do
rows that make no sense.
-/
namespace DriveAccess

variable {α β γ : Type}

section

variable {P : StorageError → Prop} {f : α → Except StorageError β}

theorem error_bind {x : Except StorageError α} (hx : ∀ e, x = .error e → P e)
    (hf : ∀ a e, f a = .error e → P e) : ∀ e, x >>= f = .error e → P e := by
  cases x with
  | ok a => exact hf a
  | error e =>
    intro e' h
    cases h
    exact hx e rfl

theorem error_mapM (hf : ∀ a e, f a = .error e → P e) (xs : List α) :
    ∀ e, xs.mapM f = .error e → P e := by
  induction xs with
  | nil => exact nofun
  | cons x xs ih =>
    rw [List.mapM_cons]
    exact error_bind (hf x) fun _ => error_bind ih fun _ => nofun

end

/-- An error that tells of the storage, not of what is stored. -/
def Faults (x : Except StorageError α) : Prop :=
  ∀ e, x = .error e → ∃ text, e = .internal text

theorem faults_ok (a : α) : Faults (.ok a) := nofun

theorem faults_internal (text : String) : Faults (.error (.internal text) : Except _ α) :=
  fun _ h => ⟨text, by cases h; rfl⟩

/-- An error that tells of what a row holds. -/
def Corrupt (x : Except StorageError α) : Prop :=
  ∀ e, x = .error e → ∃ why : String, e = .internal s!"corrupt row: {why}"

theorem corrupt_ok (a : α) : Corrupt (.ok a) := nofun

theorem Corrupt.faults {x : Except StorageError α} (h : Corrupt x) : Faults x :=
  fun e he => (h e he).elim fun _ hwhy => ⟨_, hwhy⟩

theorem corrupt_checkWord (parsed : Except ValidationError α) : Corrupt (checkWord parsed) := by
  cases parsed with
  | ok a => exact corrupt_ok a
  | error e =>
    intro e' h
    cases h
    exact ⟨e.message, rfl⟩

theorem corrupt_ofInt4 (n : Int32) : Corrupt (ofInt4 n) := by
  rw [ofInt4]
  split
  · intro e h
    cases h
    have hsplit : "corrupt row: " ++ "negative value " ++ toString n.toInt =
        "corrupt row: " ++ ("negative value " ++ toString n.toInt) := String.append_assoc
    exact ⟨_, congrArg StorageError.internal hsplit⟩
  · exact corrupt_ok _

theorem Relationship.Columns.corrupt_check (c : Relationship.Columns) : Corrupt c.check :=
  error_bind (corrupt_checkWord _) fun _ => error_bind (corrupt_checkWord _) fun _ =>
    error_bind (corrupt_checkWord _) fun _ => corrupt_ok _

theorem Grant.Columns.corrupt_check (c : Grant.Columns) : Corrupt c.check :=
  error_bind (corrupt_checkWord _) fun _ => error_bind (corrupt_checkWord _) fun _ =>
    error_bind (corrupt_checkWord _) fun _ => corrupt_ok _

theorem PathRecord.Columns.corrupt_check (c : PathRecord.Columns) : Corrupt c.check :=
  error_bind (corrupt_ofInt4 _) fun _ => corrupt_ok _

theorem Folder.Columns.corrupt_check (c : Folder.Columns) : Corrupt c.check :=
  error_bind (corrupt_ofInt4 _) fun _ => corrupt_ok _

theorem MembershipRecord.Columns.corrupt_check (c : MembershipRecord.Columns) : Corrupt c.check :=
  error_bind (corrupt_checkWord _) fun _ => corrupt_ok _

namespace Conversation

theorem faults_readRow (read : Row → Except RowFault α) (row : Row) :
    Faults (readRow read row) := by
  rw [readRow]
  cases read row
  · exact faults_internal _
  · exact faults_ok _

end Conversation

/-- Whether the columns of a row can be read and pass their check. -/
def Row.isSound (read : Row → Except RowFault α) (check : α → Except StorageError β)
    (row : Row) : Bool := (Conversation.readRow read row >>= check).isOk

namespace Results

variable (read : Row → Except RowFault α) (check : α → Except StorageError β) (results : Results)

/-- What a query makes of all rows. -/
def readAll : Except StorageError (List β) := do
  let columns ← results.rows.mapM (Conversation.readRow read)
  columns.mapM check

/-- What a query makes of the first row, if there is one. -/
def readOptional : Except StorageError (Option β) :=
  match results.rows with
  | [] => .ok none
  | row :: _ => some <$> (Conversation.readRow read row >>= check)

/-- What a query makes of a truth value. -/
def readBool : Except StorageError Bool :=
  match results.rows with
  | [] => .error (.internal Conversation.rowNotFound)
  | row :: _ => Conversation.readRow (·.bool 0) row

end Results

section

variable {f : α → Except StorageError β} {g : β → Except StorageError γ}

theorem isOk_mapM (xs : List α) : (xs.mapM f).isOk = xs.all fun x => (f x).isOk := by
  induction xs with
  | nil => rfl
  | cons x xs ih =>
    rw [List.mapM_cons, List.all_cons, ← ih]
    cases f x with
    | error e => rfl
    | ok y => cases xs.mapM f <;> rfl

theorem isOk_mapM_bind {xs : List α} {ys : List β} (h : xs.mapM f = .ok ys) :
    (ys.mapM g).isOk = xs.all fun x => (f x >>= g).isOk := by
  induction xs generalizing ys with
  | nil =>
    cases h
    rfl
  | cons x xs ih =>
    rw [List.mapM_cons] at h
    cases hx : f x with
    | error e =>
      rw [hx] at h
      cases h
    | ok y =>
      cases hxs : xs.mapM f with
      | error e =>
        rw [hx, hxs] at h
        cases h
      | ok ys' =>
        rw [hx, hxs] at h
        cases h
        rw [isOk_mapM, List.all_cons, List.all_cons, ← ih hxs, isOk_mapM, hx]
        rfl

end

namespace Results

variable {read : Row → Except RowFault α} {check : α → Except StorageError β} {results : Results}

theorem isOk_readAll :
    (results.readAll read check).isOk = results.rows.all (Row.isSound read check) := by
  rw [readAll]
  cases h : results.rows.mapM (Conversation.readRow read) with
  | ok columns => exact isOk_mapM_bind h
  | error e =>
    have hall := isOk_mapM (f := Conversation.readRow read) results.rows
    rw [h] at hall
    obtain ⟨row, hrow, hbad⟩ := List.all_eq_false.mp hall.symm
    refine (List.all_eq_false.mpr ⟨row, hrow, ?_⟩).symm
    intro hsound
    rw [Row.isSound] at hsound
    cases hread : Conversation.readRow read row <;> rw [hread] at hbad hsound
    · cases hsound
    · exact hbad rfl

theorem isOk_readOptional :
    (results.readOptional read check).isOk = results.rows.head?.all (Row.isSound read check) := by
  rw [readOptional]
  cases results.rows with
  | nil => rfl
  | cons row rest =>
    simp only [List.head?_cons, Option.all_some, Row.isSound]
    cases Conversation.readRow read row >>= check <;> rfl

theorem isOk_readBool :
    results.readBool.isOk = results.rows.head?.any fun row => (row.bool 0).isOk := by
  rw [readBool]
  cases results.rows with
  | nil => rfl
  | cons row rest =>
    simp only [List.head?_cons, Option.any_some, Conversation.readRow]
    cases row.bool 0 <;> rfl

theorem faults_readAll (hcheck : ∀ c, Faults (check c)) : Faults (results.readAll read check) :=
  error_bind (error_mapM (Conversation.faults_readRow _) _) fun _ => error_mapM hcheck _

theorem faults_readOptional (hcheck : ∀ c, Faults (check c)) :
    Faults (results.readOptional read check) := by
  rw [readOptional]
  cases results.rows with
  | nil => exact faults_ok _
  | cons row rest =>
    have hrow : Faults (Conversation.readRow read row >>= check) :=
      error_bind (Conversation.faults_readRow read row) hcheck
    exact error_bind hrow fun _ => faults_ok _

theorem faults_readBool : Faults results.readBool := by
  rw [readBool]
  cases results.rows with
  | nil => exact faults_internal _
  | cons row rest => exact Conversation.faults_readRow _ row

end Results

/-- Whether the rows that come in reply to the query of a request make sense. Most requests have no
query. -/
def Request.understands : Request → Results → Bool
  | findRelationships _, results | findByObject _, results | findBySubject _, results
  | findParent _, results | findSubjects _ _, results | findObjects _ _, results =>
    results.rows.all (Row.isSound Relationship.Columns.read Relationship.Columns.check)
  | relationshipExists _, results | grantExists _ _ _, results =>
    results.rows.head?.any fun row => (row.bool 0).isOk
  | findGrant _, results =>
    results.rows.head?.all (Row.isSound Grant.Columns.read Grant.Columns.check)
  | findGrantsFor _, results | findGrants _ _ _, results =>
    results.rows.all (Row.isSound Grant.Columns.read Grant.Columns.check)
  | findAncestors _, results | findDescendants _, results | findAncestorPaths _, results
  | findSubtree _, results | moveSubtree _ _, results | listPaths, results =>
    results.rows.all (Row.isSound PathRecord.Columns.read PathRecord.Columns.check)
  | findFolder _, results =>
    results.rows.head?.all (Row.isSound Folder.Columns.read Folder.Columns.check)
  | listFolders, results =>
    results.rows.all (Row.isSound Folder.Columns.read Folder.Columns.check)
  | findMembershipsOf _, results | findMembersOf _, results =>
    results.rows.all (Row.isSound MembershipRecord.Columns.read MembershipRecord.Columns.check)
  | _, _ => true

namespace Conversation

variable {read : Row → Except RowFault α} {check : α → Except StorageError β} {s : Statement}
  {sensible : Results → Bool}

theorem send_bind (f : Results → Conversation α) : (send s >>= f) = .ask s f := rfl

theorem fetchAll_eq :
    fetchAll read check s = .ask s fun results => .ofExcept (results.readAll read check) := by
  rw [fetchAll, send_bind]
  congr
  funext results
  rw [Results.readAll]
  cases results.rows.mapM (readRow read) <;> rfl

theorem fetchOptional_eq : fetchOptional read check s =
    .ask s fun results => .ofExcept (results.readOptional read check) := by
  rw [fetchOptional, send_bind]
  congr
  funext results
  rw [Results.readOptional]
  cases results.rows with
  | nil => rfl
  | cons row rest =>
    dsimp only
    cases readRow read row with
    | error e => rfl
    | ok columns =>
      change (Dialogue.ofExcept (check columns)).bind _ = .ofExcept (some <$> check columns)
      cases check columns <;> rfl

theorem fetchBool_eq : fetchBool s = .ask s fun results => .ofExcept results.readBool := by
  rw [fetchBool, send_bind]
  congr
  funext results
  rw [Results.readBool]
  cases results.rows <;> rfl

/-- A conversation that opens with a query and ends if the rows that come in reply make no sense. -/
def Demands (sensible : Results → Bool) (d : Conversation α) : Prop :=
  ∃ s next, d = .ask s next ∧
    ∀ results, sensible results = false → ∃ text, next results = .fail (.internal text)

/-- A conversation that opens with a statement and ends if the reply cannot be read, with what is
wrong with it. -/
def Heeds (s : Statement) (readAs : Results → Except StorageError β) (d : Conversation α) : Prop :=
  ∃ next, d = .ask s next ∧ ∀ results e, readAs results = .error e → next results = .fail e

theorem Heeds.bind {readAs : Results → Except StorageError γ} {d : Conversation α}
    {f : α → Conversation β} (h : Heeds s readAs d) : Heeds s readAs (d >>= f) := by
  obtain ⟨next, rfl, hnext⟩ := h
  refine ⟨fun results => (next results).bind f, rfl, fun results e herror => ?_⟩
  exact congrArg (·.bind f) (hnext results e herror)

theorem heeds_ask (readAs : Results → Except StorageError α) :
    Heeds s readAs (.ask s fun results => .ofExcept (readAs results)) := by
  refine ⟨_, rfl, fun results e herror => ?_⟩
  simp only [herror]
  rfl

theorem heeds_fetchAll : Heeds s (Results.readAll read check) (fetchAll read check s) := by
  rw [fetchAll_eq]
  exact heeds_ask _

theorem heeds_fetchOptional :
    Heeds s (Results.readOptional read check) (fetchOptional read check s) := by
  rw [fetchOptional_eq]
  exact heeds_ask _

theorem heeds_fetchBool : Heeds s Results.readBool (fetchBool s) := by
  rw [fetchBool_eq]
  exact heeds_ask _

theorem heeds_fetchRelationships {schema : String} {f : TupleFilter} :
    Heeds (.selectRelationships schema f)
      (Results.readAll Relationship.Columns.read Relationship.Columns.check)
      (fetchRelationships schema f) :=
  heeds_fetchAll

theorem heeds_fetchPaths :
    Heeds s (Results.readAll PathRecord.Columns.read PathRecord.Columns.check) (fetchPaths s) :=
  heeds_fetchAll

theorem heeds_fetchMemberships :
    Heeds s (Results.readAll MembershipRecord.Columns.read MembershipRecord.Columns.check)
      (fetchMemberships s) :=
  heeds_fetchAll

theorem Heeds.demands {readAs : Results → Except StorageError β} {d : Conversation α}
    (h : Heeds s readAs d) (hfaults : ∀ results, Faults (readAs results))
    (hok : ∀ results, (readAs results).isOk = sensible results) : Demands sensible d := by
  obtain ⟨next, rfl, hnext⟩ := h
  refine ⟨s, next, rfl, fun results hbad => ?_⟩
  rw [← hok] at hbad
  cases hread : readAs results with
  | ok a =>
    rw [hread] at hbad
    cases hbad
  | error e =>
    obtain ⟨text, rfl⟩ := hfaults results e hread
    exact ⟨text, hnext results _ hread⟩

theorem Heeds.demandsAll {d : Conversation γ} (h : Heeds s (Results.readAll read check) d)
    (hcheck : ∀ c, Corrupt (check c)) :
    Demands (fun results => results.rows.all (Row.isSound read check)) d :=
  h.demands (fun _ => Results.faults_readAll fun c => (hcheck c).faults)
    fun _ => Results.isOk_readAll

theorem Heeds.demandsOptional {d : Conversation γ}
    (h : Heeds s (Results.readOptional read check) d) (hcheck : ∀ c, Corrupt (check c)) :
    Demands (fun results => results.rows.head?.all (Row.isSound read check)) d :=
  h.demands (fun _ => Results.faults_readOptional fun c => (hcheck c).faults)
    fun _ => Results.isOk_readOptional

end Conversation

open Conversation in
/-- Rows that make no sense end a request. -/
theorem Request.fails_of_nonsense {r : Request} {schema : String} {stamp : Stamp} {s : Statement}
    {next : Results → Conversation r.Answer} {results : Results}
    (hask : r.conversation schema stamp = .ask s next) (h : r.understands results = false) :
    ∃ text, next results = .fail (.internal text) := by
  have hdemands : Demands r.understands (r.conversation schema stamp) := by
    cases r
    case findRelationships | findByObject | findBySubject =>
      exact heeds_fetchRelationships.demandsAll Relationship.Columns.corrupt_check
    case findParent | findSubjects | findObjects =>
      exact heeds_fetchRelationships.bind.demandsAll Relationship.Columns.corrupt_check
    case relationshipExists | grantExists =>
      exact heeds_fetchBool.demands (fun _ => Results.faults_readBool)
        fun _ => Results.isOk_readBool
    case findGrant => exact heeds_fetchOptional.demandsOptional Grant.Columns.corrupt_check
    case findGrantsFor => exact heeds_fetchAll.demandsAll Grant.Columns.corrupt_check
    case findGrants resource kind grantees =>
      cases grantees with
      | nil => cases hask
      | cons g rest => exact heeds_fetchAll.demandsAll Grant.Columns.corrupt_check
    case findAncestors | findDescendants | moveSubtree =>
      exact heeds_fetchPaths.bind.demandsAll PathRecord.Columns.corrupt_check
    case findAncestorPaths | findSubtree | listPaths =>
      exact heeds_fetchPaths.demandsAll PathRecord.Columns.corrupt_check
    case findFolder => exact heeds_fetchOptional.demandsOptional Folder.Columns.corrupt_check
    case listFolders => exact heeds_fetchAll.demandsAll Folder.Columns.corrupt_check
    case findMembershipsOf | findMembersOf =>
      exact heeds_fetchMemberships.demandsAll MembershipRecord.Columns.corrupt_check
    -- the others take the rows as they come
    all_goals cases h
  obtain ⟨s', next', heq, hnext⟩ := hdemands
  rw [heq] at hask
  cases hask
  exact hnext results h

/-- A statement and the reply to it. -/
def Exchange.said (m : Statement × Exchange) : Statement × Except Refusal Results :=
  (m.1, (m.2.submit m.1).1)

/-- The statements of a conversation, each with the reply to it. -/
def Conversation.talk (d : Conversation α) (x : Exchange) :
    List (Statement × Except Refusal Results) :=
  (d.course Exchange.answer x).map Exchange.said

/-- Whether a reply fails a request: a refusal, or rows that make no sense in reply to its query,
which comes first. -/
def Request.failsOn (r : Request) (place : Nat) : Except Refusal Results → Bool
  | .error _ => true
  | .ok results => place == 0 && !r.understands results

/-- What is made of a reply that fails a request. -/
def StorageError.Explains (e : StorageError) (s : Statement) : Except Refusal Results → Prop
  | .error refusal => e = refusal.explain s.purpose
  | .ok _ => ∃ text, e = .internal text

variable {d : Conversation α} {x u : Exchange} {s : Statement}

theorem Exchange.answer_eq : Exchange.answer s x =
    ((x.submit s).1.mapError (·.explain s.purpose), (x.submit s).2) := rfl

theorem Exchange.sent_answer (s : Statement) (x : Exchange) :
    (Exchange.answer s x).2.sent = x.sent ++ [.statement s] := by
  rw [Exchange.answer, Exchange.submit]
  cases x.replies <;> rfl

theorem Conversation.sent_run :
    (d.run Exchange.answer x).2.sent = x.sent ++ (d.talk x).map (.statement ·.1) := by
  have hlog := Dialogue.course_log (d := d) (s := x) Exchange.sent
    (fun m => [Sent.statement m.1]) Exchange.sent_answer
  rw [hlog, talk, List.map_map, List.map_eq_flatMap]
  rfl

namespace Request

variable {r : Request} {schema : String} {stamp : Stamp}

theorem stops_on_refusal {front back : List (Statement × Exchange)} {refusal : Refusal}
    (h : d.course Exchange.answer x = front ++ (s, u) :: back)
    (hreply : (u.submit s).1 = .error refusal) :
    back = [] ∧ (d.run Exchange.answer x).1 = .error (refusal.explain s.purpose) := by
  have hanswer : Exchange.answer s u = (.error (refusal.explain s.purpose), (u.submit s).2) := by
    rw [Exchange.answer_eq, hreply]
    rfl
  obtain ⟨hback, hrun⟩ := Dialogue.course_stops h hanswer
  exact ⟨hback, by rw [hrun]⟩

theorem stops_on_nonsense {back : List (Statement × Exchange)} {results : Results}
    (h : (r.conversation schema stamp).course Exchange.answer x = (s, u) :: back)
    (hreply : (u.submit s).1 = .ok results) (hsense : r.understands results = false) :
    back = [] ∧ ∃ text,
      ((r.conversation schema stamp).run Exchange.answer x).1 = .error (.internal text) := by
  have hanswer : Exchange.answer s u = (.ok results, (u.submit s).2) := by
    rw [Exchange.answer_eq, hreply]
    rfl
  cases hask : r.conversation schema stamp with
  | done a => simp [hask, Dialogue.course] at h
  | fail e => simp [hask, Dialogue.course] at h
  | ask s' next =>
    obtain ⟨text, hnext⟩ := fails_of_nonsense hask hsense
    rw [hask, Dialogue.course] at h
    obtain ⟨hhead, htail⟩ := List.cons.inj h
    cases hhead
    rw [hanswer] at htail
    simp only [hnext, Dialogue.course] at htail
    refine ⟨htail.symm, text, ?_⟩
    rw [Dialogue.run, hanswer]
    simp only [hnext, Dialogue.run]

/-- A request is over with the first reply that fails it. -/
theorem stops {front back : List (Statement × Except Refusal Results)}
    {reply : Except Refusal Results}
    (h : (r.conversation schema stamp).talk x = front ++ (s, reply) :: back)
    (hfail : r.failsOn front.length reply) :
    back = [] ∧ ∃ e, ((r.conversation schema stamp).run Exchange.answer x).1 = .error e ∧
      e.Explains s reply := by
  obtain ⟨before, rest, hcourse, rfl, hrest⟩ := List.map_eq_append_iff.mp h
  obtain ⟨⟨s', u⟩, after, rfl, hsaid, rfl⟩ := List.map_eq_cons_iff.mp hrest
  obtain ⟨rfl, rfl⟩ := Prod.mk.inj hsaid
  dsimp only at hfail ⊢
  cases hreply : (u.submit s').1 with
  | error refusal =>
    obtain ⟨rfl, hrun⟩ := stops_on_refusal hcourse hreply
    exact ⟨rfl, _, hrun, rfl⟩
  | ok results =>
    rw [hreply] at hfail
    obtain ⟨hplace, hsense⟩ : before = [] ∧ r.understands results = false := by
      simpa [failsOn] using hfail
    obtain rfl := hplace
    obtain ⟨rfl, text, hrun⟩ := stops_on_nonsense hcourse hreply hsense
    exact ⟨rfl, _, hrun, text, rfl⟩

end Request

end DriveAccess
