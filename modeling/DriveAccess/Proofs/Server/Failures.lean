import DriveAccess.Proofs.Access.Composition
import DriveAccess.Proofs.Server.Confinement
import DriveAccess.Proofs.Server.Transactions
/-!
How the failures of a database server are reported: as conflicts where rows were to be inserted that
are there already, as failures of the infrastructure otherwise, and never as denials.
-/
namespace DriveAccess

open Dialogue

variable {α β σ S : Type} {stamp : Stamp} {schema : String}

/-- The denial that an action puts on record. -/
def Action.denial? : Action → Option Denial
  | record (.accessDenied _ d) => some d
  | _ => none

namespace Program

/-- When the program puts a denial on record, it fails with that denial at once. -/
def Candid : Program α → Prop
  | .done _ => True
  | .fail _ => True
  | .ask q next =>
    (∀ d, q.denial? = some d → ∀ a, next a = .fail (.forbidden d)) ∧ ∀ a, Candid (next a)

variable {p : Program α} {f : α → Program β}

theorem Candid.bind (h : Candid p) (hf : ∀ a, Candid (f a)) : Candid (p >>= f) := by
  change Candid (Dialogue.bind p f)
  induction p with
  | done a => exact hf a
  | fail e => trivial
  | ask q next ih =>
    refine ⟨fun d hd a => ?_, fun a => ih a (h.2 a)⟩
    exact congrArg (Dialogue.bind · f) (h.1 d hd a)

theorem candid_query {q : Action} (h : q.denial? = none) :
    Candid (.query q : Program (Action.Reply q)) := by
  refine ⟨fun d hd => ?_, fun _ => trivial⟩
  rw [h] at hd
  cases hd

theorem candid_resolve (d : Resolution α) : Candid (resolve d) := by
  induction d with
  | done a => trivial
  | fail e => trivial
  | ask l next ih =>
    refine ⟨fun _ hd => ?_, fun a => ih a⟩
    cases hd

theorem candid_deny (c : Context) (d : Denial) : Candid (deny c d : Program α) := by
  refine ⟨fun d' hd _ => ?_, fun _ => trivial⟩
  cases hd
  rfl

theorem candid_record {e : AuditEvent} (h : e.announces) : Candid (record e) :=
  candid_query (by cases e <;> first | rfl | cases h)

theorem composes_candid : Composes Candid where
  pure _ := trivial
  fail _ := trivial
  request _ := candid_query rfl
  resolve d := candid_resolve d
  deny c d := candid_deny c d
  bind := Candid.bind

end Program

/-- Whoever is put on record as turned away is turned away. -/
theorem Program.Candid.denied {p : Program α} (h : Candid p) {b : Backend σ S} {w : Working σ S}
    {x : Uuid} {d : Denial} (hd : .accessDenied x d ∈ (p.run (b.act stamp) w).2.audit) :
    .accessDenied x d ∈ w.audit ∨ (p.run (b.act stamp) w).1 = .error (.forbidden d) := by
  induction p generalizing w with
  | done a => exact .inl hd
  | fail e => exact .inl hd
  | ask q next ih =>
    have haudit := audit_act b stamp q w
    rw [Dialogue.run] at hd ⊢
    rcases hact : b.act stamp q w with ⟨e | a, u⟩ <;> rw [hact] at hd haudit
    · have hevents : q.events = [] := by
        cases q with
        | store r => rfl
        | look l => rfl
        | record e => cases hact
      rw [hevents, List.append_nil] at haudit
      exact .inl (haudit ▸ hd)
    · obtain hu | hrun := ih a (h.2 a) hd
      · rw [haudit, List.mem_append] at hu
        obtain hw | hq := hu
        · exact .inl hw
        · have hdenial : q.denial? = some d := by
            cases q <;> simp only [Action.events, List.mem_singleton, List.not_mem_nil] at hq
            rw [← hq]
            rfl
          right
          simp only [h.1 d hdenial a, Dialogue.run]
      · exact .inr hrun

/-- A serialization failure or a deadlock: another session was in the way. -/
def Refusal.Collides (r : Refusal) : Prop := r.code = some "40001" ∨ r.code = some "40P01"

theorem Refusal.toStorage_eq_conflict {r : Refusal} :
    r.toStorage = .serializationConflict ↔ r.Collides := by
  have hcollides : r.isConflict ↔ r.Collides := by simp [isConflict, Collides]
  rw [toStorage, ← hcollides]
  split
  · rename_i hconflict
    exact iff_of_true rfl hconflict
  · rename_i hother
    exact iff_of_false (by simp) hother

namespace Statement

/-- An insertion into one of the stored tables of a schema. -/
def Inserts (schema : String) (s : Statement) : Prop :=
  ∃ table ∈ storedTables, ∃ rest, s.text = s!"INSERT INTO {schema}.{table} (" ++ rest

/-- A unique violation in reply to an insertion. -/
def Clashes (schema : String) (s : Statement) (reply : Except Refusal Results) : Prop :=
  s.Inserts schema ∧ ∃ refusal, reply = .error refusal ∧ refusal.code = some "23505"

variable {s : Statement}

theorem inserts_into (table : String) {lit rest : String} (htable : table ∈ storedTables)
    (htext : s.text = "INSERT INTO " ++ (schema ++ (lit ++ rest)))
    (hlit : lit = "." ++ (table ++ " (")) : s.Inserts schema := by
  refine ⟨table, htable, rest, ?_⟩
  rw [htext, hlit]
  simp only [ToString.toString, String.append_assoc]

/-- A statement that opens with another letter than insertions do. -/
theorem not_inserts {lit rest : String} {c : Char} {cs : List Char} (htext : s.text = lit ++ rest)
    (hlit : lit = String.ofList (c :: cs)) (hc : c ≠ 'I') : ¬ s.Inserts schema := by
  rintro ⟨table, _, after, hinserts⟩
  have hletter : (lit ++ rest).toList.head? = some 'I' := by
    rw [← htext, hinserts]
    simp [ToString.toString]
  rw [hlit, String.toList_append, String.toList_ofList] at hletter
  exact hc (Option.some.inj hletter)

/-- Insertions, and only they, say what is there already if they are refused for it. -/
theorem plain_or_inserts_of_on (h : s.On schema) :
    (s.purpose = .plain ∧ ¬ s.Inserts schema) ∨
      (∃ item, s.purpose = .insert item) ∧ s.Inserts schema := by
  cases h
  case insertRelationship =>
    refine .inr ⟨⟨_, rfl⟩, ?_⟩
    delta insertRelationship
    simp only [ToString.toString, String.append_assoc]
    exact inserts_into "relationships" (by decide) rfl (by decide)
  case insertGrant =>
    refine .inr ⟨⟨_, rfl⟩, ?_⟩
    delta insertGrant
    simp only [ToString.toString, String.append_assoc]
    exact inserts_into "permission_grants" (by decide) rfl (by decide)
  case insertPaths =>
    refine .inr ⟨⟨_, rfl⟩, ?_⟩
    delta insertPaths
    simp only [ToString.toString, String.append_assoc]
    exact inserts_into "folder_paths" (by decide) rfl (by decide)
  case insertFolder =>
    refine .inr ⟨⟨_, rfl⟩, ?_⟩
    delta insertFolder
    simp only [ToString.toString, String.append_assoc]
    exact inserts_into "folders" (by decide) rfl (by decide)
  case insertMembership =>
    refine .inr ⟨⟨_, rfl⟩, ?_⟩
    delta insertMembership
    simp only [ToString.toString, String.append_assoc]
    exact inserts_into "group_memberships" (by decide) rfl (by decide)
  case lockHierarchy =>
    exact .inl ⟨rfl, not_inserts (String.append_empty).symm rfl (by decide)⟩
  -- the others begin with SELECT, DELETE or UPDATE
  all_goals
    refine .inl ⟨rfl, ?_⟩
    delta relationshipExists selectRelationships deleteRelationships selectGrant selectGrantsFor
      selectGrants grantExists deleteGrant deleteGrantsFor selectPathsTo selectPathsFrom
      selectPaths deleteSubtreePaths deletePathsTouching detachSubtree selectFolder selectFolders
      setFolderParent setFolderOwner setFolderDepths deleteFolders deleteMembership
      selectMembershipsOf selectMembersOf
    simp only [ToString.toString, String.append_assoc]
    exact not_inserts rfl rfl (by decide)

end Statement

/-- An error of the kind that a failing reply calls for. -/
structure AccessError.Befits (e : AccessError) (clash : Prop) : Prop where
  conflict : e.kind = .conflict ↔ clash
  infrastructure : ¬ clash → e.kind = .infrastructure

theorem AccessError.befits_storage {e : StorageError} {clash : Prop} (h : ¬ clash) :
    (AccessError.storage e).Befits clash where
  conflict := iff_of_false (by simp [kind]) h
  infrastructure _ := rfl

theorem AccessError.befits_resolve {e : ResolveError} {clash : Prop} (h : ¬ clash) :
    (AccessError.resolve e).Befits clash where
  conflict := iff_of_false (by simp [kind]) h
  infrastructure _ := rfl

variable {s : Statement} {reply : Except Refusal Results}

theorem Statement.On.not_clashes (h : s.On schema) (hplain : s.purpose = .plain) :
    ¬ s.Clashes schema reply := by
  rintro ⟨hinserts, _⟩
  obtain ⟨_, hother⟩ | ⟨⟨item, hitem⟩, _⟩ := Statement.plain_or_inserts_of_on h
  · exact hother hinserts
  · rw [hplain] at hitem
    cases hitem

namespace StorageError

theorem befits (e : StorageError) (h : s.On schema) (he : e.Explains s reply) :
    (AccessError.ofStorage e).Befits (s.Clashes schema reply) := by
  cases reply with
  | ok results =>
    obtain ⟨text, rfl⟩ := he
    exact AccessError.befits_storage fun ⟨_, _, hreply, _⟩ => by cases hreply
  | error refusal =>
    obtain rfl : e = refusal.explain s.purpose := he
    obtain ⟨hplain, _⟩ | ⟨⟨item, hitem⟩, hinserts⟩ := Statement.plain_or_inserts_of_on h
    · rw [hplain, Refusal.explain, Refusal.ofStorage_toStorage]
      exact AccessError.befits_storage (h.not_clashes hplain)
    · rw [hitem, Refusal.explain]
      split
      · rename_i hunique
        have hclash : s.Clashes schema (.error refusal) :=
          ⟨hinserts, refusal, rfl, by simpa [Refusal.isUniqueViolation] using hunique⟩
        exact ⟨iff_of_true rfl hclash, fun hno => absurd hclash hno⟩
      · rename_i hother
        rw [Refusal.ofStorage_toStorage]
        refine AccessError.befits_storage ?_
        rintro ⟨_, refusal', hsame, hunique⟩
        cases hsame
        exact hother (by simpa [Refusal.isUniqueViolation] using hunique)

/-- Sessions in the way are told of, and nothing else is told in the same way, whatever the
statement was for. -/
theorem Explains.conflict_iff {e : StorageError} (he : e.Explains s reply) (h : s.On schema) :
    e = .serializationConflict ↔ ∃ refusal, reply = .error refusal ∧ refusal.Collides := by
  cases reply with
  | ok results =>
    obtain ⟨text, rfl⟩ := he
    exact iff_of_false (by simp) fun ⟨_, hreply, _⟩ => by cases hreply
  | error refusal =>
    obtain rfl : e = refusal.explain s.purpose := he
    simp only [Except.error.injEq, exists_eq_left']
    obtain ⟨hplain, _⟩ | ⟨⟨item, hitem⟩, _⟩ := Statement.plain_or_inserts_of_on h
    · rw [hplain, Refusal.explain]
      exact Refusal.toStorage_eq_conflict
    · rw [hitem, Refusal.explain]
      split
      · rename_i hunique
        have hcode : refusal.code = some "23505" := by
          simpa [Refusal.isUniqueViolation] using hunique
        refine iff_of_false (by simp) ?_
        rintro (hcollides | hcollides) <;> simp [hcode] at hcollides
      · exact Refusal.toStorage_eq_conflict

end StorageError

theorem AccessError.ofStorage_eq_conflict {e : StorageError} :
    AccessError.ofStorage e = .storage .serializationConflict ↔ e = .serializationConflict := by
  cases e <;> simp [ofStorage]

theorem Dialogue.Asks.talk {P : Statement → Prop} {d : Conversation α} {x : Exchange}
    (h : d.Asks P) : ∀ m ∈ d.talk x, P m.1 := by
  intro m hm
  obtain ⟨m', hm', rfl⟩ := List.mem_map.mp hm
  exact h.course m' hm'

open Conversation in
/-- A lookup inserts nothing. -/
theorem Lookup.asks_plain (l : Lookup) (schema : String) (stamp : Stamp) :
    (l.request.conversation schema stamp).Asks (·.purpose = .plain) := by
  cases l with
  | groupsOf user => exact asks_fetchMemberships rfl
  | holds t => exact asks_fetchBool rfl
  | rolesGranted r kind grantees =>
    rw [request, Request.conversation]
    split
    · exact asks_pure _
    · exact asks_fetchAll _ _ rfl
  | parentOf r =>
    exact (asks_fetchRelationships (P := (·.purpose = .plain)) _ rfl).bind fun _ => asks_pure _

variable {q : Action} {w : Working Exchange String}

theorem Action.errand_on {m : Statement × Except Refusal Results}
    (hm : m ∈ (Action.errand stamp (q, w)).talk) : m.1.On w.session := by
  cases q with
  | store r => exact (r.asks_on w.session _).talk m hm
  | look l => exact (l.request.asks_on w.session _).talk m hm
  | record e => cases hm

/-- An action that fails by a reply fails with an error that befits it. -/
theorem Action.errand_reports {front back : List (Statement × Except Refusal Results)}
    (h : (Action.errand stamp (q, w)).talk = front ++ (s, reply) :: back)
    (hfail : (Action.errand stamp (q, w)).failsOn front.length reply) :
    ∃ e, (Action.errand stamp (q, w)).outcome = .error e ∧
      e.Befits (s.Clashes w.session reply) ∧
      ∀ r, q = .store r → (e = .storage .serializationConflict ↔
        ∃ refusal, reply = .error refusal ∧ refusal.Collides) := by
  have hmem : (s, reply) ∈ (Action.errand stamp (q, w)).talk := by simp [h]
  have hon : s.On w.session := Action.errand_on hmem
  obtain ⟨_, e, hexplains, houtcome⟩ := Action.errand_stops h hfail
  refine ⟨_, houtcome, ?_, ?_⟩
  · cases q with
    | store r => exact e.befits hon hexplains
    | look l =>
      have hplain : s.purpose = .plain := (l.asks_plain w.session _).talk _ hmem
      exact AccessError.befits_resolve (hon.not_clashes hplain)
    | record event => exact e.befits hon hexplains
  · rintro r rfl
    exact AccessError.ofStorage_eq_conflict.trans (hexplains.conflict_iff hon)

namespace Transaction

variable {t : Transaction}

/-- The command fails, and nobody is put on record as turned away. -/
structure FailsWith (t : Transaction) (e : AccessError) : Prop where
  outcome : t.result.outcome = .error e
  audit : ∀ x d, .accessDenied x d ∉ t.result.audit

/-- How a transaction reports the first reply that fails it. -/
structure FailuresTold (t : Transaction) : Prop where
  /-- To the statement that begins it. -/
  unopened : ∀ refusal, t.opening.1 = .error refusal →
    ∃ e, t.FailsWith e ∧ e.kind = .infrastructure ∧
      (e = .storage .serializationConflict ↔ refusal.Collides)
  /-- To a statement of its body, which may be sent for the resolver. -/
  broken : t.opening.1 = .ok () → ∀ o ∈ t.errands, ∀ front s reply back,
    o.talk = front ++ (s, reply) :: back → o.failsOn front.length reply →
    ∃ e, t.FailsWith e ∧ e.Befits (s.Clashes (schemaName t.context.tenant) reply) ∧
      ∀ r, o.action = .store r → (e = .storage .serializationConflict ↔
        ∃ refusal, reply = .error refusal ∧ refusal.Collides)
  /-- To the commit. -/
  uncommitted : t.opening.1 = .ok () → t.work.1.isOk → ∀ refusal, t.ending = .error refusal →
    ∃ e, t.FailsWith e ∧ e.kind = .infrastructure ∧
      (e = .storage .serializationConflict ↔ refusal.Collides)

theorem session_start (t : Transaction) :
    ∀ m ∈ t.body.course (Backend.database.act t.context.stamp) t.start,
      m.2.session = schemaName t.context.tenant :=
  (course_keeps (I := fun w : Working Exchange String => w.session = schemaName t.context.tenant)
    (fun q _ hw => by cases q <;> exact hw) rfl).1

/-- Only who is turned away is put on record for it. -/
theorem failsWith {e : AccessError} (h : t.opening.1 = .ok ())
    (houtcome : t.result.outcome = .error e)
    (hwork : ∀ d, t.work.1 ≠ .error (.forbidden d)) : t.FailsWith e where
  outcome := houtcome
  audit x d hd := by
    rw [audit_result h] at hd
    have hcandid := Program.composes_candid.body t.context t.command
      fun _ _ => Program.candid_record
    obtain hstart | hdenied := hcandid.denied hd
    · cases hstart
    · exact hwork d hdenied

theorem tells_refusal (refusal : Refusal) :
    (AccessError.storage refusal.toStorage).kind = .infrastructure ∧
      (AccessError.storage refusal.toStorage = .storage .serializationConflict ↔
        refusal.Collides) :=
  ⟨rfl, AccessError.storage.injEq .. ▸ Refusal.toStorage_eq_conflict⟩

theorem failures_told (t : Transaction) : t.FailuresTold where
  unopened refusal h := by
    refine ⟨_, ⟨?_, ?_⟩, tells_refusal refusal⟩
    · rw [result_unopened h]
    · intro x d hd
      rw [result_unopened h] at hd
      cases hd
  broken h o ho front s reply back htalk hfail := by
    obtain ⟨m, hm, rfl⟩ := List.mem_map.mp ho
    have hsession := t.session_start m hm
    obtain ⟨before, after, herrands⟩ := List.append_of_mem ho
    obtain ⟨e, houtcome, hbefits, hconflict⟩ := Action.errand_reports htalk hfail
    obtain ⟨_, hwork⟩ := stops herrands houtcome
    rw [hsession] at hbefits
    refine ⟨e, failsWith h (outcome_of_failure h hwork) fun d hd => ?_, hbefits, hconflict⟩
    rw [hwork] at hd
    cases hd
    -- a denial is neither a conflict nor a matter of the infrastructure
    by_cases hclash : s.Clashes (schemaName t.context.tenant) reply
    · cases hbefits.conflict.mpr hclash
    · cases hbefits.infrastructure hclash
  uncommitted h hwork refusal hending := by
    cases ha : t.work.1 with
    | error e =>
      rw [ha] at hwork
      cases hwork
    | ok a =>
      have houtcome := outcome_of_success h ha
      rw [hending] at houtcome
      refine ⟨_, failsWith h houtcome fun d hd => ?_, tells_refusal refusal⟩
      rw [ha] at hd
      cases hd

end Transaction

end DriveAccess
