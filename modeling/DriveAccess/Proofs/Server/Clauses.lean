import DriveAccess.Proofs.Server.Records
import DriveAccess.Proofs.Server.Schemas
import DriveAccess.Proofs.Storage.Sessions
import DriveAccess.Proofs.Storage.Subjects
/-!
Filters as clauses: read as text, with the parameters in the places of the placeholders, a clause
says of a stored row what the filter says of its tuple.
-/
namespace DriveAccess

/-! Clauses read as texts. -/

/-- The words of a text, between single spaces. -/
def wordsOf (text : String) : List String := (text.toList.splitOn ' ').map String.ofList

theorem wordsOf_intercalate {ws : List String} (hspace : ∀ w ∈ ws, ' ' ∉ w.toList) (hne : ws ≠ []) :
    wordsOf (" ".intercalate ws) = ws := by
  have hsplit : (" ".intercalate ws).toList.splitOn ' ' = ws.map String.toList := by
    rw [String.toList_intercalate]
    refine List.splitOn_intercalate ' ' (fun w hw => ?_) (by simpa using hne)
    obtain ⟨w', hw', rfl⟩ := List.mem_map.mp hw
    exact hspace w' hw'
  rw [wordsOf, hsplit, List.map_map]
  exact List.map_id'' (fun w => String.ofList_toList) ws

/-- What equations between columns and placeholders, joined by `AND`, come to. -/
def holdsAs (column bound : String → Option Value) : List String → Option Bool
  | ["TRUE"] => some true
  | [c, "=", p] => return (← column c) == (← bound p)
  | c :: "=" :: p :: "AND" :: rest =>
    return (← column c) == (← bound p) && (← holdsAs column bound rest)
  | _ => none

/-- The values that the placeholders stand for, which are numbered from `first`. -/
def boundFrom (first : Nat) (params : List Value) (word : String) : Option Value :=
  (params.mapIdx fun i v => (s!"${first + i}", v)).lookup word

/-- What a clause says of a row with named columns. -/
def Clause.holds (c : Clause) (first : Nat) (names : List String) (row : Row) : Option Bool :=
  holdsAs ((names.zip row).lookup ·) (boundFrom first c.params) (wordsOf c.text)

theorem placeholder_inj {k l : Nat} : s!"${k}" = s!"${l}" ↔ k = l := by
  constructor
  · intro h
    have hrepr : k.repr = l.repr := (String.append_right_inj "$").mp h
    rw [Nat.repr_eq_ofList_toDigits, Nat.repr_eq_ofList_toDigits, String.ofList_inj] at hrepr
    rw [← Nat.ofDigitChars_toDigits (b := 10) (n := k) (by decide) (by decide), hrepr,
      Nat.ofDigitChars_toDigits (by decide) (by decide)]
  · rintro rfl
    rfl

theorem boundFrom_add (first : Nat) (params : List Value) (j : Nat) :
    boundFrom first params s!"${first + j}" = params[j]? := by
  induction params generalizing first j with
  | nil => rfl
  | cons v params ih =>
    rw [boundFrom, List.mapIdx_cons, List.lookup_cons]
    cases j with
    | zero => simp
    | succ j =>
      -- Past the first value, the others are bound from the next number on.
      have hother : (s!"${first + (j + 1)}" == s!"${first + 0}") = false := by
        rw [beq_eq_false_iff_ne, Ne, placeholder_inj]
        omega
      have hshift : (fun i (v : Value) => (s!"${first + (i + 1)}", v)) =
          fun i v => (s!"${first + 1 + i}", v) := by
        funext i v
        rw [Nat.add_right_comm, Nat.add_assoc]
      rw [hother, hshift, ← Nat.add_assoc, Nat.add_right_comm]
      exact ih (first + 1) j

namespace Condition

def text (x : Condition) : String := s!"{x.column.name} = ${x.placeholder}"

def words (x : Condition) : List String := [x.column.name, "=", s!"${x.placeholder}"]

/-- The words of conditions joined by `AND`. -/
def joined : List Condition → List String
  | [] => []
  | [x] => x.words
  | x :: y :: rest => x.words ++ "AND" :: joined (y :: rest)

theorem joined_cons (x : Condition) {xs : List Condition} (h : xs ≠ []) :
    joined (x :: xs) = x.words ++ "AND" :: joined xs := by
  obtain ⟨y, rest, rfl⟩ := List.exists_cons_of_ne_nil h
  rfl

theorem joined_ne_nil {xs : List Condition} (h : xs ≠ []) : joined xs ≠ [] := by
  match xs, h with
  | [x], _ => simp [joined, words]
  | x :: y :: rest, _ => simp [joined, words]

theorem intercalate_words (x : Condition) : " ".intercalate x.words = x.text := by
  apply String.toList_inj.mp
  simp [words, text, String.intercalate_cons_cons, ToString.toString]

theorem intercalate_words_append (x : Condition) {ws : List String} (h : ws ≠ []) :
    " ".intercalate (x.words ++ ws) = x.text ++ " " ++ " ".intercalate ws := by
  obtain ⟨w, ws, rfl⟩ := List.exists_cons_of_ne_nil h
  apply String.toList_inj.mp
  simp [words, text, String.intercalate_cons_cons, ToString.toString]

theorem intercalate_text {xs : List Condition} (h : xs ≠ []) :
    " AND ".intercalate (xs.map text) = " ".intercalate (joined xs) := by
  induction xs with
  | nil => exact absurd rfl h
  | cons x xs ih =>
    cases xs with
    | nil => exact (intercalate_words x).symm
    | cons y rest =>
      have hrest := ih (List.cons_ne_nil y rest)
      obtain ⟨w, ws, hws⟩ := List.exists_cons_of_ne_nil (joined_ne_nil (List.cons_ne_nil y rest))
      have hand : " ".intercalate ("AND" :: joined (y :: rest)) =
          "AND" ++ " " ++ " ".intercalate (joined (y :: rest)) := by
        rw [hws, String.intercalate_cons_cons]
      rw [joined, intercalate_words_append x (List.cons_ne_nil _ _), hand, ← hrest, List.map_cons,
        List.map_cons, String.intercalate_cons_cons]
      apply String.toList_inj.mp
      simp

theorem no_space_placeholder (k : Nat) : ' ' ∉ s!"${k}".toList := by
  intro hmem
  obtain hdollar | hnumber := List.mem_append.mp (String.toList_append ▸ hmem)
  · revert hdollar
    decide
  · exact not_mem_number rfl k hnumber

theorem no_space_words (x : Condition) : ∀ w ∈ x.words, ' ' ∉ w.toList := by
  intro w hw
  simp only [words, List.mem_cons, List.not_mem_nil, or_false] at hw
  obtain rfl | rfl | rfl := hw
  · cases x.column <;> decide
  · decide
  · exact no_space_placeholder x.placeholder

theorem no_space_joined (xs : List Condition) : ∀ w ∈ joined xs, ' ' ∉ w.toList := by
  induction xs with
  | nil => exact nofun
  | cons x xs ih =>
    cases xs with
    | nil => exact no_space_words x
    | cons y rest =>
      intro w hw
      rw [joined, List.mem_append, List.mem_cons] at hw
      obtain hw | rfl | hw := hw
      · exact no_space_words x w hw
      · decide
      · exact ih w hw

end Condition

/-! What a clause says of a stored tuple. -/

namespace TupleColumn

/-- In the order of their placeholders. -/
def all : List TupleColumn := [subjectType, subjectId, relation, objectType, objectId]

/-- What a stored tuple has in a column. -/
def value (r : Relationship) : TupleColumn → Value
  | subjectType => .text r.tuple.subject.kind.tag
  | subjectId => .id r.tuple.subject.id
  | relation => .text r.tuple.relation.tag
  | objectType => .text r.tuple.object.kind.tag
  | objectId => .id r.tuple.object.id

theorem lookup_name (r : Relationship) (column : TupleColumn) :
    (Relationship.format.names.zip r.encode).lookup column.name = some (column.value r) := by
  cases column <;> rfl

end TupleColumn

section

variable {column bound : String → Option Value} {value : TupleColumn → Value}

theorem holdsAs_words (hcolumn : ∀ c : TupleColumn, column c.name = some (value c)) {x : Condition}
    {v : Value} (hbound : bound s!"${x.placeholder}" = some v) :
    holdsAs column bound x.words = some (value x.column == v) := by
  rw [Condition.words, holdsAs, hcolumn, hbound]
  rfl

theorem holdsAs_words_and (hcolumn : ∀ c : TupleColumn, column c.name = some (value c))
    {x : Condition} {v : Value} (hbound : bound s!"${x.placeholder}" = some v) {ws : List String}
    {b : Bool} (hrest : holdsAs column bound ws = some b) :
    holdsAs column bound (x.words ++ "AND" :: ws) = some (value x.column == v && b) := by
  change holdsAs column bound (x.column.name :: "=" :: s!"${x.placeholder}" :: "AND" :: ws) = _
  rw [holdsAs, hcolumn, hbound, hrest]
  rfl

theorem holdsAs_joined (hcolumn : ∀ c : TupleColumn, column c.name = some (value c))
    {ps : List (TupleColumn × Value)} (hne : ps ≠ []) (k : Nat)
    (hbound : ∀ j, bound s!"${k + j}" = (ps.map (·.2))[j]?) :
    holdsAs column bound (Condition.joined (ps.mapIdx fun i p => ⟨p.1, k + i⟩)) =
      some (ps.all fun p => value p.1 == p.2) := by
  induction ps generalizing k with
  | nil => exact absurd rfl hne
  | cons p ps ih =>
    have hfirst : bound s!"${k + 0}" = some p.2 := hbound 0
    cases ps with
    | nil =>
      rw [List.all_cons, List.all_nil, Bool.and_true]
      exact holdsAs_words hcolumn (x := ⟨p.1, k + 0⟩) hfirst
    | cons q rest =>
      -- The conditions that remain are those of a clause that starts one number later.
      have hshift : (fun i (p : TupleColumn × Value) => (⟨p.1, k + (i + 1)⟩ : Condition)) =
          fun i p => ⟨p.1, k + 1 + i⟩ := by
        funext i p
        rw [Nat.add_right_comm, Nat.add_assoc]
      have hrest := ih (List.cons_ne_nil q rest) (k + 1) fun j => by
        rw [Nat.add_right_comm, Nat.add_assoc]
        exact hbound (j + 1)
      rw [List.mapIdx_cons, hshift, List.all_cons, Condition.joined_cons _ (by simp)]
      exact holdsAs_words_and hcolumn (x := ⟨p.1, k + 0⟩) hfirst hrest

end

namespace TupleFilter

/-- Whether a filter sets a field. -/
def sets (f : TupleFilter) : TupleColumn → Bool
  | .subjectType => f.subjectKind.isSome
  | .subjectId => f.subjectId.isSome
  | .relation => f.relation.isSome
  | .objectType => f.objectKind.isSome
  | .objectId => f.objectId.isSome

theorem columns_eq (f : TupleFilter) : f.columns = TupleColumn.all.filter f.sets := by
  obtain ⟨subjectKind, subjectId, relation, objectKind, objectId⟩ := f
  cases subjectKind <;> cases subjectId <;> cases relation <;> cases objectKind <;>
    cases objectId <;> rfl

/-- A field that is set is compared with its column, one that is not with nothing. -/
theorem all_field {κ : Type} [DecidableEq κ] {write : κ → Value}
    (hwrite : ∀ k l, write k = write l ↔ k = l) {column : TupleColumn} {r : Relationship} {k : κ}
    (hvalue : column.value r = write k) (field : Option κ) :
    ((field.map fun l => (column, write l)).toList.all fun p => p.1.value r == p.2) =
      agrees field k := by
  cases field with
  | none => rfl
  | some l =>
    have hfield : (column.value r == write l) = agrees (some l) k := by
      rw [Bool.eq_iff_iff, agrees_some, beq_iff_eq, hvalue, hwrite]
    simpa using hfield

theorem all_fixed (f : TupleFilter) (r : Relationship) :
    (f.fixed.all fun p => p.1.value r == p.2) = f.selects r.tuple := by
  have hid : ∀ u v, Value.id u = Value.id v ↔ u = v := fun u v => Value.id.injEq u v ▸ Iff.rfl
  have hsubject : ∀ k l : SubjectKind, Value.text k.tag = Value.text l.tag ↔ k = l := fun k l => by
    rw [Value.text.injEq, SubjectKind.spelling.tag_inj]
  have hrelation : ∀ k l : Relation, Value.text k.tag = Value.text l.tag ↔ k = l := fun k l => by
    rw [Value.text.injEq, Relation.spelling.tag_inj]
  have hobject : ∀ k l : ObjectKind, Value.text k.tag = Value.text l.tag ↔ k = l := fun k l => by
    rw [Value.text.injEq, ObjectKind.spelling.tag_inj]
  rw [fixed, List.all_append, List.all_append, List.all_append, List.all_append,
    all_field hsubject rfl, all_field hid rfl, all_field hrelation rfl, all_field hobject rfl,
    all_field hid rfl]
  rfl

variable {f : TupleFilter}

theorem fixed_eq_nil : f.fixed = [] ↔ f.isEmpty := by
  rw [isEmpty_iff, columns, List.map_eq_nil_iff]

theorem text_clause_of_isEmpty (h : f.isEmpty) (first : Nat) : (f.clause first).text = "TRUE" := by
  rw [Clause.text, clause, fixed_eq_nil.mpr h]
  rfl

theorem text_clause_of_fields (h : f.fixed ≠ []) (first : Nat) :
    (f.clause first).text =
      " AND ".intercalate ((f.clause first).conditions.map Condition.text) := by
  rw [Clause.text, if_neg]
  · rfl
  · simpa [clause] using h

/-- A clause says of a stored tuple what its filter says. -/
theorem holds_clause (f : TupleFilter) (first : Nat) (r : Relationship) :
    (f.clause first).holds first Relationship.format.names r.encode = some (f.selects r.tuple) := by
  rw [← all_fixed, Clause.holds]
  by_cases h : f.fixed = []
  · rw [text_clause_of_isEmpty (fixed_eq_nil.mp h), h]
    rfl
  · have hconditions : (f.clause first).conditions ≠ [] := by simpa [clause] using h
    rw [text_clause_of_fields h, Condition.intercalate_text hconditions,
      wordsOf_intercalate (Condition.no_space_joined _) (Condition.joined_ne_nil hconditions)]
    exact holdsAs_joined (TupleColumn.lookup_name r) h first (boundFrom_add first _)

/-- The columns of the fields that a filter sets. -/
def setColumns (f : TupleFilter) : List TupleColumn := TupleColumn.all.filter f.sets

theorem setColumns_eq_nil : f.setColumns = [] ↔ f.isEmpty := by
  rw [setColumns, ← columns_eq, isEmpty_iff]

theorem text_clause_eq (f : TupleFilter) (first : Nat) (h : f.setColumns ≠ []) :
    (f.clause first).text = " AND ".intercalate
      (f.setColumns.mapIdx fun i column => s!"{column.name} = ${first + i}") := by
  have hfixed : f.fixed ≠ [] := fun hnil => h (setColumns_eq_nil.mpr (fixed_eq_nil.mp hnil))
  have hconditions : (f.clause first).conditions.map Condition.text =
      f.setColumns.mapIdx fun i column => s!"{column.name} = ${first + i}" := by
    rw [conditions_clause, columns_eq]
    apply List.ext_getElem <;> simp [Condition.text, setColumns]
  rw [text_clause_of_fields hfixed, hconditions]

theorem length_params (f : TupleFilter) (first : Nat) :
    (f.clause first).params.length = f.setColumns.length := by
  rw [setColumns, ← columns_eq, columns]
  simp [clause]

theorem clause_eq_true_iff (f : TupleFilter) (first : Nat) :
    (f.clause first).text = "TRUE" ∧ (f.clause first).params = [] ↔ f.setColumns = [] := by
  constructor
  · rintro ⟨-, hparams⟩
    rw [← List.length_eq_zero_iff, ← f.length_params first, hparams, List.length_nil]
  · intro h
    refine ⟨text_clause_of_isEmpty (setColumns_eq_nil.mp h) first, ?_⟩
    rw [← List.length_eq_zero_iff, f.length_params first, h, List.length_nil]

end TupleFilter

/-! Statements that select or delete by a clause. -/

section

variable {a b : String} {cs : List Char}

theorem last_ne_of_literal (hb : b = String.ofList cs) (h : cs.getLast?.any (· != 'E')) :
    (a ++ b).toList.getLast? ≠ some 'E' := by
  obtain ⟨c, hc, hne⟩ := (Option.any_eq_true _ _).mp h
  rw [hb, String.toList_append, String.toList_ofList, List.getLast?_append, hc, Option.some_or, Ne,
    Option.some_inj]
  exact bne_iff_ne.mp hne

theorem last_ne_of_not_mem (ha : a.toList.getLast? ≠ some 'E') (hb : 'E' ∉ b.toList) :
    (a ++ b).toList.getLast? ≠ some 'E' := by
  rw [String.toList_append, List.getLast?_append]
  cases hlast : b.toList.getLast? with
  | none => exact ha
  | some c =>
    rw [Option.some_or, Ne, Option.some_inj]
    rintro rfl
    exact hb (List.mem_of_getLast? hlast)

end

namespace Statement

/-- Whether a statement ends with the clause of a filter that sets no fields. -/
def takesAll (s : Statement) : Prop := " WHERE TRUE".toList <:+ s.text.toList

variable {schema : String} {s : Statement}

theorem not_takesAll (h : s.text.toList.getLast? ≠ some 'E') : ¬ s.takesAll := by
  rintro ⟨front, htext⟩
  rw [← htext, List.getLast?_append] at h
  exact h rfl

theorem On.not_takesAll (h : On schema s) : ¬ s.takesAll := by
  -- The last letter tells: conditions end in a digit, and no other text ends like `TRUE`.
  apply Statement.not_takesAll
  cases h
  case deleteRelationships f hfields =>
    have hfixed : f.fixed ≠ [] := fun hnil => by
      rw [TupleFilter.fixed_eq_nil.mp hnil] at hfields
      cases hfields
    refine last_ne_of_not_mem (last_ne_of_literal rfl (by decide)) ?_
    change 'E' ∉ (f.clause 1).text.toList
    rw [TupleFilter.text_clause_of_fields hfixed]
    exact not_mem_conditions (by rintro (_ | _ | _ | _ | _) <;> decide) (by decide) (by decide) rfl
      _
  case lockHierarchy =>
    change "SELECT pg_advisory_xact_lock(hashtext($1))".toList.getLast? ≠ some 'E'
    decide
  case deleteSubtreePaths f =>
    delta Statement.deleteSubtreePaths
    rw [← String.append_assoc]
    exact last_ne_of_literal rfl (by decide)
  all_goals exact last_ne_of_literal rfl (by decide)

end Statement

/-! Filters in sessions. -/

namespace Backend

variable {f : TupleFilter} (stamp : Stamp)

theorem memory_deleteRelationships (h : f.isEmpty = false) (s : TenantSession) (stores : Stores) :
    (memory.perform stamp (.deleteRelationships f) s stores).2.1.session.tables =
      { s.session.tables with relationships :=
          s.session.tables.relationships.filter fun r => !f.selects r.tuple } := by
  change (s.session.perform stamp (.deleteRelationships f)).2.tables = _
  simp only [Session.perform, h, Bool.false_eq_true, if_false, Session.removeTuples_tables]
  rfl

theorem memory_deleteRelationships_of_isEmpty (h : f.isEmpty) (s : TenantSession)
    (stores : Stores) : memory.perform stamp (.deleteRelationships f) s stores =
      (.error .emptyDeleteFilter, s, stores) := by
  have hperform : s.session.perform stamp (.deleteRelationships f) =
      (.error .emptyDeleteFilter, s.session) := by
    simp only [Session.perform, h, if_true]
  exact congrArg (fun out => (out.1, (⟨s.tenant, out.2⟩ : TenantSession), stores)) hperform

theorem database_deleteRelationships_of_isEmpty (h : f.isEmpty) (schema : String) (x : Exchange) :
    database.perform stamp (.deleteRelationships f) schema x =
      (.error .emptyDeleteFilter, schema, { x with spare := x.spare.next }) := by
  have hfail : Conversation.deleteTuples schema f = .fail .emptyDeleteFilter := by
    rw [Conversation.deleteTuples, if_pos h]
  have hrun : ((Request.deleteRelationships f).conversation schema ⟨x.spare, stamp.time⟩).run
      Exchange.answer { x with spare := x.spare.next } =
        (.error .emptyDeleteFilter, { x with spare := x.spare.next }) :=
    congrArg (·.run Exchange.answer { x with spare := x.spare.next }) hfail
  exact congrArg (fun out => (out.1, schema, out.2)) hrun

theorem sends_no_takesAll (r : Request) (schema : String) (x : Exchange) :
    ∃ sent : List Statement,
      (database.perform stamp r schema x).2.2.sent = x.sent ++ sent.map .statement ∧
      ∀ s ∈ sent, ¬ s.takesAll := by
  obtain ⟨stamp, y, -, hsent⟩ := sent_perform stamp r schema x
  exact ⟨_, hsent, fun s hs => (on_of_asked hs).not_takesAll⟩

end Backend

/-- Filters mean the same on a database server as in memory. A clause has an equation for each field
that is set and the values in the order of its placeholders, and it says of a row that a tuple is
stored as what the filter says of the tuple. Nothing deletes all tuples. -/
theorem filters_exact :
    (∀ (f : TupleFilter) (first : Nat),
      ((f.clause first).text = "TRUE" ∧ (f.clause first).params = [] ↔ f.setColumns = []) ∧
      (f.setColumns ≠ [] → (f.clause first).text = " AND ".intercalate
        (f.setColumns.mapIdx fun i column => s!"{column.name} = ${first + i}")) ∧
      (f.clause first).params.length = f.setColumns.length ∧
      ∀ (schema : String) (r : Relationship),
        (Statement.insertRelationship schema r).text = Table.relationships.insertText schema ∧
        (f.clause first).holds first Relationship.format.names
          (Statement.insertRelationship schema r).params = some (f.selects r.tuple)) ∧
    (∀ t u, (TupleFilter.exact t).selects u = decide (u = t)) ∧
    (∀ (f : TupleFilter) (stamp : Stamp) (s : TenantSession) (stores : Stores),
      (Backend.memory.perform stamp (.findRelationships f) s stores).1 =
        .ok (s.session.tables.relationships.filter fun r => f.selects r.tuple) ∧
      (f.setColumns ≠ [] →
        (Backend.memory.perform stamp (.deleteRelationships f) s stores).2.1.session.tables =
          { s.session.tables with relationships :=
              s.session.tables.relationships.filter fun r => !f.selects r.tuple }) ∧
      (f.setColumns = [] → Backend.memory.perform stamp (.deleteRelationships f) s stores =
        (.error .emptyDeleteFilter, s, stores))) ∧
    ∀ (stamp : Stamp) (schema : String) (x : Exchange),
      (∀ r : Request, ∃ sent : List Statement,
        (Backend.database.perform stamp r schema x).2.2.sent = x.sent ++ sent.map .statement ∧
        ∀ s ∈ sent, ¬ s.takesAll) ∧
      ∀ f : TupleFilter, f.setColumns = [] →
        Backend.database.perform stamp (.deleteRelationships f) schema x =
          (.error .emptyDeleteFilter, schema, { x with spare := x.spare.next }) := by
  refine ⟨fun f first => ⟨f.clause_eq_true_iff first, f.text_clause_eq first,
      f.length_params first, fun schema r => ?_⟩, fun t u => ?_,
    fun f stamp s stores => ⟨rfl, fun hset => ?_, fun hset => ?_⟩,
    fun stamp schema x => ⟨fun r => Backend.sends_no_takesAll stamp r schema x, fun f hset => ?_⟩⟩
  · exact ⟨(Statement.Stores.relationship r).text, f.holds_clause first r⟩
  · rw [TupleFilter.selects_exact]
  · have hfields : f.isEmpty = false :=
      Bool.eq_false_iff.mpr fun hnone => hset (TupleFilter.setColumns_eq_nil.mpr hnone)
    exact Backend.memory_deleteRelationships stamp hfields s stores
  · exact Backend.memory_deleteRelationships_of_isEmpty stamp
      (TupleFilter.setColumns_eq_nil.mp hset) s stores
  · exact Backend.database_deleteRelationships_of_isEmpty stamp
      (TupleFilter.setColumns_eq_nil.mp hset) schema x

end DriveAccess
