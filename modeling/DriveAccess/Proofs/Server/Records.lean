import DriveAccess.Proofs.Server.Replies
import DriveAccess.Proofs.Server.Statements
import DriveAccess.Proofs.Server.Vocabularies
/-!
Rows of the stored tables, there and back: a record comes back as it was stored, and a row makes a
record only if its words belong to their vocabularies and its numbers are natural.
-/
namespace DriveAccess

variable {α β C : Type}

theorem except_bind_eq_ok {ε : Type} {x : Except ε α} {f : α → Except ε β} {b : β} :
    (x >>= f) = .ok b ↔ ∃ a, x = .ok a ∧ f a = .ok b := by
  cases x with
  | ok a =>
    constructor
    · exact fun h => ⟨a, rfl, h⟩
    · rintro ⟨a', ha, h⟩
      cases ha
      exact h
  | error e => exact iff_of_false nofun fun ⟨_, h, _⟩ => nomatch h

theorem isOk_bind {x : Except StorageError α} {f : α → Except StorageError β} {b : Bool}
    (h : ∀ a, (f a).isOk = b) : (x >>= f).isOk = (x.isOk && b) := by
  cases x with
  | ok a => exact h a
  | error e => rfl

/-! Tables. -/

/-- What a column may hold, apart from its type. -/
inductive Field
  | any
  | word (allowed : List String)
  | natural

def Field.admits : Field → Value → Bool
  | any, _ => true
  | word allowed, .text w => allowed.contains w
  | natural, .int n => decide (0 ≤ n)
  | _, _ => false

/-- How the records of a table travel. Columns in plain are texts, identifiers, times and 32-bit
integers, whatever these say. -/
structure Format (C α : Type) where
  table : String
  columns : List (String × Field)
  row : C → Row
  read : Row → Except RowFault C
  check : C → Except StorageError α
  encode : α → Row
  /-- The numbers in a record that are stored as integers. -/
  numbers : α → List Nat

namespace Format

variable (fmt : Format C α)

def names : List String := fmt.columns.map (·.1)

def columnText : String := ", ".intercalate fmt.names

/-- What a query makes of one row. -/
def decode (row : Row) : Except StorageError α := Conversation.readRow fmt.read row >>= fmt.check

def admits (row : Row) : Bool := (fmt.columns.zip row).all fun (column, v) => column.2.admits v

/-- Decoding takes the rows that the columns admit, and only these, back to the records they were
made of. -/
structure Exact : Prop where
  read_row : ∀ c, fmt.read (fmt.row c) = .ok c
  isOk_decode : ∀ c, (fmt.decode (fmt.row c)).isOk = fmt.admits (fmt.row c)
  encode_of_decode : ∀ c a, fmt.decode (fmt.row c) = .ok a → fmt.encode a = fmt.row c
  corrupt_decode : ∀ c, Corrupt (fmt.decode (fmt.row c))
  decode_encode : ∀ a, (∀ n ∈ fmt.numbers a, n < 2 ^ 31) → fmt.decode (fmt.encode a) = .ok a
  /-- Numbers of 32 bits that would lose their topmost bit are not taken for others. -/
  overflow : ∀ a, ∀ n ∈ fmt.numbers a, 2 ^ 31 ≤ n → n < 2 ^ 32 →
    ∃ e, fmt.decode (fmt.encode a) = .error e

variable {fmt}

theorem decode_row {c : C} (hread : fmt.read (fmt.row c) = .ok c) :
    fmt.decode (fmt.row c) = fmt.check c := by
  rw [decode, Conversation.readRow, hread]
  rfl

theorem Exact.ofCheck (plain : α → C) (hread : ∀ c, fmt.read (fmt.row c) = .ok c)
    (hencode : ∀ a, fmt.encode a = fmt.row (plain a))
    (hok : ∀ c a, fmt.check c = .ok a ↔ c = plain a ∧ ∀ n ∈ fmt.numbers a, n < 2 ^ 31)
    (hadmits : ∀ c, (fmt.check c).isOk = fmt.admits (fmt.row c))
    (hcorrupt : ∀ c, Corrupt (fmt.check c))
    (hover : ∀ a, ∀ n ∈ fmt.numbers a, toInt4 n < 0 → fmt.admits (fmt.encode a) = false) :
    fmt.Exact := by
  have hdecode : ∀ c, fmt.decode (fmt.row c) = fmt.check c := fun c => decode_row (hread c)
  refine ⟨hread, ?_, ?_, ?_, ?_, ?_⟩
  · intro c
    rw [hdecode, hadmits]
  · intro c a h
    rw [hdecode, hok] at h
    rw [hencode, h.1]
  · intro c
    rw [hdecode]
    exact hcorrupt c
  · intro a h
    rw [hencode, hdecode, hok]
    exact ⟨rfl, h⟩
  · intro a n hn hlow hbits
    have hbad := hover a n hn (toInt4_neg hlow hbits)
    rw [hencode, ← hadmits] at hbad
    rw [hencode, hdecode]
    cases hcheck : fmt.check (plain a) with
    | ok a' =>
      -- The number would have come out negative, which no row that is taken has.
      rw [hcheck] at hbad
      cases hbad
    | error e => exact ⟨e, rfl⟩

end Format

def Relationship.format : Format Relationship.Columns Relationship where
  table := "relationships"
  columns := [("id", .any), ("subject_type", .word ["user", "group", "file", "folder"]),
    ("subject_id", .any), ("relation", .word ["owner", "member", "parent"]),
    ("object_type", .word ["file", "folder", "group"]), ("object_id", .any), ("created_at", .any)]
  row c := [.id c.id, .text c.subjectType, .id c.subjectId, .text c.relation, .text c.objectType,
    .id c.objectId, .time c.createdAt]
  read := Columns.read
  check := Columns.check
  encode := encode
  numbers _ := []

def Grant.format : Format Grant.Columns Grant where
  table := "permission_grants"
  columns := [("id", .any), ("resource_type", .word ["file", "folder"]), ("resource_id", .any),
    ("grantee_type", .word ["user", "group"]), ("grantee_id", .any),
    ("role", .word ["viewer", "contributor", "content_manager", "owner"]), ("granted_by", .any),
    ("granted_at", .any)]
  row c := [.id c.id, .text c.resourceType, .id c.resourceId, .text c.granteeType, .id c.granteeId,
    .text c.role, .id c.grantedBy, .time c.grantedAt]
  read := Columns.read
  check := Columns.check
  encode := encode
  numbers _ := []

def PathRecord.format : Format PathRecord.Columns PathRecord where
  table := "folder_paths"
  columns := [("ancestor_id", .any), ("descendant_id", .any), ("path_length", .natural),
    ("created_at", .any)]
  row c := [.id c.ancestor, .id c.descendant, .int c.length, .time c.createdAt]
  read := Columns.read
  check := Columns.check
  encode := encode
  numbers p := [p.path.length]

def Folder.format : Format Folder.Columns Folder where
  table := "folders"
  columns := [("id", .any), ("name", .any), ("parent_id", .any), ("owner_id", .any),
    ("depth", .natural), ("created_at", .any), ("updated_at", .any)]
  row c := [.id c.id, .text c.name, .optionalId c.parent, .id c.owner, .int c.depth,
    .time c.createdAt, .time c.updatedAt]
  read := Columns.read
  check := Columns.check
  encode := encode
  numbers f := [f.depth]

def MembershipRecord.format : Format MembershipRecord.Columns MembershipRecord where
  table := "group_memberships"
  columns := [("group_id", .any), ("user_id", .any), ("role", .word ["admin", "member"]),
    ("joined_at", .any)]
  row c := [.id c.group, .id c.user, .text c.role, .time c.joinedAt]
  read := Columns.read
  check := Columns.check
  encode := encode
  numbers _ := []

theorem Relationship.exact_format : format.Exact := by
  refine .ofCheck (fun r => ⟨r.id, r.tuple.subject.kind.tag, r.tuple.subject.id,
    r.tuple.relation.tag, r.tuple.object.kind.tag, r.tuple.object.id, r.createdAt⟩) (fun _ => rfl)
    (fun _ => rfl) ?_ ?_ Columns.corrupt_check nofun
  · intro c r
    simp only [format, Columns.check, except_bind_eq_ok, SubjectKind.spelling.checkWord_eq_ok,
      Relation.spelling.checkWord_eq_ok, ObjectKind.spelling.checkWord_eq_ok]
    constructor
    · rintro ⟨s, hs, l, hl, o, ho, h⟩
      cases h
      cases c
      cases hs
      cases hl
      cases ho
      exact ⟨rfl, nofun⟩
    · rintro ⟨rfl, -⟩
      exact ⟨_, rfl, _, rfl, _, rfl, rfl⟩
  · intro c
    have hwords : c.check.isOk = (_ && (_ && (_ && true))) :=
      isOk_bind fun _ => isOk_bind fun _ => isOk_bind fun _ => rfl
    rw [SubjectKind.spelling.isOk_checkWord, Relation.spelling.isOk_checkWord,
      ObjectKind.spelling.isOk_checkWord] at hwords
    exact hwords

theorem Grant.exact_format : format.Exact := by
  refine .ofCheck (fun g => ⟨g.id, g.resource.kind.tag, g.resource.id, g.grantee.kind.tag,
    g.grantee.id, g.role.tag, g.grantedBy, g.grantedAt⟩) (fun _ => rfl) (fun _ => rfl) ?_ ?_
    Columns.corrupt_check nofun
  · intro c g
    simp only [format, Columns.check, except_bind_eq_ok, ResourceKind.spelling.checkWord_eq_ok,
      GranteeKind.spelling.checkWord_eq_ok, Role.spelling.checkWord_eq_ok]
    constructor
    · rintro ⟨r, hr, k, hk, l, hl, h⟩
      cases h
      cases c
      cases hr
      cases hk
      cases hl
      exact ⟨rfl, nofun⟩
    · rintro ⟨rfl, -⟩
      exact ⟨_, rfl, _, rfl, _, rfl, rfl⟩
  · intro c
    have hwords : c.check.isOk = (_ && (_ && (_ && true))) :=
      isOk_bind fun _ => isOk_bind fun _ => isOk_bind fun _ => rfl
    rw [ResourceKind.spelling.isOk_checkWord, GranteeKind.spelling.isOk_checkWord,
      Role.spelling.isOk_checkWord] at hwords
    exact hwords

theorem PathRecord.exact_format : format.Exact := by
  refine .ofCheck (fun p => ⟨p.path.ancestor, p.path.descendant, toInt4 p.path.length,
    p.createdAt⟩) (fun _ => rfl) (fun _ => rfl) ?_ ?_ Columns.corrupt_check ?_
  · intro c p
    simp only [format, Columns.check, except_bind_eq_ok, ofInt4_eq_ok, List.forall_mem_singleton]
    constructor
    · rintro ⟨n, ⟨hn, hlow⟩, h⟩
      cases h
      cases c
      cases hn
      exact ⟨rfl, hlow⟩
    · rintro ⟨rfl, hlow⟩
      exact ⟨_, ⟨rfl, hlow⟩, rfl⟩
  · intro c
    have hnumber : c.check.isOk = (_ && true) := isOk_bind fun _ => rfl
    rw [isOk_ofInt4] at hnumber
    exact hnumber
  · intro p n hn hneg
    cases List.mem_singleton.mp hn
    simp [format, Format.admits, Field.admits, encode, hneg]

theorem Folder.exact_format : format.Exact := by
  refine .ofCheck (fun f => ⟨f.id, f.name, f.parent, f.owner, toInt4 f.depth, f.createdAt,
    f.updatedAt⟩) (fun c => ?_) (fun _ => rfl) ?_ ?_ Columns.corrupt_check ?_
  · cases c with
    | mk id name parent owner depth createdAt updatedAt => cases parent <;> rfl
  · intro c f
    simp only [format, Columns.check, except_bind_eq_ok, ofInt4_eq_ok, List.forall_mem_singleton]
    constructor
    · rintro ⟨n, ⟨hn, hlow⟩, h⟩
      cases h
      cases c
      cases hn
      exact ⟨rfl, hlow⟩
    · rintro ⟨rfl, hlow⟩
      exact ⟨_, ⟨rfl, hlow⟩, rfl⟩
  · intro c
    have hnumber : c.check.isOk = (_ && true) := isOk_bind fun _ => rfl
    rw [isOk_ofInt4] at hnumber
    exact hnumber
  · intro f n hn hneg
    cases List.mem_singleton.mp hn
    simp [format, Format.admits, Field.admits, encode, hneg]

theorem MembershipRecord.exact_format : format.Exact := by
  refine .ofCheck (fun m => ⟨m.membership.group, m.membership.user, m.membership.role.tag,
    m.joinedAt⟩) (fun _ => rfl) (fun _ => rfl) ?_ ?_ Columns.corrupt_check nofun
  · intro c m
    simp only [format, Columns.check, except_bind_eq_ok, MembershipRole.spelling.checkWord_eq_ok]
    constructor
    · rintro ⟨r, hr, h⟩
      cases h
      cases c
      cases hr
      exact ⟨rfl, nofun⟩
    · rintro ⟨rfl, -⟩
      exact ⟨_, rfl, rfl⟩
  · intro c
    have hwords : c.check.isOk = (_ && true) := isOk_bind fun _ => rfl
    rw [MembershipRole.spelling.isOk_checkWord] at hwords
    exact hwords

inductive Table
  | relationships | grants | paths | folders | memberships

namespace Table

/-- What a table records. -/
abbrev Record : Table → Type
  | relationships => Relationship
  | grants => Grant
  | paths => PathRecord
  | folders => Folder
  | memberships => MembershipRecord

/-- What a row of a table holds before it is checked. -/
abbrev Plain : Table → Type
  | relationships => Relationship.Columns
  | grants => Grant.Columns
  | paths => PathRecord.Columns
  | folders => Folder.Columns
  | memberships => MembershipRecord.Columns

def format : (t : Table) → Format t.Plain t.Record
  | relationships => Relationship.format
  | grants => Grant.format
  | paths => PathRecord.format
  | folders => Folder.format
  | memberships => MembershipRecord.format

/-- Where an insertion takes its rows from: one from the parameters as they are, or many from an
array for each column. -/
def source : Table → String
  | relationships | folders => "VALUES ($1, $2, $3, $4, $5, $6, $7)"
  | grants => "VALUES ($1, $2, $3, $4, $5, $6, $7, $8)"
  | paths => "SELECT * FROM UNNEST($1::uuid[], $2::uuid[], $3::int4[], $4::timestamptz[])"
  | memberships => "VALUES ($1, $2, $3, $4)"

def insertText (t : Table) (schema : String) : String :=
  s!"INSERT INTO {schema}" ++ s!".{t.format.table} (" ++ t.format.columnText ++ ") " ++ t.source

def selectText (t : Table) (schema : String) : String :=
  s!"SELECT {t.format.columnText} FROM {schema}" ++ s!".{t.format.table}"

/-- The columns as the statements list them. -/
def listed : Table → String
  | relationships => Statement.relationshipColumns
  | grants => Statement.grantColumns
  | paths => Statement.pathColumns
  | folders => Statement.folderColumns
  | memberships => Statement.membershipColumns

theorem columnText_format (t : Table) : t.format.columnText = t.listed := by
  cases t <;>
    simp [format, Format.columnText, Format.names, Relationship.format, Grant.format,
      PathRecord.format, Folder.format, MembershipRecord.format] <;>
    rfl

variable {t : Table} {schema text joined : String}

theorem insertText_eq (hname : s!".{t.format.table} (" = joined) :
    t.insertText schema = s!"INSERT INTO {schema}" ++ joined ++ t.listed ++ ") " ++ t.source := by
  unfold insertText
  rewrite [hname, columnText_format]
  rfl

/-- A text that starts by reading whole rows of a table. -/
def Heads (t : Table) (schema text : String) : Prop := ∃ rest, text = t.selectText schema ++ rest

theorem heads_join (rest : String) (hname : s!".{t.format.table}" ++ rest = joined) :
    t.Heads schema (s!"SELECT {t.listed} FROM {schema}" ++ joined) := by
  refine ⟨rest, ?_⟩
  unfold selectText
  rewrite [columnText_format, ← hname]
  exact String.append_assoc.symm

theorem Heads.append (h : t.Heads schema text) (more : String) : t.Heads schema (text ++ more) := by
  obtain ⟨rest, rfl⟩ := h
  exact ⟨rest ++ more, String.append_assoc⟩

theorem exact_format : (t : Table) → t.format.Exact
  | relationships => Relationship.exact_format
  | grants => Grant.exact_format
  | paths => PathRecord.exact_format
  | folders => Folder.exact_format
  | memberships => MembershipRecord.exact_format

theorem corrupt_check : (t : Table) → ∀ c, Corrupt (t.format.check c)
  | relationships => Relationship.Columns.corrupt_check
  | grants => Grant.Columns.corrupt_check
  | paths => PathRecord.Columns.corrupt_check
  | folders => Folder.Columns.corrupt_check
  | memberships => MembershipRecord.Columns.corrupt_check

end Table

/-! Statements on the tables, and lists of their rows. -/

/-- The element of an array at a place. A value that is no array is its only element. -/
def Value.element? (i : Nat) : Value → Option Value
  | .ids us => us[i]?.map .id
  | .ints ns => ns[i]?.map .int
  | .times ts => ts[i]?.map .time
  | v => if i = 0 then some v else none

namespace Statement

/-- A row that an insertion makes of its parameters. -/
def row? (s : Statement) (i : Nat) : Option Row := s.params.mapM (·.element? i)

/-- The insertions into a table, each with what it stores. -/
inductive Stores (schema : String) : (t : Table) → List t.Record → Statement → Prop
  | relationship (r : Relationship) :
    Stores schema .relationships [r] (insertRelationship schema r)
  | grant (g : Grant) : Stores schema .grants [g] (insertGrant schema g)
  | paths (ps : List PathRecord) : Stores schema .paths ps (insertPaths schema ps)
  | folder (f : Folder) : Stores schema .folders [f] (insertFolder schema f)
  | membership (m : MembershipRecord) :
    Stores schema .memberships [m] (insertMembership schema m)

/-- The statements that read whole rows of a table. -/
inductive Selects (schema : String) : Table → Statement → Prop
  | relationships (f : TupleFilter) :
    Selects schema .relationships (selectRelationships schema f)
  | grant (id : Uuid) : Selects schema .grants (selectGrant schema id)
  | grantsFor (r : Resource) : Selects schema .grants (selectGrantsFor schema r)
  | grants (r : Resource) (kind : GranteeKind) (grantees : List Uuid) :
    Selects schema .grants (selectGrants schema r kind grantees)
  | pathsTo (folder : Uuid) : Selects schema .paths (selectPathsTo schema folder)
  | pathsFrom (folder : Uuid) : Selects schema .paths (selectPathsFrom schema folder)
  | paths : Selects schema .paths (selectPaths schema)
  | folder (id : Uuid) : Selects schema .folders (selectFolder schema id)
  | folders : Selects schema .folders (selectFolders schema)
  | membershipsOf (user : Uuid) : Selects schema .memberships (selectMembershipsOf schema user)
  | membersOf (group : Uuid) : Selects schema .memberships (selectMembersOf schema group)

variable {schema : String} {t : Table} {as : List t.Record} {s : Statement}

theorem Stores.text (h : Stores schema t as s) : s.text = t.insertText schema := by
  symm
  cases h
  case relationship r => exact Table.insertText_eq rfl
  case grant g => exact Table.insertText_eq rfl
  case paths ps => exact Table.insertText_eq rfl
  case folder f => exact (Table.insertText_eq rfl).trans String.append_assoc
  case membership m => exact Table.insertText_eq rfl

theorem Stores.row? (h : Stores schema t as s) (i : Nat) :
    s.row? i = as[i]?.map t.format.encode := by
  cases h with
  | relationship r => cases i <;> rfl
  | grant g => cases i <;> rfl
  | paths ps =>
    -- Each column travels as an array with one element for each row.
    simp only [Statement.row?, insertPaths, PathRecord.encodeAll, List.mapM_cons, List.mapM_nil,
      Value.element?, List.getElem?_map]
    cases ps[i]? <;> rfl
  | folder f =>
    obtain ⟨id, name, parent, owner, depth, createdAt, updatedAt⟩ := f
    cases i <;> cases parent <;> rfl
  | membership m => cases i <;> rfl

theorem Selects.heads (h : Selects schema t s) : t.Heads schema s.text := by
  cases h
  case relationships f =>
    exact (((Table.heads_join " WHERE " rfl).append _).append _).append _
  case grant id => exact Table.heads_join " WHERE id = $1" rfl
  case grantsFor r => exact (Table.heads_join " " rfl).append _
  case grants r kind grantees => exact (Table.heads_join " " rfl).append _
  case pathsTo f => exact (Table.heads_join " " rfl).append _
  case pathsFrom f => exact (Table.heads_join " " rfl).append _
  case paths => exact Table.heads_join "" rfl
  case folder id => exact Table.heads_join " WHERE id = $1" rfl
  case folders => exact Table.heads_join " ORDER BY depth, created_at" rfl
  case membershipsOf u => exact (Table.heads_join " " rfl).append _
  case membersOf g => exact (Table.heads_join " " rfl).append _

end Statement

/-- The requests that take all rows that a query finds in a table. Nobody is looked for without
grantees. -/
inductive Request.Lists : Table → Request → Prop
  | findRelationships (f : TupleFilter) : Lists .relationships (findRelationships f)
  | findParent (o : Object) : Lists .relationships (findParent o)
  | findSubjects (r : Relation) (o : Object) : Lists .relationships (findSubjects r o)
  | findObjects (s : Subject) (r : Relation) : Lists .relationships (findObjects s r)
  | findByObject (o : Object) : Lists .relationships (findByObject o)
  | findBySubject (s : Subject) : Lists .relationships (findBySubject s)
  | findGrantsFor (r : Resource) : Lists .grants (findGrantsFor r)
  | findGrants (r : Resource) (kind : GranteeKind) (g : Uuid) (rest : List Uuid) :
    Lists .grants (findGrants r kind (g :: rest))
  | findAncestors (f : Uuid) : Lists .paths (findAncestors f)
  | findDescendants (f : Uuid) : Lists .paths (findDescendants f)
  | findAncestorPaths (f : Uuid) : Lists .paths (findAncestorPaths f)
  | findSubtree (f : Uuid) : Lists .paths (findSubtree f)
  | moveSubtree (f : Uuid) (newParentPaths : List FolderPath) :
    Lists .paths (moveSubtree f newParentPaths)
  | listPaths : Lists .paths listPaths
  | listFolders : Lists .folders listFolders
  | findMembershipsOf (user : Uuid) : Lists .memberships (findMembershipsOf user)
  | findMembersOf (group : Uuid) : Lists .memberships (findMembersOf group)

open Conversation in
theorem Request.Lists.heeds {t : Table} {r : Request} (h : Lists t r) (schema : String)
    (stamp : Stamp) : ∃ s, Statement.Selects schema t s ∧
      Heeds s (Results.readAll t.format.read t.format.check) (r.conversation schema stamp) := by
  cases h
  case findRelationships | findByObject | findBySubject =>
    exact ⟨_, .relationships _, heeds_fetchRelationships⟩
  case findParent | findSubjects | findObjects =>
    exact ⟨_, .relationships _, heeds_fetchRelationships.bind⟩
  case findGrantsFor => exact ⟨_, .grantsFor _, heeds_fetchAll⟩
  case findGrants => exact ⟨_, .grants _ _ _, heeds_fetchAll⟩
  case findAncestors => exact ⟨_, .pathsTo _, heeds_fetchPaths.bind⟩
  case findDescendants | moveSubtree => exact ⟨_, .pathsFrom _, heeds_fetchPaths.bind⟩
  case findAncestorPaths => exact ⟨_, .pathsTo _, heeds_fetchPaths⟩
  case findSubtree => exact ⟨_, .pathsFrom _, heeds_fetchPaths⟩
  case listPaths => exact ⟨_, .paths, heeds_fetchPaths⟩
  case listFolders => exact ⟨_, .folders, heeds_fetchAll⟩
  case findMembershipsOf => exact ⟨_, .membershipsOf _, heeds_fetchMemberships⟩
  case findMembersOf => exact ⟨_, .membersOf _, heeds_fetchMemberships⟩

theorem Conversation.Heeds.run {readAs : Results → Except StorageError β} {d : Conversation α}
    {s : Statement} (h : Heeds s readAs d) {x : Exchange} {results : Results}
    {rest : List (Except Refusal Results)} {e : StorageError}
    (hreplies : x.replies = .ok results :: rest) (hread : readAs results = .error e) :
    d.run Exchange.answer x =
      (.error e, { x with replies := rest, sent := x.sent ++ [.statement s] }) := by
  obtain ⟨next, rfl, hnext⟩ := h
  have hanswer : Exchange.answer s x =
      (.ok results, { x with replies := rest, sent := x.sent ++ [.statement s] }) := by
    rw [Exchange.answer, Exchange.submit, hreplies]
    rfl
  rw [Dialogue.run, hanswer]
  simp only [hnext results e hread, Dialogue.run]

theorem Format.readAll_row {fmt : Format C α} (h : fmt.Exact) (cs : List C) (n : Nat) :
    Results.readAll fmt.read fmt.check ⟨cs.map fmt.row, n⟩ = cs.mapM fmt.check := by
  have hread : (cs.map fmt.row).mapM (Conversation.readRow fmt.read) = .ok cs := by
    induction cs with
    | nil => rfl
    | cons c cs ih =>
      rw [List.map_cons, List.mapM_cons, ih, Conversation.readRow, h.read_row]
      rfl
  rw [Results.readAll, hread]
  rfl

/-- A corrupt row ends a list, whatever the other rows hold. -/
theorem Table.list_corrupt (t : Table) {cs : List t.Plain} {c : t.Plain} (hc : c ∈ cs)
    (hbad : (t.format.check c).isOk = false) (n : Nat) :
    ∃ why : String, Results.readAll t.format.read t.format.check ⟨cs.map t.format.row, n⟩ =
      .error (.internal s!"corrupt row: {why}") := by
  rw [Format.readAll_row t.exact_format]
  have hsome : (cs.mapM t.format.check).isOk = false := by
    rw [isOk_mapM, List.all_eq_false]
    exact ⟨c, hc, by rw [hbad]; nofun⟩
  cases hlist : cs.mapM t.format.check with
  | ok as =>
    rw [hlist] at hsome
    cases hsome
  | error e =>
    obtain ⟨why, rfl⟩ := error_mapM t.corrupt_check cs e hlist
    exact ⟨why, rfl⟩

/-- What the rows of a table hold is what was stored, or they are not taken at all. Insertions name
the columns in the order of their parameters, queries in the order of the fields that they read. -/
theorem records_exact (schema : String) (t : Table) :
    t.format.Exact ∧
    (∀ as s, Statement.Stores schema t as s →
      s.text = t.insertText schema ∧ ∀ i, s.row? i = as[i]?.map t.format.encode) ∧
    (∀ s, Statement.Selects schema t s → t.Heads schema s.text) ∧
    ∀ r, Request.Lists t r → ∀ (stamp : Stamp) (x : Exchange) (cs : List t.Plain) (n : Nat) rest,
      x.replies = .ok ⟨cs.map t.format.row, n⟩ :: rest →
      (∃ c ∈ cs, (t.format.decode (t.format.row c)).isOk = false) →
      ∃ (s : Statement) (why : String), Statement.Selects schema t s ∧
        (Backend.database.perform stamp r schema x).1 = .error (.internal s!"corrupt row: {why}") ∧
        (Backend.database.perform stamp r schema x).2.2.sent = x.sent ++ [.statement s] := by
  refine ⟨t.exact_format, fun as s h => ⟨h.text, h.row?⟩, fun s h => h.heads, ?_⟩
  rintro r hlists stamp x cs n rest hreplies ⟨c, hc, hbad⟩
  rw [Format.decode_row (t.exact_format.read_row c)] at hbad
  obtain ⟨why, hcorrupt⟩ := t.list_corrupt hc hbad n
  obtain ⟨s, hselects, hheeds⟩ := hlists.heeds schema ⟨x.spare, stamp.time⟩
  have hrun := hheeds.run (x := { x with spare := x.spare.next }) hreplies hcorrupt
  refine ⟨s, why, hselects, ?_, ?_⟩
  · exact congrArg (·.1) hrun
  · exact congrArg (·.2.sent) hrun

end DriveAccess
