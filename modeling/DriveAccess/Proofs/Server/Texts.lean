import DriveAccess.Proofs.Server.Replies
/-!
The texts that requests send depend on the shape of their arguments and on the replies, not on any
data. Data travel as parameters.
-/
namespace DriveAccess

variable {α β : Type}

/-- What is left of a statement without its values: the text, and the number of parameters. -/
def Statement.form (s : Statement) : String × Nat := (s.text, s.params.length)

/-- The columns that a filter fixes. -/
def TupleFilter.columns (f : TupleFilter) : List TupleColumn := f.fixed.map (·.1)

/-- Requests for the same operation with arguments of the same shape: filters fix the same columns,
options are both there or both missing, and lists are both empty or both not. -/
inductive Request.Alike : Request → Request → Prop
  | createRelationship (t t' : Tuple) : Alike (createRelationship t) (createRelationship t')
  | deleteRelationship (t t' : Tuple) : Alike (deleteRelationship t) (deleteRelationship t')
  | relationshipExists (t t' : Tuple) : Alike (relationshipExists t) (relationshipExists t')
  | findRelationships (f f' : TupleFilter) (h : f.columns = f'.columns) :
    Alike (findRelationships f) (findRelationships f')
  | deleteRelationships (f f' : TupleFilter) (h : f.columns = f'.columns) :
    Alike (deleteRelationships f) (deleteRelationships f')
  | findParent (o o' : Object) : Alike (findParent o) (findParent o')
  | findSubjects (r r' : Relation) (o o' : Object) : Alike (findSubjects r o) (findSubjects r' o')
  | findObjects (s s' : Subject) (r r' : Relation) : Alike (findObjects s r) (findObjects s' r')
  | findByObject (o o' : Object) : Alike (findByObject o) (findByObject o')
  | findBySubject (s s' : Subject) : Alike (findBySubject s) (findBySubject s')
  | deleteByObject (o o' : Object) : Alike (deleteByObject o) (deleteByObject o')
  | deleteBySubject (s s' : Subject) : Alike (deleteBySubject s) (deleteBySubject s')
  | replaceOwner (o o' : Object) (user user' : Uuid) :
    Alike (replaceOwner o user) (replaceOwner o' user')
  | setParent (child child' : Object) (p p' : Option Subject) (h : p.isSome = p'.isSome) :
    Alike (setParent child p) (setParent child' p')
  | createGrant (g g' : Grant) : Alike (createGrant g) (createGrant g')
  | findGrant (id id' : Uuid) : Alike (findGrant id) (findGrant id')
  | findGrantsFor (r r' : Resource) : Alike (findGrantsFor r) (findGrantsFor r')
  | findGrants (r r' : Resource) (kind kind' : GranteeKind) (ids ids' : List Uuid)
    (h : ids.isEmpty = ids'.isEmpty) : Alike (findGrants r kind ids) (findGrants r' kind' ids')
  | grantExists (r r' : Resource) (g g' : Grantee) (role role' : Role) :
    Alike (grantExists r g role) (grantExists r' g' role')
  | deleteGrant (id id' : Uuid) : Alike (deleteGrant id) (deleteGrant id')
  | deleteGrantsFor (r r' : Resource) : Alike (deleteGrantsFor r) (deleteGrantsFor r')
  | insertSelfPath (f f' : Uuid) : Alike (insertSelfPath f) (insertSelfPath f')
  | insertPaths (ps ps' : List FolderPath) (h : ps.isEmpty = ps'.isEmpty) :
    Alike (insertPaths ps) (insertPaths ps')
  | findAncestors (f f' : Uuid) : Alike (findAncestors f) (findAncestors f')
  | findDescendants (f f' : Uuid) : Alike (findDescendants f) (findDescendants f')
  | findAncestorPaths (f f' : Uuid) : Alike (findAncestorPaths f) (findAncestorPaths f')
  | findSubtree (f f' : Uuid) : Alike (findSubtree f) (findSubtree f')
  | deleteSubtreePaths (f f' : Uuid) : Alike (deleteSubtreePaths f) (deleteSubtreePaths f')
  | deletePathsTouching (f f' : Uuid) : Alike (deletePathsTouching f) (deletePathsTouching f')
  | moveSubtree (f f' : Uuid) (ps ps' : List FolderPath) (h : ps.isEmpty = ps'.isEmpty) :
    Alike (moveSubtree f ps) (moveSubtree f' ps')
  | lockHierarchy : Alike lockHierarchy lockHierarchy
  | listPaths : Alike listPaths listPaths
  | createFolder (f f' : Folder) : Alike (createFolder f) (createFolder f')
  | findFolder (id id' : Uuid) : Alike (findFolder id) (findFolder id')
  | setFolderParent (id id' : Uuid) (p p' : Option Uuid) (h : p.isSome = p'.isSome) :
    Alike (setFolderParent id p) (setFolderParent id' p')
  | setFolderOwner (id id' owner owner' : Uuid) :
    Alike (setFolderOwner id owner) (setFolderOwner id' owner')
  | setFolderDepths (ds ds' : List (Uuid × Nat)) (h : ds.isEmpty = ds'.isEmpty) :
    Alike (setFolderDepths ds) (setFolderDepths ds')
  | deleteFolders (ids ids' : List Uuid) (h : ids.isEmpty = ids'.isEmpty) :
    Alike (deleteFolders ids) (deleteFolders ids')
  | listFolders : Alike listFolders listFolders
  | addMembership (m m' : Membership) : Alike (addMembership m) (addMembership m')
  | removeMembership (group group' user user' : Uuid) :
    Alike (removeMembership group user) (removeMembership group' user')
  | findMembershipsOf (user user' : Uuid) : Alike (findMembershipsOf user) (findMembershipsOf user')
  | findMembersOf (group group' : Uuid) : Alike (findMembersOf group) (findMembersOf group')

theorem Request.Alike.refl (r : Request) : r.Alike r := by
  cases r <;> constructor <;> rfl

/-! Filters. -/

namespace TupleFilter

variable {f f' : TupleFilter}

theorem conditions_clause (n : Nat) :
    (f.clause n).conditions = f.columns.mapIdx fun i column => ⟨column, n + i⟩ := by
  apply List.ext_getElem <;> simp [clause, columns]

theorem text_clause (h : f.columns = f'.columns) (n : Nat) :
    (f.clause n).text = (f'.clause n).text := by
  rw [Clause.text, Clause.text, conditions_clause, conditions_clause, h]

theorem length_params_clause (h : f.columns = f'.columns) (n : Nat) :
    (f.clause n).params.length = (f'.clause n).params.length := by
  simpa [clause, columns] using congrArg List.length h

theorem isEmpty_iff : f.isEmpty ↔ f.columns = [] := by
  obtain ⟨subjectKind, subjectId, relation, objectKind, objectId⟩ := f
  cases subjectKind <;> cases subjectId <;> cases relation <;> cases objectKind <;>
    cases objectId <;> simp [isEmpty, columns, fixed]

theorem isEmpty_congr (h : f.columns = f'.columns) : f.isEmpty = f'.isEmpty := by
  rw [Bool.eq_iff_iff, isEmpty_iff, isEmpty_iff, h]

end TupleFilter

namespace Conversation

/-- Conversations that send statements of the same forms as long as the replies are the same. -/
def SameForms : Conversation α → Conversation β → Prop
  | .ask s next, .ask s' next' =>
    s.form = s'.form ∧ ∀ results, SameForms (next results) (next' results)
  | .ask _ _, .done _ | .ask _ _, .fail _ | .done _, .ask _ _ | .fail _, .ask _ _ => False
  | .done _, .done _ | .done _, .fail _ | .fail _, .done _ | .fail _, .fail _ => True

/-- A conversation that sends one statement. -/
def Single (s : Statement) (d : Conversation α) : Prop :=
  ∃ next, d = .ask s next ∧ ∀ results, (next results).Asks fun _ => False

variable {s s' : Statement} {d : Conversation α} {d' : Conversation β}

theorem sameForms_quiet (h : d.Asks fun _ => False) (h' : d'.Asks fun _ => False) :
    SameForms d d' := by
  cases d with
  | ask s next => exact h.1.elim
  | done a => cases d' with
    | ask s next => exact h'.1.elim
    | done b => trivial
    | fail e => trivial
  | fail e => cases d' with
    | ask s next => exact h'.1.elim
    | done b => trivial
    | fail e => trivial

theorem Single.sameForms (h : Single s d) (h' : Single s' d') (hform : s.form = s'.form) :
    SameForms d d' := by
  obtain ⟨next, rfl, hnext⟩ := h
  obtain ⟨next', rfl, hnext'⟩ := h'
  exact ⟨hform, fun results => sameForms_quiet (hnext results) (hnext' results)⟩

theorem Single.bind {f : α → Conversation β} (h : Single s d)
    (hf : ∀ a, (f a).Asks fun _ => False) : Single s (d >>= f) := by
  obtain ⟨next, rfl, hnext⟩ := h
  exact ⟨fun results => next results >>= f, rfl, fun results => (hnext results).bind hf⟩

theorem Single.map {g : α → β} (h : Single s d) : Single s (do return g (← d)) :=
  h.bind fun _ => Dialogue.asks_pure _

theorem quiet_ofExcept (x : Except StorageError α) :
    (Dialogue.ofExcept x : Conversation α).Asks fun _ => False := by
  cases x <;> trivial

theorem single_execute : Single s (execute s) := ⟨_, rfl, fun _ => trivial⟩

theorem single_fetchAll {γ : Type} (read : Row → Except RowFault γ)
    (check : γ → Except StorageError α) : Single s (fetchAll read check s) :=
  ⟨_, fetchAll_eq, fun _ => quiet_ofExcept _⟩

theorem single_fetchOptional {γ : Type} (read : Row → Except RowFault γ)
    (check : γ → Except StorageError α) : Single s (fetchOptional read check s) :=
  ⟨_, fetchOptional_eq, fun _ => quiet_ofExcept _⟩

theorem single_fetchBool : Single s (fetchBool s) := ⟨_, fetchBool_eq, fun _ => quiet_ofExcept _⟩

variable {schema : String} {f f' : TupleFilter} {stamp stamp' : Stamp}

theorem single_fetchRelationships :
    Single (.selectRelationships schema f) (fetchRelationships schema f) :=
  single_fetchAll _ _

theorem single_fetchPaths : Single s (fetchPaths s) := single_fetchAll _ _

theorem single_fetchMemberships : Single s (fetchMemberships s) := single_fetchAll _ _

theorem single_insertPaths {now : Instant} {batch : List FolderPath} (h : batch.isEmpty = false) :
    Single (.insertPaths schema (batch.map (⟨·, now⟩)))
      (Conversation.insertPaths schema now batch) := by
  rw [Conversation.insertPaths, h]
  exact single_execute.map

theorem single_insertTuple {t : Tuple} :
    Single (.insertRelationship schema ⟨stamp.id, t, stamp.time⟩) (insertTuple schema stamp t) :=
  single_execute.map

theorem single_updateFolder (id : Uuid) : Single s (updateFolder id s) := by
  refine single_execute.bind fun n => ?_
  split <;> trivial

theorem form_selectRelationships (h : f.columns = f'.columns) :
    (Statement.selectRelationships schema f).form =
      (Statement.selectRelationships schema f').form := by
  unfold Statement.selectRelationships Statement.form
  dsimp only
  rw [TupleFilter.text_clause h, TupleFilter.length_params_clause h]

theorem form_deleteRelationships (h : f.columns = f'.columns) :
    (Statement.deleteRelationships schema f).form =
      (Statement.deleteRelationships schema f').form := by
  unfold Statement.deleteRelationships Statement.form
  dsimp only
  rw [TupleFilter.text_clause h, TupleFilter.length_params_clause h]

theorem form_relationshipExists (t t' : Tuple) :
    (Statement.relationshipExists schema t).form =
      (Statement.relationshipExists schema t').form := by
  have hcolumns : (TupleFilter.exact t).columns = (TupleFilter.exact t').columns := rfl
  unfold Statement.relationshipExists Statement.form
  dsimp only
  rw [TupleFilter.text_clause hcolumns, TupleFilter.length_params_clause hcolumns]

theorem sameForms_fetchRelationships (h : f.columns = f'.columns) :
    SameForms (fetchRelationships schema f) (fetchRelationships schema f') :=
  single_fetchRelationships.sameForms single_fetchRelationships (form_selectRelationships h)

theorem sameForms_insertTuple (t t' : Tuple) :
    SameForms (insertTuple schema stamp t) (insertTuple schema stamp' t') :=
  single_insertTuple.sameForms single_insertTuple rfl

theorem sameForms_deleteTuples (h : f.columns = f'.columns) :
    SameForms (deleteTuples schema f) (deleteTuples schema f') := by
  rw [deleteTuples, deleteTuples, TupleFilter.isEmpty_congr h]
  split
  · trivial
  · exact single_execute.sameForms single_execute (form_deleteRelationships h)

/-- Conversations that end alike go on alike if what comes next depends on the value alike. -/
theorem sameForms_deleteTuples_bind {k : Nat → Conversation α} {k' : Nat → Conversation β}
    (h : f.columns = f'.columns) (hk : ∀ n, SameForms (k n) (k' n)) :
    SameForms (deleteTuples schema f >>= k) (deleteTuples schema f' >>= k') := by
  rw [deleteTuples, deleteTuples, TupleFilter.isEmpty_congr h]
  split
  · trivial
  · exact ⟨form_deleteRelationships h, fun results => hk results.affected⟩

theorem sameForms_insertPaths {now now' : Instant} {batch batch' : List FolderPath}
    (h : batch.isEmpty = batch'.isEmpty) :
    SameForms (Conversation.insertPaths schema now batch)
      (Conversation.insertPaths schema now' batch') := by
  cases hbatch : batch'.isEmpty with
  | true =>
    rw [hbatch] at h
    rw [Conversation.insertPaths, Conversation.insertPaths, h, hbatch]
    trivial
  | false =>
    rw [hbatch] at h
    exact (single_insertPaths h).sameForms (single_insertPaths hbatch) rfl

theorem isEmpty_attachPaths (subtree : List FolderPath) {upper upper' : List FolderPath}
    (h : upper.isEmpty = upper'.isEmpty) :
    (attachPaths subtree upper).isEmpty = (attachPaths subtree upper').isEmpty := by
  rw [Bool.eq_iff_iff, List.isEmpty_iff, List.isEmpty_iff] at h
  rw [Bool.eq_iff_iff]
  simp [attachPaths, h]

theorem sameForms_fetchPaths_bind {k : List PathRecord → Conversation α}
    {k' : List PathRecord → Conversation β} (h : s.form = s'.form)
    (hk : ∀ rows, SameForms (k rows) (k' rows)) :
    SameForms (fetchPaths s >>= k) (fetchPaths s' >>= k') := by
  rw [fetchPaths, fetchPaths, fetchAll_eq, fetchAll_eq]
  refine ⟨h, fun results => ?_⟩
  dsimp only
  cases results.readAll PathRecord.Columns.read PathRecord.Columns.check with
  | error e => trivial
  | ok rows => exact hk _

end Conversation

open Conversation in
/-- Requests alike send statements of the same forms, whatever rows they are to store. -/
theorem Request.Alike.sameForms {r r' : Request} (h : r.Alike r') (schema : String)
    (stamp stamp' : Stamp) :
    SameForms (r.conversation schema stamp) (r'.conversation schema stamp') := by
  cases h with
  | createRelationship t t' => exact sameForms_insertTuple t t'
  | deleteRelationship t t' => exact sameForms_deleteTuples_bind rfl fun _ => trivial
  | relationshipExists t t' =>
    exact single_fetchBool.sameForms single_fetchBool (form_relationshipExists t t')
  | findRelationships f f' h => exact sameForms_fetchRelationships h
  | deleteRelationships f f' h => exact sameForms_deleteTuples h
  | findParent | findSubjects | findObjects =>
    exact single_fetchRelationships.map.sameForms single_fetchRelationships.map
      (form_selectRelationships rfl)
  | findByObject | findBySubject => exact sameForms_fetchRelationships rfl
  | deleteByObject | deleteBySubject => exact sameForms_deleteTuples rfl
  | replaceOwner o o' user user' =>
    refine sameForms_deleteTuples_bind rfl fun removed => ?_
    split
    · trivial
    · exact sameForms_insertTuple _ _
  | setParent child child' p p' h =>
    refine sameForms_deleteTuples_bind rfl fun _ => ?_
    cases p with
    | none => cases p' with
      | none => trivial
      | some p' => cases h
    | some p => cases p' with
      | none => cases h
      | some p' =>
        exact single_insertTuple.map.sameForms single_insertTuple.map rfl
  | createGrant | deleteGrant | lockHierarchy | createFolder | addMembership | removeMembership =>
    exact single_execute.map.sameForms single_execute.map rfl
  | findGrant | findFolder =>
    exact (single_fetchOptional _ _).sameForms (single_fetchOptional _ _) rfl
  | findGrantsFor | listFolders => exact (single_fetchAll _ _).sameForms (single_fetchAll _ _) rfl
  | findGrants r r' kind kind' ids ids' h =>
    rw [conversation, conversation, h]
    split
    · trivial
    · exact (single_fetchAll _ _).sameForms (single_fetchAll _ _) rfl
  | grantExists => exact single_fetchBool.sameForms single_fetchBool rfl
  | deleteGrantsFor | deleteSubtreePaths | deletePathsTouching | deleteFolders =>
    exact single_execute.sameForms single_execute rfl
  | insertSelfPath f f' => exact sameForms_insertPaths rfl
  | insertPaths ps ps' h => exact sameForms_insertPaths h
  | findAncestors | findDescendants =>
    exact single_fetchPaths.map.sameForms single_fetchPaths.map rfl
  | findAncestorPaths | findSubtree | listPaths =>
    exact single_fetchPaths.sameForms single_fetchPaths rfl
  | moveSubtree f f' ps ps' h =>
    refine sameForms_fetchPaths_bind rfl fun subtree => ?_
    split
    · trivial
    · exact ⟨rfl, fun _ => sameForms_insertPaths (isEmpty_attachPaths _ h)⟩
  | setFolderParent id id' => exact (single_updateFolder id).sameForms (single_updateFolder id') rfl
  | setFolderOwner id id' => exact (single_updateFolder id).sameForms (single_updateFolder id') rfl
  | setFolderDepths ds ds' =>
    have hsingle (depths : List (Uuid × Nat)) : Single (.setFolderDepths schema depths)
        ((Request.setFolderDepths depths).conversation schema stamp) := by
      refine single_execute.bind fun updated => ?_
      split <;> trivial
    exact (hsingle ds).sameForms (hsingle ds') rfl
  | findMembershipsOf | findMembersOf =>
    exact single_fetchMemberships.sameForms single_fetchMemberships rfl

/-- Conversations of the same forms send them when the replies are the same. -/
theorem Conversation.SameForms.asked {d : Conversation α} {d' : Conversation β}
    (h : SameForms d d') {x x' : Exchange} (hreplies : x.replies = x'.replies) :
    (d.asked Exchange.answer x).map Statement.form =
      (d'.asked Exchange.answer x').map Statement.form := by
  induction d generalizing d' x x' with
  | done a => cases d' with
    | ask s' next' => exact h.elim
    | _ => rfl
  | fail e => cases d' with
    | ask s' next' => exact h.elim
    | _ => rfl
  | ask s next ih => cases d' with
    | done b => exact h.elim
    | fail e => exact h.elim
    | ask s' next' =>
      obtain ⟨hform, hnext⟩ := h
      have hreply : (x.submit s).1 = (x'.submit s').1 ∧
          (x.submit s).2.replies = (x'.submit s').2.replies := by
        rw [Exchange.submit, Exchange.submit]
        dsimp only
        rw [hreplies]
        cases x'.replies <;> exact ⟨rfl, rfl⟩
      rw [Dialogue.asked, Dialogue.asked, List.map_cons, List.map_cons, hform, Exchange.answer_eq,
        Exchange.answer_eq, hreply.1]
      refine congrArg (s'.form :: ·) ?_
      cases (x'.submit s').1 with
      | error refusal => rfl
      | ok results => exact ih results (hnext results) hreply.2

end DriveAccess
