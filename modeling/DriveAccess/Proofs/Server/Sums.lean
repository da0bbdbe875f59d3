import DriveAccess.Proofs.Access.Sums
import DriveAccess.Proofs.Server.Records
/-!
Commands that create and move folders on a database server, with sums in 32 bits. A sum that is too
large would end the command; whatever the server replies, there is none.
-/
namespace DriveAccess

/-- Goes on with what has been added up, or ends with an error where a sum is too large. -/
def Dialogue.ofSum {Q : Type} {A : Q → Type} {ε α : Type} (overflow : ε) :
    Option α → Dialogue Q A ε α
  | some a => .done a
  | none => .fail overflow

theorem mem_of_mapM_eq_ok {α β ε : Type} {f : α → Except ε β} {xs : List α} {ys : List β}
    (h : xs.mapM f = .ok ys) : ∀ y ∈ ys, ∃ x ∈ xs, f x = .ok y := by
  induction xs generalizing ys with
  | nil =>
    cases h
    simp
  | cons x xs ih =>
    rw [List.mapM_cons] at h
    obtain ⟨y, hy, hrest⟩ := except_bind_eq_ok.mp h
    obtain ⟨ys, hys, hlist⟩ := except_bind_eq_ok.mp hrest
    cases hlist
    intro z hz
    rcases List.mem_cons.mp hz with rfl | hz
    · exact ⟨x, List.mem_cons_self, hy⟩
    · obtain ⟨w, hw, hwz⟩ := ih hys z hz
      exact ⟨w, List.mem_cons_of_mem x hw, hwz⟩

theorem PathRecord.stored_length {c : Columns} {p : PathRecord} (h : c.check = .ok p) :
    Stored p.path.length := by
  obtain ⟨n, hn, hp⟩ := except_bind_eq_ok.mp h
  cases hp
  exact ⟨c.length, hn⟩

theorem Folder.stored_depth {c : Columns} {f : Folder} (h : c.check = .ok f) :
    Stored f.depth := by
  obtain ⟨n, hn, hf⟩ := except_bind_eq_ok.mp h
  cases hf
  exact ⟨c.depth, hn⟩

namespace Conversation

open Dialogue

variable {α β : Type} {read : Row → Except RowFault α} {check : α → Except StorageError β}
  {s : Statement} {P : Statement → Prop} {T : Statement → Results → Prop}

/-- What is fetched has passed the check. -/
theorem alike_fetchAll (hs : P s) : (fetchAll read check s).Alike P T
    (fun found => ∀ b ∈ found, ∃ c, check c = .ok b) (fetchAll read check s) := by
  rw [fetchAll_eq]
  refine .ask hs fun results _ => alike_ofExcept fun found h b hb => ?_
  obtain ⟨columns, _, hcheck⟩ := except_bind_eq_ok.mp h
  obtain ⟨c, _, hc⟩ := mem_of_mapM_eq_ok hcheck b hb
  exact ⟨c, hc⟩

theorem alike_fetchOptional (hs : P s) : (fetchOptional read check s).Alike P T
    (fun found => ∀ b ∈ found, ∃ c, check c = .ok b) (fetchOptional read check s) := by
  rw [fetchOptional_eq]
  refine .ask hs fun results _ => alike_ofExcept fun found h b hb => ?_
  rw [Results.readOptional] at h
  split at h
  · cases h
    cases hb
  · rw [map_eq_pure_bind] at h
    obtain ⟨b', hrow, hfound⟩ := except_bind_eq_ok.mp h
    cases hfound
    cases hb
    obtain ⟨c, _, hc⟩ := except_bind_eq_ok.mp hrow
    exact ⟨c, hc⟩

theorem alike_fetchPaths (hs : P s) : (fetchPaths s).Alike P T
    (fun rows => ∀ p ∈ rows, Stored p.path.length) (fetchPaths s) :=
  (alike_fetchAll hs).mono fun _ hrows p hp =>
    (hrows p hp).elim fun _ => PathRecord.stored_length

end Conversation

namespace Request

open Dialogue Conversation

/-- The distances that a request brings along can be read from stored columns. -/
def Sound : Request → Prop
  | .moveSubtree _ newParentPaths => ∀ p ∈ newParentPaths, Stored p.length
  | _ => True

/-- The depths and distances in a reply can be read from stored columns. -/
def Fits : (r : Request) → r.Reply → Prop
  | .findFolder _, found => ∀ f ∈ found, Stored f.depth
  | .listFolders, folders => ∀ f ∈ folders, Stored f.depth
  | .findAncestorPaths _, paths | .findSubtree _, paths | .listPaths, paths =>
    ∀ p ∈ paths, Stored p.length
  | _, _ => True

/-- The conversation that carries out a request with sums in 32 bits. -/
def conversation32 (overflow : StorageError) (schema : String) (stamp : Stamp) :
    (r : Request) → Conversation r.Answer
  | .moveSubtree f newParentPaths => do
    let subtree ← fetchPaths (.selectPathsFrom schema f)
    if subtree.isEmpty then
      .fail (.notFound (.closureRows f))
    else
      let _ ← execute (.detachSubtree schema f)
      let rows ← ofSum overflow (attachPaths32 (subtree.map (·.path)) newParentPaths)
      Conversation.insertPaths schema stamp.time rows
  | r => r.conversation schema stamp

theorem alike_conversation32 {r : Request} (h : r.Sound) (overflow : StorageError)
    (schema : String) (stamp : Stamp) :
    (r.conversation schema stamp).Alike (fun _ => True) (fun _ _ => True)
      (fun a => r.Fits (r.reply a)) (r.conversation32 overflow schema stamp) := by
  cases r
  case moveSubtree f newParentPaths =>
    refine (alike_fetchPaths trivial).bind fun subtree hsubtree => ?_
    split
    · exact .fail _
    · rw [attachPaths32_eq (List.forall_mem_map.mpr hsubtree) h]
      exact (asks_any _).alike
  case findFolder id =>
    exact (alike_fetchOptional trivial).mono fun found hfound f hf =>
      (hfound f hf).elim fun _ => Folder.stored_depth
  case listFolders =>
    exact (alike_fetchAll trivial).mono fun folders hfolders f hf =>
      (hfolders f hf).elim fun _ => Folder.stored_depth
  case findAncestorPaths | findSubtree | listPaths =>
    exact (alike_fetchPaths trivial).mono fun _ hrows => List.forall_mem_map.mpr hrows
  all_goals exact (asks_any _).alike

theorem run_conversation32 {r : Request} (h : r.Sound) (overflow : StorageError)
    (schema : String) (stamp : Stamp) (x : Exchange) :
    (r.conversation32 overflow schema stamp).run Exchange.answer x =
        (r.conversation schema stamp).run Exchange.answer x ∧
      ∀ a x', (r.conversation schema stamp).run Exchange.answer x = (.ok a, x') →
        r.Fits (r.reply a) :=
  (alike_conversation32 h overflow schema stamp).run (fun _ _ _ => rfl)
    fun _ _ _ _ _ _ => trivial

end Request

namespace Backend

variable (overflow : StorageError) (schemaOf : Uuid → String)

/-- Tenants on a database server, with sums in 32 bits. -/
def databaseIn32 : Backend Exchange String :=
  { databaseIn schemaOf with
    perform stamp r schema x :=
      let row : Stamp := ⟨x.spare, stamp.time⟩
      let (answer, x) := (r.conversation32 overflow schema row).run Exchange.answer
        { x with spare := x.spare.next }
      (answer, schema, x) }

theorem perform_databaseIn32 {r : Request} (h : r.Sound) (stamp : Stamp) (schema : String)
    (x : Exchange) :
    (databaseIn32 overflow schemaOf).perform stamp r schema x =
        (databaseIn schemaOf).perform stamp r schema x ∧
      ∀ a, ((databaseIn schemaOf).perform stamp r schema x).1 = .ok a →
        r.Fits (r.reply a) := by
  obtain ⟨hrun, hfits⟩ := Request.run_conversation32 h overflow schema ⟨x.spare, stamp.time⟩
    { x with spare := x.spare.next }
  constructor
  · simp only [databaseIn32, databaseIn, hrun]
  · exact fun a ha => hfits a _ (Prod.ext ha rfl)

theorem serve_databaseIn32 {r : Request} (h : r.Sound) (stamp : Stamp)
    (toError : StorageError → AccessError) (w : Working Exchange String) :
    (databaseIn32 overflow schemaOf).serve stamp toError r w =
        (databaseIn schemaOf).serve stamp toError r w ∧
      ∀ a w', (databaseIn schemaOf).serve stamp toError r w = (.ok a, w') → r.Fits a := by
  obtain ⟨hsame, hfits⟩ := perform_databaseIn32 overflow schemaOf h stamp w.session w.shared
  rw [serve, serve, hsame]
  refine ⟨rfl, fun a w' ha => ?_⟩
  rcases hreply : (databaseIn schemaOf).perform stamp r w.session w.shared with ⟨e | b, x⟩ <;>
    rw [hreply] at ha hfits <;> cases ha
  exact hfits _ rfl

end Backend

/-- A request that is made brings along stored distances only. -/
def Action.Sound : Action → Prop
  | .store r => r.Sound
  | .look _ | .record _ => True

def Action.Fits : (q : Action) → q.Reply → Prop
  | .store r, reply => r.Fits reply
  | .look _, _ | .record _, _ => True

/-- Depths that are written are within the limit. -/
def Action.Shallow : Action → Prop
  | .store (.setFolderDepths depths) => ∀ d ∈ depths, d.2 ≤ maxFolderDepth
  | _ => True

theorem Lookup.sound_request (l : Lookup) : l.request.Sound := by
  cases l <;> trivial

theorem Backend.act_databaseIn32 (overflow : StorageError) (schemaOf : Uuid → String)
    (stamp : Stamp) {q : Action} (h : q.Sound) (w : Working Exchange String) :
    (databaseIn32 overflow schemaOf).act stamp q w = (databaseIn schemaOf).act stamp q w ∧
      ∀ a w', (databaseIn schemaOf).act stamp q w = (.ok a, w') → q.Fits a := by
  cases q with
  | store r => exact serve_databaseIn32 overflow schemaOf h stamp .ofStorage w
  | look l =>
    obtain ⟨hsame, _⟩ := serve_databaseIn32 overflow schemaOf l.sound_request stamp
      (fun e => .resolve (.storage e.message)) w
    rw [act, act, hsame]
    exact ⟨rfl, fun _ _ _ => trivial⟩
  | record e => exact ⟨rfl, fun _ _ _ => trivial⟩

namespace Program

open Dialogue

variable {α : Type} {c : Context} {actor owner id : Uuid} {name : String} {parent : Option Uuid}

theorem Reads.sound {p : Program α} (h : Reads p) : p.Asks Action.Sound :=
  h.mono fun q hq => by
    cases q with
    | store r =>
      cases r
      case moveSubtree => cases hq
      all_goals trivial
    | look l => trivial
    | record e => trivial

variable (overflow : AccessError)

/-- The new folder and the closure rows of its parent, with sums in 32 bits. -/
def placeFolder32 (c : Context) (owner : Uuid) (name : String) :
    Option Uuid → Program (Folder × List FolderPath)
  | none => return (.newRoot c.stamp name owner, [])
  | some parentId => do
    let parent ← requireFolder parentId
    requirePermission c owner parent.resource .folderCreate
    let checked ← ofSum overflow (Folder.newChild32 c.stamp name owner parent)
    let folder ← ofHierarchy checked
    let parentPaths : List FolderPath ← request (.findAncestorPaths parentId)
    return (folder, parentPaths)

/-- Creates a folder, with sums in 32 bits. -/
def createFolder32 (c : Context) (owner : Uuid) (name : String) (parent : Option Uuid) :
    Program Folder := do
  request .lockHierarchy
  let (folder, parentPaths) ← placeFolder32 overflow c owner name parent
  request (.createFolder folder)
  let rows ← ofSum overflow (ancestorPaths32 folder.id parentPaths)
  request (.insertPaths rows)
  createRelationship (.owner folder.owner folder.resource.object)
  match folder.parent with
  | none => return folder
  | some parentId =>
    createRelationship (.parent (.folder parentId) folder.resource.object)
    return folder

/-- Moves a folder, with sums in 32 bits. -/
def moveFolder32 (c : Context) (actor id : Uuid) (newParentId : Option Uuid) :
    Program Folder := do
  request .lockHierarchy
  let folder ← requireFolder id
  let newParent ← requireNewParent newParentId
  requireMove c actor folder newParent
  let descendants : List Uuid ← request (.findDescendants id)
  let subtree : List FolderPath ← request (.findSubtree id)
  let checked ← ofSum overflow
    (folder.validateMove32 newParent descendants (subtreeHeight subtree))
  let depth ← ofHierarchy checked
  let upper ← newParentPaths newParent
  request (.moveSubtree id upper)
  request (.setFolderParent id newParentId)
  let depths ← ofSum overflow (movedDepths32 depth subtree)
  request (.setFolderDepths depths)
  request (.setParent folder.resource.object (newParentId.map Subject.folder))
  record (.folderMoved c.tenant id newParentId actor subtree.length)
  requireFolder id

theorem alike_request {r : Request} (h : r.Sound) :
    (request r).Alike Action.Sound Action.Fits r.Fits (request r) :=
  alike_query (q := Action.store r) h

theorem alike_request_bind {r : Request} {f g : r.Reply → Program α} {U : α → Prop}
    (h : r.Sound) (hf : ∀ a, r.Fits a → (f a).Alike Action.Sound Action.Fits U (g a)) :
    (request r >>= f).Alike Action.Sound Action.Fits U (request r >>= g) :=
  (alike_request h).bind hf

theorem sound_createRelationship (t : Tuple) : (createRelationship t).Asks Action.Sound :=
  (asks_query (q := Action.store (.createRelationship t)) trivial).bind fun _ => asks_pure _

theorem alike_requireFolder (id : Uuid) : (requireFolder id).Alike Action.Sound Action.Fits
    (fun f => Stored f.depth) (requireFolder id) := by
  refine alike_request_bind trivial fun found hfound => ?_
  cases found with
  | none => exact .fail _
  | some f => exact alike_pure (hfound f rfl)

theorem alike_requireNewParent (parent : Option Uuid) :
    (requireNewParent parent).Alike Action.Sound Action.Fits
      (fun found => ∀ p ∈ found, Stored p.depth) (requireNewParent parent) := by
  cases parent with
  | none => exact alike_pure (by simp)
  | some id => exact (alike_requireFolder id).bind fun f hf => alike_pure (by simpa using hf)

theorem alike_newParentPaths (newParent : Option Folder) :
    (newParentPaths newParent).Alike Action.Sound Action.Fits
      (fun paths => ∀ p ∈ paths, Stored p.length) (newParentPaths newParent) := by
  cases newParent with
  | none => exact alike_pure (by simp)
  | some p => exact alike_request (r := .findAncestorPaths p.id) trivial

theorem alike_ofHierarchy (x : Except HierarchyError α) :
    (ofHierarchy x).Alike Action.Sound Action.Fits (fun a => x = .ok a) (ofHierarchy x) := by
  cases x with
  | ok a => exact .done rfl
  | error e => exact .fail _

theorem alike_placeFolder (parent : Option Uuid) :
    (placeFolder c owner name parent).Alike Action.Sound Action.Fits
      (fun placed => ∀ p ∈ placed.2, Stored p.length)
      (placeFolder32 overflow c owner name parent) := by
  cases parent with
  | none => exact alike_pure (by simp)
  | some id =>
    refine (alike_requireFolder id).bind fun f hf => ?_
    refine (consults_requirePermission ..).reads.sound.alike.bind fun _ _ => ?_
    rw [Folder.newChild32_eq hf]
    refine (alike_ofHierarchy _).bind fun folder _ => ?_
    exact alike_request_bind trivial fun paths hpaths => alike_pure hpaths

theorem alike_createFolder : (createFolder c owner name parent).Alike Action.Sound Action.Fits
    (fun _ => True) (createFolder32 overflow c owner name parent) := by
  refine alike_request_bind trivial fun _ _ => ?_
  refine (alike_placeFolder overflow parent).bind fun (folder, paths) hpaths => ?_
  refine alike_request_bind trivial fun _ _ => ?_
  rw [ancestorPaths32_eq hpaths]
  refine alike_request_bind trivial fun _ _ => Asks.alike ?_
  refine (sound_createRelationship _).bind fun _ => ?_
  split
  · exact asks_pure _
  · exact (sound_createRelationship _).bind fun _ => asks_pure _

theorem alike_moveFolder : (moveFolder c actor id parent).Alike Action.Sound Action.Fits
    (fun _ => True) (moveFolder32 overflow c actor id parent) := by
  refine alike_request_bind trivial fun _ _ => ?_
  refine (alike_requireFolder id).bind fun folder _ => ?_
  refine (alike_requireNewParent parent).bind fun newParent hparent => ?_
  refine (consults_requireMove ..).reads.sound.alike.bind fun _ _ => ?_
  refine alike_request_bind trivial fun descendants _ => ?_
  refine alike_request_bind trivial fun subtree hsubtree => ?_
  rw [Folder.validateMove32_eq hparent (stored_subtreeHeight hsubtree)]
  refine (alike_ofHierarchy _).bind fun depth hdepth => ?_
  refine (alike_newParentPaths newParent).bind fun upper hupper => ?_
  refine alike_request_bind hupper fun _ _ => ?_
  refine alike_request_bind trivial fun _ _ => ?_
  rw [movedDepths32_eq (Folder.validateMove_bounds hdepth)]
  refine alike_request_bind trivial fun _ _ => ?_
  refine alike_request_bind trivial fun _ _ => ?_
  refine (consults_record _).reads.sound.alike.bind fun _ _ => ?_
  exact (reads_requireFolder id).sound.alike

theorem Reads.shallow {p : Program α} (h : Reads p) : p.Asks Action.Shallow :=
  h.mono fun q hq => by
    cases q with
    | store r =>
      cases r
      case setFolderDepths => cases hq
      all_goals trivial
    | look l => trivial
    | record e => trivial

theorem shallow_request_bind {r : Request} {f : r.Reply → Program α}
    (h : (Action.store r).Shallow) (hf : ∀ a, (f a).Asks Action.Shallow) :
    (request r >>= f).Asks Action.Shallow :=
  (asks_query (q := Action.store r) h).bind hf

/-- Whatever the replies are, the depths that a move writes have passed its check. -/
theorem shallow_moveFolder : (moveFolder c actor id parent).Asks Action.Shallow := by
  refine (reads_request rfl).shallow.bind fun _ => ?_
  refine (reads_requireFolder id).shallow.bind fun folder => ?_
  refine (reads_requireNewParent parent).shallow.bind fun newParent => ?_
  refine (consults_requireMove ..).reads.shallow.bind fun _ => ?_
  refine (reads_request rfl).shallow.bind fun descendants => ?_
  refine (reads_request rfl).shallow.bind fun subtree => ?_
  cases hdepth : folder.validateMove newParent descendants (subtreeHeight subtree) with
  | error e => exact asks_fail _
  | ok depth =>
    refine (reads_newParentPaths newParent).shallow.bind fun upper => ?_
    refine shallow_request_bind trivial fun _ => ?_
    refine shallow_request_bind trivial fun _ => ?_
    refine shallow_request_bind ?_ fun _ => ?_
    · intro d hd
      obtain ⟨p, hp, rfl⟩ := List.mem_map.mp hd
      exact Folder.validateMove_bounds hdepth p hp
    · refine shallow_request_bind trivial fun _ => ?_
      exact (consults_record _).reads.shallow.bind fun _ => (reads_requireFolder id).shallow

end Program

/-- What is added up in creating and moving folders stays within 32 bits, for all depths and
distances that can be read from stored columns. -/
structure SumsFit : Prop where
  stored (n : Nat) : Stored n ↔ n < 2 ^ 31
  sum (m n k : Nat) : sum32 m n = some k ↔ m + n = k ∧ k < 2 ^ 32
  newChild_fits (stamp : Stamp) (name : String) (owner : Uuid) {parent : Folder} :
    Stored parent.depth →
      Folder.newChild32 stamp name owner parent = some (Folder.newChild stamp name owner parent)
  height_stored {subtree : List FolderPath} :
    (∀ p ∈ subtree, Stored p.length) → Stored (subtreeHeight subtree)
  validateMove_fits (f : Folder) {newParent : Option Folder} (descendants : List Uuid)
    {height : Nat} :
    (∀ p ∈ newParent, Stored p.depth) → Stored height →
      f.validateMove32 newParent descendants height =
        some (f.validateMove newParent descendants height)
  ancestorPaths_fits (folder : Uuid) {parentPaths : List FolderPath} :
    (∀ p ∈ parentPaths, Stored p.length) →
      ancestorPaths32 folder parentPaths = some (ancestorPaths folder parentPaths)
  attachPaths_fits {subtree newParentPaths : List FolderPath} :
    (∀ p ∈ subtree, Stored p.length) → (∀ p ∈ newParentPaths, Stored p.length) →
      attachPaths32 subtree newParentPaths = some (attachPaths subtree newParentPaths)
  /-- Once a move is allowed for a subtree, its distances may be anything. -/
  movedDepths_fit {f : Folder} {newParent : Option Folder} {descendants : List Uuid}
    {subtree : List FolderPath} {depth : Nat} :
    f.validateMove newParent descendants (subtreeHeight subtree) = .ok depth →
      movedDepths32 depth subtree =
        some (subtree.map fun p => (p.descendant, depth + p.length))
  depths_shallow (c : Context) (actor id : Uuid) (parent : Option Uuid) :
    (Program.moveFolder c actor id parent).Asks Action.Shallow
  /-- Whatever error an overflow would end in, and whatever the server replies, it makes no
  difference to a command. -/
  createFolder_fits (overflow : AccessError) (overflow' : StorageError) (schemaOf : Uuid → String)
    (c : Context) (owner : Uuid) (name : String) (parent : Option Uuid) (stamp : Stamp)
    (schema : String) (x : Exchange) :
    (Backend.databaseIn32 overflow' schemaOf).runIn stamp
        (Program.createFolder32 overflow c owner name parent) schema x =
      (Backend.databaseIn schemaOf).runIn stamp (Program.createFolder c owner name parent)
        schema x
  moveFolder_fits (overflow : AccessError) (overflow' : StorageError) (schemaOf : Uuid → String)
    (c : Context) (actor id : Uuid) (parent : Option Uuid) (stamp : Stamp) (schema : String)
    (x : Exchange) :
    (Backend.databaseIn32 overflow' schemaOf).runIn stamp
        (Program.moveFolder32 overflow c actor id parent) schema x =
      (Backend.databaseIn schemaOf).runIn stamp (Program.moveFolder c actor id parent) schema x

/-- Programs that are alike on stored numbers run alike on a database server, whether sums are in
32 bits or not. -/
theorem Backend.runIn_databaseIn32 {α : Type} {p p' : Program α} {U : α → Prop}
    (h : p.Alike Action.Sound Action.Fits U p') (overflow : StorageError)
    (schemaOf : Uuid → String) (stamp : Stamp) (schema : String) (x : Exchange) :
    (databaseIn32 overflow schemaOf).runIn stamp p' schema x =
      (databaseIn schemaOf).runIn stamp p schema x :=
  (h.run (fun _ w hq => (act_databaseIn32 overflow schemaOf stamp hq w).1)
    fun _ w a w' hq ha => (act_databaseIn32 overflow schemaOf stamp hq w).2 a w' ha).1

theorem depth_sums_fit : SumsFit where
  stored _ := stored_iff
  sum _ _ _ := sum32_eq_some_iff
  newChild_fits _ _ _ _ := Folder.newChild32_eq
  height_stored := stored_subtreeHeight
  validateMove_fits _ _ _ _ := Folder.validateMove32_eq
  ancestorPaths_fits folder _ h := ancestorPaths32_eq h folder
  attachPaths_fits := attachPaths32_eq
  movedDepths_fit h := movedDepths32_eq (Folder.validateMove_bounds h)
  depths_shallow _ _ _ _ := Program.shallow_moveFolder
  createFolder_fits overflow overflow' schemaOf _ _ _ _ := Backend.runIn_databaseIn32
    (Program.alike_createFolder overflow) overflow' schemaOf
  moveFolder_fits overflow overflow' schemaOf _ _ _ _ := Backend.runIn_databaseIn32
    (Program.alike_moveFolder overflow) overflow' schemaOf

end DriveAccess
