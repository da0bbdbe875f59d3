import DriveAccess.Access.Command
import DriveAccess.Proofs.Access.Running
import DriveAccess.Proofs.Storage.Timestamps
/-!
The parts of commands that only read, and what their success tells about the tables.
-/
namespace DriveAccess

/-- The files that lie directly in a folder. -/
def Tables.filesOf (t : Tables) (folder : Uuid) : List Uuid :=
  ((t.objectsOf (.folder folder) .parent).filter (·.kind == .file)).map (·.id)

/-- Actions that leave a session alone and have nothing to do with timestamps. -/
def Action.consults : Action → Bool
  | store r => r.reads && !r.dated
  | look _ | record _ => true

namespace Program

open Dialogue

variable {α : Type} {stamp : Stamp} {s u : Session} {c : Context}

/-- What a read request finds is put in its place. -/
theorem run_bind_read {β : Type} {r : Request} {a : r.Answer} {f : r.Reply → Program β}
    (h : s.perform stamp r = (.ok a, s)) :
    s.run stamp (request r >>= f) = s.run stamp (f (r.reply a)) := by
  apply run_bind_ok
  simp only [request, query, Dialogue.run, Session.answer, h]
  rfl

/-- A program that leaves the session alone. -/
abbrev Reads (p : Program α) : Prop := Asks (·.reads) p

/-- A program that leaves the session alone and sees no timestamps. -/
abbrev Consults (p : Program α) : Prop := Asks (·.consults) p

theorem Consults.reads {p : Program α} (h : Consults p) : Reads p :=
  h.mono fun q hq => by
    cases q with
    | store r => exact (Bool.and_eq_true_iff.mp hq).1
    | look l => rfl
    | record e => rfl

/-- What reads first hands the same session on. -/
theorem Reads.run_bind {β : Type} {p : Program α} {g : α → Program β} {b : β} (hp : Reads p)
    (h : s.run stamp (p >>= g) = (.ok b, u)) :
    ∃ a, s.run stamp p = (.ok a, s) ∧ s.run stamp (g a) = (.ok b, u) := by
  obtain ⟨a, v, ha, hrest⟩ := run_bind_eq_ok h
  have hs := Session.run_reads stamp s hp
  rw [Session.run, ha] at hs
  obtain rfl : v = s := hs
  exact ⟨a, ha, hrest⟩

theorem reads_request {r : Request} (h : r.reads) : Reads (request r) :=
  asks_query (q := Action.store r) h

theorem consults_request {r : Request} (h : r.reads && !r.dated) : Consults (request r) :=
  asks_query (q := Action.store r) h

theorem consults_record (e : AuditEvent) : Consults (record e) :=
  asks_query (q := Action.record e) rfl

theorem consults_resolve (d : Resolution α) : Consults (resolve d) :=
  asks_rephrase (P := fun q : Action => q.consults) (fun _ => rfl) d

theorem consults_ofHierarchy (x : Except HierarchyError α) : Consults (ofHierarchy x) := by
  cases x <;> trivial

theorem consults_ofExcept (x : Except AccessError α) : Consults (Dialogue.ofExcept x) := by
  cases x <;> trivial

theorem consults_deny (d : Denial) : Consults (deny c d : Program α) :=
  (consults_record _).bind fun _ => asks_fail _

theorem consults_requirePermission (user : Uuid) (r : Resource) (p : Permission) :
    Consults (requirePermission c user r p) := by
  apply (consults_resolve _).bind
  intro allowed
  cases allowed
  · exact consults_deny _
  · exact asks_pure _

theorem consults_requireOwner (user : Uuid) (r : Resource) (deed : Deed) :
    Consults (requireOwner c user r deed) := by
  apply (consults_resolve _).bind
  intro allowed
  cases allowed
  · exact consults_deny _
  · exact asks_pure _

theorem consults_requireGranter (user : Uuid) (r : Resource) (role : Role) (deed : Deed) :
    Consults (requireGranter c user r role deed) := by
  apply (consults_resolve _).bind
  intro allowed
  cases allowed
  · exact consults_deny _
  · exact asks_pure _

theorem reads_requireFolder (id : Uuid) : Reads (requireFolder id) := by
  apply (reads_request rfl).bind
  intro found
  cases found
  · exact asks_fail _
  · exact asks_pure _

theorem consults_requireResource (r : Resource) : Consults (requireResource r) := by
  apply (consults_request rfl).bind
  intro subjects
  dsimp only
  split
  · exact asks_fail _
  · exact asks_pure _

theorem reads_requireGrant (id : Uuid) : Reads (requireGrant id) := by
  apply (reads_request rfl).bind
  intro found
  cases found
  · exact asks_fail _
  · exact asks_pure _

theorem reads_placeFolder (owner : Uuid) (name : String) (parent : Option Uuid) :
    Reads (placeFolder c owner name parent) := by
  cases parent with
  | none => exact asks_pure _
  | some id =>
    apply (reads_requireFolder id).bind
    intro f
    apply (consults_requirePermission ..).reads.bind
    intro _
    apply (consults_ofHierarchy _).reads.bind
    intro _
    exact (reads_request rfl).bind fun _ => asks_pure _

theorem reads_requireNewParent (parent : Option Uuid) : Reads (requireNewParent parent) := by
  cases parent with
  | none => exact asks_pure _
  | some id => exact (reads_requireFolder id).bind fun _ => asks_pure _

theorem consults_requireMove (actor : Uuid) (f : Folder) (newParent : Option Folder) :
    Consults (requireMove c actor f newParent) := by
  apply (consults_requirePermission ..).bind
  intro _
  cases newParent with
  | none => exact consults_requireOwner ..
  | some p => exact consults_requirePermission ..

theorem reads_newParentPaths (newParent : Option Folder) : Reads (newParentPaths newParent) := by
  cases newParent with
  | none => exact asks_pure _
  | some p => exact reads_request (r := .findAncestorPaths p.id) rfl

theorem consults_filesIn (folders : List Uuid) : Consults (filesIn folders) := by
  induction folders with
  | nil => exact asks_pure _
  | cons x rest ih =>
    apply (consults_request rfl).bind
    intro _
    exact ih.bind fun _ => asks_pure _

theorem consults_isRegistered (file : Uuid) : Consults (isRegistered file) := by
  apply (consults_request rfl).bind
  intro owners
  split
  · exact (consults_request rfl).bind fun _ => asks_pure _
  · exact asks_pure _

theorem reads_isInSubtree (folder : Uuid) (r : Resource) : Reads (isInSubtree folder r) := by
  apply (reads_request rfl).bind
  intro _
  refine Asks.bind ?_ fun _ => asks_pure _
  obtain ⟨kind, id⟩ := r
  cases kind with
  | folder => exact asks_pure _
  | file => exact (reads_request rfl).bind fun _ => asks_pure _

theorem reads_verifyHierarchy : Reads verifyHierarchy := by
  apply (reads_request rfl).bind
  intro _
  exact (reads_request rfl).bind fun _ => asks_pure _

/-! What success tells. -/

variable {id file : Uuid} {f : Folder}

theorem requireFolder_ok (h : s.run stamp (requireFolder id) = (.ok f, u)) :
    s.tables.folder? id = some f := by
  rw [requireFolder, findFolder, run_bind_read rfl] at h
  cases hf : s.tables.folder? id with
  | none =>
    rw [hf] at h
    cases h
  | some g =>
    rw [hf] at h
    cases h
    rfl

theorem requireNewParent_ok {parent : Option Uuid} {found : Option Folder}
    (h : s.run stamp (requireNewParent parent) = (.ok found, u)) :
    found = parent.bind s.tables.folder? ∧ found.map (·.id) = parent := by
  cases parent with
  | none =>
    cases h
    exact ⟨rfl, rfl⟩
  | some id =>
    obtain ⟨p, v, hp, hrest⟩ := run_bind_eq_ok h
    cases hrest
    have hp := requireFolder_ok hp
    have hid : p.id = id := by simpa using List.find?_some hp
    simp [hp, hid]

theorem ofHierarchy_ok {x : Except HierarchyError α} {a : α}
    (h : s.run stamp (ofHierarchy x) = (.ok a, u)) : x = .ok a := by
  cases x <;> cases h
  rfl

theorem requireResource_ok {r : Resource} {owners : List Uuid}
    (h : s.run stamp (requireResource r) = (.ok owners, u)) :
    s.tables.subjectsOf .owner r.object ≠ [] ∧
      owners = ((s.tables.subjectsOf .owner r.object).filter (·.kind == .user)).map (·.id) := by
  rw [requireResource, run_bind_read rfl] at h
  dsimp only at h
  split at h
  · cases h
  · rename_i hsome
    cases h
    refine ⟨?_, rfl⟩
    intro hnone
    rw [hnone] at hsome
    exact hsome rfl

theorem isRegistered_ok (h : s.run stamp (isRegistered file) = (.ok false, u)) :
    s.tables.subjectsOf .owner (.file file) = [] ∧ s.tables.parentOf (.file file) = none := by
  rw [isRegistered, run_bind_read rfl] at h
  split at h
  · rename_i hnone
    rw [run_bind_read rfl] at h
    have hp : (Except.ok (s.tables.parentOf (.file file)).isSome, s) =
        ((.ok false, u) : Except AccessError Bool × Session) := h
    simp only [Prod.mk.injEq, Except.ok.injEq, Option.isSome_eq_false_iff,
      Option.isNone_iff_eq_none] at hp
    exact ⟨List.isEmpty_iff.mp hnone, hp.1⟩
  · cases h

end Program

end DriveAccess
