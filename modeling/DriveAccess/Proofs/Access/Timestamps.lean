import DriveAccess.Proofs.Access.Reads
/-!
Commands under different clocks: what they answer, what they make of the tables and what they put
on record differs in timestamps alone.
-/
namespace DriveAccess

variable {α β γ δ : Type} {stamp : Stamp} {time : Instant}

def AuditEvent.timeless : AuditEvent → AuditEvent
  | grantCreated tenant g => grantCreated tenant g.timeless
  | grantRevoked tenant g user => grantRevoked tenant g.timeless user
  | e => e

/-- Sessions at work on tables that differ in timestamps alone, with records that do as well. -/
structure Working.Alike (w w' : Working Stores TenantSession) : Prop where
  tables : w.session.session.tables.timeless = w'.session.session.tables.timeless
  audit : w.audit.map AuditEvent.timeless = w'.audit.map AuditEvent.timeless

/-- The same error, or two values that belong together. -/
inductive Matches {ε : Type} (R : α → β → Prop) : Except ε α → Except ε β → Prop
  | ok {a : α} {b : β} (h : R a b) : Matches R (.ok a) (.ok b)
  | error (e : ε) : Matches R (.error e) (.error e)

theorem Matches.of_eq {ε : Type} {x y : Except ε α} (h : x = y) : Matches Eq x y := by
  subst h
  cases x with
  | ok a => exact .ok rfl
  | error e => exact .error e

theorem Matches.of_map {ε : Type} {f : α → β} {x y : Except ε α} (h : x.map f = y.map f) :
    Matches (fun a b => f a = f b) x y := by
  cases x with
  | error e =>
    cases y with
    | error e' =>
      obtain rfl : e = e' := Except.error.inj h
      exact .error e
    | ok b => cases h
  | ok a =>
    cases y with
    | error e' => cases h
    | ok b => exact .ok (Except.ok.inj h)

theorem Matches.isOk_eq {ε : Type} {R : α → β → Prop} {x : Except ε α} {y : Except ε β}
    (h : Matches R x y) : x.isOk = y.isOk := by
  cases h <;> rfl

theorem Matches.map_eq {ε : Type} {f : α → β} {x y : Except ε α}
    (h : Matches (fun a b => f a = f b) x y) : x.map f = y.map f := by
  cases h with
  | ok hab => exact congrArg Except.ok hab
  | error e => rfl

theorem Matches.mapError {ε ε' : Type} {R : α → β → Prop} {x : Except ε α} {y : Except ε β}
    (h : Matches R x y) (f : ε → ε') : Matches R (x.mapError f) (y.mapError f) := by
  cases h with
  | ok hab => exact .ok hab
  | error e => exact .error _

/-- Results alike of a search find both something or both nothing. -/
theorem none_or_some_of_map {f : α → β} {x y : Option α} (h : x.map f = y.map f) :
    (x = none ∧ y = none) ∨ ∃ a b, x = some a ∧ y = some b ∧ f a = f b := by
  cases x with
  | none =>
    cases y with
    | none => exact .inl ⟨rfl, rfl⟩
    | some b => cases h
  | some a =>
    cases y with
    | none => cases h
    | some b => exact .inr ⟨a, b, rfl, rfl, Option.some.inj h⟩

/-- Actions that have nothing to do with timestamps. -/
def Action.undated : Action → Bool
  | store r => !r.dated
  | look _ | record _ => true

/-- The resolver sees no timestamps. -/
theorem Lookup.read_timeless (l : Lookup) (a : l.request.Reply) :
    l.read (l.request.timeless a) = l.read a := by
  cases l with
  | rolesGranted r kind grantees => exact List.map_map
  | _ => rfl

theorem Lookup.request_not_timed (l : Lookup) : l.request.timed = false := by
  cases l <;> rfl

/-- The same surroundings at another time. -/
abbrev Context.withTime (c : Context) (time : Instant) : Context :=
  { c with stamp := c.stamp.withTime time }

theorem Folder.validateMove_timeless (f : Folder) (x : Option Folder) (descendants : List Uuid)
    (height : Nat) : f.timeless.validateMove (x.map timeless) descendants height =
      f.validateMove x descendants height := by
  cases x with
  | none => rfl
  | some p =>
    have hkeep : (timeless p).id = p.id ∧ (timeless f).id = f.id ∧ (timeless p).depth = p.depth :=
      ⟨rfl, rfl, rfl⟩
    by_cases hbelow : p.id = f.id ∨ p.id ∈ descendants <;>
      simp [validateMove, Option.filter_some, hkeep, hbelow]

namespace Program

open Dialogue Backend

/-- Run at two times on alike sessions, the programs end alike. -/
def Agrees (stamp : Stamp) (time : Instant) (R : α → β → Prop) (p : Program α) (q : Program β) :
    Prop :=
  ∀ w w' : Working Stores TenantSession, w.Alike w' →
    Matches R (p.run (memory.act stamp) w).1 (q.run (memory.act (stamp.withTime time)) w').1 ∧
      (p.run (memory.act stamp) w).2.Alike (q.run (memory.act (stamp.withTime time)) w').2

variable {R : α → β → Prop} {S : γ → δ → Prop} {p : Program α} {q : Program β}
  {f : α → Program γ} {g : β → Program δ}

theorem agrees_pure {a : α} {b : β} (h : R a b) :
    Agrees stamp time R (pure a : Program α) (pure b : Program β) :=
  fun _ _ hw => ⟨.ok h, hw⟩

theorem agrees_fail (e : AccessError) :
    Agrees stamp time R (.fail e : Program α) (.fail e : Program β) :=
  fun _ _ hw => ⟨.error e, hw⟩

theorem Agrees.bind (h : Agrees stamp time R p q)
    (hf : ∀ a b, R a b → Agrees stamp time S (f a) (g b)) :
    Agrees stamp time S (p >>= f) (q >>= g) := by
  intro w w' hw
  obtain ⟨hm, hnext⟩ := h w w' hw
  rw [run_bind, run_bind]
  rcases hp : p.run (memory.act stamp) w with ⟨x, u⟩
  rcases hq : q.run (memory.act (stamp.withTime time)) w' with ⟨y, u'⟩
  rw [hp, hq] at hm hnext
  cases hm with
  | ok hab => exact hf _ _ hab u u' hnext
  | error e => exact ⟨.error e, hnext⟩

theorem agrees_record {e e' : AuditEvent} (h : e.timeless = e'.timeless) :
    Agrees stamp time Eq (record e) (record e') := by
  intro w w' hw
  exact ⟨.ok rfl, hw.tables, by simp [record, query, Dialogue.run, act, hw.audit, h]⟩

theorem agrees_request_of (r r' : Request) {R : r.Reply → r'.Reply → Prop}
    (h : ∀ s u : Session, s.tables.timeless = u.tables.timeless →
      let (answer, s) := s.perform stamp r
      let (answer', u) := u.perform (stamp.withTime time) r'
      Matches R (answer.map r.reply) (answer'.map r'.reply) ∧
        s.tables.timeless = u.tables.timeless) :
    Agrees stamp time R (request r) (request r') := by
  intro w w' hw
  obtain ⟨hreply, htables⟩ := h w.session.session w'.session.session hw.tables
  have hrun {r : Request} {stamp : Stamp} {w : Working Stores TenantSession} :
      (request r).run (memory.act stamp) w = memory.act stamp (.store r) w := by
    simp only [request, query, Dialogue.run]
    rcases memory.act stamp (.store r) w with ⟨e | a, u⟩ <;> rfl
  rw [hrun, hrun]
  exact ⟨hreply.mapError AccessError.ofStorage, htables, hw.audit⟩

theorem agrees_request {r : Request} (h : r.timed = false) :
    Agrees stamp time (fun a b => r.timeless a = r.timeless b) (request r) (request r) :=
  agrees_request_of r r fun _ _ ht => by
    obtain ⟨hreply, htables⟩ := Session.perform_alike stamp time h ht
    exact ⟨.of_map hreply, htables⟩

theorem act_alike {a : Action} (h : a.undated) {w w' : Working Stores TenantSession}
    (hw : w.Alike w') : (memory.act stamp a w).1 = (memory.act (stamp.withTime time) a w').1 ∧
      (memory.act stamp a w).2.Alike (memory.act (stamp.withTime time) a w').2 := by
  cases a with
  | record e => exact ⟨rfl, hw.tables, by simp [act, hw.audit]⟩
  | look l =>
    obtain ⟨hreply, htables⟩ := Session.perform_alike stamp time
      l.request_not_timed hw.tables
    have hread (x : Except StorageError l.request.Reply) (f : StorageError → AccessError) :
        (x.mapError f).map l.read = ((x.map l.request.timeless).mapError f).map l.read := by
      cases x with
      | ok a => exact congrArg Except.ok (l.read_timeless a).symm
      | error e => rfl
    refine ⟨?_, htables, hw.audit⟩
    simp only [act, serve, memory]
    rw [hread, hreply, ← hread]
  | store r =>
    have hr : r.dated = false := by simpa [Action.undated] using h
    obtain ⟨hreply, htables⟩ := Session.perform_alike stamp time
      (Request.timed_of_not_dated hr) hw.tables
    have hsame : r.timeless = id := funext (Request.timeless_of_not_dated hr)
    rw [hsame, Except.map_id] at hreply
    exact ⟨congrArg (Except.mapError AccessError.ofStorage) hreply, htables, hw.audit⟩

/-- Programs that have nothing to do with timestamps. -/
theorem agrees_undated (h : p.Asks (·.undated)) : Agrees stamp time Eq p p := by
  intro w w' hw
  obtain ⟨hreply, hnext⟩ := h.run_related Working.Alike (fun _ _ _ ha hw => act_alike ha hw) hw
  exact ⟨.of_eq hreply, hnext⟩

theorem Agrees.next {f g : α → Program β} {R : β → β → Prop} (h : p.Asks (·.undated))
    (hf : ∀ a, Agrees stamp time R (f a) (g a)) : Agrees stamp time R (p >>= f) (p >>= g) := by
  apply (agrees_undated h).bind
  intro a b hab
  subst hab
  exact hf a

theorem Consults.undated (h : Consults p) : p.Asks (·.undated) :=
  h.mono fun q hq => by
    cases q with
    | store r => exact (Bool.and_eq_true_iff.mp hq).2
    | look l => rfl
    | record e => rfl

theorem undated_request {r : Request} (h : !r.dated) :
    (request r).Asks (fun a : Action => a.undated) :=
  asks_query (q := Action.store r) h

theorem undated_createRelationship (t : Tuple) :
    (createRelationship t).Asks (fun a : Action => a.undated) :=
  (undated_request rfl).bind fun _ => asks_pure _

theorem undated_detachFiles (files : List Uuid) :
    (detachFiles files).Asks (fun a : Action => a.undated) := by
  induction files with
  | nil => exact asks_pure _
  | cons x rest ih =>
    apply (undated_request rfl).bind
    intro _
    exact (undated_request rfl).bind fun _ => ih

theorem undated_detachFolders (folders : List Uuid) :
    (detachFolders folders).Asks (fun a : Action => a.undated) := by
  induction folders with
  | nil => exact asks_pure _
  | cons x rest ih =>
    apply (undated_request rfl).bind
    intro _
    apply (undated_request rfl).bind
    intro _
    exact (undated_request rfl).bind fun _ => ih

theorem agrees_requireFolder (id : Uuid) :
    Agrees stamp time (fun f g => f.timeless = g.timeless) (requireFolder id)
      (requireFolder id) := by
  apply (agrees_request rfl).bind
  intro found found' h
  obtain ⟨rfl, rfl⟩ | ⟨a, b, rfl, rfl, hab⟩ := none_or_some_of_map h
  · exact agrees_fail _
  · exact agrees_pure hab

theorem agrees_requireGrant (id : Uuid) :
    Agrees stamp time (fun g k => g.timeless = k.timeless) (requireGrant id) (requireGrant id) := by
  apply (agrees_request rfl).bind
  intro found found' h
  obtain ⟨rfl, rfl⟩ | ⟨a, b, rfl, rfl, hab⟩ := none_or_some_of_map h
  · exact agrees_fail _
  · exact agrees_pure hab

variable {c : Context}

theorem agrees_placeFolder (owner : Uuid) (name : String) (parent : Option Uuid) :
    Agrees stamp time (fun x y => x.1.timeless = y.1.timeless ∧ x.2 = y.2)
      (placeFolder c owner name parent) (placeFolder (c.withTime time) owner name parent) := by
  cases parent with
  | none => exact agrees_pure ⟨rfl, rfl⟩
  | some id =>
    apply (agrees_requireFolder id).bind
    intro p q hpq
    rw [Folder.eq_of_timeless hpq]
    apply Agrees.next (consults_requirePermission ..).undated
    intro _
    have hnew : Agrees stamp time (fun f g : Folder => f.timeless = g.timeless)
        (ofHierarchy (Folder.newChild c.stamp name owner q))
        (ofHierarchy (Folder.newChild (c.withTime time).stamp name owner q)) := by
      simp only [Folder.newChild]
      split
      · exact agrees_fail _
      · exact agrees_pure rfl
    apply hnew.bind
    intro f g hfg
    exact Agrees.next (undated_request rfl) fun rows => agrees_pure ⟨hfg, rfl⟩

theorem agrees_createFolder (owner : Uuid) (name : String) (parent : Option Uuid) :
    Agrees stamp time (fun f g => f.timeless = g.timeless)
      (createFolder c owner name parent) (createFolder (c.withTime time) owner name parent) := by
  apply Agrees.next (undated_request rfl)
  intro _
  apply (agrees_placeFolder owner name parent).bind
  intro x y hxy
  obtain ⟨f, rows⟩ := x
  obtain ⟨g, rows'⟩ := y
  obtain ⟨hfg, rfl⟩ : f.timeless = g.timeless ∧ rows = rows' := hxy
  have hinsert : Agrees stamp time Eq (request (.createFolder f)) (request (.createFolder g)) :=
    agrees_request_of (.createFolder f) (.createFolder g) fun s u ht => by
      obtain ⟨hreply, htables⟩ := Session.createFolder_alike stamp (stamp.withTime time) hfg ht
      exact ⟨.of_eq (congrArg (Except.map (Request.createFolder f).reply) hreply), htables⟩
  apply hinsert.bind
  intro _ _ _
  rw [Folder.eq_of_timeless hfg]
  apply Agrees.next (undated_request rfl)
  intro _
  apply Agrees.next (undated_createRelationship _)
  intro _
  dsimp only
  cases hparent : g.parent with
  | none => exact agrees_pure (by simp [Folder.timeless, hparent])
  | some p =>
    apply Agrees.next (undated_createRelationship _)
    intro _
    exact agrees_pure (by simp [Folder.timeless, hparent])

theorem agrees_requireNewParent (parent : Option Uuid) :
    Agrees stamp time (fun x y => x.map Folder.timeless = y.map Folder.timeless)
      (requireNewParent parent) (requireNewParent parent) := by
  cases parent with
  | none => exact agrees_pure rfl
  | some id =>
    exact (agrees_requireFolder id).bind fun f g hfg => agrees_pure (congrArg some hfg)

theorem agrees_requireMove (actor : Uuid) {f g : Folder} {x y : Option Folder}
    (hfg : f.timeless = g.timeless) (hxy : x.map Folder.timeless = y.map Folder.timeless) :
    Agrees stamp time Eq (requireMove c actor f x) (requireMove (c.withTime time) actor g y) := by
  rw [Folder.eq_of_timeless hfg]
  apply Agrees.next (consults_requirePermission ..).undated
  intro _
  obtain ⟨rfl, rfl⟩ | ⟨p, q, rfl, rfl, hpq⟩ := none_or_some_of_map hxy
  · exact agrees_undated (consults_requireOwner ..).undated
  · rw [Folder.eq_of_timeless hpq]
    exact agrees_undated (consults_requirePermission ..).undated

theorem agrees_newParentPaths {x y : Option Folder}
    (hxy : x.map Folder.timeless = y.map Folder.timeless) :
    Agrees stamp time Eq (newParentPaths x) (newParentPaths y) := by
  obtain ⟨rfl, rfl⟩ | ⟨p, q, rfl, rfl, hpq⟩ := none_or_some_of_map hxy
  · exact agrees_pure rfl
  · rw [Folder.eq_of_timeless hpq]
    exact agrees_undated (undated_request rfl)

theorem agrees_moveFolder (actor id : Uuid) (newParent : Option Uuid) :
    Agrees stamp time (fun f g => f.timeless = g.timeless)
      (moveFolder c actor id newParent) (moveFolder (c.withTime time) actor id newParent) := by
  apply Agrees.next (undated_request rfl)
  intro _
  apply (agrees_requireFolder id).bind
  intro f g hfg
  apply (agrees_requireNewParent newParent).bind
  intro x y hxy
  apply (agrees_requireMove actor hfg hxy).bind
  intro _ _ _
  apply Agrees.next (undated_request rfl)
  intro descendants
  apply Agrees.next (undated_request rfl)
  intro subtree
  rw [← f.validateMove_timeless x, hfg, hxy, g.validateMove_timeless y]
  apply Agrees.next (consults_ofHierarchy _).undated
  intro depth
  apply (agrees_newParentPaths hxy).bind
  intro rows _ hrows
  subst hrows
  rw [Folder.eq_of_timeless hfg]
  apply Agrees.next (undated_request rfl)
  intro _
  apply Agrees.next (undated_request rfl)
  intro _
  apply Agrees.next (undated_request rfl)
  intro _
  apply Agrees.next (undated_request rfl)
  intro _
  apply Agrees.next (consults_record _).undated
  intro _
  exact agrees_requireFolder id

theorem agrees_deleteFolder (actor id : Uuid) :
    Agrees stamp time Eq (deleteFolder c actor id) (deleteFolder (c.withTime time) actor id) := by
  apply Agrees.next (undated_request rfl)
  intro _
  apply (agrees_requireFolder id).bind
  intro f g hfg
  rw [Folder.eq_of_timeless hfg]
  apply Agrees.next (consults_requirePermission ..).undated
  intro _
  apply Agrees.next (undated_request rfl)
  intro folders
  apply Agrees.next (consults_filesIn folders).undated
  intro files
  apply Agrees.next (undated_detachFiles files)
  intro _
  apply Agrees.next (undated_detachFolders folders)
  intro _
  apply Agrees.next (undated_request rfl)
  intro _
  exact Agrees.next (undated_request rfl) fun _ => agrees_pure rfl

theorem agrees_grantRole (r : Resource) (grantee : Grantee) (role : Role) (grantedBy : Uuid) :
    Agrees stamp time (fun g k => g.timeless = k.timeless) (grantRole c r grantee role grantedBy)
      (grantRole (c.withTime time) r grantee role grantedBy) := by
  apply Agrees.next (consults_ofExcept _).undated
  intro _
  apply Agrees.next (consults_requireResource r).undated
  intro _
  apply Agrees.next (consults_requireGranter ..).undated
  intro _
  apply Agrees.next (undated_request rfl)
  intro held
  dsimp only
  split
  · exact agrees_fail _
  · let g : Grant := ⟨c.stamp.id, r, grantee, role, grantedBy, c.stamp.time⟩
    let k : Grant := { g with grantedAt := time }
    have hinsert : Agrees stamp time Eq (request (.createGrant g)) (request (.createGrant k)) :=
      agrees_request_of (.createGrant g) (.createGrant k) fun s u ht => by
        have hgk : g.timeless = k.timeless := rfl
        obtain ⟨hreply, htables⟩ :=
          Session.createGrant_alike stamp (stamp.withTime time) hgk ht
        exact ⟨.of_eq (congrArg (Except.map (Request.createGrant g).reply) hreply), htables⟩
    apply hinsert.bind
    intro _ _ _
    refine (agrees_record ?_).bind fun _ _ _ => agrees_pure ?_
    · rfl
    · rfl

theorem agrees_revokeGrant (id revokedBy : Uuid) :
    Agrees stamp time (fun g k => g.timeless = k.timeless) (revokeGrant c id revokedBy)
      (revokeGrant (c.withTime time) id revokedBy) := by
  apply (agrees_requireGrant id).bind
  intro g k hgk
  rw [Grant.eq_of_timeless hgk]
  dsimp only
  split
  · exact agrees_fail _
  · apply Agrees.next (consults_requireGranter ..).undated
    intro _
    apply Agrees.next (undated_request rfl)
    intro removed
    split
    · refine (agrees_record ?_).bind fun _ _ _ => agrees_pure ?_
      · rfl
      · rfl
    · exact agrees_fail _

theorem agrees_transferOwnership (actor : Uuid) (r : Resource) (newOwner : Uuid) :
    Agrees stamp time Eq (transferOwnership c actor r newOwner)
      (transferOwnership (c.withTime time) actor r newOwner) := by
  apply Agrees.next (consults_requireResource r).undated
  intro owners
  apply Agrees.next (consults_requireOwner ..).undated
  intro _
  split
  · exact agrees_fail _
  · apply Agrees.next (undated_request rfl)
    intro _
    refine Agrees.next ?_ fun _ => agrees_undated (consults_record _).undated
    rw [recordOwner]
    split
    · exact undated_request rfl
    · exact asks_pure _

theorem agrees_registerFile (owner file folder : Uuid) :
    Agrees stamp time Eq (registerFile c owner file folder)
      (registerFile (c.withTime time) owner file folder) := by
  apply (agrees_requireFolder folder).bind
  intro f g hfg
  rw [Folder.eq_of_timeless hfg]
  apply Agrees.next (consults_requirePermission ..).undated
  intro _
  apply Agrees.next (consults_isRegistered file).undated
  intro registered
  split
  · exact agrees_fail _
  · apply Agrees.next (undated_createRelationship _)
    intro _
    exact Agrees.next (undated_createRelationship _) fun _ => agrees_pure rfl

theorem agrees_deleteFile (actor file : Uuid) :
    Agrees stamp time Eq (deleteFile c actor file) (deleteFile (c.withTime time) actor file) := by
  apply Agrees.next (consults_requireResource _).undated
  intro _
  apply Agrees.next (consults_requirePermission ..).undated
  intro _
  exact agrees_undated (undated_detachFiles [file])

theorem agrees_addGroupMember (group user : Uuid) (role : MembershipRole) :
    Agrees stamp time Eq (addGroupMember group user role) (addGroupMember group user role) := by
  apply Agrees.next (undated_request rfl)
  intro _
  exact Agrees.next (undated_createRelationship _) fun _ => agrees_pure rfl

theorem agrees_removeGroupMember (group user : Uuid) :
    Agrees stamp time Eq (removeGroupMember group user) (removeGroupMember group user) := by
  apply Agrees.next (undated_request rfl)
  intro removed
  split
  · exact Agrees.next (undated_request rfl) fun _ => agrees_pure rfl
  · exact agrees_fail _

end Program

namespace Command

/-- Commands that change something. -/
def alters : Command → Bool
  | checkAccess _ _ _ | collectPermissions _ _ | effectiveRole _ _ | canGrantRole _ _ _
  | authorizeShare _ _ | isInSubtree _ _ | listGrants _ | verifyHierarchy => false
  | _ => true

/-- An answer without the timestamps in it. -/
def timeless : (command : Command) → command.Answer → command.Answer
  | grantRole _ _ _ _, g | revokeGrant _ _, g => g.timeless
  | createFolder _ _ _, f | moveFolder _ _ _, f => f.timeless
  | listGrants _, gs => gs.map Grant.timeless
  | _, answer => answer

open Program in
theorem agrees (stamp : Stamp) (time : Instant) (c : Context) {command : Command}
    (h : command.alters) : Agrees stamp time (fun a b => command.timeless a = command.timeless b)
      (command.body c) (command.body (c.withTime time)) := by
  cases command with
  | grantRole r grantee role grantedBy => exact agrees_grantRole r grantee role grantedBy
  | revokeGrant grant revokedBy => exact agrees_revokeGrant grant revokedBy
  | transferOwnership actor r newOwner => exact agrees_transferOwnership actor r newOwner
  | createFolder owner name parent => exact agrees_createFolder owner name parent
  | moveFolder actor folder newParent => exact agrees_moveFolder actor folder newParent
  | deleteFolder actor folder => exact agrees_deleteFolder actor folder
  | registerFile owner file folder => exact agrees_registerFile owner file folder
  | deleteFile actor file => exact agrees_deleteFile actor file
  | addGroupMember group user role => exact agrees_addGroupMember group user role
  | removeGroupMember group user => exact agrees_removeGroupMember group user
  | _ => cases h

/-- Timestamps aside, a command does the same in sessions that agree but for timestamps, at
whatever times it runs. -/
theorem run_alike {c : Context} {command : Command} (h : command.alters)
    {s u : TenantSession} (hs : s.session.tables.timeless = u.session.tables.timeless) :
    Matches (fun a b => command.timeless a = command.timeless b)
        (s.session.run stamp (command.body c)).1
        (u.session.run (stamp.withTime time) (command.body (c.withTime time))).1 ∧
      (s.session.run stamp (command.body c)).2.tables.timeless =
        (u.session.run (stamp.withTime time) (command.body (c.withTime time))).2.tables.timeless ∧
      (Backend.memory.runIn stamp (command.body c) s {}).2.audit.map AuditEvent.timeless =
        (Backend.memory.runIn (stamp.withTime time)
          (command.body (c.withTime time)) u {}).2.audit.map AuditEvent.timeless := by
  obtain ⟨hmatches, htables, haudit⟩ := agrees stamp time c h
    ⟨{}, s, []⟩ ⟨{}, u, []⟩ ⟨hs, rfl⟩
  obtain ⟨houtcome, hsession, _⟩ := Backend.runIn_memory stamp (command.body c) s {}
  obtain ⟨houtcome', hsession', _⟩ :=
    Backend.runIn_memory (stamp.withTime time) (command.body (c.withTime time)) u {}
  rw [Backend.runIn] at houtcome hsession houtcome' hsession'
  rw [houtcome, houtcome'] at hmatches
  rw [hsession, hsession'] at htables
  exact ⟨hmatches, htables, haudit⟩

end Command

end DriveAccess
