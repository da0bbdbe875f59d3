import DriveAccess.Proofs.Access.Announcements
import DriveAccess.Proofs.Access.Mediation
import DriveAccess.Proofs.Server.Failures
/-!
The record of a command mirrors its outcome: one event for a change of authority that succeeds, one
for a denial, and nothing else.
-/
namespace DriveAccess

open Dialogue Program

variable {α β : Type} {stamp : Stamp} {c : Context}

/-! Quiet programs. -/

namespace Program

variable {p : Program α}

theorem Lenient.not_forbidden (h : Lenient p) {w : Working Stores TenantSession} {d : Denial} :
    (p.run (Backend.memory.act stamp) w).1 ≠ .error (.forbidden d) := by
  rw [(Backend.run_memory stamp p w).1]
  exact fun hdenied => h.not_denied ⟨d, hdenied⟩

/-- Puts nothing on record and turns nobody away. -/
structure Quiet (p : Program α) : Prop where
  silent : Silent p
  candid : Candid p
  lenient : Lenient p

/-- What is put together from parts of commands is quiet unless it raises a denial. -/
theorem quiet (h : ∀ {P : {α : Type} → Program α → Prop}, Composes P → P p) (hlenient : Lenient p) :
    Quiet p := ⟨h composes_silent, h composes_candid, hlenient⟩

theorem quiet_request (r : Request) : Quiet (request r) :=
  quiet (fun h => h.request r) (lenient_request r)

theorem Quiet.asks_nothing (h : Quiet p) : p.Asks fun q => q.events = [] := by
  obtain ⟨hsilent, hcandid, hlenient⟩ := h
  induction p with
  | done a => trivial
  | fail e => trivial
  | ask q next ih =>
    refine ⟨?_, fun a => ih a (hsilent.2 a) (hcandid.2 a) (hlenient a)⟩
    cases q with
    | store r => rfl
    | look l => rfl
    | record e =>
      cases e with
      | accessDenied tenant d =>
        have hdenied : Lenient (.fail (.forbidden d) : Program α) :=
          hcandid.1 d rfl () ▸ hlenient ()
        exact absurd rfl hdenied
      | _ => cases hsilent.1 _ (List.mem_singleton_self _)

theorem Quiet.audit (h : Quiet p) {w : Working Stores TenantSession} :
    (p.run (Backend.memory.act stamp) w).2.audit = w.audit := by
  have hlog := course_log (d := p) (s := w) (fun w => w.audit) (fun m => m.1.events)
    (audit_act Backend.memory stamp)
  rw [hlog, List.flatMap_eq_nil_iff.mpr fun m hm => h.asks_nothing.course m hm, List.append_nil]

end Program

/-! What the outcome of a command calls for. -/

/-- What is on record after a command that reports a success as `said`. -/
def recordOf (tenant : Uuid) (said : α → List AuditEvent) :
    Except AccessError α → List AuditEvent
  | .ok a => said a
  | .error (.forbidden d) => [.accessDenied tenant d]
  | .error _ => []

/-- What the resolver is asked before somebody is turned away. -/
def Denial.question (limit : Nat) (d : Denial) : Resolution Bool :=
  match d.deed with
  | .use p => Resolver.hasPermission limit d.user d.resource p
  | .transferOwnership | .moveToRoot => Resolver.isOwner d.user d.resource
  | .grant role | .revoke role => Resolver.canGrantRole limit d.user d.resource role

/-- What the resolver says on the data of a session. -/
def Session.verdict (stamp : Stamp) (limit : Nat) (s : Session) (d : Denial) :
    Except AccessError Bool := (s.run stamp (resolve (d.question limit))).1

/-- A check of authority. -/
def Program.challenge (c : Context) (d : Denial) : Program Unit := do
  if ← resolve (d.question c.maxDepth) then
    return
  deny c d

/-- From a state on, the program puts on record what its outcome calls for, and the denials that it
raises are due. -/
structure Mirrors (stamp : Stamp) (tenant : Uuid) (due : Denial → Prop)
    (said : α → List AuditEvent) (p : Program α) (w : Working Stores TenantSession) : Prop where
  audit : (p.run (Backend.memory.act stamp) w).2.audit =
    w.audit ++ recordOf tenant said (p.run (Backend.memory.act stamp) w).1
  due : ∀ d, (p.run (Backend.memory.act stamp) w).1 = .error (.forbidden d) → due d

section

variable {tenant : Uuid} {due : Denial → Prop} {said : β → List AuditEvent} {p : Program α}
  {f : α → Program β} {w : Working Stores TenantSession} {s : Session}

theorem Mirrors.ok {q : Program β} {b : β} {u : Working Stores TenantSession}
    (hrun : q.run (Backend.memory.act stamp) w = (.ok b, u))
    (haudit : u.audit = w.audit ++ said b) :
    Mirrors stamp tenant due said q w where
  audit := by
    rw [hrun]
    exact haudit
  due d hd := by
    rw [hrun] at hd
    cases hd

theorem Mirrors.done {b : β} (h : said b = []) : Mirrors stamp tenant due said (pure b) w :=
  Mirrors.ok rfl (by rw [h, List.append_nil])

theorem Mirrors.fail {e : AccessError} (h : e.kind ≠ .forbidden) :
    Mirrors stamp tenant due said (.fail e) w where
  audit := by
    cases e with
    | forbidden d => exact absurd rfl h
    | _ => exact (List.append_nil _).symm
  due d hd := by
    cases hd
    exact absurd rfl h

theorem Program.Quiet.mirrors (h : Quiet p) : Mirrors stamp tenant due (fun _ => []) p w where
  audit := by
    rw [h.audit]
    rcases hrun : (p.run (Backend.memory.act stamp) w).1 with e | a
    · cases e with
      | forbidden d => exact absurd hrun h.lenient.not_forbidden
      | _ => exact (List.append_nil _).symm
    · exact (List.append_nil _).symm
  due _ hd := absurd hd h.lenient.not_forbidden

/-- A failure of the first part is the outcome; its success leaves the record to the second. -/
theorem Mirrors.bind (hp : Mirrors stamp tenant due (fun _ => []) p w)
    (hf : ∀ a u, p.run (Backend.memory.act stamp) w = (.ok a, u) →
      Mirrors stamp tenant due said (f a) u) : Mirrors stamp tenant due said (p >>= f) w := by
  obtain ⟨haudit, hdue⟩ := hp
  rcases hrun : p.run (Backend.memory.act stamp) w with ⟨e | a, u⟩
  · have hfail : (p >>= f).run (Backend.memory.act stamp) w = (.error e, u) := by
      rw [run_bind, hrun]
    rw [hrun] at haudit hdue
    constructor
    · rw [hfail, haudit]
      cases e <;> rfl
    · intro d hd
      rw [hfail] at hd
      cases hd
      exact hdue d rfl
  · have hrest : (p >>= f).run (Backend.memory.act stamp) w =
        (f a).run (Backend.memory.act stamp) u := run_bind_ok hrun
    rw [hrun] at haudit
    obtain ⟨hfaudit, hfdue⟩ := hf a u hrun
    have hsame : u.audit = w.audit := haudit.trans (List.append_nil _)
    constructor
    · rw [hrest, hfaudit, hsame]
    · rw [hrest]
      exact hfdue

/-- What reads quietly may come first. -/
theorem Mirrors.read (hquiet : Quiet p) (hreads : Reads p) (hs : w.session.session = s)
    (hf : ∀ a u, s.run stamp p = (.ok a, s) → u.session.session = s →
      Mirrors stamp tenant due said (f a) u) : Mirrors stamp tenant due said (p >>= f) w := by
  refine hquiet.mirrors.bind fun a u hrun => ?_
  obtain ⟨houtcome, hsession, -⟩ := Backend.run_memory stamp p w
  have hsame : (s.run stamp p).2 = s := s.run_reads stamp hreads
  rw [hrun, hs] at houtcome hsession
  refine hf a u (Prod.ext houtcome.symm hsame) ?_
  rw [hsession]
  exact hsame

/-- A check that does not pass raises a denial that is due; one that passes changes nothing. -/
theorem Mirrors.check {f : Unit → Program β} {d : Denial} (hs : w.session.session = s)
    (hdue : s.verdict stamp c.maxDepth d = .ok false → due d)
    (hf : ∀ u, s.verdict stamp c.maxDepth d = .ok true → u.session.session = s →
      Mirrors stamp c.tenant due said (f ()) u) :
    Mirrors stamp c.tenant due said (challenge c d >>= f) w := by
  have hquiet : Quiet (resolve (d.question c.maxDepth)) :=
    quiet (fun h => h.resolve _) (lenient_resolve _)
  rw [challenge, LawfulMonad.bind_assoc]
  refine Mirrors.read hquiet (consults_resolve _).reads hs fun passes u hrun hu => ?_
  have hverdict : s.verdict stamp c.maxDepth d = .ok passes := by
    rw [Session.verdict, hrun]
  cases passes with
  | true => exact hf u hverdict hu
  | false =>
    -- The denial is put on record and is the outcome.
    refine ⟨rfl, fun d' hd' => ?_⟩
    cases hd'
    exact hdue hverdict

/-- A folder that is looked up is there under the identifier looked for. -/
theorem Mirrors.requireFolder {f : Folder → Program β} {id : Uuid} (hs : w.session.session = s)
    (hf : ∀ folder u, folder.id = id → u.session.session = s →
      Mirrors stamp tenant due said (f folder) u) :
    Mirrors stamp tenant due said (Program.requireFolder id >>= f) w := by
  have hquiet : Quiet (Program.requireFolder id) :=
    quiet (fun h => h.requireFolder id) (lenient_requireFolder id)
  refine Mirrors.read hquiet (reads_requireFolder id) hs fun folder u hrun hu => ?_
  have hfound := List.find?_some (requireFolder_ok hrun)
  exact hf folder u (by simpa using hfound) hu

theorem Mirrors.request {r : Request} {f : r.Reply → Program β}
    (hf : ∀ a u, (Program.request r).run (Backend.memory.act stamp) w = (.ok a, u) →
      Mirrors stamp tenant due said (f a) u) :
    Mirrors stamp tenant due said (Program.request r >>= f) w :=
  (quiet_request r).mirrors.bind hf

/-- A move needs one check for where the folder is and one for where it goes. -/
theorem Mirrors.requireMove {f : Unit → Program β} {actor : Uuid} {folder : Folder}
    {newParent : Option Folder} {d₁ d₂ : Denial} (hs : w.session.session = s)
    (hd₁ : d₁ = ⟨actor, folder.resource, .use .folderMoveOut⟩)
    (hd₂ : d₂ = match newParent with
      | some p => ⟨actor, p.resource, .use .folderMoveIn⟩
      | none => ⟨actor, folder.resource, .moveToRoot⟩)
    (hdue₁ : s.verdict stamp c.maxDepth d₁ = .ok false → due d₁)
    (hdue₂ : s.verdict stamp c.maxDepth d₁ = .ok true → s.verdict stamp c.maxDepth d₂ = .ok false →
      due d₂)
    (hf : ∀ u, u.session.session = s → Mirrors stamp c.tenant due said (f ()) u) :
    Mirrors stamp c.tenant due said (Program.requireMove c actor folder newParent >>= f) w := by
  have hsplit : Program.requireMove c actor folder newParent =
      (do challenge c d₁; challenge c d₂) := by
    rw [hd₁, hd₂]
    cases newParent <;> rfl
  rw [hsplit, LawfulMonad.bind_assoc]
  refine Mirrors.check hs hdue₁ fun u hpassed hu => ?_
  exact Mirrors.check hu (hdue₂ hpassed) fun u _ hu => hf u hu

end

/-! Commands. -/

namespace Command

variable {s : Session} {w : Working Stores TenantSession}

variable (hs : w.session.session = s)

include hs

end Command

/-- On a root of one folder the size of what moves is one. -/
example :
    let owner : Uuid := .ofNat 1
    let root : Folder := .newRoot ⟨.ofNat 4, 100⟩ "team" owner
    let tables : Tables := { relationships := [⟨.ofNat 5, .owner owner root.resource.object, 100⟩],
                             folders := [root], pathRecords := [⟨.self root.id, 100⟩] }
    let c : Context := ⟨.ofNat 7, 21, ⟨.ofNat 20, 200⟩⟩
    let move (actor : Uuid) := (Backend.memory.runIn c.stamp
      ((Command.moveFolder actor root.id none).body c) ⟨c.tenant, ⟨0, tables, false⟩⟩ {}).2.audit
    move owner = [.folderMoved c.tenant root.id none owner 1] ∧
      move (.ofNat 2) =
        [.accessDenied c.tenant ⟨.ofNat 2, root.resource, .use .folderMoveOut⟩] := by
  decide

end DriveAccess
