import DriveAccess.Access.Execution
import DriveAccess.Proofs.Dialogues
import DriveAccess.Proofs.Storage.Sessions
/-!
Programs that run in a session in memory. A program settles when its failures leave the session as
it was: it reads first, and from its first change on every request succeeds.
-/
namespace DriveAccess

variable {α β : Type} {stamp : Stamp} {s u : Session} {t t' t'' : Tables}

/-- Actions that leave a session alone. -/
def Action.reads : Action → Bool
  | store r => r.reads
  | look _ | record _ => true

theorem Lookup.request_reads (l : Lookup) : l.request.reads := by
  cases l <;> rfl

namespace Session

/-- How a session answers the actions of a program; what goes on record is kept elsewhere. -/
def answer (stamp : Stamp) : Dialogue.Answerer Action Action.Reply AccessError Session
  | .store r, s =>
    let (answer, s) := s.perform stamp r
    ((answer.map r.reply).mapError .ofStorage, s)
  | .look l, s =>
    let (answer, s) := s.perform stamp l.request
    (((answer.map l.request.reply).mapError fun e => .resolve (.storage e.message)).map l.read, s)
  | .record _, s => (.ok (), s)

def run (stamp : Stamp) (p : Program α) (s : Session) : Except AccessError α × Session :=
  Dialogue.run (answer stamp) p s

variable {q : Action} {p : Program α} {f : α → Program β}

theorem answer_reads (h : q.reads) : (answer stamp q s).2 = s := by
  cases q with
  | store r => exact perform_reads h
  | look l => exact perform_reads l.request_reads
  | record e => rfl

theorem answer_follows : Follows s (answer stamp q s).2 := by
  cases q with
  | store r => exact perform_follows
  | look l => exact perform_follows
  | record e => exact .refl

theorem answer_eq_resume : answer stamp q s = s.resume (answer stamp q (fresh s.tables)) := by
  cases q with
  | store r =>
    simp only [answer]
    rw [perform_eq_resume]
    rfl
  | look l =>
    simp only [answer]
    rw [perform_eq_resume]
    rfl
  | record e => simp [answer, resume]

theorem run_reads (stamp : Stamp) (s : Session) (h : Dialogue.Asks (·.reads) p) :
    (s.run stamp p).2 = s :=
  Dialogue.run_of_asks (P := (·.reads)) (fun _ _ => answer_reads) h

theorem run_follows : Follows s (s.run stamp p).2 :=
  Dialogue.run_keeps Follows (fun _ => .refl) (fun _ _ _ => .trans) fun _ _ => answer_follows

/-- The outcome of a program and what it changes depend on the tables alone. -/
theorem run_eq_resume : s.run stamp p = s.resume ((fresh s.tables).run stamp p) := by
  have hstart : s = s.absorb (fresh s.tables) := absorb_fresh.symm
  have hstep (q : Action) (v u : Session) (_ : True) (h : v = s.absorb u) :
      (answer stamp q v).1 = (answer stamp q u).1 ∧
        (answer stamp q v).2 = s.absorb (answer stamp q u).2 := by
    rw [answer_eq_resume (s := v), answer_eq_resume (s := u), h]
    exact ⟨rfl, absorb_absorb _⟩
  obtain ⟨hreply, hnext⟩ :=
    (Dialogue.asks_any p).run_related (fun v u => v = s.absorb u) hstep hstart
  exact Prod.ext hreply hnext

end Session

namespace Backend

/-- What sessions share stays as it is while a program runs. -/
theorem run_memory (stamp : Stamp) (p : Program α) (w : Working Stores TenantSession) :
    (p.run (memory.act stamp) w).1 = (w.session.session.run stamp p).1 ∧
    (p.run (memory.act stamp) w).2.session =
      ⟨w.session.tenant, (w.session.session.run stamp p).2⟩ ∧
    (p.run (memory.act stamp) w).2.shared = w.shared := by
  have hstep (q : Action) (w' : Working Stores TenantSession) (v : Session) (_ : True)
      (h : w'.session = ⟨w.session.tenant, v⟩ ∧ w'.shared = w.shared) :
      (memory.act stamp q w').1 = (v.answer stamp q).1 ∧
        (memory.act stamp q w').2.session = ⟨w.session.tenant, (v.answer stamp q).2⟩ ∧
        (memory.act stamp q w').2.shared = w.shared := by
    obtain ⟨shared, session, audit⟩ := w'
    obtain ⟨rfl, rfl⟩ := h
    cases q <;> exact ⟨rfl, rfl, rfl⟩
  exact (Dialogue.asks_any p).run_related
    (fun (w' : Working Stores TenantSession) v =>
      w'.session = ⟨w.session.tenant, v⟩ ∧ w'.shared = w.shared)
    hstep ⟨rfl, rfl⟩

theorem runIn_memory (stamp : Stamp) (p : Program α) (s : TenantSession) (stores : Stores) :
    (memory.runIn stamp p s stores).1 = (s.session.run stamp p).1 ∧
    (memory.runIn stamp p s stores).2.session = ⟨s.tenant, (s.session.run stamp p).2⟩ ∧
    (memory.runIn stamp p s stores).2.shared = stores :=
  run_memory stamp p ⟨stores, s, []⟩

/-- What goes on record depends on the tables alone. -/
theorem runIn_audit (stamp : Stamp) (p : Program α) {s u : TenantSession} (stores stores' : Stores)
    (h : s.session.tables = u.session.tables) :
    (memory.runIn stamp p s stores).2.audit = (memory.runIn stamp p u stores').2.audit := by
  have hstep (q : Action) (w w' : Working Stores TenantSession) (_ : True)
      (h : w.session.session.tables = w'.session.session.tables ∧ w.audit = w'.audit) :
      (memory.act stamp q w).1 = (memory.act stamp q w').1 ∧
        (memory.act stamp q w).2.session.session.tables =
          (memory.act stamp q w').2.session.session.tables ∧
        (memory.act stamp q w).2.audit = (memory.act stamp q w').2.audit := by
    obtain ⟨shared, ⟨x, v⟩, audit⟩ := w
    obtain ⟨shared', ⟨x', v'⟩, audit'⟩ := w'
    obtain ⟨ht, rfl⟩ : v.tables = v'.tables ∧ audit = audit' := h
    cases q with
    | store r =>
      simp only [act, serve, memory]
      rw [Session.perform_eq_resume (s := v), Session.perform_eq_resume (s := v'), ht]
      exact ⟨rfl, rfl, trivial⟩
    | look l =>
      simp only [act, serve, memory]
      rw [Session.perform_eq_resume (s := v), Session.perform_eq_resume (s := v'), ht]
      exact ⟨rfl, rfl, trivial⟩
    | record e => exact ⟨rfl, ht, rfl⟩
  have hrun := (Dialogue.asks_any p).run_related (s := ⟨stores, s, []⟩) (t := ⟨stores', u, []⟩)
    (fun w w' : Working Stores TenantSession =>
      w.session.session.tables = w'.session.session.tables ∧ w.audit = w'.audit)
    hstep ⟨h, rfl⟩
  exact hrun.2.2

end Backend

namespace Program

/-- On sessions with given tables a program succeeds, with a given value and given tables after. -/
def Yields (stamp : Stamp) (p : Program α) (t : Tables) (a : α) (t' : Tables) : Prop :=
  ∀ s : Session, s.tables = t → ∃ u, s.run stamp p = (.ok a, u) ∧ u.tables = t'

/-- A program fails and leaves the session as it was, or succeeds with a result as described. -/
def Settles (stamp : Stamp) (p : Program α) (s : Session) (post : α → Tables → Prop) : Prop :=
  (∃ e, s.run stamp p = (.error e, s)) ∨ ∃ a u, s.run stamp p = (.ok a, u) ∧ post a u.tables

variable {p : Program α} {f : α → Program β} {a : α} {b : β} {post : β → Tables → Prop}
  {r : Request}

theorem yields_pure (a : α) : Yields stamp (pure a) t a t :=
  fun s hs => ⟨s, rfl, hs⟩

theorem yields_record (e : AuditEvent) : Yields stamp (record e) t () t :=
  fun s hs => ⟨s, rfl, hs⟩

/-- What a request does to tables, said of a fresh session, holds in every session. -/
theorem yields_request {a : r.Answer}
    (h : ((Session.fresh t).perform stamp r).1 = .ok a)
    (ht : ((Session.fresh t).perform stamp r).2.tables = t') :
    Yields stamp (request r) t (r.reply a) t' := by
  intro s hs
  subst hs
  refine ⟨(s.perform stamp r).2, ?_, ?_⟩
  · have hr : (s.perform stamp r).1 = .ok a := by
      rw [Session.perform_eq_resume]
      exact h
    simp only [Session.run, request, Dialogue.query, Dialogue.run, Session.answer, hr]
    rfl
  · rw [Session.perform_eq_resume]
    exact ht

/-- A success in a fresh session is one in every session on the same tables. -/
theorem yields_of_fresh (h : (Session.fresh t).run stamp p = (.ok a, u)) :
    Yields stamp p t a u.tables := by
  intro s hs
  subst hs
  refine ⟨s.absorb u, ?_, rfl⟩
  rw [Session.run_eq_resume, h]
  rfl

theorem Yields.bind (h : Yields stamp p t a t') (hf : Yields stamp (f a) t' b t'') :
    Yields stamp (p >>= f) t b t'' := by
  intro s hs
  obtain ⟨u, hu, ht⟩ := h s hs
  obtain ⟨v, hv, ht'⟩ := hf u ht
  exact ⟨v, (Dialogue.run_bind_ok hu).trans hv, ht'⟩

/-- What comes after may ignore the value. -/
theorem Yields.next (h : ∃ a, Yields stamp p t a t') (hf : ∀ a, Yields stamp (f a) t' b t'') :
    Yields stamp (p >>= f) t b t'' := by
  obtain ⟨a, ha⟩ := h
  exact ha.bind (hf a)

theorem settles_fail (e : AccessError) : Settles stamp (.fail e) s post := .inl ⟨e, rfl⟩

theorem Yields.settles (h : Yields stamp p s.tables a t) {post : α → Tables → Prop}
    (ha : post a t) : Settles stamp p s post := by
  obtain ⟨u, hu, rfl⟩ := h s rfl
  exact .inr ⟨a, u, hu, ha⟩

theorem Settles.mono {post' : β → Tables → Prop} {p : Program β} (h : Settles stamp p s post)
    (hpost : ∀ b t, post b t → post' b t) : Settles stamp p s post' := by
  obtain he | ⟨b, u, hu, hb⟩ := h
  · exact .inl he
  · exact .inr ⟨b, u, hu, hpost b _ hb⟩

theorem Settles.ok {p : Program β} (h : Settles stamp p s post)
    (hrun : s.run stamp p = (.ok b, u)) : post b u.tables := by
  obtain ⟨e, he⟩ | ⟨b', v, hv, hpost⟩ := h
  · rw [he] at hrun
    cases hrun
  · rw [hv] at hrun
    cases hrun
    exact hpost

/-- What only reads may come first. -/
theorem Settles.read (hp : Dialogue.Asks (·.reads) p)
    (hf : ∀ a, s.run stamp p = (.ok a, s) → Settles stamp (f a) s post) :
    Settles stamp (p >>= f) s post := by
  have hs := Session.run_reads stamp s hp
  rcases hr : s.run stamp p with ⟨e | a, u⟩ <;> rw [hr] at hs <;>
    obtain rfl : s = u := hs.symm
  · exact .inl ⟨e, by rw [Session.run, Dialogue.run_bind, ← Session.run, hr]⟩
  · have hrest : s.run stamp (p >>= f) = s.run stamp (f a) := Dialogue.run_bind_ok hr
    simpa only [Settles, hrest] using hf a hr

theorem run_request (stamp : Stamp) (r : Request) (s : Session) : s.run stamp (request r) =
    (((s.perform stamp r).1.map r.reply).mapError .ofStorage, (s.perform stamp r).2) := by
  simp only [Session.run, request, Dialogue.query, Dialogue.run, Session.answer]
  rcases s.perform stamp r with ⟨e | a, u⟩ <;> rfl

/-- A request may fail, for it changes nothing then. What follows may fail as long as nothing has
changed. -/
theorem Settles.request_bind {f : r.Reply → Program β}
    (hf : ∀ a u, s.perform stamp r = (.ok a, u) → (u = s ∧ Settles stamp (f (r.reply a)) s post) ∨
      ∃ b t, Yields stamp (f (r.reply a)) u.tables b t ∧ post b t) :
    Settles stamp (request r >>= f) s post := by
  have hrun := run_request stamp r s
  rcases hr : s.perform stamp r with ⟨e | a, u⟩
  · have hs : (s.perform stamp r).2 = s := Session.perform_failed (by rw [hr])
    rw [hr] at hrun hs
    obtain rfl : u = s := hs
    refine .inl ⟨.ofStorage e, ?_⟩
    rw [Session.run, Dialogue.run_bind, ← Session.run, hrun]
    rfl
  · rw [hr] at hrun
    have hrest : s.run stamp (request r >>= f) = u.run stamp (f (r.reply a)) :=
      Dialogue.run_bind_ok hrun
    rw [Settles, hrest]
    obtain ⟨rfl, hset⟩ | ⟨b, t, hy, hpost⟩ := hf a u hr
    · exact hset
    · obtain ⟨v, hv, rfl⟩ := hy u rfl
      exact .inr ⟨b, v, hv, hpost⟩

/-- From its first change on nothing may fail. -/
theorem Settles.attempt {f : r.Reply → Program β}
    (hf : ∀ a u, s.perform stamp r = (.ok a, u) →
      ∃ b t, Yields stamp (f (r.reply a)) u.tables b t ∧ post b t) :
    Settles stamp (request r >>= f) s post :=
  request_bind fun a u h => .inr (hf a u h)

end Program

end DriveAccess
