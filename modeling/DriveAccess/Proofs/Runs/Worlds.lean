import DriveAccess.Proofs.Access.Running
/-!
What each event does to a world in memory: to the stores and to the sessions by their names.
-/
namespace DriveAccess

namespace Stores

variable {s : Stores} {x y : Uuid} {store : Store}

theorem lookup_filter_ne {α κ : Type} [DecidableEq κ] (xs : List (κ × α)) (a b : κ) :
    (xs.filter (·.1 != a)).lookup b = if b = a then none else xs.lookup b := by
  induction xs with
  | nil => simp
  | cons x rest ih =>
    obtain ⟨k, v⟩ := x
    by_cases hk : k = a
    · subst hk
      rw [List.filter_cons_of_neg (by simp), ih]
      by_cases hb : b = k
      · simp [hb]
      · have hne : (b == k) = false := by simpa using hb
        simp [List.lookup_cons, hb, hne]
    · rw [List.filter_cons_of_pos (by simpa using hk), List.lookup_cons, List.lookup_cons, ih]
      by_cases hb : b = k
      · subst hb
        simp [hk]
      · have hne : (b == k) = false := by simpa using hb
        simp [hne]

theorem get_set : (s.set x store).get y = if y = x then store else s.get y := by
  simp only [get, set, List.lookup_cons, lookup_filter_ne]
  by_cases hy : y = x
  · simp [hy]
  · have hne : (y == x) = false := by simpa using hy
    simp [hy, hne]

end Stores

/-- What is published next by a session that began on what is published now. -/
def Store.advance (store : Store) (s : Session) : Store :=
  if s.dirty then ⟨store.version + 1, s.tables⟩ else store

theorem Store.commit_eq (store : Store) (s : Session) : store.commit s =
    if s.dirty ∧ store.version ≠ s.base then .error .serializationConflict
    else .ok (store.advance s) := by
  cases hd : s.dirty with
  | false => simp [commit, advance, hd]
  | true => simp [commit, advance, hd]

theorem Store.advance_tables {store : Store} {s : Session} (h : Session.Follows store.begin s) :
    (store.advance s).tables = s.tables := by
  rw [Store.advance]
  obtain rfl | hdirty := h.dirty
  · rfl
  · rw [if_pos hdirty]

namespace Backend

variable {α : Type}

theorem commit_memory (s : TenantSession) (stores : Stores) : (memory.commit s stores).1 =
      (if s.session.dirty ∧ (stores.get s.tenant).version ≠ s.session.base then
        .error .serializationConflict else .ok ()) ∧
    ∀ y, (memory.commit s stores).2.get y =
      if y = s.tenant ∧ ¬ (s.session.dirty ∧ (stores.get s.tenant).version ≠ s.session.base) then
        (stores.get s.tenant).advance s.session else stores.get y := by
  simp only [memory, Store.commit_eq]
  by_cases hstale : s.session.dirty ∧ (stores.get s.tenant).version ≠ s.session.base
  · simp [hstale]
  · simp [hstale, Stores.get_set]

theorem finish_ok {σ S : Type} {b : Backend σ S} {a : α} {w : Working σ S}
    (h : (b.commit w.session w.shared).1 = .ok ()) :
    b.finish (.ok a) w = ⟨.ok a, (b.commit w.session w.shared).2, w.audit⟩ := by
  simp only [finish]
  rw [h]

/-- A command on its own publishes if it succeeds; there is nobody to conflict with. -/
theorem execute_memory (c : Context) (p : Program α) (stores : Stores) :
    (memory.execute c p stores).outcome =
      ((stores.get c.tenant).begin.run c.stamp p).1 ∧
    (memory.execute c p stores).audit =
      (memory.runIn c.stamp p ⟨c.tenant, (stores.get c.tenant).begin⟩ {}).2.audit ∧
    ∀ y, (memory.execute c p stores).shared.get y =
      if y = c.tenant ∧ ((stores.get c.tenant).begin.run c.stamp p).1.isOk then
        (stores.get c.tenant).advance ((stores.get c.tenant).begin.run c.stamp p).2
      else stores.get y := by
  let s : TenantSession := ⟨c.tenant, (stores.get c.tenant).begin⟩
  obtain ⟨houtcome, hsession, hshared⟩ := runIn_memory c.stamp p s stores
  have haudit := runIn_audit c.stamp p stores {} (s := s) rfl
  have hbase : (s.session.run c.stamp p).2.base = (stores.get c.tenant).version :=
    Session.run_follows.base
  obtain ⟨hcommit, hpublish⟩ := commit_memory
    ⟨c.tenant, (s.session.run c.stamp p).2⟩ stores
  have hcurrent : ¬ ((s.session.run c.stamp p).2.dirty ∧
      (stores.get c.tenant).version ≠ (s.session.run c.stamp p).2.base) := by simp [hbase]
  simp only [hcurrent, if_false, not_false_eq_true, and_true] at hcommit hpublish
  have hexecute : memory.execute c p stores = memory.finish
      (memory.runIn c.stamp p s stores).1 (memory.runIn c.stamp p s stores).2 := rfl
  rw [hexecute, houtcome]
  change _ = (s.session.run c.stamp p).1 ∧ _ ∧ ∀ y, _ =
    if y = c.tenant ∧ (s.session.run c.stamp p).1.isOk then
      (stores.get c.tenant).advance (s.session.run c.stamp p).2 else _
  rcases hrun : (s.session.run c.stamp p).1 with e | a
  · refine ⟨rfl, haudit, fun y => ?_⟩
    simp only [finish, hshared]
    simp [memory, Except.isOk, Except.toBool]
  · have hend : (memory.commit (memory.runIn c.stamp p s stores).2.session
        (memory.runIn c.stamp p s stores).2.shared).1 = .ok () := by
      rw [hsession, hshared]
      exact hcommit
    rw [finish_ok hend, hsession, hshared]
    exact ⟨rfl, haudit, fun y => by simpa [Except.isOk, Except.toBool] using hpublish y⟩

end Backend

/-- A world of stores in memory. -/
abbrev MemoryWorld := World Stores TenantSession

/-- An event with what its command draws from its surroundings. -/
structure Turn where
  maxDepth : Nat
  stamp : Stamp
  event : Event

/-- The open session that an event is about. -/
def Event.within : Event → Option String
  | .commit name | .rollback name | .drop name | .request name _ | .commandIn name _ => some name
  | .begin _ _ | .command _ _ => none

/-- The session that an event opens or is about. -/
def Event.about : Event → Option String
  | .begin _ name => some name
  | e => e.within

def Event.command? : Event → Option Command
  | .commandIn _ c | .command _ c => some c
  | _ => none

/-- Of what is known by session names, an event finds something or does not. -/
theorem Event.closed_or_open {α : Type} (e : Event) (sessions : String → Option α) :
    (∃ name, e.within = some name ∧ sessions name = none) ∨
      ∀ name, e.within = some name → ∃ x, sessions name = some x := by
  by_cases hopen : ∀ name, e.within = some name → sessions name ≠ none
  · right
    intro name hname
    exact Option.ne_none_iff_exists'.mp (hopen name hname)
  · left
    push Not at hopen
    exact hopen

namespace World

variable {w : MemoryWorld} {name n : String} {tenant : Uuid} {s : TenantSession} {maxDepth : Nat}
  {stamp : Stamp} {command : Command} {r : Request} {t : Turn}

def turn (w : MemoryWorld) (t : Turn) : Outcome × MemoryWorld :=
  w.step Backend.memory t.maxDepth t.stamp t.event

/-- Nothing published and no session open. -/
def start : MemoryWorld := { shared := {} }

/-- The outcomes of turns taken one after the other, and the world after them. -/
def play (w : MemoryWorld) : List Turn → List Outcome × MemoryWorld
  | [] => ([], w)
  | t :: rest =>
    let (outcome, w) := w.turn t
    let (outcomes, w) := w.play rest
    (outcome :: outcomes, w)

def after (turns : List Turn) : MemoryWorld := (start.play turns).2

theorem play_append (turns more : List Turn) : w.play (turns ++ more) =
    ((w.play turns).1 ++ ((w.play turns).2.play more).1, ((w.play turns).2.play more).2) := by
  induction turns generalizing w with
  | nil => rfl
  | cons t rest ih => simp [play, ih]

theorem after_snoc (turns : List Turn) (t : Turn) :
    after (turns ++ [t]) = ((after turns).turn t).2 := by
  simp [after, play_append, play]

@[simp] theorem session?_keep : (w.keep name tenant s).session? n =
    if n = name then some (tenant, s) else w.session? n := by
  simp only [keep, session?, List.lookup_cons, Stores.lookup_filter_ne]
  by_cases hn : n = name
  · simp [hn]
  · have hne : (n == name) = false := by simpa using hn
    simp [hn, hne]

@[simp] theorem session?_forget : (w.forget name).session? n =
    if n = name then none else w.session? n := by
  simp only [forget, session?, Stores.lookup_filter_ne]

theorem drop_shared : (w.drop Backend.memory name).shared = w.shared := by
  rw [drop]
  split <;> rfl

theorem session?_drop : (w.drop Backend.memory name).session? n =
    if n = name then none else w.session? n := by
  rw [drop]
  split
  · rename_i hnone
    by_cases hn : n = name
    · simp [hn, hnone]
    · simp [hn]
  · exact session?_forget

/-- The outcomes of those turns that are about one session, among the turns of others. -/
def heard (w : MemoryWorld) (name : String) : List Turn → List Outcome
  | [] => []
  | t :: rest =>
    let (outcome, w) := w.turn t
    if t.event.about = some name then outcome :: w.heard name rest else w.heard name rest

theorem heard_append (turns more : List Turn) : w.heard name (turns ++ more) =
    w.heard name turns ++ (w.play turns).2.heard name more := by
  induction turns generalizing w with
  | nil => rfl
  | cons t rest ih =>
    simp only [List.cons_append, heard, play, ih]
    split <;> rfl

/-- What a turn does: its outcome, the stores after it, and the session it leaves under a name. -/
structure Does (w : MemoryWorld) (t : Turn) (outcome : Outcome) (stores : Stores) (name : String)
    (session : Option (Uuid × TenantSession)) : Prop where
  outcome : (w.turn t).1 = outcome
  shared : (w.turn t).2.shared = stores
  sessions : ∀ n, (w.turn t).2.session? n = if n = name then session else w.session? n

theorem does_begin : w.Does ⟨maxDepth, stamp, .begin tenant name⟩ (.begun (.ok ())) w.shared name
    (some (tenant, ⟨tenant, (w.shared.get tenant).begin⟩)) where
  outcome := rfl
  shared := drop_shared
  sessions n := by
    simp only [turn, step, begin, Backend.memory, session?_keep]
    by_cases hn : n = name
    · simp [hn]
    · simp only [hn, if_false]
      exact session?_drop.trans (if_neg hn)

theorem does_nothing {e : Event} (he : e.within = some name) (h : w.session? name = none) :
    w.Does ⟨maxDepth, stamp, e⟩ .noSession w.shared name none := by
  have hturn : w.turn ⟨maxDepth, stamp, e⟩ = (.noSession, w) := by
    cases e <;> cases he <;> simp only [turn, step, h]
  have hsame (n : String) : w.session? n = if n = name then none else w.session? n := by
    by_cases hn : n = name
    · simp [hn, h]
    · simp [hn]
  exact ⟨by rw [hturn], by rw [hturn], by rwa [hturn]⟩

variable (h : w.session? name = some (tenant, s))

include h

theorem does_commit : w.Does ⟨maxDepth, stamp, .commit name⟩
    (.ended (Backend.memory.commit s w.shared).1) (Backend.memory.commit s w.shared).2
    name none := by
  have hturn : w.turn ⟨maxDepth, stamp, .commit name⟩ =
      (.ended (Backend.memory.commit s w.shared).1,
        { w.forget name with shared := (Backend.memory.commit s w.shared).2 }) := by
    simp only [turn, step, h, stepIn]
  exact ⟨by rw [hturn], by rw [hturn], by rw [hturn]; exact fun n => session?_forget⟩

theorem does_rollback :
    w.Does ⟨maxDepth, stamp, .rollback name⟩ (.ended (.ok ())) w.shared name none := by
  have hturn : w.turn ⟨maxDepth, stamp, .rollback name⟩ = (.ended (.ok ()), w.forget name) := by
    simp only [turn, step, h, stepIn]
    rfl
  exact ⟨by rw [hturn], by rw [hturn]; rfl, by rw [hturn]; exact fun n => session?_forget⟩

theorem does_drop :
    w.Does ⟨maxDepth, stamp, .drop name⟩ (.ended (.ok ())) w.shared name none := by
  have hturn : w.turn ⟨maxDepth, stamp, .drop name⟩ =
      (.ended (.ok ()), w.drop Backend.memory name) := by
    simp only [turn, step, h, stepIn]
  exact ⟨by rw [hturn], by rw [hturn]; exact drop_shared,
    by rw [hturn]; exact fun n => session?_drop⟩

theorem does_request : w.Does ⟨maxDepth, stamp, .request name r⟩
    (.replied r ((s.session.perform stamp r).1.map r.reply)) w.shared name
    (some (tenant, ⟨s.tenant, (s.session.perform stamp r).2⟩)) := by
  have hturn : w.turn ⟨maxDepth, stamp, .request name r⟩ =
      (.replied r ((s.session.perform stamp r).1.map r.reply),
        w.keep name tenant ⟨s.tenant, (s.session.perform stamp r).2⟩) := by
    simp only [turn, step, h, stepIn]
    rfl
  exact ⟨by rw [hturn], by rw [hturn]; rfl, by rw [hturn]; exact fun n => session?_keep⟩

theorem does_commandIn : w.Does ⟨maxDepth, stamp, .commandIn name command⟩
    (.answered command (s.session.run stamp (command.body ⟨tenant, maxDepth, stamp⟩)).1
      (Backend.memory.runIn stamp (command.body ⟨tenant, maxDepth, stamp⟩) s {}).2.audit)
    w.shared name
    (some (tenant, ⟨s.tenant,
      (s.session.run stamp (command.body ⟨tenant, maxDepth, stamp⟩)).2⟩)) := by
  let p := command.body ⟨tenant, maxDepth, stamp⟩
  let x := Backend.memory.runIn stamp p s w.shared
  have hturn : w.turn ⟨maxDepth, stamp, .commandIn name command⟩ =
      (.answered command x.1 x.2.audit,
        { w with shared := x.2.shared }.keep name tenant x.2.session) := by
    simp only [turn, step, h, stepIn]
    rfl
  obtain ⟨houtcome, hsession, hshared⟩ := Backend.runIn_memory stamp p s w.shared
  have haudit := Backend.runIn_audit stamp p w.shared {} (s := s) rfl
  refine ⟨?_, ?_, ?_⟩
  · rw [hturn, ← houtcome, ← haudit]
  · rw [hturn]
    exact hshared
  · rw [hturn, ← hsession]
    exact fun n => session?_keep

omit h in
theorem does_command (name : String) : w.Does ⟨maxDepth, stamp, .command tenant command⟩
    (.answered command
      ((w.shared.get tenant).begin.run stamp (command.body ⟨tenant, maxDepth, stamp⟩)).1
      (Backend.memory.runIn stamp (command.body ⟨tenant, maxDepth, stamp⟩)
        ⟨tenant, (w.shared.get tenant).begin⟩ {}).2.audit)
    (Backend.memory.execute ⟨tenant, maxDepth, stamp⟩ (command.body ⟨tenant, maxDepth, stamp⟩)
      w.shared).shared name (w.session? name) where
  outcome := by
    obtain ⟨houtcome, haudit, _⟩ := Backend.execute_memory ⟨tenant, maxDepth, stamp⟩
      (command.body ⟨tenant, maxDepth, stamp⟩) w.shared
    rw [← houtcome, ← haudit]
    rfl
  shared := rfl
  sessions n := by
    by_cases hn : n = name
    · rw [if_pos hn, hn]
      rfl
    · rw [if_neg hn]
      rfl

end World

/-- What a store publishes next is new to it. -/
theorem Store.advance_version (store : Store) (s : Session) :
    store.advance s = store ∨ (store.advance s).version = store.version + 1 := by
  rw [advance]
  split
  · exact .inr rfl
  · exact .inl rfl

namespace World

variable {w : MemoryWorld} {name : String} {tenant : Uuid} {t : Turn}

/-- A turn changes at most the session that it is about. A store that it changes counts on. -/
theorem does_turn (w : MemoryWorld) (t : Turn) : ∃ name outcome stores session,
    w.Does t outcome stores name session ∧
      (t.event.about = some name ∨ session = w.session? name) ∧
      ∀ y, stores.get y = w.shared.get y ∨
        (stores.get y).version = (w.shared.get y).version + 1 := by
  have hkeep (y : Uuid) : w.shared.get y = w.shared.get y ∨
      (w.shared.get y).version = (w.shared.get y).version + 1 := .inl rfl
  obtain ⟨name, hname, hnone⟩ | hopen := t.event.closed_or_open w.session?
  · have habout : t.event.about = some name := by
      obtain ⟨maxDepth, stamp, event⟩ := t
      cases event <;> cases hname <;> rfl
    exact ⟨name, _, _, _, does_nothing hname hnone, .inl habout, hkeep⟩
  · obtain ⟨maxDepth, stamp, event⟩ := t
    cases event with
    | begin tenant name => exact ⟨name, _, _, _, does_begin, .inl rfl, hkeep⟩
    | command tenant c =>
      refine ⟨"", _, _, _, does_command "", .inr rfl, ?_⟩
      intro y
      rw [(Backend.execute_memory ..).2.2]
      split
      · rename_i hy
        rw [hy.1]
        exact Store.advance_version ..
      · exact .inl rfl
    | commit name =>
      obtain ⟨x, hx⟩ := hopen name rfl
      refine ⟨name, _, _, _, does_commit hx, .inl rfl, ?_⟩
      intro y
      rw [(Backend.commit_memory ..).2]
      split
      · rename_i hy
        rw [hy.1]
        exact Store.advance_version ..
      · exact .inl rfl
    | rollback name =>
      obtain ⟨x, hx⟩ := hopen name rfl
      exact ⟨name, _, _, _, does_rollback hx, .inl rfl, hkeep⟩
    | drop name =>
      obtain ⟨x, hx⟩ := hopen name rfl
      exact ⟨name, _, _, _, does_drop hx, .inl rfl, hkeep⟩
    | request name r =>
      obtain ⟨x, hx⟩ := hopen name rfl
      exact ⟨name, _, _, _, does_request hx, .inl rfl, hkeep⟩
    | commandIn name c =>
      obtain ⟨x, hx⟩ := hopen name rfl
      exact ⟨name, _, _, _, does_commandIn hx, .inl rfl, hkeep⟩

theorem session?_turn (h : t.event.about ≠ some name) :
    (w.turn t).2.session? name = w.session? name := by
  obtain ⟨n, outcome, stores, session, hdoes, hsession, _⟩ := does_turn w t
  rw [hdoes.sessions]
  by_cases hn : name = n
  · subst hn
    obtain habout | hsame := hsession
    · exact absurd habout h
    · rw [if_pos rfl, hsame]
  · rw [if_neg hn]

theorem version_turn (w : MemoryWorld) (t : Turn) (tenant : Uuid) :
    (w.turn t).2.shared.get tenant = w.shared.get tenant ∨
      ((w.turn t).2.shared.get tenant).version = (w.shared.get tenant).version + 1 := by
  obtain ⟨n, outcome, stores, session, hdoes, _, hpublish⟩ := does_turn w t
  rw [hdoes.shared]
  exact hpublish tenant

/-- Versions only grow, so a store of an old version is an old store. -/
theorem version_play (w : MemoryWorld) (turns : List Turn) (tenant : Uuid) :
    (w.play turns).2.shared.get tenant = w.shared.get tenant ∨
      (w.shared.get tenant).version < ((w.play turns).2.shared.get tenant).version := by
  induction turns generalizing w with
  | nil => exact .inl rfl
  | cons t rest ih =>
    have hturn := version_turn w t tenant
    have hrest := ih (w.turn t).2
    simp only [play]
    obtain hturn | hturn := hturn <;> obtain hrest | hrest := hrest
    · exact .inl (hrest.trans hturn)
    · exact .inr (hturn ▸ hrest)
    · right
      rw [hrest]
      omega
    · right
      omega

end World

end DriveAccess
