import DriveAccess.Proofs.Runs.Ledgers
/-!
Sessions in memory are serializable: the ledger explains what is published and what every session
is told, whatever the order of the turns.
-/
namespace DriveAccess

variable {tenant : Uuid} {ops : List Operation} {batches : List (List Operation)} {s : Session}
  {name : String} {w : MemoryWorld} {l l' : Ledger} {o : Operation} {x : Sitting} {t : Turn}

theorem Session.runAll_follows : s.Follows (s.runAll tenant ops) := by
  induction ops using List.reverseRecOn with
  | nil => exact .refl
  | append_singleton ops o ih =>
    rw [Session.runAll, List.foldl_append]
    exact ih.trans (Operation.run_follows ..)

theorem serial_snoc : serial tenant (batches ++ [ops]) =
    ⟨(serial tenant batches).version + 1,
      ((serial tenant batches).begin.runAll tenant ops).tables⟩ := by
  simp [serial]

/-- The version counts what has been published. -/
theorem serial_version : (serial tenant batches).version = batches.length := by
  induction batches using List.reverseRecOn with
  | nil => rfl
  | append_singleton batches ops ih => rw [serial_snoc, ih, List.length_append]; rfl

namespace Sitting

theorem alone_base : x.alone.base = x.seen.length :=
  Session.runAll_follows.base.trans serial_version

theorem alone_add : Sitting.alone { x with done := x.done ++ [o] } =
    (o.run x.tenant x.alone).2 := by
  simp [alone, Session.runAll]

def held (x : Sitting) : Uuid × TenantSession := (x.tenant, ⟨x.tenant, x.alone⟩)

end Sitting

namespace World

theorem does_operation (h : w.session? name = some (tenant, ⟨tenant, s⟩)) (o : Operation) :
    w.Does (o.within name) (o.run tenant s).1 w.shared name
      (some (tenant, ⟨tenant, (o.run tenant s).2⟩)) := by
  obtain ⟨maxDepth, stamp, work⟩ := o
  cases work with
  | request r => exact does_request h
  | command c =>
    rw [Operation.run_command]
    exact does_commandIn h

theorem does_ownCommand {maxDepth : Nat} {stamp : Stamp} {c : Command} :
    w.Does ⟨maxDepth, stamp, .command tenant c⟩
      ((Operation.mk maxDepth stamp (.command c)).run tenant (w.shared.get tenant).begin).1
      (Backend.memory.execute ⟨tenant, maxDepth, stamp⟩ (c.body ⟨tenant, maxDepth, stamp⟩)
        w.shared).shared name (w.session? name) := by
  rw [Operation.run_command]
  exact does_command name

end World

namespace Ledger

/-- What is published is what the ledger has, done one session after the other, and the open
sessions are as if each had been alone since it began. -/
structure Explains (l : Ledger) (w : MemoryWorld) : Prop where
  published : ∀ tenant, w.shared.get tenant = serial tenant (l.published tenant)
  sessions : ∀ name, w.session? name = (l.sittings name).map Sitting.held
  seen : ∀ name x, l.sittings name = some x → x.seen <+: l.published x.tenant

theorem Explains.held (h : l.Explains w) (hx : l.sittings name = some x) :
    w.session? name = some x.held := by
  rw [h.sessions, hx]
  rfl

theorem explains_start : Explains {} World.start :=
  ⟨fun _ => rfl, fun _ => rfl, fun _ _ h => by cases h⟩

theorem Does.explains {outcome : Outcome} {stores : Stores}
    {session : Option (Uuid × TenantSession)} {sitting : Option Sitting}
    (hdoes : w.Does t outcome stores name session) (h : l.Explains w)
    (hstores : ∀ tenant, stores.get tenant = serial tenant (l'.published tenant))
    (hgrows : ∀ tenant, l.published tenant <+: l'.published tenant)
    (hsittings : l'.sittings = Function.update l.sittings name sitting)
    (hsession : session = sitting.map Sitting.held)
    (hseen : ∀ x, sitting = some x → x.seen <+: l'.published x.tenant) :
    l'.Explains (w.turn t).2 where
  published tenant := by rw [hdoes.shared, hstores]
  sessions n := by
    rw [hdoes.sessions, hsittings]
    by_cases hn : n = name
    · subst hn
      simp [hsession]
    · simp [hn, h.sessions]
  seen n x hx := by
    rw [hsittings] at hx
    by_cases hn : n = name
    · subst hn
      exact hseen x (by simpa using hx)
    · rw [Function.update_of_ne hn] at hx
      exact (h.seen n x hx).trans (hgrows x.tenant)

theorem seat_self (h : l.sittings name = none) : l.seat name none = l := by
  simp [seat, ← h]

theorem add_none (h : l.sittings name = none) : l.add name o = l := by
  rw [add, h]
  exact seat_self h

/-- Turns of a session that is not open leave no trace. -/
theorem note_none (h : l.sittings name = none) (ht : t.event.within = some name) :
    l.note w t = l := by
  obtain ⟨maxDepth, stamp, event⟩ := t
  cases event <;> cases ht
  · simp only [note, h]
  · exact seat_self h
  · exact seat_self h
  · exact add_none h
  · exact add_none h

theorem Explains.note_none (h : l.Explains w) (hnone : l.sittings name = none)
    (ht : t.event.within = some name) : (l.note w t).Explains (w.turn t).2 := by
  have hclosed : w.session? name = none := by rw [h.sessions, hnone]; rfl
  have hdoes : w.Does t _ _ _ _ := World.does_nothing ht hclosed
  have hsame : l.sittings = Function.update l.sittings name none := by
    rw [← hnone, Function.update_eq_self]
  rw [Ledger.note_none hnone ht]
  exact Does.explains hdoes h h.published (fun _ => List.prefix_rfl) hsame rfl
    fun _ hx => by cases hx

theorem Explains.note_operation (h : l.Explains w) (hx : l.sittings name = some x)
    (o : Operation) : (l.add name o).Explains (w.turn (o.within name)).2 := by
  have hheld := h.held hx
  have hadd : l.add name o = l.seat name (some { x with done := x.done ++ [o] }) := by
    rw [add, hx]
    rfl
  rw [hadd]
  refine Does.explains (World.does_operation hheld o) h h.published
    (fun _ => List.prefix_rfl) rfl ?_ fun y hy => ?_
  · rw [Option.map_some, Sitting.held, Sitting.alone_add]
  · cases hy
    exact h.seen name x hx

theorem Explains.note_end (h : l.Explains w) {outcome : Outcome}
    (hdoes : w.Does t outcome w.shared name none) : (l.seat name none).Explains (w.turn t).2 :=
  Does.explains hdoes h h.published (fun _ => List.prefix_rfl) rfl rfl fun _ hx => by cases hx

theorem Explains.note_begin (h : l.Explains w) {maxDepth : Nat} {stamp : Stamp} :
    (l.seat name (some ⟨tenant, l.published tenant, []⟩)).Explains
      (w.turn ⟨maxDepth, stamp, .begin tenant name⟩).2 := by
  refine Does.explains World.does_begin h h.published (fun _ => List.prefix_rfl) rfl ?_
    fun y hy => ?_
  · rw [h.published tenant]
    rfl
  · cases hy
    exact List.prefix_rfl

theorem publish_grows (l : Ledger) (tenant y : Uuid) (ops : List Operation) :
    l.published y <+: (l.publish tenant ops).published y := by
  by_cases hy : y = tenant
  · subst hy
    simp [publish]
  · simp [publish, hy]

/-- Operations that are published are those that the tenant's store is given last. -/
theorem serial_publish (l : Ledger) (tenant y : Uuid) (ops : List Operation) :
    serial y ((l.publish tenant ops).published y) = if y = tenant then
      let store := serial tenant (l.published tenant)
      ⟨store.version + 1, (store.begin.runAll tenant ops).tables⟩
    else serial y (l.published y) := by
  by_cases hy : y = tenant
  · subst hy
    have hpublished : (l.publish y ops).published y = l.published y ++ [ops] :=
      Function.update_self ..
    rw [hpublished, serial_snoc, if_pos rfl]
  · have hpublished : (l.publish tenant ops).published y = l.published y :=
      Function.update_of_ne hy ..
    rw [hpublished, if_neg hy]

/-- Somebody has published since a session began. -/
def Overtaken (l : Ledger) (x : Sitting) : Prop :=
  x.seen.length < (l.published x.tenant).length

instance (l : Ledger) (x : Sitting) : Decidable (l.Overtaken x) :=
  inferInstanceAs (Decidable (_ < _))

theorem Explains.overtaken_iff (h : l.Explains w) (hx : l.sittings name = some x) :
    l.Overtaken x ↔ (w.shared.get x.tenant).version ≠ x.alone.base := by
  have hle := (h.seen name x hx).length_le
  rw [h.published, serial_version, Sitting.alone_base, Overtaken]
  omega

theorem Explains.seen_eq (h : l.Explains w) (hx : l.sittings name = some x)
    (hcurrent : ¬ l.Overtaken x) : x.seen = l.published x.tenant :=
  (h.seen name x hx).eq_of_length_le (by rw [Overtaken] at hcurrent; omega)

theorem Explains.commit_outcome (h : l.Explains w) (hx : l.sittings name = some x)
    {maxDepth : Nat} {stamp : Stamp} : (w.turn ⟨maxDepth, stamp, .commit name⟩).1 =
      .ended (if x.alone.dirty ∧ l.Overtaken x then .error .serializationConflict else .ok ()) := by
  have hheld := h.held hx
  have hdoes : w.Does ⟨maxDepth, stamp, .commit name⟩ _ _ _ _ := World.does_commit hheld
  rw [hdoes.outcome, (Backend.commit_memory ..).1]
  simp only [h.overtaken_iff hx]

theorem Explains.commit_shared (h : l.Explains w) (hx : l.sittings name = some x)
    {maxDepth : Nat} {stamp : Stamp} (y : Uuid) :
    (w.turn ⟨maxDepth, stamp, .commit name⟩).2.shared.get y =
      if y = x.tenant ∧ ¬ (x.alone.dirty ∧ l.Overtaken x) then
        (w.shared.get x.tenant).advance x.alone else w.shared.get y := by
  have hheld := h.held hx
  have hdoes : w.Does ⟨maxDepth, stamp, .commit name⟩ _ _ _ _ := World.does_commit hheld
  rw [hdoes.shared, (Backend.commit_memory ..).2]
  simp only [h.overtaken_iff hx]

/-- A commit that does not publish changes nothing. -/
theorem Explains.commit_keeps (h : l.Explains w) (hx : l.sittings name = some x) {maxDepth : Nat}
    {stamp : Stamp} (hno : ¬ (x.alone.dirty ∧ ¬ l.Overtaken x)) (y : Uuid) :
    (w.turn ⟨maxDepth, stamp, .commit name⟩).2.shared.get y = w.shared.get y := by
  rw [h.commit_shared hx]
  split
  · rename_i hend
    obtain ⟨rfl, hend⟩ := hend
    have hclean : ¬ x.alone.dirty := fun hdirty => hno ⟨hdirty, fun hstale => hend ⟨hdirty, hstale⟩⟩
    rw [Store.advance, if_neg hclean]
  · rfl

/-- What a commit makes of the ledger. -/
theorem Explains.note_commit_eq (h : l.Explains w) (hx : l.sittings name = some x)
    {maxDepth : Nat} {stamp : Stamp} : l.note w ⟨maxDepth, stamp, .commit name⟩ =
      (if x.alone.dirty ∧ ¬ l.Overtaken x then l.publish x.tenant x.done else l).seat
        name none := by
  have hheld := h.held hx
  simp only [note, hx, hheld, h.commit_outcome hx, Sitting.held]
  cases hdirty : x.alone.dirty with
  | false => simp
  | true =>
    by_cases hstale : l.Overtaken x <;> simp [hstale, Outcome.succeeds, Except.isOk, Except.toBool]

theorem Explains.note_commit (h : l.Explains w) (hx : l.sittings name = some x) {maxDepth : Nat}
    {stamp : Stamp} : (l.note w ⟨maxDepth, stamp, .commit name⟩).Explains
      (w.turn ⟨maxDepth, stamp, .commit name⟩).2 := by
  have hheld := h.held hx
  have hdoes : w.Does ⟨maxDepth, stamp, .commit name⟩ _ _ _ _ := World.does_commit hheld
  have hstores : ∀ y, (w.turn ⟨maxDepth, stamp, .commit name⟩).2.shared.get y = _ :=
    h.commit_shared hx
  rw [hdoes.shared] at hstores
  rw [h.note_commit_eq hx]
  by_cases hpublish : x.alone.dirty ∧ ¬ l.Overtaken x
  · obtain ⟨hdirty, hcurrent⟩ := hpublish
    have halone : x.alone =
        (serial x.tenant (l.published x.tenant)).begin.runAll x.tenant x.done := by
      rw [Sitting.alone, h.seen_eq hx hcurrent]
    have hpublished (y : Uuid) : (Backend.memory.commit ⟨x.tenant, x.alone⟩ w.shared).2.get y =
        serial y ((l.publish x.tenant x.done).published y) := by
      rw [hstores, serial_publish]
      by_cases hy : y = x.tenant
      · rw [if_pos ⟨hy, fun hstale => hcurrent hstale.2⟩, if_pos hy, Store.advance,
          if_pos hdirty, h.published, halone]
      · rw [if_neg fun hstale => hy hstale.1, if_neg hy, h.published]
    rw [if_pos ⟨hdirty, hcurrent⟩]
    exact Does.explains hdoes h hpublished (l.publish_grows x.tenant · x.done) rfl rfl
      fun _ hnone => by cases hnone
  · have hpublished (y : Uuid) : (Backend.memory.commit ⟨x.tenant, x.alone⟩ w.shared).2.get y =
        serial y (l.published y) := by
      rw [← hdoes.shared, h.commit_keeps hx hpublish, h.published]
    rw [if_neg hpublish]
    exact Does.explains hdoes h hpublished (fun _ => List.prefix_rfl) rfl rfl
      fun _ hnone => by cases hnone

/-- A command of its own is a session that nobody can overtake. -/
theorem Explains.note_command (h : l.Explains w) {maxDepth : Nat} {stamp : Stamp} {c : Command} :
    (l.note w ⟨maxDepth, stamp, .command tenant c⟩).Explains
      (w.turn ⟨maxDepth, stamp, .command tenant c⟩).2 := by
  let o : Operation := ⟨maxDepth, stamp, .command c⟩
  let store := w.shared.get tenant
  let u := o.run tenant store.begin
  let done := Backend.memory.execute ⟨tenant, maxDepth, stamp⟩
    (c.body ⟨tenant, maxDepth, stamp⟩) w.shared
  have hdoes : w.Does ⟨maxDepth, stamp, .command tenant c⟩ u.1 done.shared "" (w.session? "") :=
    World.does_ownCommand
  have hstores (y : Uuid) : done.shared.get y =
      if y = tenant ∧ u.1.succeeds then store.advance u.2 else w.shared.get y := by
    have hrun : u = _ := Operation.run_command
    rw [hrun]
    exact (Backend.execute_memory ..).2.2 y
  have hnote : l.note w ⟨maxDepth, stamp, .command tenant c⟩ =
      if u.1.succeeds && u.2.dirty then l.publish tenant [o] else l := by
    simp only [note, hdoes.outcome, o, store, u]
  have hsession : w.session? "" = (l.sittings "").map Sitting.held := h.sessions ""
  have hstore : store = serial tenant (l.published tenant) := h.published tenant
  have hsame : l.sittings = Function.update l.sittings "" (l.sittings "") :=
    (Function.update_eq_self ..).symm
  rw [hnote]
  by_cases hpublish : u.1.succeeds && u.2.dirty
  · obtain ⟨hok, hdirty⟩ := Bool.and_eq_true_iff.mp hpublish
    have hpublished (y : Uuid) :
        done.shared.get y = serial y ((l.publish tenant [o]).published y) := by
      rw [hstores, serial_publish]
      by_cases hy : y = tenant
      · rw [if_pos ⟨hy, hok⟩, if_pos hy, Store.advance, if_pos hdirty, ← hstore]
        rfl
      · rw [if_neg fun hboth => hy hboth.1, if_neg hy, h.published]
    rw [if_pos hpublish]
    exact Does.explains hdoes h hpublished (l.publish_grows tenant · [o]) hsame hsession
      fun x hx => (h.seen "" x hx).trans (l.publish_grows ..)
  · have hpublished (y : Uuid) : done.shared.get y = serial y (l.published y) := by
      rw [hstores]
      split
      · rename_i hend
        obtain ⟨rfl, hok⟩ := hend
        have hclean : u.2.dirty = false := by simpa [hok] using hpublish
        simp only [Store.advance, hclean]
        exact hstore
      · exact h.published y
    rw [if_neg hpublish]
    exact Does.explains hdoes h hpublished (fun _ => List.prefix_rfl) hsame hsession
      fun x hx => h.seen "" x hx

theorem Explains.note (h : l.Explains w) (t : Turn) : (l.note w t).Explains (w.turn t).2 := by
  obtain ⟨name, hname, hnone⟩ | hopen := t.event.closed_or_open l.sittings
  · exact h.note_none hnone hname
  · obtain ⟨maxDepth, stamp, event⟩ := t
    cases event with
    | begin tenant name => exact h.note_begin
    | command tenant c => exact h.note_command
    | commit name =>
      obtain ⟨x, hx⟩ := hopen name rfl
      exact h.note_commit hx
    | rollback name =>
      obtain ⟨x, hx⟩ := hopen name rfl
      exact h.note_end (World.does_rollback (h.held hx))
    | drop name =>
      obtain ⟨x, hx⟩ := hopen name rfl
      exact h.note_end (World.does_drop (h.held hx))
    | request name r =>
      obtain ⟨x, hx⟩ := hopen name rfl
      exact h.note_operation hx ⟨maxDepth, stamp, .request r⟩
    | commandIn name c =>
      obtain ⟨x, hx⟩ := hopen name rfl
      exact h.note_operation hx ⟨maxDepth, stamp, .command c⟩

theorem track_append (l : Ledger) (w : MemoryWorld) (turns more : List Turn) :
    l.track w (turns ++ more) = (l.track w turns).track (w.play turns).2 more := by
  induction turns generalizing l w with
  | nil => rfl
  | cons t rest ih => exact ih _ _

theorem after_snoc (turns : List Turn) (t : Turn) :
    after (turns ++ [t]) = (after turns).note (World.after turns) t :=
  track_append ..

theorem explains_after (turns : List Turn) : (after turns).Explains (World.after turns) := by
  induction turns using List.reverseRecOn with
  | nil => exact explains_start
  | append_singleton turns t ih =>
    rw [after_snoc, World.after_snoc]
    exact ih.note t

/-- Nothing is changed but that the session by a name is gone. -/
def Spares (name : String) (w w' : MemoryWorld) : Prop :=
  (∀ tenant, w'.shared.get tenant = w.shared.get tenant) ∧
    ∀ n, n ≠ name → w'.session? n = w.session? n

/-- What the ledger tells of the next turn. -/
structure Foretells (l : Ledger) (w : MemoryWorld) : Prop where
  operation : ∀ name x (o : Operation), l.sittings name = some x →
    (w.turn (o.within name)).1 = (o.run x.tenant x.alone).1
  ownCommand : ∀ tenant maxDepth stamp c, (w.turn ⟨maxDepth, stamp, .command tenant c⟩).1 =
    ((Operation.mk maxDepth stamp (.command c)).run tenant
      (serial tenant (l.published tenant)).begin).1
  commit : ∀ name x maxDepth stamp, l.sittings name = some x →
    (w.turn ⟨maxDepth, stamp, .commit name⟩).1 =
      .ended (if x.alone.dirty ∧ l.Overtaken x then .error .serializationConflict else .ok ())
  publishes : ∀ name x maxDepth stamp, l.sittings name = some x → x.alone.dirty →
    ¬ l.Overtaken x → x.seen = l.published x.tenant ∧
      ((w.turn ⟨maxDepth, stamp, .commit name⟩).2.shared.get x.tenant).tables = x.alone.tables
  keeps : ∀ name x maxDepth stamp, l.sittings name = some x →
    ¬ (x.alone.dirty ∧ ¬ l.Overtaken x) →
    Spares name w (w.turn ⟨maxDepth, stamp, .commit name⟩).2
  rollback : ∀ name maxDepth stamp, Spares name w (w.turn ⟨maxDepth, stamp, .rollback name⟩).2
  drop : ∀ name maxDepth stamp, Spares name w (w.turn ⟨maxDepth, stamp, .drop name⟩).2

theorem Does.spares {outcome : Outcome} {stores : Stores} {session : Option (Uuid × TenantSession)}
    (hdoes : w.Does t outcome stores name session)
    (hstores : ∀ tenant, stores.get tenant = w.shared.get tenant) :
    Spares name w (w.turn t).2 := by
  refine ⟨fun tenant => by rw [hdoes.shared, hstores], fun n hn => ?_⟩
  rw [hdoes.sessions, if_neg hn]

theorem Explains.foretells (h : l.Explains w) : l.Foretells w where
  operation name x o hx := (World.does_operation (h.held hx) o).outcome
  ownCommand tenant maxDepth stamp c := by
    have hdoes : w.Does ⟨maxDepth, stamp, .command tenant c⟩ _ _ "" _ := World.does_ownCommand
    rw [hdoes.outcome, h.published]
  commit name x maxDepth stamp hx := h.commit_outcome hx
  publishes name x maxDepth stamp hx hdirty hcurrent := by
    refine ⟨h.seen_eq hx hcurrent, ?_⟩
    rw [h.commit_shared hx, if_pos ⟨rfl, fun hstale => hcurrent hstale.2⟩, Store.advance,
      if_pos hdirty]
  keeps name x maxDepth stamp hx hno := by
    have hdoes : w.Does ⟨maxDepth, stamp, .commit name⟩ _ _ _ _ := World.does_commit (h.held hx)
    apply Does.spares hdoes
    intro y
    rw [← hdoes.shared, h.commit_keeps hx hno]
  rollback name maxDepth stamp := by
    cases hx : l.sittings name with
    | none => exact Does.spares (World.does_nothing rfl (by rw [h.sessions, hx]; rfl)) fun _ => rfl
    | some x => exact Does.spares (World.does_rollback (h.held hx)) fun _ => rfl
  drop name maxDepth stamp := by
    cases hx : l.sittings name with
    | none => exact Does.spares (World.does_nothing rfl (by rw [h.sessions, hx]; rfl)) fun _ => rfl
    | some x => exact Does.spares (World.does_drop (h.held hx)) fun _ => rfl

theorem note_grows (l : Ledger) (w : MemoryWorld) (t : Turn) (tenant : Uuid) :
    l.published tenant <+: (l.note w t).published tenant := by
  obtain ⟨maxDepth, stamp, event⟩ := t
  cases event with
  | begin tenant name => exact List.prefix_rfl
  | rollback name => exact List.prefix_rfl
  | drop name => exact List.prefix_rfl
  | request name r => exact List.prefix_rfl
  | commandIn name c => exact List.prefix_rfl
  | commit name =>
    simp only [note]
    split
    · simp only [seat]
      split
      · exact l.publish_grows ..
      · exact List.prefix_rfl
    · exact List.prefix_rfl
  | command x c =>
    simp only [note]
    split
    · exact l.publish_grows ..
    · exact List.prefix_rfl

theorem after_grows (turns more : List Turn) (tenant : Uuid) :
    (after turns).published tenant <+: (after (turns ++ more)).published tenant := by
  induction more using List.reverseRecOn with
  | nil => simp
  | append_singleton more t ih =>
    rw [← List.append_assoc, after_snoc]
    exact ih.trans (note_grows ..)

end Ledger

theorem sessions_serializable (turns : List Turn) :
    (∀ (o : Operation) tenant s, (o.run tenant s).2.tables ≠ s.tables →
      (o.run tenant s).2.dirty) ∧
    (Ledger.after turns).Explains (World.after turns) ∧
    (Ledger.after turns).Foretells (World.after turns) ∧
    ∀ more tenant, (Ledger.after turns).published tenant <+:
      (Ledger.after (turns ++ more)).published tenant := by
  have hexplains := Ledger.explains_after turns
  refine ⟨fun o tenant s h => Operation.run_dirty h, hexplains, hexplains.foretells, ?_⟩
  exact Ledger.after_grows turns

end DriveAccess
