import DriveAccess.Proofs.Runs.Ledgers
/-!
Tenants that share a place in memory: what a tenant is answered, has published and has open depends
on the tenant's own turns alone, whatever the turns of others in between.
-/
namespace DriveAccess.World

/-- For whom an event is: the tenant that it names, or the one whose open session it is about. It is
nobody's if there is no such session. -/
def tenant? (w : MemoryWorld) : Event → Option Uuid
  | .begin tenant _ | .command tenant _ => some tenant
  | .commit name | .rollback name | .drop name | .request name _ | .commandIn name _ =>
    (w.session? name).map (·.1)

/-- The turns of one tenant among the turns of all, with their outcomes. -/
def own (w : MemoryWorld) (tenant : Uuid) : List Turn → List (Turn × Outcome)
  | [] => []
  | t :: rest =>
    let (outcome, later) := w.turn t
    if w.tenant? t.event = some tenant then (t, outcome) :: later.own tenant rest
    else later.own tenant rest

/-- A world in which a tenant finds all that is the tenant's in another one. Sessions of the tenant
that somebody else has put away there may still be open here. -/
structure Mirrors (w : MemoryWorld) (tenant : Uuid) (v : MemoryWorld) : Prop where
  published : v.shared.get tenant = w.shared.get tenant
  held : ∀ name s, w.session? name = some (tenant, s) → v.session? name = some (tenant, s)
  bound : ∀ name x s, w.session? name = some (x, s) → s.tenant = x

variable {w v v' : MemoryWorld} {tenant : Uuid} {t : Turn} {outcome : Outcome}
  {stores stores' : Stores} {name : String} {session session' : Option (Uuid × TenantSession)}
  {s : TenantSession}

theorem tenant?_within {e : Event} (he : e.within = some name) :
    w.tenant? e = (w.session? name).map (·.1) := by
  cases e <;> cases he <;> rfl

/-- A turn changes one session, so that there is one to compare. -/
theorem Does.mirrors (hdoes : w.Does t outcome stores name session) (h : w.Mirrors tenant v)
    (hpublished : v'.shared.get tenant = stores.get tenant)
    (hothers : ∀ n, n ≠ name → v'.session? n = v.session? n)
    (hheld : ∀ s, session = some (tenant, s) → v'.session? name = some (tenant, s))
    (hbound : ∀ x s, session = some (x, s) → s.tenant = x) : (w.turn t).2.Mirrors tenant v' where
  published := by rw [hpublished, hdoes.shared]
  held n s hs := by
    rw [hdoes.sessions] at hs
    by_cases hn : n = name
    · rw [if_pos hn] at hs
      rw [hn]
      exact hheld s hs
    · rw [if_neg hn] at hs
      rw [hothers n hn]
      exact h.held n s hs
  bound n x s hs := by
    rw [hdoes.sessions] at hs
    by_cases hn : n = name
    · rw [if_pos hn] at hs
      exact hbound x s hs
    · rw [if_neg hn] at hs
      exact h.bound n x s hs

/-- A turn taken in both worlds with one outcome. -/
theorem Mirrors.both (h : w.Mirrors tenant v) (hw : w.Does t outcome stores name session)
    (hv : v.Does t outcome stores' name session')
    (hpublished : stores'.get tenant = stores.get tenant)
    (hheld : ∀ s, session = some (tenant, s) → session' = some (tenant, s))
    (hbound : ∀ x s, session = some (x, s) → s.tenant = x) :
    (v.turn t).1 = (w.turn t).1 ∧ (w.turn t).2.Mirrors tenant (v.turn t).2 := by
  refine ⟨hv.outcome.trans hw.outcome.symm, hw.mirrors h ?_ ?_ ?_ hbound⟩
  · rw [hv.shared, hpublished]
  · intro n hn
    rw [hv.sessions, if_neg hn]
  · intro s hs
    rw [hv.sessions, if_pos rfl]
    exact hheld s hs

/-- A turn of somebody else, which leaves nothing new of the tenant's. -/
theorem Mirrors.apart (h : w.Mirrors tenant v) (hw : w.Does t outcome stores name session)
    (hpublished : stores.get tenant = w.shared.get tenant)
    (hheld : ∀ s, session = some (tenant, s) → v.session? name = some (tenant, s))
    (hbound : ∀ x s, session = some (x, s) → s.tenant = x) : (w.turn t).2.Mirrors tenant v :=
  hw.mirrors h (h.published.trans hpublished.symm) (fun _ _ => rfl) hheld hbound

private theorem bound_none : ∀ x s, (none : Option (Uuid × TenantSession)) = some (x, s) →
    s.tenant = x := by
  intro x s hs
  cases hs

private theorem bound_some (hs : s.tenant = tenant) :
    ∀ x z, some (tenant, s) = some (x, z) → z.tenant = x := by
  intro x z hz
  cases hz
  exact hs

/-- What a tenant does comes to the same in both worlds. -/
theorem Mirrors.own (h : w.Mirrors tenant v) (ht : w.tenant? t.event = some tenant) :
    (v.turn t).1 = (w.turn t).1 ∧ (w.turn t).2.Mirrors tenant (v.turn t).2 := by
  obtain ⟨name, hname, hnone⟩ | hopen := t.event.closed_or_open w.session?
  · rw [tenant?_within hname, hnone] at ht
    cases ht
  · have hfound (name : String) (hname : t.event.within = some name) :
        ∃ s, w.session? name = some (tenant, s) ∧ v.session? name = some (tenant, s) ∧
          s.tenant = tenant := by
      obtain ⟨⟨x, s⟩, hs⟩ := hopen name hname
      rw [tenant?_within hname, hs] at ht
      obtain rfl : x = tenant := Option.some.inj ht
      exact ⟨s, hs, h.held name s hs, h.bound name x s hs⟩
    obtain ⟨maxDepth, stamp, event⟩ := t
    cases event with
    | begin x name =>
      obtain rfl : x = tenant := Option.some.inj ht
      refine h.both does_begin does_begin h.published ?_ (bound_some rfl)
      intro s hs
      rw [h.published, hs]
    | command x c =>
      obtain rfl : x = tenant := Option.some.inj ht
      have hv : v.Does ⟨maxDepth, stamp, .command x c⟩ _ _ _ _ := does_command ""
      rw [h.published] at hv
      refine h.both (does_command "") hv ?_ (h.held "") (h.bound "")
      rw [(Backend.execute_memory ..).2.2, (Backend.execute_memory ..).2.2, h.published]
    | commit name =>
      obtain ⟨s, hw, hv, hs⟩ := hfound name rfl
      have hdoes : v.Does ⟨maxDepth, stamp, .commit name⟩ _ _ _ _ := does_commit hv
      rw [(Backend.commit_memory ..).1, hs, h.published] at hdoes
      have hdoes' : w.Does ⟨maxDepth, stamp, .commit name⟩ _ _ _ _ := does_commit hw
      rw [(Backend.commit_memory ..).1, hs] at hdoes'
      refine h.both hdoes' hdoes ?_ (fun _ he => he) bound_none
      rw [(Backend.commit_memory ..).2, (Backend.commit_memory ..).2, hs, h.published]
    | rollback name =>
      obtain ⟨s, hw, hv, hs⟩ := hfound name rfl
      exact h.both (does_rollback hw) (does_rollback hv) h.published (fun _ he => he) bound_none
    | drop name =>
      obtain ⟨s, hw, hv, hs⟩ := hfound name rfl
      exact h.both (does_drop hw) (does_drop hv) h.published (fun _ he => he) bound_none
    | request name r =>
      obtain ⟨s, hw, hv, hs⟩ := hfound name rfl
      exact h.both (does_request hw) (does_request hv) h.published (fun _ he => he)
        (bound_some hs)
    | commandIn name c =>
      obtain ⟨s, hw, hv, hs⟩ := hfound name rfl
      exact h.both (does_commandIn hw) (does_commandIn hv) h.published (fun _ he => he)
        (bound_some hs)

/-- What others do leaves alone what a tenant has. -/
theorem Mirrors.other (h : w.Mirrors tenant v) (ht : w.tenant? t.event ≠ some tenant) :
    (w.turn t).2.Mirrors tenant v := by
  -- what the turn publishes and the session that it leaves are somebody else's
  obtain ⟨name, hname, hnone⟩ | hopen := t.event.closed_or_open w.session?
  · exact h.apart (does_nothing hname hnone) rfl (by simp) bound_none
  · have hfound (name : String) (hname : t.event.within = some name) :
        ∃ x s, w.session? name = some (x, s) ∧ s.tenant = x ∧ tenant ≠ x := by
      obtain ⟨⟨x, s⟩, hs⟩ := hopen name hname
      rw [tenant?_within hname, hs] at ht
      refine ⟨x, s, hs, h.bound name x s hs, ?_⟩
      intro he
      exact ht (by simp [he])
    have hforeign {x : Uuid} {z : TenantSession} {name : String} (hne : tenant ≠ x) :
        ∀ s, some (x, z) = some (tenant, s) → v.session? name = some (tenant, s) := by
      intro s hs
      cases hs
      exact absurd rfl hne
    obtain ⟨maxDepth, stamp, event⟩ := t
    cases event with
    | begin x name =>
      have hne : tenant ≠ x := fun he => ht (by simp [tenant?, he])
      exact h.apart does_begin rfl (hforeign hne) (bound_some rfl)
    | command x c =>
      have hne : tenant ≠ x := fun he => ht (by simp [tenant?, he])
      refine h.apart (does_command "") ?_ (h.held "") (h.bound "")
      rw [(Backend.execute_memory ..).2.2, if_neg]
      exact fun he => hne he.1
    | commit name =>
      obtain ⟨x, s, hw, hs, hne⟩ := hfound name rfl
      refine h.apart (does_commit hw) ?_ (by simp) bound_none
      rw [(Backend.commit_memory ..).2, if_neg]
      exact fun he => hne (he.1.trans hs)
    | rollback name =>
      obtain ⟨x, s, hw, _, _⟩ := hfound name rfl
      exact h.apart (does_rollback hw) rfl (by simp) bound_none
    | drop name =>
      obtain ⟨x, s, hw, _, _⟩ := hfound name rfl
      exact h.apart (does_drop hw) rfl (by simp) bound_none
    | request name r =>
      obtain ⟨x, s, hw, hs, hne⟩ := hfound name rfl
      exact h.apart (does_request hw) rfl (hforeign hne) (bound_some hs)
    | commandIn name c =>
      obtain ⟨x, s, hw, hs, hne⟩ := hfound name rfl
      exact h.apart (does_commandIn hw) rfl (hforeign hne) (bound_some hs)

/-- A whole run, of which the tenant's own turns are taken in the other world. -/
theorem Mirrors.play (h : w.Mirrors tenant v) (turns : List Turn) :
    (v.play ((w.own tenant turns).map (·.1))).1 = (w.own tenant turns).map (·.2) ∧
      (w.play turns).2.Mirrors tenant (v.play ((w.own tenant turns).map (·.1))).2 := by
  -- the other world stands still while others are at work
  induction turns generalizing w v with
  | nil => exact ⟨rfl, h⟩
  | cons t rest ih =>
    by_cases ht : w.tenant? t.event = some tenant
    · obtain ⟨houtcome, hnext⟩ := h.own ht
      obtain ⟨houtcomes, hlast⟩ := ih hnext
      simp only [World.own, if_pos ht, List.map_cons, World.play, houtcomes, houtcome, true_and]
      exact hlast
    · simp only [World.own, if_neg ht, World.play]
      exact ih (h.other ht)

theorem mirrors_start (tenant : Uuid) : start.Mirrors tenant start where
  published := rfl
  held _ _ hs := hs
  bound _ _ _ hs := by cases hs

theorem tenants_isolated (tenant : Uuid) (turns : List Turn) :
    (start.play ((start.own tenant turns).map (·.1))).1 = (start.own tenant turns).map (·.2) ∧
    (after ((start.own tenant turns).map (·.1))).shared.get tenant =
      (after turns).shared.get tenant ∧
    (∀ name s, (after turns).session? name = some (tenant, s) →
      (after ((start.own tenant turns).map (·.1))).session? name = some (tenant, s)) ∧
    ∀ others, (start.own tenant others).map (·.1) = (start.own tenant turns).map (·.1) →
      start.own tenant others = start.own tenant turns ∧
      (after others).shared.get tenant = (after turns).shared.get tenant := by
  obtain ⟨houtcomes, hmirrors⟩ := (mirrors_start tenant).play turns
  refine ⟨houtcomes, hmirrors.published, hmirrors.held, ?_⟩
  intro others hsame
  obtain ⟨houtcomes', hmirrors'⟩ := (mirrors_start tenant).play others
  rw [hsame] at houtcomes' hmirrors'
  constructor
  · calc
      start.own tenant others = ((start.own tenant turns).map (·.1)).zip _ :=
        List.zip_of_prod hsame houtcomes'.symm
      _ = start.own tenant turns := (List.zip_of_prod rfl houtcomes.symm).symm
  · exact hmirrors'.published.symm.trans hmirrors.published

/-- Two tenants at work at the same time, who draw the same identifiers. -/
def neighbours : List Turn :=
  let user := Uuid.ofNat 50
  [⟨21, ⟨.ofNat 1, 100⟩, .begin (.ofNat 7) "left"⟩,
    ⟨21, ⟨.ofNat 1, 100⟩, .begin (.ofNat 8) "right"⟩,
    ⟨21, ⟨.ofNat 2, 101⟩, .commandIn "left" (.createFolder user "home" none)⟩,
    ⟨21, ⟨.ofNat 2, 101⟩, .commandIn "right" (.createFolder user "home" none)⟩,
    ⟨21, ⟨.ofNat 3, 102⟩, .commit "right"⟩,
    ⟨21, ⟨.ofNat 4, 103⟩, .command (.ofNat 8) (.registerFile user (.ofNat 60) (.ofNat 2))⟩,
    ⟨21, ⟨.ofNat 5, 104⟩, .commit "left"⟩,
    ⟨21, ⟨.ofNat 6, 105⟩, .command (.ofNat 7) (.deleteFile user (.ofNat 60))⟩]

theorem tenants_isolated_neighbours :
    (start.own (.ofNat 7) neighbours).map (·.2.succeeds) = [true, true, true, false] ∧
    (start.play ((start.own (.ofNat 7) neighbours).map (·.1))).1.map Outcome.succeeds =
      [true, true, true, false] := by
  have hown : (start.own (.ofNat 7) neighbours).map (·.2.succeeds) = [true, true, true, false] := by
    decide
  obtain ⟨houtcomes, _⟩ := tenants_isolated (.ofNat 7) neighbours
  refine ⟨hown, ?_⟩
  rw [houtcomes, List.map_map]
  exact hown

end DriveAccess.World
