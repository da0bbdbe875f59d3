import DriveAccess.Proofs.Server.Schemas
/-!
The register of tenants under calls to provision, and what a success says about it.
-/
namespace DriveAccess

/-! Rows of the register. -/

structure Registration where
  id : Uuid
  name : String
  schema : String
deriving DecidableEq

/-- Whether a tenant is in the register, with the schema that sessions look for. -/
def Registered (tenant : Uuid) (rows : List Registration) : Prop :=
  ∃ r ∈ rows, r.id = tenant ∧ r.schema = schemaName tenant

instance (tenant : Uuid) (rows : List Registration) : Decidable (Registered tenant rows) :=
  inferInstanceAs (Decidable (∃ r ∈ rows, r.id = tenant ∧ r.schema = schemaName tenant))

namespace Registration

variable {rows : List Registration} {r r' : Registration} {tenant : Uuid} {name : String}

/-- Each of the three columns is a key. -/
def clashes (r r' : Registration) : Bool :=
  r.id == r'.id || r.name == r'.name || r.schema == r'.schema

/-- An insertion that does nothing on a conflict, whichever key it is about. -/
def enter (r : Registration) (rows : List Registration) : List Registration :=
  if rows.any r.clashes then rows else rows ++ [r]

/-- The row for a tenant. -/
def of (tenant : Uuid) (name : String) : Registration := ⟨tenant, name, schemaName tenant⟩

/-- The schemas are no key of their own: they clash where the identifiers do. -/
theorem clashes_of_iff {tenant' : Uuid} {name' : String} :
    (of tenant name).clashes (of tenant' name') ↔ tenant = tenant' ∨ name = name' := by
  simp only [clashes, of, Bool.or_eq_true, beq_iff_eq, schemaName_injective.eq_iff]
  tauto

theorem mem_enter (h : r' ∈ r.enter rows) : r' ∈ rows ∨ r' = r := by
  rw [enter] at h
  split at h
  · exact .inl h
  · simpa using h

/-- All rows are of the kind that provisioning enters. -/
def Regular (rows : List Registration) : Prop := ∀ r ∈ rows, r = of r.id r.name

/-- A tenant that is not in the register yet enters it unless its name is taken. -/
theorem Regular.registered_enter (h : Regular rows) :
    Registered tenant ((of tenant name).enter rows) ↔
      Registered tenant rows ∨ ∀ r ∈ rows, r.name ≠ name := by
  rw [enter]
  split
  · rename_i hclash
    -- The row in the way has the tenant's identifier, and so its schema, or only its name.
    obtain ⟨r, hr, hclash⟩ := List.any_eq_true.mp hclash
    rw [h r hr, clashes_of_iff] at hclash
    refine ⟨.inl, fun hcase => ?_⟩
    obtain hregistered | hfree := hcase
    · exact hregistered
    · have hid : tenant = r.id := hclash.resolve_right fun hname => hfree r hr hname.symm
      refine ⟨r, hr, hid.symm, ?_⟩
      rw [h r hr, hid]
      rfl
  · rename_i hfree
    refine ⟨fun _ => .inr fun r hr hname => hfree ?_, fun _ => ?_⟩
    · refine List.any_eq_true.mpr ⟨r, hr, ?_⟩
      rw [h r hr]
      exact clashes_of_iff.mpr (.inr hname.symm)
    · exact ⟨of tenant name, by simp, rfl, rfl⟩

end Registration

/-- The row that a statement asks to enter. -/
def Statement.registration? (s : Statement) : Option Registration :=
  match s.params with
  | [.id tenant, .text name, .text schema] =>
    if s.text = (insertTenant tenant name).text then some ⟨tenant, name, schema⟩ else none
  | _ => none

theorem Statement.registration?_insertTenant (tenant : Uuid) (name : String) :
    (insertTenant tenant name).registration? = some (.of tenant name) := by
  simp [registration?, insertTenant, Registration.of]

/-- A database server with a register of tenants, and whatever else. -/
structure Registrar (σ : Type) where
  answer : Dialogue.Answerer Statement (fun _ => Results) StorageError σ
  register : σ → List Registration
  /-- An insertion that succeeds is carried out. One that fails may be or not. -/
  inserts : ∀ {s r x}, s.registration? = some r → register (answer s x).2 = r.enter (register x) ∨
    (∃ e, (answer s x).1 = .error e) ∧ register (answer s x).2 = register x
  /-- No other statement touches the register. -/
  keeps : ∀ {s x}, s.registration? = none → register (answer s x).2 = register x

/-- A call to provision a tenant, wherever it is made. -/
structure Provisioning where
  tenant : Uuid
  name : String
  factory : Factory := {}

namespace Provisioning

variable (call : Provisioning)

def conversation : Conversation Factory := call.factory.provision call.tenant call.name

def row : Registration := .of call.tenant call.name

theorem conversation_eq : call.conversation =
    Conversation.send (.insertTenant call.tenant call.name) >>= fun _ =>
      createSchema (schemaName call.tenant) >>= fun _ =>
        pure (call.factory.remember call.tenant (schemaName call.tenant)) := by
  simp only [conversation, Factory.provision, provisionTenant, Conversation.execute, bind_assoc,
    pure_bind]

end Provisioning

open Dialogue in
theorem asks_createSchema (schema : String) :
    (createSchema schema).Asks (·.registration? = none) := by
  refine (Conversation.asks_ofExcept _).bind fun _ => asks_forM fun s hs => ?_
  obtain ⟨text, _, rfl⟩ := List.mem_map.mp hs
  have hnone : (⟨text, [], .define⟩ : Statement).registration? = none := rfl
  exact Asks.bind (Conversation.asks_execute hnone) fun _ => asks_pure _

namespace Registrar

variable {σ : Type} (server : Registrar σ)

def provision (call : Provisioning) (x : σ) : Except StorageError Factory × σ :=
  call.conversation.run server.answer x

/-- The server after calls, whether they succeed or fail. -/
def after (x : σ) (calls : List Provisioning) : σ :=
  calls.foldl (fun x call => (server.provision call x).2) x

/-- The tables of a tenant are no part of the register. -/
theorem register_createSchema (schema : String) (f : Factory) (x : σ) :
    server.register ((createSchema schema >>= fun _ => pure f).run server.answer x).2 =
      server.register x :=
  ((asks_createSchema schema).bind fun _ => Dialogue.asks_pure f).run_keeps
    (fun x y => server.register y = server.register x) (fun _ => rfl)
    (fun _ _ _ h h' => h'.trans h) fun _ _ => server.keeps

/-- A call enters its row, or fails and leaves the register as it is. -/
theorem register_provision (call : Provisioning) (x : σ) :
    server.register (server.provision call x).2 = call.row.enter (server.register x) ∨
      (∃ e, (server.provision call x).1 = .error e) ∧
        server.register (server.provision call x).2 = server.register x := by
  rw [provision, call.conversation_eq, Dialogue.run_bind, Conversation.send, Dialogue.run_query]
  have hinserts := server.inserts (x := x)
    (Statement.registration?_insertTenant call.tenant call.name)
  rcases hfirst : server.answer (.insertTenant call.tenant call.name) x with ⟨e | a, u⟩ <;>
    rw [hfirst] at hinserts
  · -- Nothing is sent after an insertion that fails.
    exact hinserts.imp_right fun hsame => ⟨⟨e, rfl⟩, hsame.2⟩
  · obtain henters | ⟨⟨_, hfailed⟩, _⟩ := hinserts
    · have hrest := server.register_createSchema (schemaName call.tenant)
        (call.factory.remember call.tenant (schemaName call.tenant)) u
      exact .inl (hrest.trans henters)
    · cases hfailed

/-- Every row is there from the start or entered by one of the calls. -/
theorem mem_register_after {x : σ} {calls : List Provisioning} {r : Registration}
    (h : r ∈ server.register (server.after x calls)) :
    r ∈ server.register x ∨ ∃ call ∈ calls, r = call.row := by
  induction calls generalizing x with
  | nil => exact .inl h
  | cons call calls ih =>
    -- The later calls start from the register that the first one leaves.
    obtain hfirst | ⟨c, hc, hrow⟩ := ih h
    · obtain henters | ⟨_, hsame⟩ := server.register_provision call x
      · rw [henters] at hfirst
        exact (Registration.mem_enter hfirst).imp_right fun hr => ⟨call, by simp, hr⟩
      · rw [hsame] at hfirst
        exact .inl hfirst
    · exact .inr ⟨c, List.mem_cons_of_mem _ hc, hrow⟩

/-- A server that refuses nothing and has nothing but the register. -/
def obliging : Registrar (List Registration) where
  answer s rows :=
    match s.registration? with
    | some r => (.ok { affected := (r.enter rows).length - rows.length }, r.enter rows)
    | none => (.ok {}, rows)
  register := id
  inserts {s r x} h := by
    rw [h]
    exact .inl rfl
  keeps {s x} h := by
    rw [h]

/-- From an empty register on, a success leaves the tenant in it exactly if it was there before or
no row had its name. So it does if no other tenant was to have the name. -/
theorem registered_unless_name_taken {x : σ} (hnew : server.register x = [])
    (calls : List Provisioning) (call : Provisioning)
    (hok : (server.provision call (server.after x calls)).1.isOk) :
    let before := server.register (server.after x calls)
    let rows := server.register (server.provision call (server.after x calls)).2
    (Registered call.tenant rows ↔
      Registered call.tenant before ∨ ∀ r ∈ before, r.name ≠ call.name) ∧
    ((∀ c ∈ calls, c.name = call.name → c.tenant = call.tenant) →
      Registered call.tenant rows) := by
  intro before rows
  have hbefore : ∀ r ∈ before, ∃ c ∈ calls, r = c.row := by
    intro r hr
    have hsource := server.mem_register_after hr
    rw [hnew] at hsource
    exact hsource.resolve_left List.not_mem_nil
  have hregular : Registration.Regular before := by
    intro r hr
    obtain ⟨c, _, rfl⟩ := hbefore r hr
    rfl
  have hrows : rows = call.row.enter before := by
    refine (server.register_provision call (server.after x calls)).resolve_right fun hfailed => ?_
    obtain ⟨⟨e, he⟩, _⟩ := hfailed
    rw [he] at hok
    cases hok
  have hexact : Registered call.tenant rows ↔
      Registered call.tenant before ∨ ∀ r ∈ before, r.name ≠ call.name := by
    rw [hrows]
    exact hregular.registered_enter
  refine ⟨hexact, fun hown => hexact.mpr ?_⟩
  by_cases hfree : ∀ r ∈ before, r.name ≠ call.name
  · exact .inr hfree
  · push Not at hfree
    obtain ⟨r, hr, hname⟩ := hfree
    obtain ⟨c, hc, rfl⟩ := hbefore r hr
    have hid : c.tenant = call.tenant := hown c hc hname
    exact .inl ⟨c.row, hr, hid, congrArg schemaName hid⟩

theorem registered_unless_name_taken_newcomer :
    let acme : Provisioning := ⟨.ofNat 1, "acme", {}⟩
    let newcomer : Provisioning := ⟨.ofNat 2, "harbour", {}⟩
    obliging.register [] = [] ∧
      (obliging.provision newcomer (obliging.after [] [acme])).1.isOk ∧
      (∀ c ∈ [acme], c.name = newcomer.name → c.tenant = newcomer.tenant) ∧
      Registered newcomer.tenant
        (obliging.register (obliging.provision newcomer (obliging.after [] [acme])).2) := by
  intro acme newcomer
  have hok : (obliging.provision newcomer (obliging.after [] [acme])).1.isOk := by decide
  have hown : ∀ c ∈ [acme], c.name = newcomer.name → c.tenant = newcomer.tenant := by decide
  exact ⟨rfl, hok, hown, (obliging.registered_unless_name_taken rfl [acme] newcomer hok).2 hown⟩

/-- Under a name that another tenant has, a call succeeds and leaves its tenant out. -/
theorem success_does_not_register : ¬ ∀ (σ : Type) (server : Registrar σ) (x : σ),
    server.register x = [] → ∀ (calls : List Provisioning) (call : Provisioning),
      let last := server.provision call (server.after x calls)
      last.1.isOk → Registered call.tenant (server.register last.2) := by
  intro hclaim
  have hregistered := hclaim _ obliging [] rfl [⟨.ofNat 1, "acme", {}⟩] ⟨.ofNat 2, "acme", {}⟩
    (by decide)
  revert hregistered
  decide

end Registrar

end DriveAccess
