import DriveAccess.Storage.Session
/-!
Places that keep the data of many tenants and let sessions work on it.
-/
namespace DriveAccess

/-- A place of state `σ`, with sessions of state `S`. -/
structure Backend (σ S : Type) where
  begin : Uuid → σ → Except StorageError S × σ
  perform : Stamp → (r : Request) → S → σ → Except StorageError r.Answer × S × σ
  commit : S → σ → Except StorageError Unit × σ
  rollback : S → σ → Except StorageError Unit × σ
  /-- Ends a session that is neither committed nor rolled back. -/
  drop : S → σ → σ

/-- The stores of the tenants; a tenant not listed has an empty store. -/
structure Stores where
  entries : List (Uuid × Store) := []
deriving DecidableEq

def Stores.get (s : Stores) (tenant : Uuid) : Store := (s.entries.lookup tenant).getD {}

def Stores.set (s : Stores) (tenant : Uuid) (store : Store) : Stores :=
  ⟨(tenant, store) :: s.entries.filter (·.1 != tenant)⟩

structure TenantSession where
  tenant : Uuid
  session : Session
deriving DecidableEq

namespace Backend

/-- Stores in memory. Only a commit touches what sessions share. -/
def memory : Backend Stores TenantSession where
  begin tenant stores := (.ok ⟨tenant, (stores.get tenant).begin⟩, stores)
  perform stamp r s stores :=
    let (answer, session) := s.session.perform stamp r
    (answer, { s with session }, stores)
  commit s stores :=
    match (stores.get s.tenant).commit s.session with
    | .ok store => (.ok (), stores.set s.tenant store)
    | .error e => (.error e, stores)
  rollback _ stores := (.ok (), stores)
  drop _ stores := stores

end Backend

/-- A call that is to fail: the one by this name that comes after `skip` others by the name. -/
structure Fault where
  call : String
  skip : Nat
  error : StorageError
deriving DecidableEq

namespace Fault

/-- The error of the first fault that strikes a call, and the faults still to come. Faults before
it that are waiting for the call come one call nearer. -/
def strike (call : String) : List Fault → Option StorageError × List Fault
  | [] => (none, [])
  | f :: rest =>
    if f.call = call then
      if f.skip = 0 then (some f.error, rest)
      else
        let (error, rest) := strike call rest
        (error, { f with skip := f.skip - 1 } :: rest)
    else
      let (error, rest) := strike call rest
      (error, f :: rest)

end Fault

namespace Backend

variable {σ S : Type}

/-- A place of which some calls fail without reaching it. -/
def withFaults (b : Backend σ S) : Backend (List Fault × σ) S where
  begin tenant := fun (faults, x) =>
    match Fault.strike "begin" faults with
    | (some e, faults) => (.error e, faults, x)
    | (none, faults) =>
      let (r, x) := b.begin tenant x
      (r, faults, x)
  perform stamp r s := fun (faults, x) =>
    match Fault.strike r.name faults with
    | (some e, faults) => (.error e, s, faults, x)
    | (none, faults) =>
      let (answer, s, x) := b.perform stamp r s x
      (answer, s, faults, x)
  commit s := fun (faults, x) =>
    match Fault.strike "commit" faults with
    | (some e, faults) => (.error e, faults, b.drop s x)
    | (none, faults) =>
      let (r, x) := b.commit s x
      (r, faults, x)
  rollback s := fun (faults, x) =>
    match Fault.strike "rollback" faults with
    | (some e, faults) => (.error e, faults, b.drop s x)
    | (none, faults) =>
      let (r, x) := b.rollback s x
      (r, faults, x)
  drop s := fun (faults, x) => (faults, b.drop s x)

end Backend

end DriveAccess
