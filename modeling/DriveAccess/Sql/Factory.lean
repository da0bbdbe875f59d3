import DriveAccess.Sql.Exchange
/-!
Access to the tenants on a database server, and the schemas remembered for it.
-/
namespace DriveAccess

/-- The schemas of the tenants that were provisioned here. -/
structure Factory where
  schemas : List (Uuid × String) := []
deriving DecidableEq

namespace Factory

/-- A tenant that was provisioned elsewhere has its schema under the usual name. -/
def schemaFor (f : Factory) (tenant : Uuid) : String :=
  (f.schemas.lookup tenant).getD (schemaName tenant)

def remember (f : Factory) (tenant : Uuid) (schema : String) : Factory :=
  ⟨(tenant, schema) :: f.schemas.filter (·.1 != tenant)⟩

/-- Provisions a tenant. Its schema is remembered once its tables are there. -/
def provision (f : Factory) (tenant : Uuid) (name : String) : Conversation Factory := do
  provisionTenant tenant name
  return f.remember tenant (schemaName tenant)

def backend (f : Factory) : Backend Exchange String := .databaseIn f.schemaFor

end Factory

end DriveAccess
