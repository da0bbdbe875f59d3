import DriveAccess.Sql.Statement
/-!
The register of tenants, and the schema that holds the tables of each.
-/
namespace DriveAccess

/-- The schema of a tenant is named after its identifier. -/
def schemaName (tenant : Uuid) : String := "tenant_" ++ tenant.simple

/-- `tenant_` and hexadecimal digits of either case, 39 bytes in all. -/
def isSchemaName (name : String) : Bool :=
  let chars := name.toList
  chars.take 7 == "tenant_".toList && name.utf8ByteSize == 39 &&
    (chars.drop 7).all (isDigitIn 16)

def validateSchemaName (name : String) : Except StorageError Unit :=
  if isSchemaName name then .ok ()
  else .error (.internal s!"invalid tenant schema name: {name}")

namespace Statement

/-- No two tenants in the register share an identifier, a name or a schema. -/
def createTenants : Statement where
  text := "CREATE TABLE IF NOT EXISTS tenants ( id UUID PRIMARY KEY DEFAULT gen_random_uuid(), " ++
    "name TEXT NOT NULL UNIQUE, pg_schema TEXT NOT NULL UNIQUE, " ++
    "created_at TIMESTAMPTZ NOT NULL DEFAULT now() )"
  params := []
  purpose := .define

def insertTenant (tenant : Uuid) (name : String) : Statement where
  text := "INSERT INTO tenants (id, name, pg_schema) VALUES ($1, $2, $3) ON CONFLICT DO NOTHING"
  params := [.id tenant, .text name, .text (schemaName tenant)]
  purpose := .plain

def schemaTexts (schema : String) : List String :=
  [s!"CREATE SCHEMA IF NOT EXISTS {schema}",
    s!"CREATE TABLE IF NOT EXISTS {schema}.relationships ( id UUID PRIMARY KEY, " ++
      "subject_type TEXT NOT NULL, subject_id UUID NOT NULL, relation TEXT NOT NULL, " ++
      "object_type TEXT NOT NULL, object_id UUID NOT NULL, " ++
      "created_at TIMESTAMPTZ NOT NULL DEFAULT now(), " ++
      "UNIQUE (subject_type, subject_id, relation, object_type, object_id) )",
    "CREATE INDEX IF NOT EXISTS idx_relationships_object " ++
      s!"ON {schema}.relationships (object_type, object_id, relation)",
    "CREATE UNIQUE INDEX IF NOT EXISTS idx_relationships_single_parent " ++
      s!"ON {schema}.relationships (object_type, object_id) WHERE relation = 'parent'",
    "CREATE UNIQUE INDEX IF NOT EXISTS idx_relationships_single_owner " ++
      s!"ON {schema}.relationships (object_type, object_id) WHERE relation = 'owner'",
    s!"CREATE TABLE IF NOT EXISTS {schema}.permission_grants ( id UUID PRIMARY KEY, " ++
      "resource_type TEXT NOT NULL, resource_id UUID NOT NULL, grantee_type TEXT NOT NULL, " ++
      "grantee_id UUID NOT NULL, role TEXT NOT NULL CHECK (role <> 'owner'), " ++
      "granted_by UUID NOT NULL, granted_at TIMESTAMPTZ NOT NULL DEFAULT now(), " ++
      "UNIQUE (resource_type, resource_id, grantee_type, grantee_id, role) )",
    s!"CREATE TABLE IF NOT EXISTS {schema}.folders ( id UUID PRIMARY KEY, name TEXT NOT NULL, " ++
      s!"parent_id UUID REFERENCES {schema}.folders(id), owner_id UUID NOT NULL, " ++
      "depth INT NOT NULL CHECK (depth >= 0), created_at TIMESTAMPTZ NOT NULL DEFAULT now(), " ++
      "updated_at TIMESTAMPTZ NOT NULL DEFAULT now() )",
    s!"CREATE TABLE IF NOT EXISTS {schema}.folder_paths ( ancestor_id UUID NOT NULL, " ++
      "descendant_id UUID NOT NULL, path_length INT NOT NULL CHECK (path_length >= 0), " ++
      "created_at TIMESTAMPTZ NOT NULL DEFAULT now(), PRIMARY KEY (ancestor_id, descendant_id) )",
    "CREATE INDEX IF NOT EXISTS idx_folder_paths_descendant " ++
      s!"ON {schema}.folder_paths (descendant_id, path_length)",
    s!"CREATE TABLE IF NOT EXISTS {schema}.group_memberships ( group_id UUID NOT NULL, " ++
      "user_id UUID NOT NULL, role TEXT NOT NULL, " ++
      "joined_at TIMESTAMPTZ NOT NULL DEFAULT now(), PRIMARY KEY (group_id, user_id) )",
    "CREATE INDEX IF NOT EXISTS idx_group_memberships_user " ++
      s!"ON {schema}.group_memberships (user_id)"]

/-- The statements that create the tables of one tenant. -/
def createSchema (schema : String) : List Statement :=
  (schemaTexts schema).map fun text => ⟨text, [], .define⟩

end Statement

end DriveAccess
