import SkidMonitor.Lib.Text
import SkidMonitor.Server.Answers

/-! The check of the schema before a service starts: what the catalog of the database must hold,
the problems the check reports, and what is true of a catalog it reports none for. -/
namespace SkidMonitor.Startup

open Fallible List

structure PgClass where
  oid : ℕ
  relname : String
  nspname : String
  relkind : Char
  relrowsecurity : Bool
  relforcerowsecurity : Bool
  deriving DecidableEq

/-- `dataType` is the text `format_type` gives for the type of the column. -/
structure PgAttribute where
  attrelid : ℕ
  attname : String
  attnum : ℤ
  attisdropped : Bool
  dataType : String
  attnotnull : Bool
  attidentity : String
  deriving DecidableEq

structure PgConstraint where
  conrelid : ℕ
  conname : String
  contype : String
  convalidated : Bool
  deriving DecidableEq

structure PgIndex where
  indrelid : ℕ
  indexrelid : ℕ
  indisvalid : Bool
  indisready : Bool
  deriving DecidableEq

/-- The expressions are the texts `pg_get_expr` gives for them. -/
structure PgPolicy where
  polrelid : ℕ
  polname : String
  polpermissive : Bool
  polcmd : String
  polroles : List ℕ
  polqual : Option Str
  polwithcheck : Option Str
  deriving DecidableEq

/-- The catalog, with the unique indexes PostgreSQL keeps on it. -/
structure Catalog where
  classes : List PgClass
  attributes : List PgAttribute
  constraints : List PgConstraint
  indexes : List PgIndex
  policies : List PgPolicy
  canReadMigrations : Bool
  name_unique : (classes.map fun c => (c.relname, c.nspname)).Nodup
  policy_unique : (policies.map fun p => (p.polrelid, p.polname)).Nodup

def tenantRelations : List String :=
  ["tenants", "agents", "signal_events", "signal_projection", "audit_events", "stream_tickets"]

def requiredRelations : List String :=
  ["_sqlx_migrations", "tenants", "agents", "signal_events", "signal_projection", "audit_events",
    "stream_tickets"]

structure RequiredColumn where
  relation : String
  name : String
  dataType : String
  notNull : Bool
  identity : String

def requiredColumns : List RequiredColumn :=
  [⟨"_sqlx_migrations", "version", "bigint", true, ""⟩,
    ⟨"_sqlx_migrations", "description", "text", true, ""⟩,
    ⟨"_sqlx_migrations", "installed_on", "timestamp with time zone", true, ""⟩,
    ⟨"_sqlx_migrations", "success", "boolean", true, ""⟩,
    ⟨"_sqlx_migrations", "checksum", "bytea", true, ""⟩,
    ⟨"_sqlx_migrations", "execution_time", "bigint", true, ""⟩,
    ⟨"tenants", "id", "uuid", true, ""⟩,
    ⟨"tenants", "slug", "text", true, ""⟩,
    ⟨"tenants", "display_name", "text", true, ""⟩,
    ⟨"tenants", "enabled", "boolean", true, ""⟩,
    ⟨"tenants", "created_at", "timestamp with time zone", true, ""⟩,
    ⟨"tenants", "updated_at", "timestamp with time zone", true, ""⟩,
    ⟨"agents", "tenant_id", "uuid", true, ""⟩,
    ⟨"agents", "agent_id", "text", true, ""⟩,
    ⟨"agents", "display_name", "text", false, ""⟩,
    ⟨"agents", "enabled", "boolean", true, ""⟩,
    ⟨"agents", "enrolled_at", "timestamp with time zone", true, ""⟩,
    ⟨"agents", "updated_at", "timestamp with time zone", true, ""⟩,
    ⟨"agents", "last_seen_at", "timestamp with time zone", false, ""⟩,
    ⟨"signal_events", "cursor", "bigint", true, "a"⟩,
    ⟨"signal_events", "tenant_id", "uuid", true, ""⟩,
    ⟨"signal_events", "event_id", "uuid", true, ""⟩,
    ⟨"signal_events", "agent_id", "text", true, ""⟩,
    ⟨"signal_events", "sequence", "numeric(20,0)", true, ""⟩,
    ⟨"signal_events", "received_at_unix_nano", "numeric(20,0)", true, ""⟩,
    ⟨"signal_events", "signal_kind", "text", true, ""⟩,
    ⟨"signal_events", "payload", "jsonb", true, ""⟩,
    ⟨"signal_events", "payload_bytes", "bigint", true, ""⟩,
    ⟨"signal_events", "committed_at", "timestamp with time zone", true, ""⟩,
    ⟨"signal_projection", "tenant_id", "uuid", true, ""⟩,
    ⟨"signal_projection", "last_cursor", "bigint", true, ""⟩,
    ⟨"signal_projection", "projection", "jsonb", true, ""⟩,
    ⟨"signal_projection", "updated_at", "timestamp with time zone", true, ""⟩,
    ⟨"audit_events", "id", "bigint", true, "a"⟩,
    ⟨"audit_events", "tenant_id", "uuid", true, ""⟩,
    ⟨"audit_events", "actor_type", "text", true, ""⟩,
    ⟨"audit_events", "actor_id", "text", true, ""⟩,
    ⟨"audit_events", "action", "text", true, ""⟩,
    ⟨"audit_events", "target_type", "text", true, ""⟩,
    ⟨"audit_events", "target_id", "text", true, ""⟩,
    ⟨"audit_events", "details", "jsonb", true, ""⟩,
    ⟨"audit_events", "occurred_at", "timestamp with time zone", true, ""⟩,
    ⟨"stream_tickets", "ticket_id", "uuid", true, ""⟩,
    ⟨"stream_tickets", "tenant_id", "uuid", true, ""⟩,
    ⟨"stream_tickets", "subject", "text", true, ""⟩,
    ⟨"stream_tickets", "created_at", "timestamp with time zone", true, ""⟩,
    ⟨"stream_tickets", "authorized_until", "timestamp with time zone", true, ""⟩,
    ⟨"stream_tickets", "expires_at", "timestamp with time zone", true, ""⟩,
    ⟨"stream_tickets", "consumed_at", "timestamp with time zone", false, ""⟩]

structure RequiredConstraint where
  relation : String
  name : String
  constraintType : String

def requiredConstraints : List RequiredConstraint :=
  [⟨"_sqlx_migrations", "_sqlx_migrations_pkey", "p"⟩,
    ⟨"tenants", "tenants_pkey", "p"⟩,
    ⟨"tenants", "tenants_slug_key", "u"⟩,
    ⟨"tenants", "tenants_slug_not_blank", "c"⟩,
    ⟨"tenants", "tenants_display_name_not_blank", "c"⟩,
    ⟨"agents", "agents_pkey", "p"⟩,
    ⟨"agents", "agents_tenant_id_fkey", "f"⟩,
    ⟨"agents", "agents_id_size", "c"⟩,
    ⟨"agents", "agents_id_no_control_characters", "c"⟩,
    ⟨"agents", "agents_display_name_not_blank", "c"⟩,
    ⟨"signal_events", "signal_events_pkey", "p"⟩,
    ⟨"signal_events", "signal_events_tenant_id_fkey", "f"⟩,
    ⟨"signal_events", "signal_events_agent_fk", "f"⟩,
    ⟨"signal_events", "signal_events_tenant_event_unique", "u"⟩,
    ⟨"signal_events", "signal_events_tenant_agent_sequence_unique", "u"⟩,
    ⟨"signal_events", "signal_events_cursor_positive", "c"⟩,
    ⟨"signal_events", "signal_events_sequence_non_negative", "c"⟩,
    ⟨"signal_events", "signal_events_sequence_u64", "c"⟩,
    ⟨"signal_events", "signal_events_received_at_non_negative", "c"⟩,
    ⟨"signal_events", "signal_events_received_at_u64", "c"⟩,
    ⟨"signal_events", "signal_events_kind", "c"⟩,
    ⟨"signal_events", "signal_events_payload_object", "c"⟩,
    ⟨"signal_events", "signal_events_payload_bytes_positive", "c"⟩,
    ⟨"signal_events", "signal_events_payload_bytes_bounded", "c"⟩,
    ⟨"signal_projection", "signal_projection_pkey", "p"⟩,
    ⟨"signal_projection", "signal_projection_tenant_id_fkey", "f"⟩,
    ⟨"signal_projection", "signal_projection_last_cursor_non_negative", "c"⟩,
    ⟨"signal_projection", "signal_projection_object", "c"⟩,
    ⟨"audit_events", "audit_events_pkey", "p"⟩,
    ⟨"audit_events", "audit_events_tenant_id_fkey", "f"⟩,
    ⟨"audit_events", "audit_events_actor_type_not_blank", "c"⟩,
    ⟨"audit_events", "audit_events_actor_id_not_blank", "c"⟩,
    ⟨"audit_events", "audit_events_action_not_blank", "c"⟩,
    ⟨"audit_events", "audit_events_target_type_not_blank", "c"⟩,
    ⟨"audit_events", "audit_events_target_id_not_blank", "c"⟩,
    ⟨"audit_events", "audit_events_details_object", "c"⟩,
    ⟨"stream_tickets", "stream_tickets_pkey", "p"⟩,
    ⟨"stream_tickets", "stream_tickets_tenant_id_fkey", "f"⟩,
    ⟨"stream_tickets", "stream_tickets_subject_not_blank", "c"⟩,
    ⟨"stream_tickets", "stream_tickets_subject_size", "c"⟩,
    ⟨"stream_tickets", "stream_tickets_authorization_after_creation", "c"⟩,
    ⟨"stream_tickets", "stream_tickets_expiry_after_creation", "c"⟩,
    ⟨"stream_tickets", "stream_tickets_expiry_within_authorization", "c"⟩,
    ⟨"stream_tickets", "stream_tickets_consumed_before_expiry", "c"⟩]

def requiredIndexes : List (String × String) :=
  [("signal_events", "signal_events_tenant_cursor_idx"),
    ("signal_events", "signal_events_tenant_committed_at_idx"),
    ("audit_events", "audit_events_tenant_occurred_at_idx"),
    ("stream_tickets", "stream_tickets_cleanup_idx")]

inductive RuntimeQuery where
  | relations
  | migrationSelectPrivilege
  | columns
  | constraints
  | indexes
  | policies

section Queries
variable (cat : Catalog) (names : List String)

/-- The relations of those names in the schema `public`. -/
def Catalog.publicClasses : List PgClass :=
  cat.classes.filter fun c => c.nspname = "public" ∧ c.relname ∈ names

/-- Those of them that are tables. -/
def Catalog.publicTables : List PgClass :=
  (cat.publicClasses names).filter fun c => c.relkind ∈ ['r', 'p']

def Catalog.runtimeRelations : List (String × Bool × Bool) :=
  (cat.publicTables names).map fun c => (c.relname, c.relrowsecurity, c.relforcerowsecurity)

def Catalog.runtimeColumns : List ((String × String) × String × Bool × String) := do
  let a ← cat.attributes.filter fun a => 0 < a.attnum ∧ a.attisdropped = false
  let c ← (cat.publicTables names).filter fun c => c.oid = a.attrelid
  return ((c.relname, a.attname), a.dataType, a.attnotnull, a.attidentity)

def Catalog.runtimeConstraints : List ((String × String) × String × Bool) := do
  let k ← cat.constraints
  let c ← (cat.publicClasses names).filter fun c => c.oid = k.conrelid
  return ((c.relname, k.conname), k.contype, k.convalidated)

def Catalog.runtimeIndexes : List ((String × String) × Bool × Bool) := do
  let x ← cat.indexes
  let c ← (cat.publicClasses names).filter fun c => c.oid = x.indrelid
  let d ← cat.classes.filter fun d => d.oid = x.indexrelid
  return ((c.relname, d.relname), x.indisvalid, x.indisready)

structure PolicyRow where
  permissive : Bool
  command : String
  publicOnly : Bool
  usingExpression : Option Str
  checkExpression : Option Str

def PgPolicy.row (p : PgPolicy) : PolicyRow where
  permissive := p.polpermissive
  command := p.polcmd
  publicOnly := p.polroles = [0]
  usingExpression := p.polqual
  checkExpression := p.polwithcheck

def Catalog.runtimePolicies : List ((String × String) × PolicyRow) := do
  let p ← cat.policies
  let c ← (cat.publicClasses names).filter fun c => c.oid = p.polrelid
  return ((c.relname, p.polname), p.row)

end Queries

def normalizePolicyExpression (expression : Str) : Str :=
  (Escape.replace "::text".toList [] (expression.map Char.toLower)).filter fun c =>
    !Text.isWhitespace c && c ≠ '(' && c ≠ ')'

def expectedTenantPolicyName (relation : String) : String := relation ++ "_tenant_isolation"

def isAllowedRuntimePolicyName (relation policyName : String) : Bool :=
  relation ∉ tenantRelations || policyName = expectedTenantPolicyName relation

def tenantColumn (relation : String) : String :=
  if relation = "tenants" then "id" else "tenant_id"

def tenantEquality (relation : String) : Str :=
  (tenantColumn relation ++ " = NULLIF(current_setting('app.tenant_id', true), '')::uuid").toList

def expectedExpression (relation : String) : Str :=
  normalizePolicyExpression (tenantEquality relation)

-- The expression as PostgreSQL prints it.
example : normalizePolicyExpression
    "(id = (NULLIF(current_setting('app.tenant_id'::text, true), ''::text))::uuid)".toList =
      expectedExpression "tenants" := by
  decide +kernel

section Problems

def relationProblems (relations : AList fun _ : String => Bool × Bool) : List String :=
  requiredRelations.filterMap fun relation =>
    if (relations.lookup relation).isNone then some ("missing public." ++ relation ++ " relation")
    else none

def rowSecurityProblems (relations : AList fun _ : String => Bool × Bool) : List String :=
  tenantRelations.filterMap fun relation =>
    match relations.lookup relation with
    | some (rowSecurity, forceRowSecurity) =>
      if !rowSecurity || !forceRowSecurity then
        some ("public." ++ relation ++ " must enable and force row-level security")
      else none
    | none => none

def privilegeProblems (canReadMigrations : Bool) : List String :=
  if canReadMigrations then []
  else ["runtime role needs SELECT on public._sqlx_migrations for checksum verification"]

def columnProblems (columns : AList fun _ : String × String => String × Bool × String) :
    List String :=
  requiredColumns.filterMap fun required =>
    match columns.lookup (required.relation, required.name) with
    | none => some ("missing public." ++ required.relation ++ "." ++ required.name ++ " column")
    | some (dataType, notNull, identity) =>
      if dataType ≠ required.dataType ∨ notNull ≠ required.notNull ∨ identity ≠ required.identity then
        some ("public." ++ required.relation ++ "." ++ required.name ++
          " has incompatible type, nullability, or identity mode")
      else none

def constraintProblems (constraints : AList fun _ : String × String => String × Bool) :
    List String :=
  requiredConstraints.filterMap fun required =>
    let problem := "missing or incompatible " ++ required.constraintType ++ " constraint public." ++
      required.relation ++ "." ++ required.name
    match constraints.lookup (required.relation, required.name) with
    | some (constraintType, validated) =>
      if constraintType = required.constraintType ∧ validated then none else some problem
    | none => some problem

def indexProblems (indexes : AList fun _ : String × String => Bool × Bool) : List String :=
  requiredIndexes.filterMap fun (relation, index) =>
    let problem := "missing, invalid, or unready index public." ++ index ++ " on public." ++ relation
    match indexes.lookup (relation, index) with
    | some (valid, ready) => if valid && ready then none else some problem
    | none => some problem

/-- The order in which the keys are visited is not specified. -/
def unexpectedPolicyProblems (policies : AList fun _ : String × String => PolicyRow) : List String :=
  policies.keys.filterMap fun (relation, policyName) =>
    if isAllowedRuntimePolicyName relation policyName then none
    else some ("public." ++ relation ++ " has unexpected row-level security policy " ++ policyName)

def PolicyRow.isolates (policy : PolicyRow) (relation : String) : Bool :=
  policy.permissive && policy.command = "*" && policy.publicOnly &&
    policy.usingExpression.map normalizePolicyExpression = some (expectedExpression relation) &&
    policy.checkExpression.map normalizePolicyExpression = some (expectedExpression relation)

def tenantPolicyProblems (policies : AList fun _ : String × String => PolicyRow) : List String :=
  tenantRelations.filterMap fun relation =>
    let policyName := expectedTenantPolicyName relation
    if (policies.lookup (relation, policyName)).any (·.isolates relation) then none
    else some ("public." ++ relation ++ " is missing exact tenant isolation policy " ++ policyName)

end Problems

/-- The answer of a query, or the error of the database. -/
def fetch {α : Type} (outage : RuntimeQuery → Option DbError) (query : RuntimeQuery) (answer : α) :
    Except PgStoreError α :=
  match outage query with
  | some error => .error (.database error)
  | none => .ok answer

open Table (collect) in
def runtimeStructureProblems (cat : Catalog) (outage : RuntimeQuery → Option DbError) :
    Except PgStoreError (List String) := do
  let relations := collect (← fetch outage .relations (cat.runtimeRelations requiredRelations))
  let problems := relationProblems relations ++ rowSecurityProblems relations
  if (relations.lookup "_sqlx_migrations").isNone then return problems
  let canReadMigrations ← fetch outage .migrationSelectPrivilege cat.canReadMigrations
  let columns := collect (← fetch outage .columns (cat.runtimeColumns requiredRelations))
  let constraints := collect (← fetch outage .constraints (cat.runtimeConstraints requiredRelations))
  let indexes := collect (← fetch outage .indexes (cat.runtimeIndexes requiredRelations))
  let policies := collect (← fetch outage .policies (cat.runtimePolicies requiredRelations))
  return problems ++ privilegeProblems canReadMigrations ++ columnProblems columns ++
    constraintProblems constraints ++ indexProblems indexes ++ unexpectedPolicyProblems policies ++
    tenantPolicyProblems policies

/-- The relation `name` of the schema `public`. -/
def PgClass.IsPublic (c : PgClass) (name : String) : Prop := c.nspname = "public" ∧ c.relname = name

def PgClass.IsTable (c : PgClass) : Prop := c.relkind = 'r' ∨ c.relkind = 'p'

/-- The only policy of a relation, which keeps every row to the tenant of the connection. -/
structure PgPolicy.Isolates (p : PgPolicy) (relation : String) : Prop where
  permissive : p.polpermissive = true
  command : p.polcmd = "*"
  roles : p.polroles = [0]
  usingExpression : ∃ text, p.polqual = some text ∧
    normalizePolicyExpression text = expectedExpression relation
  checkExpression : ∃ text, p.polwithcheck = some text ∧
    normalizePolicyExpression text = expectedExpression relation

/-- What a service relies on. -/
structure Catalog.Ready (cat : Catalog) : Prop where
  relations : ∀ relation ∈ requiredRelations,
    ∃ c ∈ cat.classes, c.IsPublic relation ∧ c.IsTable
  rowSecurity : ∀ relation ∈ tenantRelations, ∀ c ∈ cat.classes, c.IsPublic relation →
    c.relrowsecurity = true ∧ c.relforcerowsecurity = true
  policy : ∀ relation ∈ tenantRelations, ∀ c ∈ cat.classes, c.IsPublic relation →
    ∃ p, cat.policies.filter (fun p => p.polrelid = c.oid) = [p] ∧ p.Isolates relation
  columns : ∀ required ∈ requiredColumns, ∀ c ∈ cat.classes, c.IsPublic required.relation →
    ∃ a ∈ cat.attributes, a.attrelid = c.oid ∧ a.attname = required.name ∧ 0 < a.attnum ∧
      a.attisdropped = false ∧ a.dataType = required.dataType ∧ a.attnotnull = required.notNull ∧
      a.attidentity = required.identity
  constraints : ∀ required ∈ requiredConstraints, ∀ c ∈ cat.classes, c.IsPublic required.relation →
    ∃ k ∈ cat.constraints, k.conrelid = c.oid ∧ k.conname = required.name ∧
      k.contype = required.constraintType ∧ k.convalidated = true
  indexes : ∀ required ∈ requiredIndexes, ∀ c ∈ cat.classes, c.IsPublic required.1 →
    ∃ x ∈ cat.indexes, x.indrelid = c.oid ∧ x.indisvalid = true ∧ x.indisready = true ∧
      ∃ d ∈ cat.classes, d.oid = x.indexrelid ∧ d.relname = required.2

section Sound
variable {cat : Catalog} {names : List String} {relation : String} {c d : PgClass}
  {outage : RuntimeQuery → Option DbError}

theorem Catalog.eq_of_name (hc : c ∈ cat.classes) (hd : d ∈ cat.classes) (hc' : c.IsPublic relation)
    (hd' : d.IsPublic relation) : c = d := by
  refine inj_on_of_nodup_map cat.name_unique hc hd ?_
  exact Prod.ext (hc'.2.trans hd'.2.symm) (hc'.1.trans hd'.1.symm)

theorem mem_publicClasses :
    c ∈ cat.publicClasses names ↔ c ∈ cat.classes ∧ c.nspname = "public" ∧ c.relname ∈ names := by
  simp [Catalog.publicClasses]

theorem mem_publicTables : c ∈ cat.publicTables names ↔ c ∈ cat.publicClasses names ∧ c.IsTable := by
  simp [Catalog.publicTables, PgClass.IsTable]

theorem mem_runtimeRelations {row : Bool × Bool} :
    (relation, row) ∈ cat.runtimeRelations names ↔ ∃ c ∈ cat.publicTables names,
      c.relname = relation ∧ c.relrowsecurity = row.1 ∧ c.relforcerowsecurity = row.2 := by
  simp [Catalog.runtimeRelations, Prod.ext_iff]

theorem mem_runtimeColumns {key : String × String} {row : String × Bool × String} :
    (key, row) ∈ cat.runtimeColumns names ↔ ∃ a ∈ cat.attributes, (0 < a.attnum ∧
      a.attisdropped = false) ∧ ∃ c ∈ cat.publicTables names, c.oid = a.attrelid ∧
        key = (c.relname, a.attname) ∧ row = (a.dataType, a.attnotnull, a.attidentity) := by
  simp [Catalog.runtimeColumns, and_assoc, mem_filter]

theorem mem_runtimeConstraints {key : String × String} {row : String × Bool} :
    (key, row) ∈ cat.runtimeConstraints names ↔ ∃ k ∈ cat.constraints,
      ∃ c ∈ cat.publicClasses names, c.oid = k.conrelid ∧ key = (c.relname, k.conname) ∧
        row = (k.contype, k.convalidated) := by
  simp [Catalog.runtimeConstraints, and_assoc]

theorem mem_runtimeIndexes {key : String × String} {row : Bool × Bool} :
    (key, row) ∈ cat.runtimeIndexes names ↔ ∃ x ∈ cat.indexes, ∃ c ∈ cat.publicClasses names,
      c.oid = x.indrelid ∧ ∃ d ∈ cat.classes, d.oid = x.indexrelid ∧
        key = (c.relname, d.relname) ∧ row = (x.indisvalid, x.indisready) := by
  simp [Catalog.runtimeIndexes, and_assoc]

theorem mem_runtimePolicies {key : String × String} {row : PolicyRow} :
    (key, row) ∈ cat.runtimePolicies names ↔ ∃ p ∈ cat.policies, ∃ c ∈ cat.publicClasses names,
      c.oid = p.polrelid ∧ key = (c.relname, p.polname) ∧ row = p.row := by
  simp [Catalog.runtimePolicies, and_assoc]

theorem fetch_bind {α β : Type} {query : RuntimeQuery} {answer : α} {b : β}
    {k : α → Except PgStoreError β} (h : (fetch outage query answer >>= k) = .ok b) :
    k answer = .ok b := by
  rw [fetch] at h
  split at h
  · cases h
  · exact h

theorem relation_found {relations : AList fun _ : String => Bool × Bool}
    (h : relationProblems relations = []) (hr : relation ∈ requiredRelations) :
    ∃ row, relations.lookup relation = some row := by
  have hnone := filterMap_eq_nil_iff.mp h relation hr
  rw [ite_eq_right_iff] at hnone
  exact Option.ne_none_iff_exists'.mp (by simpa using hnone)

/-- Nothing is reported only if nothing was found by any part of the check. -/
theorem problems_nil (h : runtimeStructureProblems cat outage = .ok []) :
    relationProblems (Table.collect (cat.runtimeRelations requiredRelations)) = [] ∧
    rowSecurityProblems (Table.collect (cat.runtimeRelations requiredRelations)) = [] ∧
    columnProblems (Table.collect (cat.runtimeColumns requiredRelations)) = [] ∧
    constraintProblems (Table.collect (cat.runtimeConstraints requiredRelations)) = [] ∧
    indexProblems (Table.collect (cat.runtimeIndexes requiredRelations)) = [] ∧
    unexpectedPolicyProblems (Table.collect (cat.runtimePolicies requiredRelations)) = [] ∧
    tenantPolicyProblems (Table.collect (cat.runtimePolicies requiredRelations)) = [] := by
  replace h := fetch_bind h
  dsimp only at h
  split at h
  · -- The check ends early only once it has reported the missing relation.
    rename_i hmissing
    obtain ⟨hrelations, _⟩ := append_eq_nil_iff.mp (Except.ok.inj h)
    have hrequired : "_sqlx_migrations" ∈ requiredRelations := by simp [requiredRelations]
    obtain ⟨row, hrow⟩ := relation_found hrelations hrequired
    rw [hrow] at hmissing
    cases hmissing
  · iterate 5 replace h := fetch_bind h
    simp only [pure, Except.pure, Except.ok.injEq, append_eq_nil_iff] at h
    obtain ⟨⟨⟨⟨⟨⟨⟨hrelations, hsecurity⟩, _⟩, hcolumns⟩, hconstraints⟩, hindexes⟩, hunexpected⟩,
      htenant⟩ := h
    exact ⟨hrelations, hsecurity, hcolumns, hconstraints, hindexes, hunexpected, htenant⟩

theorem tenant_required (h : relation ∈ tenantRelations) : relation ∈ requiredRelations :=
  mem_cons_of_mem _ h

theorem IsPublic.mem (hc : c ∈ cat.classes) (hp : c.IsPublic relation)
    (hr : relation ∈ requiredRelations) : c ∈ cat.publicClasses requiredRelations :=
  mem_publicClasses.mpr ⟨hc, hp.1, hp.2.symm ▸ hr⟩

theorem isPublic_of_mem (h : c ∈ cat.publicClasses names) : c ∈ cat.classes ∧ c.IsPublic c.relname :=
  ⟨(mem_publicClasses.mp h).1, (mem_publicClasses.mp h).2.1, rfl⟩

/-- The relation a row names is the relation of that name. -/
theorem class_of_row (hd : d ∈ cat.publicClasses names) (hc : c ∈ cat.classes)
    (hp : c.IsPublic d.relname) : d = c :=
  cat.eq_of_name (isPublic_of_mem hd).1 hc (isPublic_of_mem hd).2 hp

theorem table_of_found
    (h : relationProblems (Table.collect (cat.runtimeRelations requiredRelations)) = [])
    (hr : relation ∈ requiredRelations) : ∃ c ∈ cat.publicTables requiredRelations,
      c.relname = relation := by
  obtain ⟨row, hrow⟩ := relation_found h hr
  obtain ⟨c, hc, hname, _⟩ := mem_runtimeRelations.mp (Table.mem_of_lookup_collect hrow)
  exact ⟨c, hc, hname⟩

theorem row_security
    (h : rowSecurityProblems (Table.collect (cat.runtimeRelations requiredRelations)) = [])
    (hr : relation ∈ tenantRelations) (hc : c ∈ cat.publicTables requiredRelations)
    (hname : c.relname = relation) : c.relrowsecurity = true ∧ c.relforcerowsecurity = true := by
  have hmem := mem_runtimeRelations.mpr
    ⟨c, hc, hname, (rfl : _ = (c.relrowsecurity, c.relforcerowsecurity).1), rfl⟩
  obtain ⟨row, hrow⟩ := Table.lookup_collect_of_mem hmem
  obtain ⟨d, hd, hdname, hsecurity, hforce⟩ :=
    mem_runtimeRelations.mp (Table.mem_of_lookup_collect hrow)
  have hclass := mem_publicTables.mp hd
  obtain rfl : d = c := class_of_row hclass.1 (isPublic_of_mem (mem_publicTables.mp hc).1).1
    ⟨(isPublic_of_mem (mem_publicTables.mp hc).1).2.1, hname.trans hdname.symm⟩
  have hnone := filterMap_eq_nil_iff.mp h relation hr
  rw [hrow] at hnone
  simp only [Bool.or_eq_true, Bool.not_eq_true', ite_eq_right_iff, reduceCtorEq, imp_false, not_or,
    Bool.not_eq_false] at hnone
  exact ⟨hsecurity.trans hnone.1, hforce.trans hnone.2⟩

/-- A policy of a tenant relation has the expected name. -/
theorem policy_name {p : PgPolicy}
    (h : unexpectedPolicyProblems (Table.collect (cat.runtimePolicies requiredRelations)) = [])
    (hr : relation ∈ tenantRelations) (hc : c ∈ cat.publicClasses requiredRelations)
    (hname : c.relname = relation) (hp : p ∈ cat.policies) (hrel : c.oid = p.polrelid) :
    p.polname = expectedTenantPolicyName relation := by
  have hmem := mem_runtimePolicies.mpr ⟨p, hp, c, hc, hrel, rfl, rfl⟩
  obtain ⟨row, hrow⟩ := Table.lookup_collect_of_mem hmem
  have hkey : (c.relname, p.polname) ∈
      (Table.collect (cat.runtimePolicies requiredRelations)).keys :=
    AList.mem_keys.mp (AList.lookup_isSome.mp (by simp [hrow]))
  have hnone := filterMap_eq_nil_iff.mp h _ hkey
  simp only [ite_eq_left_iff, Bool.not_eq_true, reduceCtorEq, imp_false, Bool.not_eq_false] at hnone
  rw [isAllowedRuntimePolicyName, hname] at hnone
  simpa [hr] using hnone

theorem PolicyRow.isolates_row {p : PgPolicy} (h : p.row.isolates relation = true) :
    p.Isolates relation := by
  simp only [PolicyRow.isolates, PgPolicy.row, Bool.and_eq_true, decide_eq_true_eq,
    Option.map_eq_some_iff] at h
  obtain ⟨⟨⟨⟨hpermissive, hcommand⟩, hroles⟩, husing⟩, hcheck⟩ := h
  exact ⟨hpermissive, of_decide_eq_true hcommand, hroles, husing, hcheck⟩

theorem only_policy
    (h : unexpectedPolicyProblems (Table.collect (cat.runtimePolicies requiredRelations)) = [])
    (h' : tenantPolicyProblems (Table.collect (cat.runtimePolicies requiredRelations)) = [])
    (hr : relation ∈ tenantRelations) (hc : c ∈ cat.classes) (hp : c.IsPublic relation) :
    ∃ p, cat.policies.filter (fun p => p.polrelid = c.oid) = [p] ∧ p.Isolates relation := by
  have hmem := IsPublic.mem hc hp (tenant_required hr)
  have hfound := filterMap_eq_nil_iff.mp h' relation hr
  simp only [ite_eq_left_iff, Bool.not_eq_true, reduceCtorEq, imp_false, Bool.not_eq_false] at hfound
  obtain ⟨row, hrow, hisolates⟩ := (Option.any_eq_true _ _).mp hfound
  obtain ⟨p, hpolicy, d, hd, hoid, hkey, rfl⟩ :=
    mem_runtimePolicies.mp (Table.mem_of_lookup_collect hrow)
  obtain ⟨hname, _⟩ := Prod.mk.inj hkey
  obtain rfl : d = c := class_of_row hd hc ⟨hp.1, hp.2.trans hname⟩
  have hin : p ∈ cat.policies.filter fun p => p.polrelid = d.oid :=
    mem_filter.mpr ⟨hpolicy, by simp [hoid]⟩
  have hone : (cat.policies.filter fun p => p.polrelid = d.oid).length ≤ 1 := by
    refine Table.length_filter_le_one ?_
    refine (pairwise_map.mp cat.policy_unique).imp_of_mem fun {a b} ha hb hne hoa hob => hne ?_
    rw [decide_eq_true_eq] at hoa hob
    rw [hoa, hob, policy_name h hr hmem hp.2 ha hoa.symm, policy_name h hr hmem hp.2 hb hob.symm]
  refine ⟨p, ?_, PolicyRow.isolates_row hisolates⟩
  obtain ⟨q, hq⟩ := length_eq_one_iff.mp (Nat.le_antisymm hone (length_pos_of_mem hin))
  rw [hq] at hin ⊢
  rw [mem_singleton.mp hin]

theorem column_found
    (h : columnProblems (Table.collect (cat.runtimeColumns requiredRelations)) = [])
    {required : RequiredColumn} (hr : required ∈ requiredColumns) (hc : c ∈ cat.classes)
    (hp : c.IsPublic required.relation) :
    ∃ a ∈ cat.attributes, a.attrelid = c.oid ∧ a.attname = required.name ∧ 0 < a.attnum ∧
      a.attisdropped = false ∧ a.dataType = required.dataType ∧ a.attnotnull = required.notNull ∧
      a.attidentity = required.identity := by
  have hnone := filterMap_eq_nil_iff.mp h required hr
  split at hnone
  · cases hnone
  · rename_i dataType notNull identity hrow
    simp only [ite_eq_right_iff, reduceCtorEq, imp_false, not_or, ne_eq, not_not] at hnone
    obtain ⟨rfl, rfl, rfl⟩ := hnone
    obtain ⟨a, ha, ⟨hnum, hdropped⟩, d, hd, hoid, hkey, hvalue⟩ :=
      mem_runtimeColumns.mp (Table.mem_of_lookup_collect hrow)
    obtain ⟨hrelation, hname⟩ := Prod.mk.inj hkey
    obtain rfl : d = c :=
      class_of_row (mem_publicTables.mp hd).1 hc ⟨hp.1, hp.2.trans hrelation⟩
    simp only [Prod.mk.injEq] at hvalue
    exact ⟨a, ha, hoid.symm, hname.symm, hnum, hdropped, hvalue.1.symm, hvalue.2.1.symm,
      hvalue.2.2.symm⟩

theorem constraint_found
    (h : constraintProblems (Table.collect (cat.runtimeConstraints requiredRelations)) = [])
    {required : RequiredConstraint} (hr : required ∈ requiredConstraints) (hc : c ∈ cat.classes)
    (hp : c.IsPublic required.relation) :
    ∃ k ∈ cat.constraints, k.conrelid = c.oid ∧ k.conname = required.name ∧
      k.contype = required.constraintType ∧ k.convalidated = true := by
  have hnone := filterMap_eq_nil_iff.mp h required hr
  dsimp only at hnone
  split at hnone
  · rename_i constraintType validated hrow
    simp only [ite_eq_left_iff, reduceCtorEq, imp_false, not_not] at hnone
    obtain ⟨rfl, hvalidated⟩ := hnone
    obtain ⟨k, hk, d, hd, hoid, hkey, hvalue⟩ :=
      mem_runtimeConstraints.mp (Table.mem_of_lookup_collect hrow)
    obtain ⟨hrelation, hname⟩ := Prod.mk.inj hkey
    obtain rfl : d = c := class_of_row hd hc ⟨hp.1, hp.2.trans hrelation⟩
    obtain ⟨htype, hvalid⟩ := Prod.mk.inj hvalue
    exact ⟨k, hk, hoid.symm, hname.symm, htype.symm, hvalid.symm.trans hvalidated⟩
  · cases hnone

theorem index_found (h : indexProblems (Table.collect (cat.runtimeIndexes requiredRelations)) = [])
    {required : String × String} (hr : required ∈ requiredIndexes) (hc : c ∈ cat.classes)
    (hp : c.IsPublic required.1) :
    ∃ x ∈ cat.indexes, x.indrelid = c.oid ∧ x.indisvalid = true ∧ x.indisready = true ∧
      ∃ d ∈ cat.classes, d.oid = x.indexrelid ∧ d.relname = required.2 := by
  have hnone := filterMap_eq_nil_iff.mp h required hr
  dsimp only at hnone
  split at hnone
  · rename_i valid ready hrow
    simp only [ite_eq_left_iff, reduceCtorEq, imp_false, not_not, Bool.and_eq_true] at hnone
    obtain ⟨x, hx, d, hd, hoid, i, hi, hindex, hkey, hvalue⟩ :=
      mem_runtimeIndexes.mp (Table.mem_of_lookup_collect hrow)
    obtain ⟨hrelation, hname⟩ := Prod.mk.inj hkey
    obtain rfl : d = c := class_of_row hd hc ⟨hp.1, hp.2.trans hrelation⟩
    obtain ⟨hvalid, hready⟩ := Prod.mk.inj hvalue
    exact ⟨x, hx, hoid.symm, hvalid.symm.trans hnone.1, hready.symm.trans hnone.2, i, hi, hindex,
      hname.symm⟩
  · cases hnone

end Sound

/-- A catalog nothing is reported for has everything a service relies on. -/
theorem startup_gate_sound (cat : Catalog) (outage : RuntimeQuery → Option DbError)
    (h : runtimeStructureProblems cat outage = .ok []) : cat.Ready := by
  obtain ⟨hrelations, hsecurity, hcolumns, hconstraints, hindexes, hunexpected, htenant⟩ :=
    problems_nil h
  refine ⟨fun relation hr => ?_, fun relation hr c hc hp => ?_,
    fun relation hr c hc hp => only_policy hunexpected htenant hr hc hp,
    fun required hr c hc hp => column_found hcolumns hr hc hp,
    fun required hr c hc hp => constraint_found hconstraints hr hc hp,
    fun required hr c hc hp => index_found hindexes hr hc hp⟩
  · obtain ⟨c, hc, hname⟩ := table_of_found hrelations hr
    obtain ⟨hclass, htable⟩ := mem_publicTables.mp hc
    obtain ⟨hmem, hpublic, _⟩ := isPublic_of_mem hclass
    exact ⟨c, hmem, ⟨hpublic, hname⟩, htable⟩
  · obtain ⟨d, hd, hname⟩ := table_of_found hrelations (tenant_required hr)
    obtain rfl : d = c := class_of_row (mem_publicTables.mp hd).1 hc ⟨hp.1, hp.2.trans hname.symm⟩
    exact row_security hsecurity hr hd hname

section Sample

def oidOf (relation : String) : ℕ := requiredRelations.idxOf relation

def isolationPolicy (relation : String) : PgPolicy where
  polrelid := oidOf relation
  polname := expectedTenantPolicyName relation
  polpermissive := true
  polcmd := "*"
  polroles := [0]
  polqual := some (tenantEquality relation)
  polwithcheck := some (tenantEquality relation)

/-- A catalog with just what is required. -/
def readyCatalog : Catalog where
  classes := requiredRelations.map (fun relation =>
      ⟨oidOf relation, relation, "public", 'r', true, true⟩) ++
    requiredIndexes.zipIdx.map fun (index, i) => ⟨100 + i, index.2, "public", 'i', false, false⟩
  attributes := requiredColumns.map fun column =>
    ⟨oidOf column.relation, column.name, 1, false, column.dataType, column.notNull, column.identity⟩
  constraints := requiredConstraints.map fun constraint =>
    ⟨oidOf constraint.relation, constraint.name, constraint.constraintType, true⟩
  indexes := requiredIndexes.zipIdx.map fun (index, i) => ⟨oidOf index.1, 100 + i, true, true⟩
  policies := tenantRelations.map isolationPolicy
  canReadMigrations := true
  name_unique := by decide +kernel
  policy_unique := by decide +kernel

theorem isolationPolicy_isolates (relation : String) :
    (isolationPolicy relation).row.isolates relation = true := by
  simp [PolicyRow.isolates, PgPolicy.row, isolationPolicy, expectedExpression]

theorem ready_policies :
    tenantPolicyProblems (Table.collect (readyCatalog.runtimePolicies requiredRelations)) = [] := by
  refine filterMap_eq_nil_iff.mpr fun relation hr => ?_
  have hlookup : (Table.collect (readyCatalog.runtimePolicies requiredRelations)).lookup
      (relation, expectedTenantPolicyName relation) = some (isolationPolicy relation).row := by
    simp only [tenantRelations, mem_cons, not_mem_nil, or_false] at hr
    rcases hr with rfl | rfl | rfl | rfl | rfl | rfl <;> rfl
  simp [hlookup, isolationPolicy_isolates]

theorem startup_gate_sound_sample :
    runtimeStructureProblems readyCatalog (fun _ => none) = .ok [] ∧ readyCatalog.Ready := by
  have hrelations : relationProblems
      (Table.collect (readyCatalog.runtimeRelations requiredRelations)) = [] := by decide +kernel
  have hsecurity : rowSecurityProblems
      (Table.collect (readyCatalog.runtimeRelations requiredRelations)) = [] := by decide +kernel
  have hcolumns : columnProblems
      (Table.collect (readyCatalog.runtimeColumns requiredRelations)) = [] := by decide +kernel
  have hconstraints : constraintProblems
      (Table.collect (readyCatalog.runtimeConstraints requiredRelations)) = [] := by decide +kernel
  have hindexes : indexProblems
      (Table.collect (readyCatalog.runtimeIndexes requiredRelations)) = [] := by decide +kernel
  have hunexpected : unexpectedPolicyProblems
      (Table.collect (readyCatalog.runtimePolicies requiredRelations)) = [] := by decide +kernel
  have hmigrations : ((Table.collect (readyCatalog.runtimeRelations requiredRelations)).lookup
      "_sqlx_migrations").isNone = false := by decide +kernel
  have hprivilege : privilegeProblems readyCatalog.canReadMigrations = [] := rfl
  have hnone : runtimeStructureProblems readyCatalog (fun _ => none) = .ok [] := by
    rw [runtimeStructureProblems]
    simp only [fetch, bind, Except.bind, hrelations, hsecurity, hcolumns, hconstraints, hindexes,
      hunexpected, hmigrations, hprivilege, ready_policies]
    rfl
  exact ⟨hnone, startup_gate_sound _ _ hnone⟩

end Sample

end SkidMonitor.Startup
