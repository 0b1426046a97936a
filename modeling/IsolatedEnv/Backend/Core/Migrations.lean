import IsolatedEnv.Foundation.Catalog

/-!
# Migrations

The four Alembic migrations, and what their statements do to the catalog of PostgreSQL.
`env.py` runs a command in one transaction.  The revision is the row of `alembic_version`;
the types of columns, their defaults and all other rows are left out.
-/

namespace IsolatedEnv.Backend

open IsolatedEnv.Foundation
open Catalog (Statement Migration)

/-- Tables and indexes share their names; the others have names of their own. -/
inductive SchemaName where
  | extension (name : String)
  | operator (name : String)
  | operatorClass (name : String)
  | function (name : String)
  | type (name : String)
  | relation (name : String)
  | column (table name : String)
  | constraint (table name : String)
  | trigger (table name : String)
  deriving DecidableEq

namespace Migrations

abbrev SchemaObject := CatalogObject SchemaName

/-! ## Statements -/

def partOfTable (table : String) (key : SchemaName) (needs : List SchemaName) : SchemaObject :=
  ⟨key, needs, some (.relation table)⟩

/-- A column that another table's row is referred to with. -/
structure ForeignKey where
  column : String
  table : String
  target : String

/-- The constraint rests on the index of the primary key it refers to. -/
def ForeignKey.object (table : String) (key : ForeignKey) : SchemaObject :=
  partOfTable table (.constraint table (table ++ "_" ++ key.column ++ "_fkey"))
    [.relation key.table, .column key.table key.target, .relation (key.table ++ "_pkey")]

/-- A table, the type of its rows, and the constraint and the index of its primary key. -/
def table (name primaryKey : String) (columns : List String) (foreignKeys : List ForeignKey) :
    List SchemaObject :=
  ⟨.relation name, [], none⟩ :: partOfTable name (.type name) [] ::
    (columns.map (fun column => partOfTable name (.column name column) []) ++
      [partOfTable name (.constraint name primaryKey) [],
        partOfTable name (.relation primaryKey) []] ++
      foreignKeys.map (ForeignKey.object name))

/-- `op.create_table`. -/
def createTable (name : String) (columns : List String) (foreignKeys : List ForeignKey) :
    Statement SchemaName :=
  .create (table name (name ++ "_pkey") columns foreignKeys) .fail

def createIndexUsing (operators : List SchemaName) (name table : String)
    (columns : List String) : Statement SchemaName :=
  .create [partOfTable table (.relation name)
    (operators ++ columns.map (.column table))] .fail

/-- `op.create_index`, and a plain `CREATE INDEX`. -/
def createIndex : String → String → List String → Statement SchemaName := createIndexUsing []

/-- `CREATE INDEX ... USING GIN (column gin_trgm_ops)`. -/
def createTrgmIndex (name table column : String) : Statement SchemaName :=
  createIndexUsing [.operatorClass "gin_trgm_ops"] name table [column]

/-- `CREATE TRIGGER ... EXECUTE FUNCTION update_updated_at_column()`. -/
def createTrigger (name table : String) : Statement SchemaName :=
  .create [partOfTable table (.trigger table name) [.function "update_updated_at_column"]] .fail

def addConstraint (table name column : String) : Statement SchemaName :=
  .create [partOfTable table (.constraint table name) [.column table column]] .fail

def dropTable (name : String) : Statement SchemaName := .drop (.relation name) false

def dropIndex (name : String) : Statement SchemaName := .drop (.relation name) false

def dropIndexIfExists (name : String) : Statement SchemaName := .drop (.relation name) true

def dropTriggerIfExists (name table : String) : Statement SchemaName :=
  .drop (.trigger table name) true

/-! ## The extension -/

/-- The functions of `pg_trgm`. -/
def trgmFunctions : List String :=
  ["set_limit", "show_limit", "show_trgm", "similarity", "similarity_op", "similarity_dist",
    "word_similarity", "word_similarity_op", "word_similarity_commutator_op",
    "word_similarity_dist_op", "word_similarity_dist_commutator_op", "strict_word_similarity",
    "strict_word_similarity_op", "strict_word_similarity_commutator_op",
    "strict_word_similarity_dist_op", "strict_word_similarity_dist_commutator_op",
    "gtrgm_in", "gtrgm_out", "gtrgm_consistent", "gtrgm_distance", "gtrgm_compress",
    "gtrgm_decompress", "gtrgm_penalty", "gtrgm_picksplit", "gtrgm_union", "gtrgm_same",
    "gtrgm_options", "gin_extract_value_trgm", "gin_extract_query_trgm", "gin_trgm_consistent",
    "gin_trgm_triconsistent"]

def trgmOperators : List String :=
  ["%", "<%", "%>", "<<%", "%>>", "<->", "<<->", "<->>", "<<<->", "<->>>"]

def pgTrgm : List SchemaObject :=
  ⟨.extension "pg_trgm", [], none⟩ ::
    (.type "gtrgm" :: .operatorClass "gist_trgm_ops" :: .operatorClass "gin_trgm_ops" ::
      (trgmFunctions.map SchemaName.function ++ trgmOperators.map SchemaName.operator)).map
        fun key => ⟨key, [], some (.extension "pg_trgm")⟩

/-! ## The versions -/

def extensions : Migration SchemaName where
  upgrade := [
    .create pgTrgm .keep,
    .create [⟨.function "update_updated_at_column", [], none⟩] .replace]
  downgrade := [
    .drop (.function "update_updated_at_column") true,
    .drop (.extension "pg_trgm") true]

def addUsersTable : Migration SchemaName where
  upgrade := [
    createTable "users" ["id", "provider_id", "email", "name", "role", "is_active",
      "role_changed_at", "role_changed_by", "created_at", "updated_at"] [],
    createIndex "ix_users_provider_id" "users" ["provider_id"],
    createIndex "ix_users_email" "users" ["email"],
    createIndex "ix_users_role_created_at" "users" ["role", "created_at"],
    createIndex "ix_users_created_at_id" "users" ["created_at", "id"],
    createIndex "ix_users_active" "users" ["id", "is_active"],
    createTrgmIndex "ix_users_email_trgm" "users" "email",
    createTrgmIndex "ix_users_name_trgm" "users" "name",
    createTrigger "trg_users_updated_at" "users"]
  downgrade := [
    dropTriggerIfExists "trg_users_updated_at" "users",
    dropIndexIfExists "ix_users_email_trgm",
    dropIndexIfExists "ix_users_name_trgm",
    dropIndexIfExists "ix_users_active",
    dropIndexIfExists "ix_users_created_at_id",
    dropIndex "ix_users_role_created_at",
    dropIndex "ix_users_email",
    dropIndex "ix_users_provider_id",
    dropTable "users"]

def addAuditLogTable : Migration SchemaName where
  upgrade := [
    createTable "audit_log" ["id", "admin_user_id", "admin_email", "action", "target_user_id",
      "target_user_email", "details", "ip_address", "created_at", "updated_at"] [],
    createIndex "ix_audit_log_admin_user_id" "audit_log" ["admin_user_id"],
    createIndex "ix_audit_log_target_user_id" "audit_log" ["target_user_id"],
    createIndex "ix_audit_log_action_created_at" "audit_log" ["action", "created_at"],
    createIndex "ix_audit_log_created_at_id" "audit_log" ["created_at", "id"],
    createTrgmIndex "ix_audit_log_admin_email_trgm" "audit_log" "admin_email",
    createTrgmIndex "ix_audit_log_target_email_trgm" "audit_log" "target_user_email",
    addConstraint "audit_log" "ck_audit_log_action" "action"]
  downgrade := [
    .drop (.constraint "audit_log" "ck_audit_log_action") true,
    dropIndexIfExists "ix_audit_log_target_email_trgm",
    dropIndexIfExists "ix_audit_log_admin_email_trgm",
    dropIndexIfExists "ix_audit_log_created_at_id",
    dropIndexIfExists "ix_audit_log_action_created_at",
    dropIndex "ix_audit_log_target_user_id",
    dropIndex "ix_audit_log_admin_user_id",
    dropTable "audit_log"]

def addItemsTable : Migration SchemaName where
  upgrade := [
    createTable "items" ["id", "title", "description", "owner_id", "created_at", "updated_at"]
      [⟨"owner_id", "users", "id"⟩],
    createIndex "ix_items_title" "items" ["title"],
    createIndex "ix_items_owner_id" "items" ["owner_id"],
    createIndex "ix_items_created_at_id" "items" ["created_at", "id"],
    createTrigger "trg_items_updated_at" "items"]
  downgrade := [
    dropTriggerIfExists "trg_items_updated_at" "items",
    dropIndexIfExists "ix_items_created_at_id",
    dropIndex "ix_items_owner_id",
    dropIndex "ix_items_title",
    dropTable "items"]

/-- In the order of their `down_revision`s. -/
def versions : List (Migration SchemaName) :=
  [extensions, addUsersTable, addAuditLogTable, addItemsTable]

/-- Alembic's own table. -/
def alembicVersion : List SchemaObject :=
  table "alembic_version" "alembic_version_pkc" ["version_num"] []

def history : Catalog.History SchemaName := ⟨versions, alembicVersion⟩

/-- The catalog at a revision, without the objects of others. -/
def schema (revision : Nat) : Catalog SchemaName := Catalog.layout versions revision

/-- The names of the migrations' objects, and with those of Alembic's table. -/
def versionNames : List SchemaName := (schema versions.length).map CatalogObject.key

def ownNames : List SchemaName := alembicVersion.map CatalogObject.key ++ versionNames

/-! ## Runs -/

theorem versions_reversible : Catalog.Reversible versions := by
  have hall : (List.range 4).all (fun n => versions[n]?.all fun m =>
      decide (Catalog.execAll (schema n) m.upgrade = some (schema (n + 1))) &&
        decide (Catalog.execAll (schema (n + 1)) m.downgrade = some (schema n))) = true := by
    decide +kernel
  intro n m hm
  have hn : n < 4 := (List.getElem?_eq_some_iff.mp hm).1
  have hboth := List.all_eq_true.mp hall n (List.mem_range.mpr hn)
  rw [hm, Option.all_some] at hboth
  obtain ⟨hup, hdown⟩ := Bool.and_eq_true_iff.mp hboth
  exact ⟨of_decide_eq_true hup, of_decide_eq_true hdown⟩

theorem versions_own : Catalog.Own (· ∈ versionNames) versions := by
  have hall : versions.all (fun m => (m.upgrade ++ m.downgrade).all fun statement =>
      decide (statement.About (· ∈ versionNames))) = true := by
    decide +kernel
  intro m hm statement hstatement
  have hm' := List.all_eq_true.mp hall m hm
  exact of_decide_eq_true (List.all_eq_true.mp hm' statement hstatement)

theorem history_sound : history.Sound (· ∈ versionNames) (· ∈ ownNames) where
  reversible := versions_reversible
  statements := versions_own
  apart := by decide +kernel
  within := by decide +kernel
  names_of_own _ hkey := List.mem_append_right _ hkey
  created := by decide +kernel
  there := by decide +kernel

/--
Upgrades and downgrades may be run in any order, and be cut off at any statement: the recorded
revision always tells which of the objects are there, those of others are untouched, and every
valid command succeeds, the `upgrade head` of the entry point among them.  Alembic's table
itself is there once a command has been run.
-/
theorem revision_tells_schema (base : Catalog SchemaName) (events : List Catalog.Event)
    {s : Catalog.Migrated SchemaName} (hbase : ∀ o ∈ base, Catalog.Apart (· ∈ ownNames) o)
    (hrun : run (Catalog.step history) ⟨base, 0⟩ events = some s) :
    (s.revision = 0 ∧ s.catalog = base ∨
        s.catalog = base ++ alembicVersion ++ schema s.revision) ∧
      ∀ command : Catalog.Command, command.Valid versions s.revision →
        Catalog.migrate history s command =
          some ⟨base ++ alembicVersion ++ schema (command.revision s.revision),
            command.revision s.revision⟩ := by
  have hstart : Catalog.Recorded history base ⟨base, 0⟩ := ⟨Nat.zero_le _, .inl ⟨rfl, rfl⟩⟩
  have hrecorded : Catalog.Recorded history base s :=
    run_invariant (fun _ _ _ h hstep => h.step history_sound hbase hstep) hstart hrun
  exact ⟨hrecorded.2, fun command hvalid =>
    Catalog.migrate_recorded history_sound hbase hrecorded hvalid⟩

/-- What another program has in the same database. -/
def shared : Catalog SchemaName :=
  [⟨.relation "orders", [], none⟩, partOfTable "orders" (.type "orders") [],
    partOfTable "orders" (.column "orders" "total") []]

theorem restart_completes_upgrade :
    Catalog.migrate history ⟨shared ++ alembicVersion ++ schema 2, 2⟩ (.upgrade 4) =
      some ⟨shared ++ alembicVersion ++ schema 4, 4⟩ := by
  obtain ⟨-, hnext⟩ := revision_tells_schema shared
    [.cutOff (.upgrade 4), .run (.upgrade 4), .run (.downgrade 2), .cutOff (.upgrade 4)]
    (s := ⟨shared ++ alembicVersion ++ schema 2, 2⟩) (by decide +kernel) (by decide +kernel)
  exact hnext (.upgrade 4) (by decide)

end Migrations

end IsolatedEnv.Backend
