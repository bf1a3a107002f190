import TorE2EE.Foundation.Faults

/-!
# Schema migrations

`DatabaseManager.initialize` from the moment its connection is open: the pragmas, and the migrations
that `schema_migrations` does not record. Each statement is executed by itself; a statement may fail,
and the process may stop before any of them.

`ALTER TABLE` is executed with its errors caught, whatever they are.
-/

set_option autoImplicit false

namespace TorE2EE.Client.Migrations

open TorE2EE.Foundation

/-! ## The database file -/

/-- The columns of the schema. -/
inductive ColumnName where
  | version
  | applied_at
  | recipient_pubkey_hash
  | identity_pubkey_hex
  | signing_pubkey_hex
  | contactAlias
  | created_at
  | linked_devices
  | recipient_identity_pubkey_hex
  | session_data
  | updated_at
  | key_id
  | key_data
  | id
  | contact_pubkey_hash
  | sender_identity_hex
  | recipient_identity_hex
  | body
  | timestamp
  | is_outgoing
  | is_read
  | delivery_status
  | device_id
  | device_name
  deriving DecidableEq

/-- The tables of the schema. -/
inductive TableName where
  | schema_migrations
  | contacts
  | sessions
  | signed_prekeys
  | one_time_prekeys
  | messages
  | own_linked_devices
  deriving DecidableEq

/-- The columns that `CREATE TABLE` gives a table, the first of them the primary key. -/
def TableName.columns : TableName → List ColumnName
  | schema_migrations => [.version, .applied_at]
  | contacts =>
      [.recipient_pubkey_hash, .identity_pubkey_hex, .signing_pubkey_hex, .contactAlias, .created_at]
  | sessions => [.recipient_identity_pubkey_hex, .session_data, .updated_at]
  | signed_prekeys => [.key_id, .key_data, .created_at]
  | one_time_prekeys => [.key_id, .key_data]
  | messages =>
      [.id, .contact_pubkey_hash, .sender_identity_hex, .recipient_identity_hex, .body, .timestamp,
        .is_outgoing, .is_read, .delivery_status]
  | own_linked_devices =>
      [.device_id, .device_name, .recipient_pubkey_hash, .identity_pubkey_hex, .created_at]

/-- The indexes of the schema. -/
inductive IndexName where
  | idx_messages_contact
  deriving DecidableEq

/-- The table and the columns of `CREATE INDEX`. -/
def IndexName.target : IndexName → TableName × List ColumnName
  | idx_messages_contact => (.messages, [.contact_pubkey_hash, .timestamp])

/-- A value of a row. -/
inductive SqlValue where
  | null
  | integer (n : Int)
  | text (s : String)
  deriving DecidableEq

structure Table where
  columns : List ColumnName
  rows : List (List SqlValue)
  deriving DecidableEq

/-- The integers in the first column. -/
def Table.keys (t : Table) : List Int :=
  t.rows.filterMap fun row =>
    match row.head? with
    | some (.integer n) => some n
    | _ => none

/-- The database file. -/
structure Vault where
  tables : TableName → Option Table
  indexes : IndexName → Bool

/-- A new file. -/
def Vault.empty : Vault where
  tables _ := none
  indexes _ := false

/-! ## Statements -/

/-- The statements of `initialize`. `CREATE` stands for `CREATE … IF NOT EXISTS`. -/
inductive SqlStatement where
  | pragma (text : String)
  | createTable (name : TableName)
  | createIndex (name : IndexName)
  | addColumn (table : TableName) (column : ColumnName) (default : SqlValue)
  /-- `INSERT INTO schema_migrations (version, applied_at) VALUES (?, ?)`. -/
  | insertVersion (version appliedAt : Nat)
  deriving DecidableEq

/-- The errors of a statement: its own, and those of the runtime, with their text. -/
inductive SqlError where
  | noSuchTable
  | noSuchColumn
  | duplicateColumn
  | constraint
  | runtime (text : String)
  deriving DecidableEq

namespace Vault

def setTable (v : Vault) (name : TableName) (table : Table) : Vault :=
  { v with tables := Function.update v.tables name (some table) }

/-- What a statement does. A statement that answers with an error has no effect. -/
def execute : SqlStatement → Vault → Except SqlError Unit × Vault
  | .pragma _, v => (.ok (), v)
  | .createTable name, v =>
      match v.tables name with
      | some _ => (.ok (), v)
      | none => (.ok (), v.setTable name { columns := name.columns, rows := [] })
  | .createIndex name, v =>
      if v.indexes name then (.ok (), v)
      else
        match v.tables name.target.1 with
        | none => (.error .noSuchTable, v)
        | some t =>
            if name.target.2 ⊆ t.columns then
              (.ok (), { v with indexes := Function.update v.indexes name true })
            else (.error .noSuchColumn, v)
  | .addColumn table column default, v =>
      match v.tables table with
      | none => (.error .noSuchTable, v)
      | some t =>
          if column ∈ t.columns then (.error .duplicateColumn, v)
          else
            (.ok (), v.setTable table
              { columns := t.columns ++ [column], rows := t.rows.map (· ++ [default]) })
  | .insertVersion version appliedAt, v =>
      match v.tables .schema_migrations with
      | none => (.error .noSuchTable, v)
      | some t =>
          if (version : Int) ∈ t.keys then (.error .constraint, v)
          else
            (.ok (), v.setTable .schema_migrations
              { t with rows := t.rows ++ [[.integer version, .integer appliedAt]] })

/-- `SELECT MAX(version) as version FROM schema_migrations`. -/
def maxVersion (v : Vault) : Except SqlError (Option Int) :=
  match v.tables .schema_migrations with
  | none => .error .noSuchTable
  | some t => .ok t.keys.max?

end Vault

/-- The operations of `initialize`. -/
inductive SqlOp where
  | execute (statement : SqlStatement)
  | queryVersion
  deriving DecidableEq

/-- What the operations answer with when they do not fail. -/
@[reducible] def SqlOp.Ans : SqlOp → Type
  | execute _ => Unit
  | queryVersion => Option Int

/-- The effect and the answer of one operation. -/
def SqlOp.handle : Handler SqlOp (Answer SqlOp.Ans SqlError) Vault
  | execute statement, v => v.execute statement
  | queryVersion, v => (v.maxVersion, v)

/-- A program over the operations. -/
abbrev SqlM : Type → Type := Program SqlOp (Answer SqlOp.Ans SqlError) SqlError

/-- `this.driver.execute`. -/
def execute (statement : SqlStatement) : SqlM Unit := Program.attempt (SqlOp.execute statement)

/-- Statements executed one after another. -/
def executeAll : List SqlStatement → SqlM Unit
  | [] => pure ()
  | statement :: statements => do
      execute statement
      executeAll statements

/-! ## Migrations -/

/-- The tables of `applyMigrationV1`. -/
def tablesV1 : List SqlStatement :=
  [.createTable .contacts, .createTable .sessions, .createTable .signed_prekeys,
    .createTable .one_time_prekeys, .createTable .messages]

/-- `ALTER TABLE contacts ADD COLUMN linked_devices TEXT DEFAULT '[]'`. -/
def addLinkedDevices : SqlStatement := .addColumn .contacts .linked_devices (.text "[]")

/-- `applyMigrationV1`. -/
def applyMigrationV1 (now : Nat) : SqlM Unit := do
  executeAll tablesV1
  execute (.createIndex .idx_messages_contact)
  execute (.insertVersion 1 now)

/-- `applyMigrationV2`. The errors of the first statement are caught. -/
def applyMigrationV2 (now : Nat) : SqlM Unit := do
  let _ ← ((execute addLinkedDevices).catchError : SqlM (Except SqlError Unit))
  execute (.createTable .own_linked_devices)
  execute (.insertVersion 2 now)

/-- The migrations above `currentVersion`. The clock reads `now n` when migration `n` is recorded. -/
def applyPending (now : Nat → Nat) (currentVersion : Int) : SqlM Unit := do
  (if currentVersion < 1 then applyMigrationV1 (now 1) else pure ())
  (if currentVersion < 2 then applyMigrationV2 (now 2) else pure ())

/-- `runMigrations`. -/
def runMigrations (now : Nat → Nat) : SqlM Unit := do
  execute (.createTable .schema_migrations)
  let currentVersionRow : Option Int ← Program.attempt SqlOp.queryVersion
  applyPending now (currentVersionRow.getD 0)

/-- `initialize` on an open connection. -/
def initializeVault (now : Nat → Nat) : SqlM Unit := do
  execute (.pragma "foreign_keys = ON")
  execute (.pragma "journal_mode = WAL")
  runMigrations now

/-! ## Histories -/

/-- What happens to a file: an attempt to initialize, whose statements go as the turns say, and the
rows a table of the application is given between two attempts. -/
inductive Event where
  | attempt (now : Nat → Nat) (turns : List (Turn SqlError))
  | write (name : TableName) (rows : List (List SqlValue))

def Event.apply : Event → Vault → Vault
  | attempt now turns, v => ((initializeVault now).runFaulty SqlOp.handle turns v).2
  | write name rows, v =>
      match v.tables name with
      | none => v
      | some t => if name = .schema_migrations then v else v.setTable name { t with rows }

/-- The file after a history, at any point of its last attempt: the turns of an attempt may end
anywhere. -/
def after (events : List Event) (v : Vault) : Vault := events.foldl (fun v e => e.apply v) v

/-- What a statement creates is there. -/
def SqlStatement.Done : SqlStatement → Vault → Prop
  | .pragma _, _ => True
  | .createTable name, v => ∃ t, v.tables name = some t ∧ name.columns ⊆ t.columns
  | .createIndex name, v => v.indexes name = true
  | .addColumn table column _, v => ∃ t, v.tables table = some t ∧ column ∈ t.columns
  | .insertVersion _ _, _ => True

/-- What a migration creates. -/
def migration : Nat → List SqlStatement
  | 1 => tablesV1 ++ [.createIndex .idx_messages_contact]
  | 2 => [addLinkedDevices, .createTable .own_linked_devices]
  | _ => []

/-- `schema_migrations` records the version. -/
def Vault.Records (v : Vault) (n : Nat) : Prop :=
  ∃ t, v.tables .schema_migrations = some t ∧ (n : Int) ∈ t.keys

/-- Every table, column and index of the migrations up to `n` is there. -/
def Vault.HasSchema (v : Vault) (n : Nat) : Prop :=
  ∀ k ≤ n, ∀ statement ∈ migration k, statement.Done v

/-- A recorded version implies its schema. -/
def Vault.FollowsVersion (v : Vault) : Prop := ∀ n, v.Records n → v.HasSchema n

/-- Every table of the application keeps its rows, in their order; columns may have been added to
it. -/
def Vault.KeepsRows (v v' : Vault) : Prop :=
  ∀ name t, v.tables name = some t → name ≠ .schema_migrations →
    ∃ t' added values, v'.tables name = some t' ∧ t'.columns = t.columns ++ added ∧
      t'.rows = t.rows.map (· ++ values)

/-- An initialization without failures returns, and leaves version 2, its schema and all rows. -/
def Vault.Recovers (v : Vault) : Prop :=
  ∀ now, ∃ v', (initializeVault now).run SqlOp.handle v = (.ok (), v') ∧
    v'.maxVersion = .ok (some 2) ∧ v'.HasSchema 2 ∧ v.KeepsRows v'

/-- `ALTER TABLE` fails where the column is there already. -/
def MayFail (o : SqlOp) (v : Vault) : Prop := o = .execute addLinkedDevices → addLinkedDevices.Done v

/-- In an attempt, `ALTER TABLE` fails only where the column is there already. -/
def Event.Expected : Event → Vault → Prop
  | attempt now turns, v => (initializeVault now).FailsOnly SqlOp.handle MayFail turns v
  | write _ _, _ => True

/-- All attempts of a history are as expected. -/
def Expected : List Event → Vault → Prop
  | [], _ => True
  | e :: events, v => e.Expected v ∧ Expected events (e.apply v)

end TorE2EE.Client.Migrations
