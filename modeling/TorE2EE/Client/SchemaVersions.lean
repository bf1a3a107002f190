import TorE2EE.Client.Migrations
import Mathlib.Data.List.MinMax

/-!
# What a recorded version says

`Vault.Sound` is the invariant of the histories whose attempts are as expected: a recorded version
implies its schema. Every statement but the one that records a version keeps it
(`sound_execute`), and that one keeps it when the schema is there (`sound_insertVersion`). From a
sound file an initialization without failures returns (`returns_initializeVault`).
-/

set_option autoImplicit false

namespace TorE2EE.Client.Migrations

open TorE2EE.Foundation

variable {v v' : Vault} {n : Nat}

@[simp] theorem tables_setTable_self (v : Vault) (name : TableName) (t : Table) :
    (v.setTable name t).tables name = some t := Function.update_self _ _ _

theorem tables_setTable_of_ne {name other : TableName} (h : other ≠ name) (t : Table) :
    (v.setTable name t).tables other = v.tables other := Function.update_of_ne h _ _

theorem keys_insert (t : Table) (version appliedAt : Nat) :
    Table.keys { t with rows := t.rows ++ [[.integer version, .integer appliedAt]] } =
      t.keys ++ [(version : Int)] := by
  rw [Table.keys, List.filterMap_append]
  rfl

/-- The recorded versions. -/
def Vault.recorded (v : Vault) : List Int := ((v.tables .schema_migrations).map Table.keys).getD []

theorem recorded_of_some {t : Table} (ht : v.tables .schema_migrations = some t) :
    v.recorded = t.keys := by
  rw [Vault.recorded, ht]
  rfl

theorem records_iff : v.Records n ↔ (n : Int) ∈ v.recorded := by
  rw [Vault.Records, Vault.recorded]
  cases v.tables .schema_migrations with
  | none => simp
  | some t => simp

/-- A table that is there has the columns it was created with. -/
def Vault.KeepsColumns (v : Vault) : Prop :=
  ∀ name t, v.tables name = some t → name.columns ⊆ t.columns

/-- A table that is there has the columns it was created with, only known versions are recorded, and
a recorded version implies its schema. -/
structure Vault.Sound (v : Vault) : Prop where
  columns : v.KeepsColumns
  versions : ∀ k ∈ v.recorded, k = 1 ∨ k = 2
  follows : v.FollowsVersion

theorem sound_empty : Vault.empty.Sound where
  columns _ _ h := by cases h
  versions _ h := by cases h
  follows _ h := by
    obtain ⟨t, ht, -⟩ := h
    cases ht

/-! ## Growing -/

/-- Nothing of the schema and no row of the application is lost. -/
structure Vault.Grows (v v' : Vault) : Prop where
  tables : ∀ name t, v.tables name = some t → ∃ t' added values, v'.tables name = some t' ∧
    t'.columns = t.columns ++ added ∧
      (name ≠ .schema_migrations → t'.rows = t.rows.map (· ++ values))
  indexes : ∀ name, v.indexes name = true → v'.indexes name = true

theorem Vault.Grows.refl (v : Vault) : v.Grows v where
  tables name t ht := ⟨t, [], [], ht, by simp, by simp⟩
  indexes _ h := h

theorem Vault.Grows.trans {v'' : Vault} (h : v.Grows v') (h' : v'.Grows v'') : v.Grows v'' where
  tables name t ht := by
    obtain ⟨t', added, values, ht', hcolumns, hrows⟩ := h.tables name t ht
    obtain ⟨t'', added', values', ht'', hcolumns', hrows'⟩ := h'.tables name t' ht'
    refine ⟨t'', added ++ added', values ++ values', ht'', ?_, ?_⟩
    · rw [hcolumns', hcolumns, List.append_assoc]
    · intro hname
      rw [hrows' hname, hrows hname, List.map_map]
      apply List.map_congr_left
      intro row _
      exact List.append_assoc _ _ _
  indexes name hi := h'.indexes name (h.indexes name hi)

theorem Vault.Grows.keepsRows (h : v.Grows v') : v.KeepsRows v' := by
  intro name t ht hname
  obtain ⟨t', added, values, ht', hcolumns, hrows⟩ := h.tables name t ht
  exact ⟨t', added, values, ht', hcolumns, hrows hname⟩

/-- Nothing of the schema is lost. -/
structure Vault.Covers (v v' : Vault) : Prop where
  tables : ∀ name t, v.tables name = some t →
    ∃ t', v'.tables name = some t' ∧ t.columns ⊆ t'.columns
  indexes : ∀ name, v.indexes name = true → v'.indexes name = true

theorem Vault.Grows.covers (h : v.Grows v') : v.Covers v' where
  tables name t ht := by
    obtain ⟨t', added, values, ht', hadded, -⟩ := h.tables name t ht
    exact ⟨t', ht', hadded ▸ List.subset_append_left _ _⟩
  indexes := h.indexes

/-- What a statement created stays. -/
theorem SqlStatement.Done.covers {statement : SqlStatement} (h : statement.Done v)
    (hcovers : v.Covers v') : statement.Done v' := by
  cases statement with
  | pragma => trivial
  | createTable name =>
      obtain ⟨t, ht, hcolumns⟩ := h
      obtain ⟨t', ht', hsubset⟩ := hcovers.tables name t ht
      exact ⟨t', ht', List.Subset.trans hcolumns hsubset⟩
  | createIndex name => exact hcovers.indexes name h
  | addColumn table column default =>
      obtain ⟨t, ht, hcolumn⟩ := h
      obtain ⟨t', ht', hsubset⟩ := hcovers.tables table t ht
      exact ⟨t', ht', hsubset hcolumn⟩
  | insertVersion => trivial

theorem SqlStatement.Done.grows {statement : SqlStatement} (h : statement.Done v)
    (hgrows : v.Grows v') : statement.Done v' := h.covers hgrows.covers

theorem Vault.HasSchema.covers (h : v.HasSchema n) (hcovers : v.Covers v') : v'.HasSchema n :=
  fun k hk statement hmem => (h k hk statement hmem).covers hcovers

theorem Vault.HasSchema.grows (h : v.HasSchema n) (hgrows : v.Grows v') : v'.HasSchema n :=
  h.covers hgrows.covers

/-- A table that is put in the place of one that it extends. -/
theorem grows_setTable {name : TableName} {t : Table}
    (h : ∀ old, v.tables name = some old → ∃ added values, t.columns = old.columns ++ added ∧
      (name ≠ .schema_migrations → t.rows = old.rows.map (· ++ values))) :
    v.Grows (v.setTable name t) where
  tables other old hold := by
    by_cases hname : other = name
    · subst hname
      obtain ⟨added, values, hcolumns, hrows⟩ := h old hold
      exact ⟨t, added, values, tables_setTable_self v other t, hcolumns, hrows⟩
    · exact ⟨old, [], [], (tables_setTable_of_ne hname t).trans hold, by simp, by simp⟩
  indexes _ hi := hi

/-- What a statement does: it leaves the file as it is, or creates a table that was not there, or an
index, adds a column, or records a version. -/
theorem execute_cases (statement : SqlStatement) (v : Vault) :
    (v.execute statement).2 = v ∨
      (∃ name, statement = .createTable name ∧ v.tables name = none ∧
        (v.execute statement).2 = v.setTable name { columns := name.columns, rows := [] }) ∨
      (∃ name, statement = .createIndex name ∧
        (v.execute statement).2 = { v with indexes := Function.update v.indexes name true }) ∨
      (∃ table column default t, statement = .addColumn table column default ∧
        v.tables table = some t ∧
        (v.execute statement).2 = v.setTable table
          { columns := t.columns ++ [column], rows := t.rows.map (· ++ [default]) }) ∨
      ∃ version appliedAt t, statement = .insertVersion version appliedAt ∧
        v.tables .schema_migrations = some t ∧
        (v.execute statement).2 = v.setTable .schema_migrations
          { t with rows := t.rows ++ [[.integer version, .integer appliedAt]] } := by
  -- `IF NOT EXISTS` leaves a table that is there as it is, whatever its columns.
  cases statement with
  | pragma text => exact .inl rfl
  | createTable name =>
      rw [Vault.execute]
      split
      · exact .inl rfl
      · next hnone => exact .inr (.inl ⟨name, rfl, hnone, rfl⟩)
  | createIndex name =>
      rw [Vault.execute]
      split
      · exact .inl rfl
      · split
        · exact .inl rfl
        · split
          · exact .inr (.inr (.inl ⟨name, rfl, rfl⟩))
          · exact .inl rfl
  | addColumn table column default =>
      rw [Vault.execute]
      split
      · exact .inl rfl
      · next t ht =>
          split
          · exact .inl rfl
          · exact .inr (.inr (.inr (.inl ⟨table, column, default, t, rfl, ht, rfl⟩)))
  | insertVersion version appliedAt =>
      rw [Vault.execute]
      split
      · exact .inl rfl
      · next t ht =>
          split
          · exact .inl rfl
          · exact .inr (.inr (.inr (.inr ⟨version, appliedAt, t, rfl, ht, rfl⟩)))

/-- No statement loses anything. -/
theorem grows_execute (statement : SqlStatement) (v : Vault) :
    v.Grows (v.execute statement).2 := by
  rcases execute_cases statement v with hsame | ⟨name, -, hnone, htable⟩ | ⟨name, -, hindex⟩ |
    ⟨table, column, default, t, -, ht, hcolumn⟩ | ⟨version, appliedAt, t, -, ht, hversion⟩
  · rw [hsame]
    exact .refl v
  · -- a new table replaces none
    rw [htable]
    refine grows_setTable fun old hold => ?_
    cases hnone.symm.trans hold
  · rw [hindex]
    refine ⟨(Vault.Grows.refl v).tables, ?_⟩
    intro other hother
    by_cases hname : other = name
    · subst hname
      exact Function.update_self other true v.indexes
    · exact (Function.update_of_ne hname true v.indexes).trans hother
  · -- every row gets the default value of the new column
    rw [hcolumn]
    refine grows_setTable fun old hold => ?_
    cases ht.symm.trans hold
    exact ⟨[column], [default], rfl, fun _ => rfl⟩
  · -- of the versions nothing is claimed
    rw [hversion]
    refine grows_setTable fun old hold => ?_
    cases ht.symm.trans hold
    exact ⟨[], [], (List.append_nil _).symm, fun hname => absurd rfl hname⟩

/-! ## Statements that record no version -/

/-- The statement creates a part of the schema, or nothing. -/
def SqlStatement.IsSchema : SqlStatement → Prop
  | .addColumn table _ _ => table ≠ .schema_migrations
  | .insertVersion _ _ => False
  | _ => True

theorem recorded_setTable_of_ne {name : TableName} (h : name ≠ .schema_migrations) (t : Table) :
    (v.setTable name t).recorded = v.recorded := by
  rw [Vault.recorded, tables_setTable_of_ne h.symm, Vault.recorded]

theorem recorded_execute {statement : SqlStatement} (hschema : statement.IsSchema) (v : Vault) :
    (v.execute statement).2.recorded = v.recorded := by
  rcases execute_cases statement v with hsame | ⟨name, -, hnone, htable⟩ | ⟨name, -, hindex⟩ |
    ⟨table, column, default, t, rfl, -, hcolumn⟩ | ⟨version, appliedAt, t, rfl, -, -⟩
  · rw [hsame]
  · rw [htable]
    by_cases hname : name = .schema_migrations
    · -- a new migration table is empty, and without one nothing is recorded
      subst hname
      rw [recorded_of_some (tables_setTable_self v _ _), Vault.recorded, hnone]
      rfl
    · exact recorded_setTable_of_ne hname _
  · rw [hindex]
    rfl
  · rw [hcolumn]
    exact recorded_setTable_of_ne hschema _
  · exact absurd hschema id

theorem keepsColumns_setTable (h : v.KeepsColumns) {name : TableName} {t : Table}
    (ht : name.columns ⊆ t.columns) : (v.setTable name t).KeepsColumns := by
  intro other t' ht'
  by_cases hname : other = name
  · subst hname
    cases (tables_setTable_self v other t).symm.trans ht'
    exact ht
  · exact h other t' ((tables_setTable_of_ne hname t).symm.trans ht')

theorem keepsColumns_execute (h : v.KeepsColumns) (statement : SqlStatement) :
    (v.execute statement).2.KeepsColumns := by
  rcases execute_cases statement v with hsame | ⟨name, -, -, htable⟩ | ⟨name, -, hindex⟩ |
    ⟨table, column, default, t, -, ht, hcolumn⟩ | ⟨version, appliedAt, t, -, ht, hversion⟩
  · rwa [hsame]
  · rw [htable]
    exact keepsColumns_setTable h (List.Subset.refl _)
  · rw [hindex]
    exact h
  · rw [hcolumn]
    exact keepsColumns_setTable h
      (List.Subset.trans (h table t ht) (List.subset_append_left _ _))
  · rw [hversion]
    exact keepsColumns_setTable h (h .schema_migrations t ht)

/-- What records no version keeps the file sound. -/
theorem Vault.Sound.covers (h : v.Sound) (hcovers : v.Covers v') (hcolumns : v'.KeepsColumns)
    (hrecorded : v'.recorded = v.recorded) : v'.Sound where
  columns := hcolumns
  versions := by
    rw [hrecorded]
    exact h.versions
  follows m hm := by
    rw [records_iff, hrecorded, ← records_iff] at hm
    exact (h.follows m hm).covers hcovers

theorem sound_execute (h : v.Sound) {statement : SqlStatement} (hschema : statement.IsSchema) :
    (v.execute statement).2.Sound :=
  h.covers (grows_execute statement v).covers (keepsColumns_execute h.columns statement)
    (recorded_execute hschema v)

/-- A statement that returns has created what it creates. -/
theorem done_execute (h : v.Sound) {statement : SqlStatement}
    (hok : (v.execute statement).1 = .ok ()) : statement.Done (v.execute statement).2 := by
  cases statement with
  | pragma text => trivial
  | createTable name =>
      rw [Vault.execute]
      split
      · -- `IF NOT EXISTS` skips the statement, and the table there has the columns
        next t ht => exact ⟨t, ht, h.columns name t ht⟩
      · exact ⟨_, tables_setTable_self _ _ _, List.Subset.refl _⟩
  | createIndex name =>
      rw [Vault.execute] at hok ⊢
      split at hok
      · next hindex =>
          rw [if_pos hindex]
          exact hindex
      · next hindex =>
          rw [if_neg hindex]
          split at hok
          · cases hok
          · next t ht =>
              split at hok
              · next hsubset =>
                  simp only [if_pos hsubset]
                  exact Function.update_self name true v.indexes
              · cases hok
  | addColumn table column default =>
      rw [Vault.execute] at hok ⊢
      split at hok
      · cases hok
      · next t ht =>
          split at hok
          · cases hok
          · next hnew =>
              simp only [if_neg hnew]
              exact ⟨_, tables_setTable_self _ _ _,
                List.mem_append_right _ (List.mem_singleton_self _)⟩
  | insertVersion => trivial

/-- `ALTER TABLE` on a table that is there ends with the column there, whether it returns or not. -/
theorem done_addColumn {table : TableName} {column : ColumnName} {default : SqlValue}
    (h : v.Sound) (htable : SqlStatement.Done (.createTable table) v) :
    SqlStatement.Done (.addColumn table column default)
      (v.execute (.addColumn table column default)).2 := by
  obtain ⟨t, ht, -⟩ := htable
  by_cases hcolumn : column ∈ t.columns
  · -- the statement fails, and the column it would add is there
    have hsame : v.execute (.addColumn table column default) = (.error .duplicateColumn, v) := by
      simp only [Vault.execute, ht, if_pos hcolumn]
    rw [hsame]
    exact ⟨t, ht, hcolumn⟩
  · apply done_execute h
    simp only [Vault.execute, ht, if_neg hcolumn]

/-! ## Recording a version -/

/-- With the schema there, recording its version keeps the file sound. -/
theorem sound_insertVersion (h : v.Sound) (hn : n = 1 ∨ n = 2) (hschema : v.HasSchema n)
    (appliedAt : Nat) : (v.execute (.insertVersion n appliedAt)).2.Sound := by
  have hgrows := grows_execute (.insertVersion n appliedAt) v
  -- no other version is recorded with it
  have hmem : ∀ k ∈ (v.execute (.insertVersion n appliedAt)).2.recorded, k ∈ v.recorded ∨ k = n := by
    intro k hk
    rcases execute_cases (.insertVersion n appliedAt) v with hsame | ⟨_, hne, -⟩ | ⟨_, hne, -⟩ |
      ⟨_, _, _, _, hne, -⟩ | ⟨version, at', t, hsame, ht, hversion⟩
    · rw [hsame] at hk
      exact Or.inl hk
    · cases hne
    · cases hne
    · cases hne
    · cases hsame
      rw [hversion, recorded_of_some (tables_setTable_self v _ _), keys_insert,
        List.mem_append] at hk
      rw [recorded_of_some ht]
      exact hk.imp_right List.mem_singleton.1
  refine ⟨keepsColumns_execute h.columns _, ?_, ?_⟩
  · intro k hk
    rcases hmem k hk with hold | rfl
    · exact h.versions k hold
    · omega
  · intro m hm
    rw [records_iff] at hm
    rcases hmem m hm with hold | hnew
    · exact (h.follows m (records_iff.2 hold)).grows hgrows
    · obtain rfl : m = n := by omega
      exact hschema.grows hgrows

/-- With the table there and the version not recorded, it is recorded. -/
theorem execute_insertVersion (htable : SqlStatement.Done (.createTable .schema_migrations) v)
    (hnew : (n : Int) ∉ v.recorded) (appliedAt : Nat) :
    (v.execute (.insertVersion n appliedAt)).1 = .ok () := by
  obtain ⟨t, ht, -⟩ := htable
  rw [recorded_of_some ht] at hnew
  simp only [Vault.execute, ht, if_neg hnew]

theorem recorded_insertVersion {appliedAt : Nat}
    (hok : (v.execute (.insertVersion n appliedAt)).1 = .ok ()) :
    (v.execute (.insertVersion n appliedAt)).2.recorded = v.recorded ++ [(n : Int)] := by
  rw [Vault.execute] at hok ⊢
  split at hok
  · cases hok
  · next t ht =>
      split at hok
      · cases hok
      · next hnew =>
          simp only [if_neg hnew]
          rw [recorded_of_some (tables_setTable_self v _ _), keys_insert, recorded_of_some ht]

/-- The current version, zero when none is recorded. -/
structure Vault.Current (v : Vault) (c : Int) : Prop where
  le : ∀ k ∈ v.recorded, k ≤ c
  mem : 1 ≤ c → c ∈ v.recorded

/-- `MAX(version)` is the current version. -/
theorem current_of_maxVersion {row : Option Int} (h : v.maxVersion = .ok row) :
    v.Current (row.getD 0) := by
  rw [Vault.maxVersion] at h
  split at h
  · cases h
  · next t ht =>
      cases h
      cases hmax : t.keys.max? with
      | none =>
          -- `MAX` of no rows is null, which reads as zero
          have hnil := List.max?_eq_none_iff.1 hmax
          refine ⟨?_, fun hone => absurd hone (by decide)⟩
          rw [recorded_of_some ht, hnil]
          exact fun k hk => absurd hk List.not_mem_nil
      | some c =>
          obtain ⟨hmem, hle⟩ := List.max?_eq_some_iff.1 hmax
          rw [← recorded_of_some ht] at hmem hle
          exact ⟨hle, fun _ => hmem⟩

/-- With version 2 recorded, and no other than 1 and 2, `MAX(version)` is 2. -/
theorem Vault.Sound.maxVersion (h : v.Sound) (htwo : v.Records 2) :
    v.maxVersion = .ok (some 2) := by
  obtain ⟨t, ht, hmem⟩ := htwo
  have hversions := h.versions
  rw [recorded_of_some ht] at hversions
  have hmax : t.keys.max? = some 2 := by
    refine List.max?_eq_some_iff.2 ⟨hmem, ?_⟩
    intro k hk
    rcases hversions k hk with rfl | rfl <;> decide
  simp only [Vault.maxVersion, ht, hmax]

/-- From version 1 on, the schema of version 1 is there. -/
theorem Vault.Sound.hasSchema_one (h : v.Sound) {k : Int} (hk : k ∈ v.recorded) :
    v.HasSchema 1 := by
  rcases h.versions k hk with rfl | rfl
  · exact h.follows 1 (records_iff.2 hk)
  · exact fun m hm => h.follows 2 (records_iff.2 hk) m (hm.trans (by decide))

/-! ## Attempts -/

/-- A statement of the schema: what it creates is there, nothing is lost and no version recorded. -/
theorem robust_execute {statement : SqlStatement} (h : v.Sound) (hschema : statement.IsSchema) :
    (execute statement).Robust SqlOp.handle MayFail Vault.Sound
      (fun _ v' => v.Grows v' ∧ v'.recorded = v.recorded ∧ statement.Done v') v :=
  Program.robust_attempt (o := SqlOp.execute statement) h (sound_execute h hschema) fun _ hok =>
    ⟨grows_execute statement v, recorded_execute hschema v, done_execute h hok⟩

theorem robust_executeAll {statements : List SqlStatement} (h : v.Sound)
    (hschema : ∀ statement ∈ statements, statement.IsSchema) :
    (executeAll statements).Robust SqlOp.handle MayFail Vault.Sound
      (fun _ v' => v.Grows v' ∧ v'.recorded = v.recorded ∧
        ∀ statement ∈ statements, statement.Done v') v := by
  induction statements generalizing v with
  | nil => exact Program.robust_pure h ⟨.refl v, rfl, fun _ hmem => absurd hmem List.not_mem_nil⟩
  | cons statement statements ih =>
      rw [List.forall_mem_cons] at hschema
      refine Program.robust_bind (robust_execute h hschema.1) ?_
      rintro _ v₁ h₁ ⟨hgrows, hrecorded, hdone⟩
      refine (ih h₁ hschema.2).imp ?_
      -- what the first statement created is there after the others
      rintro _ v₂ - ⟨hgrows', hrecorded', hdone'⟩
      exact ⟨hgrows.trans hgrows', hrecorded'.trans hrecorded,
        List.forall_mem_cons.2 ⟨hdone.grows hgrows', hdone'⟩⟩

/-- The statement that records a version whose schema is there. -/
theorem robust_insertVersion (h : v.Sound) (hn : n = 1 ∨ n = 2) (hschema : v.HasSchema n)
    (appliedAt : Nat) :
    (execute (.insertVersion n appliedAt)).Robust SqlOp.handle MayFail Vault.Sound
      (fun _ v' => v.Grows v' ∧ v'.recorded = v.recorded ++ [(n : Int)]) v :=
  Program.robust_attempt (o := SqlOp.execute (.insertVersion n appliedAt)) h
    (sound_insertVersion h hn hschema appliedAt) fun _ hok =>
    ⟨grows_execute _ v, recorded_insertVersion hok⟩

/-- What the first migration creates is created by its statements. -/
theorem hasSchema_one (htables : ∀ statement ∈ tablesV1, statement.Done v)
    (hindex : SqlStatement.Done (.createIndex .idx_messages_contact) v) : v.HasSchema 1 := by
  intro k hk statement hmem
  obtain rfl | rfl : k = 0 ∨ k = 1 := by omega
  · cases hmem
  · rcases List.mem_append.1 hmem with htable | hindex'
    · exact htables statement htable
    · rw [List.mem_singleton.1 hindex']
      exact hindex

theorem hasSchema_two (hone : v.HasSchema 1) (hcolumn : addLinkedDevices.Done v)
    (htable : SqlStatement.Done (.createTable .own_linked_devices) v) : v.HasSchema 2 := by
  intro k hk statement hmem
  obtain hle | rfl : k ≤ 1 ∨ k = 2 := by omega
  · exact hone k hle statement hmem
  · rcases List.mem_pair.1 hmem with rfl | rfl
    · exact hcolumn
    · exact htable

theorem isSchema_tablesV1 : ∀ statement ∈ tablesV1, statement.IsSchema := by
  simp [tablesV1, SqlStatement.IsSchema]

theorem robust_applyMigrationV1 (h : v.Sound) (now : Nat) :
    (applyMigrationV1 now).Robust SqlOp.handle MayFail Vault.Sound
      (fun _ v' => v.Grows v' ∧ v'.recorded = v.recorded ++ [1]) v := by
  refine Program.robust_bind (robust_executeAll h isSchema_tablesV1) ?_
  rintro _ v₁ h₁ ⟨hgrows₁, hrecorded₁, htables⟩
  refine Program.robust_bind (robust_execute h₁ trivial) ?_
  rintro _ v₂ h₂ ⟨hgrows₂, hrecorded₂, hindex⟩
  -- the index comes after its table, and nothing in between drops the table
  have hschema : v₂.HasSchema 1 :=
    hasSchema_one (fun statement hmem => (htables statement hmem).grows hgrows₂) hindex
  refine (robust_insertVersion h₂ (.inl rfl) hschema now).imp ?_
  rintro _ v₃ - ⟨hgrows₃, hrecorded₃⟩
  rw [hrecorded₂, hrecorded₁] at hrecorded₃
  exact ⟨(hgrows₁.trans hgrows₂).trans hgrows₃, hrecorded₃⟩

theorem isSchema_addLinkedDevices : addLinkedDevices.IsSchema := by
  intro h
  cases h

/-- With `ALTER TABLE` failing only where the column is there, the column is there afterwards. -/
theorem robust_catch_addLinkedDevices (h : v.Sound) (hone : v.HasSchema 1) :
    ((execute addLinkedDevices).catchError : SqlM (Except SqlError Unit)).Robust SqlOp.handle MayFail
      Vault.Sound (fun _ v' => v.Grows v' ∧ addLinkedDevices.Done v' ∧ v'.recorded = v.recorded)
      v := by
  have hcontacts : SqlStatement.Done (.createTable .contacts) v :=
    hone 1 le_rfl _ (by simp [migration, tablesV1])
  refine Program.robust_catchError (o := SqlOp.execute addLinkedDevices) h
    (sound_execute h isSchema_addLinkedDevices) ?_ ?_
  · exact ⟨grows_execute _ v, done_addColumn h hcontacts,
      recorded_execute isSchema_addLinkedDevices v⟩
  · -- a failure that is caught: by assumption the column was there before
    intro hmay e
    exact ⟨.refl v, hmay rfl, rfl⟩

theorem robust_applyMigrationV2 (h : v.Sound) (hone : v.HasSchema 1) (now : Nat) :
    (applyMigrationV2 now).Robust SqlOp.handle MayFail Vault.Sound
      (fun _ v' => v'.Records 2) v := by
  refine Program.robust_bind (robust_catch_addLinkedDevices h hone) ?_
  rintro _ v₁ h₁ ⟨hgrows₁, hcolumn, -⟩
  refine Program.robust_bind (robust_execute h₁ trivial) ?_
  rintro _ v₂ h₂ ⟨hgrows₂, -, htable⟩
  have hschema : v₂.HasSchema 2 :=
    hasSchema_two (hone.grows (hgrows₁.trans hgrows₂)) (hcolumn.grows hgrows₂) htable
  refine (robust_insertVersion h₂ (.inr rfl) hschema now).imp ?_
  rintro _ v₃ - ⟨-, hrecorded⟩
  rw [records_iff, hrecorded]
  exact List.mem_append_right _ (List.mem_singleton_self _)

/-- The first migration, when it is pending: its schema is there afterwards, and version 2 is recorded
if and only if it was current. -/
theorem robust_pendingV1 (h : v.Sound) {c : Int} (hc : v.Current c) (now : Nat) :
    (if c < 1 then applyMigrationV1 now else pure ()).Robust SqlOp.handle MayFail Vault.Sound
      (fun _ v' => v.Grows v' ∧ v'.HasSchema 1 ∧ (v'.Records 2 ↔ 2 ≤ c)) v := by
  by_cases hlt : c < 1
  · rw [if_pos hlt]
    refine (robust_applyMigrationV1 h now).imp ?_
    rintro _ v₁ h₁ ⟨hgrows, hrecorded⟩
    have hone : (1 : Int) ∈ v₁.recorded := by simp [hrecorded]
    refine ⟨hgrows, h₁.hasSchema_one hone, ?_⟩
    rw [records_iff, hrecorded]
    constructor
    · intro htwo
      rcases List.mem_append.1 htwo with hold | hnew
      · exact hc.le 2 hold
      · simp at hnew
    · intro htwo
      omega
  · -- no migration is pending, so that some version is recorded
    rw [if_neg hlt]
    have hmem : c ∈ v.recorded := hc.mem (by omega)
    refine Program.robust_pure h ⟨.refl v, h.hasSchema_one hmem, ?_⟩
    rw [records_iff]
    constructor
    · exact hc.le 2
    · intro htwo
      obtain rfl : c = 2 := by
        rcases h.versions c hmem with rfl | rfl <;> omega
      exact hmem

/-- The migrations above the current version: afterwards version 2 is recorded. -/
theorem robust_applyPending (h : v.Sound) {c : Int} (hc : v.Current c) (now : Nat → Nat) :
    (applyPending now c).Robust SqlOp.handle MayFail Vault.Sound (fun _ v' => v'.Records 2) v := by
  refine Program.robust_bind (robust_pendingV1 h hc (now 1)) ?_
  rintro _ v₁ h₁ ⟨-, hone, htwo⟩
  by_cases hlt : c < 2
  · rw [if_pos hlt]
    exact robust_applyMigrationV2 h₁ hone (now 2)
  · rw [if_neg hlt]
    exact Program.robust_pure h₁ (htwo.2 (by omega))

/-- The query answers with the current version, and leaves the file. -/
theorem robust_queryVersion (h : v.Sound) :
    (Program.attempt SqlOp.queryVersion : SqlM (Option Int)).Robust SqlOp.handle MayFail Vault.Sound
      (fun row v' => v' = v ∧ v.Current (row.getD 0)) v :=
  Program.robust_attempt (o := SqlOp.queryVersion) h h fun _ hanswer =>
    ⟨rfl, current_of_maxVersion hanswer⟩

/-- An attempt keeps the file sound wherever it stops; when it returns, version 2 is recorded. -/
theorem robust_initializeVault (h : v.Sound) (now : Nat → Nat) :
    (initializeVault now).Robust SqlOp.handle MayFail Vault.Sound (fun _ v' => v'.Records 2) v := by
  refine Program.robust_bind (robust_execute h trivial) ?_
  rintro _ v₁ h₁ -
  refine Program.robust_bind (robust_execute h₁ trivial) ?_
  rintro _ v₂ h₂ -
  refine Program.robust_bind (robust_execute h₂ trivial) ?_
  rintro _ v₃ h₃ -
  refine Program.robust_bind (robust_queryVersion h₃) ?_
  rintro row v₄ h₄ ⟨rfl, hcurrent⟩
  exact robust_applyPending h₄ hcurrent now

/-! ## Attempts without failures -/

theorem returns_execute {statement : SqlStatement} (hok : (v.execute statement).1 = .ok ()) :
    (execute statement).Returns SqlOp.handle v :=
  Program.returns_attempt (o := SqlOp.execute statement) hok

theorem execute_createTable (name : TableName) (v : Vault) :
    (v.execute (.createTable name)).1 = .ok () := by
  rw [Vault.execute]
  split <;> rfl

theorem execute_createIndex {name : IndexName}
    (htable : SqlStatement.Done (.createTable name.target.1) v) :
    (v.execute (.createIndex name)).1 = .ok () := by
  obtain ⟨t, ht, hcolumns⟩ := htable
  have htarget : name.target.2 ⊆ t.columns := by
    refine List.Subset.trans ?_ hcolumns
    cases name
    decide
  by_cases hindex : v.indexes name = true
  · simp only [Vault.execute, if_pos hindex]
  · simp only [Vault.execute, if_neg hindex, ht, if_pos htarget]

theorem returns_executeAll {statements : List SqlStatement} (h : v.Sound)
    (htables : ∀ statement ∈ statements, ∃ name, statement = .createTable name) :
    (executeAll statements).Returns SqlOp.handle v := by
  induction statements generalizing v with
  | nil => exact Program.returns_pure () v
  | cons statement statements ih =>
      obtain ⟨⟨name, rfl⟩, hrest⟩ := List.forall_mem_cons.1 htables
      refine Program.returns_bind (robust_execute h trivial)
        (returns_execute (execute_createTable name v)) ?_
      intro _ v₁ h₁ _
      exact ih h₁ hrest

/-- A version that was not recorded when the migration began can be recorded at its end. -/
theorem returns_insertVersion {v' : Vault} {n : Nat}
    (htable : SqlStatement.Done (.createTable .schema_migrations) v) (hgrows : v.Grows v')
    (hrecorded : v'.recorded = v.recorded) (hnew : (n : Int) ∉ v.recorded) (now : Nat) :
    (execute (.insertVersion n now)).Returns SqlOp.handle v' := by
  apply returns_execute
  refine execute_insertVersion (htable.grows hgrows) ?_ now
  rwa [hrecorded]

theorem returns_applyMigrationV1 (h : v.Sound)
    (htable : SqlStatement.Done (.createTable .schema_migrations) v) (hnew : (1 : Int) ∉ v.recorded)
    (now : Nat) : (applyMigrationV1 now).Returns SqlOp.handle v := by
  refine Program.returns_bind (robust_executeAll h isSchema_tablesV1)
    (returns_executeAll h (by simp [tablesV1])) ?_
  rintro _ v₁ h₁ ⟨hgrows₁, hrecorded₁, htables⟩
  have hmessages := htables (.createTable .messages) (by simp [tablesV1])
  refine Program.returns_bind (robust_execute h₁ trivial)
    (returns_execute (execute_createIndex hmessages)) ?_
  rintro _ v₂ h₂ ⟨hgrows₂, hrecorded₂, -⟩
  exact returns_insertVersion htable (hgrows₁.trans hgrows₂) (hrecorded₂.trans hrecorded₁) hnew now

theorem returns_applyMigrationV2 (h : v.Sound) (hone : v.HasSchema 1)
    (htable : SqlStatement.Done (.createTable .schema_migrations) v) (hnew : (2 : Int) ∉ v.recorded)
    (now : Nat) : (applyMigrationV2 now).Returns SqlOp.handle v := by
  -- `ALTER TABLE` may throw, and what it throws is caught
  refine Program.returns_bind (robust_catch_addLinkedDevices h hone)
    (Program.returns_catchError _ v) ?_
  rintro _ v₁ h₁ ⟨hgrows₁, -, hrecorded₁⟩
  refine Program.returns_bind (robust_execute h₁ trivial)
    (returns_execute (execute_createTable _ v₁)) ?_
  rintro _ v₂ h₂ ⟨hgrows₂, hrecorded₂, -⟩
  exact returns_insertVersion htable (hgrows₁.trans hgrows₂) (hrecorded₂.trans hrecorded₁) hnew now

theorem returns_applyPending (h : v.Sound) {c : Int} (hc : v.Current c)
    (htable : SqlStatement.Done (.createTable .schema_migrations) v) (now : Nat → Nat) :
    (applyPending now c).Returns SqlOp.handle v := by
  refine Program.returns_bind (robust_pendingV1 h hc (now 1)) ?_ ?_
  · by_cases hlt : c < 1
    · rw [if_pos hlt]
      refine returns_applyMigrationV1 h htable ?_ (now 1)
      intro hone
      exact absurd (hc.le 1 hone) (by omega)
    · rw [if_neg hlt]
      exact Program.returns_pure () v
  · rintro _ v₁ h₁ ⟨hgrows, hone, htwo⟩
    by_cases hlt : c < 2
    · rw [if_pos hlt]
      refine returns_applyMigrationV2 h₁ hone (htable.grows hgrows) ?_ (now 2)
      intro hmem
      exact absurd (htwo.1 (records_iff.2 hmem)) (by omega)
    · rw [if_neg hlt]
      exact Program.returns_pure () v₁

/-- From a sound file an attempt without failures returns. -/
theorem returns_initializeVault (h : v.Sound) (now : Nat → Nat) :
    (initializeVault now).Returns SqlOp.handle v := by
  refine Program.returns_bind (robust_execute h trivial) (returns_execute rfl) ?_
  rintro _ v₁ h₁ -
  refine Program.returns_bind (robust_execute h₁ trivial) (returns_execute rfl) ?_
  rintro _ v₂ h₂ -
  refine Program.returns_bind (robust_execute h₂ trivial)
    (returns_execute (execute_createTable _ v₂)) ?_
  rintro _ v₃ h₃ ⟨-, -, htable⟩
  -- the table of the versions has just been created, so that the query has an answer
  have hanswer : ∃ row, v₃.maxVersion = .ok row := by
    obtain ⟨t, ht, -⟩ := htable
    exact ⟨t.keys.max?, by simp only [Vault.maxVersion, ht]⟩
  obtain ⟨row, hrow⟩ := hanswer
  refine Program.returns_bind (robust_queryVersion h₃)
    (Program.returns_attempt (o := SqlOp.queryVersion) hrow) ?_
  rintro row' v₄ h₄ ⟨rfl, hcurrent⟩
  exact returns_applyPending h₄ hcurrent htable now

/-- A run loses nothing. -/
theorem grows_run {α : Type} (p : SqlM α) (v : Vault) : v.Grows (p.run SqlOp.handle v).2 :=
  Program.run_preserves SqlOp.handle .refl (fun _ _ _ => .trans) (fun o v => by
    cases o with
    | execute statement => exact grows_execute statement v
    | queryVersion => exact .refl v) p v

/-- A sound file recovers. -/
theorem Vault.Sound.recovers (h : v.Sound) : v.Recovers := by
  intro now
  obtain ⟨⟨⟩, hok⟩ := returns_initializeVault h now
  obtain ⟨hsound, hrecords⟩ := (robust_initializeVault h now).run
  have htwo := hrecords () hok
  exact ⟨_, Prod.ext hok rfl, hsound.maxVersion htwo, hsound.follows 2 htwo,
    (grows_run _ v).keepsRows⟩

/-! ## Histories -/

/-- Other rows in a table of the application change nothing of the schema. -/
theorem sound_setRows (h : v.Sound) {name : TableName} {t : Table} (ht : v.tables name = some t)
    (hname : name ≠ .schema_migrations) (rows : List (List SqlValue)) :
    (v.setTable name { t with rows }).Sound := by
  refine h.covers ⟨?_, fun _ hindex => hindex⟩ (keepsColumns_setTable h.columns (h.columns name t ht))
    (recorded_setTable_of_ne hname _)
  intro other old hold
  -- the table keeps its columns, and its rows are no part of the schema
  by_cases hother : other = name
  · subst hother
    cases ht.symm.trans hold
    exact ⟨_, tables_setTable_self _ _ _, List.Subset.refl _⟩
  · exact ⟨old, (tables_setTable_of_ne hother _).trans hold, List.Subset.refl _⟩

/-- What happens to a sound file leaves it sound, when its attempts are as expected. -/
theorem Event.sound_apply {e : Event} (h : v.Sound) (he : e.Expected v) : (e.apply v).Sound := by
  cases e with
  | attempt now turns => exact (robust_initializeVault h now).runFaulty he
  | write name rows =>
      rw [Event.apply]
      split
      · exact h
      · next t ht =>
          split
          · exact h
          · next hname => exact sound_setRows h ht hname rows

theorem sound_after {events : List Event} (h : v.Sound) (hevents : Expected events v) :
    (after events v).Sound := by
  induction events generalizing v with
  | nil => exact h
  | cons e events ih => exact ih (e.sound_apply h hevents.1) hevents.2

/-- At every point of every history in which `ALTER TABLE` fails only where the column is there
already, a recorded version implies its schema, and an initialization without failures ends at
version 2 with the complete schema and all rows. -/
theorem version_implies_schema {events : List Event} (hevents : Expected events .empty) :
    (after events .empty).FollowsVersion ∧ (after events .empty).Recovers :=
  ⟨(sound_after sound_empty hevents).follows, (sound_after sound_empty hevents).recovers⟩

/-- An attempt that fails after `ALTER TABLE`, a contact, and an attempt in which `ALTER TABLE` fails
since the column is there. -/
def interruptedHistory : List Event :=
  [.attempt (fun _ => 0) (List.replicate 12 .performed ++ [.failed (.runtime "disk I/O error")]),
    .write .contacts [[.text "aa", .text "bb", .text "cc", .null, .integer 1, .text "[]"]],
    .attempt (fun _ => 1) (List.replicate 4 .performed ++
      [.failed (.runtime "duplicate column name: linked_devices"), .performed, .performed])]

theorem version_implies_schema_interrupted :
    Expected interruptedHistory .empty ∧
      ((after interruptedHistory .empty).FollowsVersion ∧
        (after interruptedHistory .empty).Recovers) := by
  have hexpected : Expected interruptedHistory .empty := by
    refine ⟨⟨?_, trivial⟩, trivial, ⟨?_, trivial⟩, trivial⟩
    · intro h
      cases h
    · intro _
      exact ⟨_, rfl, by decide⟩
  exact ⟨hexpected, version_implies_schema hexpected⟩

/-- A first attempt in which `ALTER TABLE` finds the database locked. -/
def lockedHistory : List Event :=
  [.attempt (fun _ => 0) (List.replicate 11 .performed ++
    [.failed (.runtime "database is locked"), .performed, .performed])]

/-- Version 2 is recorded there, without the column. -/
theorem not_forall_version_implies_schema :
    ¬ ∀ events, (after events .empty).FollowsVersion ∧ (after events .empty).Recovers := by
  intro h
  have hrecords : (after lockedHistory .empty).Records 2 := ⟨_, rfl, by decide⟩
  obtain ⟨t, ht, hcolumn⟩ := (h lockedHistory).1 2 hrecords 2 le_rfl addLinkedDevices (by decide)
  have hcontacts : (after lockedHistory .empty).tables .contacts =
      some { columns := TableName.contacts.columns, rows := [] } := rfl
  cases hcontacts.symm.trans ht
  exact absurd hcolumn (by decide)

end TorE2EE.Client.Migrations
