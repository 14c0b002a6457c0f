import SkidMonitor.Lib.Table

/-! The check of the migrations a database has applied against the ones this binary embeds. -/
namespace SkidMonitor.Migrations

open List

structure Migration where
  version : ℤ
  checksum : List UInt8

/-- A row of the table of applied migrations: its version, whether it succeeded, its checksum. -/
abbrev AppliedMigration := ℤ × Bool × List UInt8

/-- What the check says about a migration, from the first row with its version. -/
def migrationProblem (applied : List AppliedMigration) (migration : Migration) : Option String :=
  match applied.find? fun row => row.1 = migration.version with
  | some (_, true, checksum) =>
    if checksum = migration.checksum then none
    else some s!"migration {migration.version} checksum does not match this binary"
  | some (_, false, _) => some s!"migration {migration.version} is recorded as unsuccessful"
  | none => none

def validateAppliedMigrations (migrations : List Migration) (applied : List AppliedMigration) :
    List String :=
  let expectedVersions := (migrations.map Migration.version).toFinset
  let appliedVersions := (applied.map Prod.fst).toFinset
  (if expectedVersions ≠ appliedVersions ∨ applied.length ≠ migrations.length then
    ["applied migration versions do not exactly match this binary"]
  else []) ++ migrations.filterMap (migrationProblem applied)

/-- The row that a migration leaves when it succeeds. -/
def Migration.row (migration : Migration) : AppliedMigration :=
  (migration.version, true, migration.checksum)

variable {migrations : List Migration} {applied : List AppliedMigration} {migration : Migration}

theorem migrationProblem_none (hversion : migration.version ∈ applied.map Prod.fst) :
    migrationProblem applied migration = none ↔
      applied.find? (fun row => row.1 = migration.version) = some migration.row := by
  obtain ⟨⟨version, success, checksum⟩, hfind, hfound⟩ := Table.exists_find? hversion
  change version = migration.version at hfound
  subst hfound
  rw [migrationProblem, hfind]
  cases success <;> simp [Migration.row]

theorem validateAppliedMigrations_nil : validateAppliedMigrations migrations applied = [] ↔
    (migrations.map Migration.version).toFinset = (applied.map Prod.fst).toFinset ∧
      applied.length = migrations.length ∧
      ∀ migration ∈ migrations, migrationProblem applied migration = none := by
  rw [validateAppliedMigrations, append_eq_nil_iff, filterMap_eq_nil_iff]
  split_ifs with h
  · simp only [false_and, false_iff]
    rintro ⟨hversions, hlength, _⟩
    exact h.elim (· hversions) (· hlength)
  · push Not at h
    simp [h]

/-- No problem is reported just if the applied migrations are the embedded ones, each once, each
successful and with its checksum. -/
theorem applied_migrations_exact (hversions : (migrations.map Migration.version).Nodup) :
    validateAppliedMigrations migrations applied = [] ↔
      applied.Perm (migrations.map Migration.row) := by
  rw [validateAppliedMigrations_nil]
  constructor
  · rintro ⟨hsame, hlength, hnone⟩
    have hrows : (migrations.map Migration.row).Nodup := by
      refine List.Nodup.of_map Prod.fst ?_
      rwa [map_map]
    have hsubset : migrations.map Migration.row ⊆ applied := by
      intro row hrow
      obtain ⟨migration, hmem, rfl⟩ := mem_map.mp hrow
      have hversion : migration.version ∈ applied.map Prod.fst := by
        rw [← mem_toFinset, ← hsame, mem_toFinset]
        exact mem_map_of_mem hmem
      exact mem_of_find?_eq_some ((migrationProblem_none hversion).mp (hnone migration hmem))
    refine ((subperm_of_subset hrows hsubset).perm_of_length_le ?_).symm
    rw [length_map, hlength]
  · intro hperm
    have hfst : (applied.map Prod.fst).Perm (migrations.map Migration.version) := by
      have hmap := hperm.map Prod.fst
      rwa [map_map] at hmap
    have hnodup : (applied.map Prod.fst).Nodup := hfst.nodup_iff.mpr hversions
    refine ⟨(toFinset_eq_of_perm _ _ hfst).symm, ?_, fun migration hmem => ?_⟩
    · rw [hperm.length_eq, length_map]
    · have hrow : migration.row ∈ applied := hperm.mem_iff.mpr (mem_map_of_mem hmem)
      rw [migrationProblem_none (mem_map_of_mem hrow)]
      exact (Table.find?_iff_mem hnodup).mpr ⟨hrow, rfl⟩

theorem applied_migrations_exact_pair :
    validateAppliedMigrations [⟨1, [10]⟩, ⟨2, [20]⟩] [(2, true, [20]), (1, true, [10])] = [] :=
  (applied_migrations_exact (by decide)).mpr (List.Perm.swap _ _ _)

end SkidMonitor.Migrations
