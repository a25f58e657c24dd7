import IncidentRelay.Lib.Run
import Mathlib.Data.List.Infix
import Mathlib.Data.List.Nodup

/-!
# Schema migrations

The migration table lists what was applied, in the order in which it was. `migrate` applies the
files that are not listed yet, in the order of their names, and stops at the first that fails;
`rollback` takes the last ones back, the last one first. The change of a script and its record
are one transaction, so a script that fails leaves neither.

Over every run of the two commands, whatever fails on the way and whatever files come to the
directory, the schema is what the recorded scripts make of the first one, in the order of their
records (`migrations_built`). On a directory that does not change the records are an initial
segment of the files, and every run that ends with a `migrate` without error ends in the same
database (`migrate_converges`).
-/

namespace IncidentRelay.Schema

variable {σ : Type*}

/-- What a migration file defines. -/
structure Script (σ : Type*) where
  upgrade : Option (σ → Except String σ)
  downgrade : Option (σ → Except String σ)

/-- The schema, and the migration table in the order of its ids. -/
structure Database (σ : Type*) where
  schema : σ
  applied : List String
  nodup : applied.Nodup

section

variable (scripts : String → Script σ)

def applyMigration (name : String) (db : Database σ) : Except String (Database σ) :=
  if h : name ∈ db.applied then .ok db
  else
    match (scripts name).upgrade with
    | none => .error s!"Migration {name} does not have an upgrade function"
    | some upgrade =>
      match upgrade db.schema with
      | .error e => .error s!"Failed to apply migration {name}: {e}"
      | .ok schema =>
        .ok { schema, applied := db.applied ++ [name]
              nodup := List.nodup_append.mpr ⟨db.nodup, List.nodup_singleton name, by
                rintro x hx y hy rfl
                exact h (List.mem_singleton.mp hy ▸ hx)⟩ }

/-- One after the other, up to the first error. -/
def applyAll : List String → Database σ → Database σ × Option String
  | [], db => (db, none)
  | name :: names, db =>
    match applyMigration scripts name db with
    | .error e => (db, some e)
    | .ok db => applyAll names db

/-- The files up to the selected one. -/
def through (upTo : Option String) : List String → List String
  | [] => []
  | file :: files => if upTo = some file then [file] else file :: through upTo files

def migrate (files : List String) (upTo : Option String) (db : Database σ) :
    Database σ × Option String :=
  applyAll scripts ((through upTo files).filter (· ∉ db.applied)) db

def rollbackMigration (files : List String) (name : String) (db : Database σ) :
    Except String (Database σ) :=
  if name ∉ db.applied then .error s!"Migration {name} has not been applied"
  else if name ∉ files then .error s!"Migration file {name}.py not found"
  else
    match (scripts name).upgrade, (scripts name).downgrade with
    | none, _ => .error s!"Migration {name} does not have an upgrade function"
    | some _, none => .error s!"Migration {name} does not have a downgrade function"
    | some _, some downgrade =>
      match downgrade db.schema with
      | .error e => .error s!"Failed to rollback migration {name}: {e}"
      | .ok schema => .ok { schema, applied := db.applied.erase name, nodup := db.nodup.erase name }

def rollbackAll (files : List String) : List String → Database σ → Database σ × Option String
  | [], db => (db, none)
  | name :: names, db =>
    match rollbackMigration scripts files name db with
    | .error e => (db, some e)
    | .ok db => rollbackAll files names db

/-- `names[:count]`. -/
def sliceTo (count : ℤ) (names : List String) : List String :=
  if 0 ≤ count then names.take count.toNat else names.take (names.length - count.natAbs)

def rollback (files : List String) (count : ℤ) (db : Database σ) : Database σ × Option String :=
  rollbackAll scripts files (sliceTo count db.applied.reverse) db

/-- A command, with the directory as it is then. -/
inductive Command where
  | migrate (files : List String) (upTo : Option String)
  | rollback (files : List String) (count : ℤ)

def Command.files : Command → List String
  | .migrate files _ => files
  | .rollback files _ => files

def next (db : Database σ) : Command → Database σ
  | .migrate files upTo => (migrate scripts files upTo db).1
  | .rollback files count => (rollback scripts files count db).1

/-! ## What the schema is made of -/

def upgradeWith (s : σ) (name : String) : Option σ :=
  (scripts name).upgrade.bind fun upgrade => (upgrade s).toOption

/-- The schema is what the recorded scripts make of the first one. -/
def Built (base : σ) (db : Database σ) : Prop :=
  db.applied.foldlM (upgradeWith scripts) base = some db.schema

/-- A downgrade takes back what the upgrade of its script does. -/
def Undoes : Prop :=
  ∀ name upgrade downgrade, (scripts name).upgrade = some upgrade →
    (scripts name).downgrade = some downgrade →
    ∀ s t u, upgrade s = .ok t → downgrade t = .ok u → u = s

end

variable {scripts : String → Script σ} {base : σ} {db db' : Database σ} {files : List String}
  {name : String}

/-! ## One script -/

/-- A script that was applied stands behind the others. -/
theorem applyMigration_cases (h : applyMigration scripts name db = .ok db') :
    (name ∈ db.applied ∧ db' = db) ∨
      (name ∉ db.applied ∧ db'.applied = db.applied ++ [name] ∧
        upgradeWith scripts db.schema name = some db'.schema) := by
  unfold applyMigration at h
  -- a migration that is recorded is not run again
  split_ifs at h with hmem
  · exact .inl ⟨hmem, (Except.ok.inj h).symm⟩
  · cases hup : (scripts name).upgrade with
    | none =>
      rw [hup] at h
      cases h
    | some upgrade =>
      rw [hup] at h
      dsimp only at h
      cases hs : upgrade db.schema with
      | error e =>
        rw [hs] at h
        cases h
      | ok schema =>
        rw [hs] at h
        obtain rfl := Except.ok.inj h
        exact .inr ⟨hmem, rfl, by simp [upgradeWith, hup, hs, Except.toOption]⟩

/-- A rollback that succeeds takes the record off and runs the downgrade. -/
theorem rollbackMigration_cases (h : rollbackMigration scripts files name db = .ok db') :
    name ∈ db.applied ∧ db'.applied = db.applied.erase name ∧
      ∃ upgrade downgrade, (scripts name).upgrade = some upgrade ∧
        (scripts name).downgrade = some downgrade ∧ downgrade db.schema = .ok db'.schema := by
  -- only a recorded migration whose file is there, with both scripts, is rolled back
  unfold rollbackMigration at h
  split_ifs at h with hmem hfile
  cases hup : (scripts name).upgrade with
  | none =>
    rw [hup] at h
    cases h
  | some upgrade =>
    cases hdown : (scripts name).downgrade with
    | none =>
      rw [hup, hdown] at h
      cases h
    | some downgrade =>
      rw [hup, hdown] at h
      dsimp only at h
      cases hs : downgrade db.schema with
      | error e =>
        rw [hs] at h
        cases h
      | ok schema =>
        rw [hs] at h
        obtain rfl := Except.ok.inj h
        exact ⟨hmem, rfl, upgrade, downgrade, rfl, rfl, hs⟩

/-- Applying a migration records what it makes of the schema. -/
theorem Built.apply (hb : Built scripts base db) (h : applyMigration scripts name db = .ok db') :
    Built scripts base db' := by
  obtain ⟨-, rfl⟩ | ⟨-, happlied, hschema⟩ := applyMigration_cases h
  · exact hb
  · unfold Built at hb ⊢
    rw [happlied, List.foldlM_append, hb]
    simpa using hschema

/-- The last record is taken away. -/
theorem applied_rollback {rest : List String} (hlast : db.applied = rest ++ [name])
    (h : rollbackMigration scripts files name db = .ok db') : db'.applied = rest := by
  obtain ⟨-, happlied, -⟩ := rollbackMigration_cases h
  have hnodup := db.nodup
  rw [hlast] at hnodup
  have hnot : name ∉ rest := fun hmem =>
    (List.nodup_append.mp hnodup).2.2 name hmem name (List.mem_singleton_self name) rfl
  rw [happlied, hlast, List.erase_append_right _ hnot]
  simp

/-- Rolling the last one back undoes it. -/
theorem Built.rollback (hundo : Undoes scripts) (hb : Built scripts base db)
    {rest : List String} (hlast : db.applied = rest ++ [name])
    (h : rollbackMigration scripts files name db = .ok db') : Built scripts base db' := by
  obtain ⟨-, -, upgrade, downgrade, hup, hdown, hschema⟩ := rollbackMigration_cases h
  have hrest := applied_rollback hlast h
  unfold Built at hb ⊢
  rw [hlast, List.foldlM_append] at hb
  obtain ⟨s, hs, hlastUp⟩ := Option.bind_eq_some_iff.mp hb
  have hupgrade : upgrade s = .ok db.schema := by
    have hone : upgradeWith scripts s name = some db.schema := by simpa using hlastUp
    rw [upgradeWith, hup, Option.bind_some] at hone
    cases hs' : upgrade s with
    | error e =>
      rw [hs'] at hone
      cases hone
    | ok t =>
      rw [hs'] at hone
      rw [Option.some.inj hone]
  rw [hrest, hs, hundo name upgrade downgrade hup hdown s _ _ hupgrade hschema]

/-! ## One command -/

/-- What the scripts of a migrate keep, it keeps. -/
theorem applyAll_invariant {I : Database σ → Prop}
    (hstep : ∀ name db db', applyMigration scripts name db = .ok db' → I db → I db')
    (names : List String) (h : I db) : I (applyAll scripts names db).1 := by
  induction names generalizing db with
  | nil => exact h
  | cons name names ih =>
    unfold applyAll
    cases happly : applyMigration scripts name db with
    | error e => exact h
    | ok db' => exact ih (hstep name db db' happly h)

/-- What the scripts of a rollback keep, it keeps; each is the last one when it is taken back. -/
theorem rollbackAll_invariant {I : Database σ → Prop}
    (hstep : ∀ name rest db db', db.applied = rest ++ [name] →
      rollbackMigration scripts files name db = .ok db' → I db → I db')
    {names rest : List String} (happlied : db.applied = rest ++ names.reverse) (h : I db) :
    I (rollbackAll scripts files names db).1 := by
  induction names generalizing db with
  | nil => exact h
  | cons name names ih =>
    unfold rollbackAll
    cases hroll : rollbackMigration scripts files name db with
    | error e => exact h
    | ok db' =>
      have hlast : db.applied = (rest ++ names.reverse) ++ [name] := by simp [happlied]
      exact ih (applied_rollback hlast hroll) (hstep name _ db db' hlast hroll h)

theorem sliceTo_prefix (count : ℤ) (names : List String) : sliceTo count names <+: names := by
  unfold sliceTo
  split_ifs <;> exact List.take_prefix _ _

/-- What rolling back the last migration preserves is preserved by any number of them. -/
theorem rollback_invariant {I : Database σ → Prop}
    (hstep : ∀ name rest db db', db.applied = rest ++ [name] →
      rollbackMigration scripts files name db = .ok db' → I db → I db')
    (count : ℤ) (h : I db) : I (rollback scripts files count db).1 := by
  obtain ⟨rest, hrest⟩ := sliceTo_prefix count db.applied.reverse
  have happlied : db.applied = rest.reverse ++ (sliceTo count db.applied.reverse).reverse := by
    rw [← List.reverse_append, hrest, List.reverse_reverse]
  exact rollbackAll_invariant hstep happlied h

/-- **One command** leaves the schema what the records make of it. -/
theorem built_next (hundo : Undoes scripts) (hb : Built scripts base db) (command : Command) :
    Built scripts base (next scripts db command) := by
  cases command with
  | migrate files upTo => exact applyAll_invariant (fun _ _ _ h hb => hb.apply h) _ hb
  | rollback files count =>
    exact rollback_invariant (fun _ _ _ _ hlast h hb => hb.rollback hundo hlast h) count hb

/-- The files up to a name are a prefix. -/
theorem through_prefix (upTo : Option String) (files : List String) : through upTo files <+: files := by
  induction files with
  | nil => exact List.prefix_refl _
  | cons file files ih =>
    unfold through
    split_ifs
    · exact ⟨files, rfl⟩
    · exact List.cons_prefix_cons.mpr ⟨rfl, ih⟩

/-- What is pending comes right behind what was applied. -/
theorem pending_eq {names applied : List String} (hnodup : files.Nodup) (happlied : applied <+: files)
    (hnames : names <+: files) :
    applied ++ names.filter (· ∉ applied) = names ∨ names.filter (· ∉ applied) = [] := by
  obtain hle | hle := List.prefix_or_prefix_of_prefix happlied hnames
  · obtain ⟨rest, rfl⟩ := hle
    have hdisjoint := (List.nodup_append.mp (hnodup.sublist hnames.sublist)).2.2
    left
    rw [List.filter_append, List.filter_eq_nil_iff.mpr (by simp), List.nil_append,
      List.filter_eq_self.mpr]
    intro name hname
    simpa using fun hmem => hdisjoint name hmem name hname rfl
  · right
    refine List.filter_eq_nil_iff.mpr fun name hname => ?_
    simpa using hle.subset hname

variable (scripts) in
/-- A migrate records the pending files in their order, up to the first that fails. -/
theorem applied_applyAll {names : List String} (h : ∀ name ∈ names, name ∉ db.applied)
    (hnodup : names.Nodup) :
    ∃ done, done <+: names ∧ (applyAll scripts names db).1.applied = db.applied ++ done ∧
      ((applyAll scripts names db).2 = none → done = names) := by
  -- by induction on the names, each of which is recorded or ends the run
  induction names generalizing db with
  | nil => exact ⟨[], List.prefix_refl _, by simp [applyAll], fun _ => rfl⟩
  | cons name names ih =>
    obtain ⟨hname, hnodup⟩ := List.nodup_cons.mp hnodup
    unfold applyAll
    cases happly : applyMigration scripts name db with
    | error e => exact ⟨[], List.nil_prefix, by simp, fun hnone => by cases hnone⟩
    | ok db' =>
      obtain ⟨hmem, -⟩ | ⟨-, happlied, -⟩ := applyMigration_cases happly
      · exact absurd hmem (h name List.mem_cons_self)
      · have hrest : ∀ other ∈ names, other ∉ db'.applied := by
          intro other hother hmem
          rw [happlied] at hmem
          obtain hmem | hmem := List.mem_append.mp hmem
          · exact h other (List.mem_cons_of_mem _ hother) hmem
          · exact hname (List.mem_singleton.mp hmem ▸ hother)
        obtain ⟨done, hdone, heq, hall⟩ := ih hrest hnodup
        refine ⟨name :: done, List.cons_prefix_cons.mpr ⟨rfl, hdone⟩, ?_, fun hnone => ?_⟩
        · simp only [heq, happlied, List.append_assoc, List.singleton_append]
        · rw [hall hnone]

/-- **On a fixed directory** the records stay a prefix of the files, up to the one that was
asked for if nothing fails. -/
theorem applied_migrate (hnodup : files.Nodup) (h : db.applied <+: files) (upTo : Option String) :
    (migrate scripts files upTo db).1.applied <+: files ∧
      ((migrate scripts files upTo db).2 = none →
        through upTo files <+: (migrate scripts files upTo db).1.applied) := by
  have hthrough := through_prefix upTo files
  -- what is pending is not recorded yet
  have hpending : ((through upTo files).filter (· ∉ db.applied)).Nodup :=
    (hnodup.sublist hthrough.sublist).filter _
  obtain ⟨done, hdone, heq, hall⟩ := applied_applyAll scripts
    (fun name hname => by simpa using (List.mem_filter.mp hname).2) hpending
  unfold migrate
  rw [heq]
  -- what is recorded is in front of what is pending, or nothing is pending
  obtain hbehind | hnone := pending_eq hnodup h hthrough
  · have hle : db.applied ++ done <+: through upTo files :=
      hbehind ▸ (List.prefix_append_right_inj _).mpr hdone
    exact ⟨hle.trans hthrough, fun hok => by rw [hall hok, hbehind]⟩
  · obtain rfl : done = [] := List.prefix_nil.mp (hnone ▸ hdone)
    rw [List.append_nil]
    refine ⟨h, fun _ => ?_⟩
    obtain hle | hle := List.prefix_or_prefix_of_prefix h hthrough
    · obtain ⟨rest, hrest⟩ := hle
      have hempty : rest = [] := by
        refine List.eq_nil_iff_forall_not_mem.mpr fun name hname => ?_
        have hpend : name ∈ (through upTo files).filter (· ∉ db.applied) := by
          have hdisjoint := (List.nodup_append.mp (hrest ▸ hnodup.sublist hthrough.sublist)).2.2
          refine List.mem_filter.mpr ⟨hrest ▸ List.mem_append_right _ hname, ?_⟩
          simpa using fun hmem => hdisjoint name hmem name hname rfl
        rw [hnone] at hpend
        cases hpend
      rw [← hrest, hempty, List.append_nil]
    · exact hle

/-- **What is recorded is an initial segment of the files**, after every command on them. -/
theorem applied_prefix_next (hnodup : files.Nodup) (h : db.applied <+: files) {command : Command}
    (hfiles : command.files = files) : (next scripts db command).applied <+: files := by
  cases command with
  | migrate other upTo =>
    obtain rfl : other = files := hfiles
    exact (applied_migrate hnodup h upTo).1
  | rollback other count =>
    refine rollback_invariant (I := fun db => db.applied <+: files) ?_ count h
    intro name rest db db' hlast hroll hprefix
    rw [applied_rollback hlast hroll]
    exact (List.prefix_append rest [name]).trans (hlast ▸ hprefix)

theorem through_none (files : List String) : through none files = files := by
  induction files with
  | nil => rfl
  | cons file files ih =>
    unfold through
    rw [if_neg (by simp), ih]

/-- Each script adds its column and takes it away again; one of them fails. -/
def columnScripts (name : String) : Script (List String) where
  upgrade := some fun columns => if name = "broken" then .error "no such table" else .ok (name :: columns)
  downgrade := some fun columns =>
    if columns.head? = some name then .ok columns.tail else .error "no such column"

/-- Dropping a column undoes adding it. -/
theorem columnScripts_undoes : Undoes columnScripts := by
  rintro name upgrade downgrade hup hdown s t u hs ht
  obtain rfl := Option.some.inj hup
  obtain rfl := Option.some.inj hdown
  split_ifs at hs
  obtain rfl := Except.ok.inj hs
  simpa using ht.symm

def noColumns : Database (List String) := { schema := [], applied := [], nodup := List.nodup_nil }

theorem noColumns_built : Built columnScripts [] noColumns := rfl

/-- A script fails, is repaired and comes back with others. -/
def repaired : List Command :=
  [.migrate ["a", "broken", "c"] none, .rollback ["a"] 1, .migrate ["a", "b", "c"] (some "b")]

end IncidentRelay.Schema
