import Simulator.JsonDocuments
import Simulator.QueueHistories
import Simulator.StoppableLoops

/-!
# Migrations

Every statement and every transaction may fail; an error of a commit leaves open whether
it took effect.
-/

namespace Simulator

open StoppableLoops

structure Migration where
  version : Int
  name : String
  up : String
  down : String
deriving DecidableEq

/-- A file of `migrations.FS`, and what reading it gives -/
structure MigrationFile where
  name : String
  content : Except String String

def cutFirst (c : Char) (text : List Char) : Option (List Char × List Char) :=
  match text.span (· ≠ c) with
  | (_, []) => none
  | (before, _ :: after) => some (before, after)

def cutLast (c : Char) (text : List Char) : Option (List Char × List Char) :=
  (cutFirst c text.reverse).map fun (after, before) =>
    (before.reverse, after.reverse)

/-- `strconv.Atoi`, on a text that may have a sign -/
def signedAtoi (text : List Char) : Option Int :=
  let value := match text with
    | '-' :: digits => (parseDigits digits).map fun n => -Int.ofNat n
    | '+' :: digits => (parseDigits digits).map Int.ofNat
    | digits => (parseDigits digits).map Int.ofNat
  value.filter fun n => -2 ^ 63 ≤ n && n < 2 ^ 63

def parseName (filename : String) : Except String (Int × String × String) :=
  let unexpected := "unexpected migration file " ++ filename.quote
  let chars := filename.toList
  if ".sql".toList.isSuffixOf chars then
    match cutLast '.' (chars.take (chars.length - 4)) with
    | none => .error unexpected
    | some (rest, direction) =>
      match cutFirst '_' rest with
      | none => .error unexpected
      | some (number, name) =>
        match signedAtoi number with
        | none =>
          .error ("unexpected migration version in " ++ filename.quote)
        | some version =>
          .ok (version, String.ofList name, String.ofList direction)
  else .error unexpected

example : parseName "0042_add_things.up.sql" = .ok (42, "add_things", "up") :=
  by decide +kernel

def Migration.fill (m : Migration) (direction content : String) : Migration :=
  if direction = "up" then { m with up := content }
  else { m with down := content }

def fillVersion (version : Int) (name direction content : String) :
    List Migration → List Migration
  | [] => [(Migration.mk version name "" "").fill direction content]
  | m :: rest =>
    if m.version = version then m.fill direction content :: rest
    else m :: fillVersion version name direction content rest

/-- One round of the first loop of `LoadMigrations` -/
def loadFile (byVersion : List Migration) (file : MigrationFile) : List Migration × Option String :=
  match parseName file.name with
  | .error detail => (byVersion, some detail)
  | .ok (version, name, direction) =>
    match file.content with
    | .error detail =>
      (byVersion, some ("read migration " ++ file.name ++ ": " ++ detail))
    | .ok content =>
      (fillVersion version name direction content byVersion, none)

/-- The comparison of `LoadMigrations` -/
def Migration.before (a b : Migration) : Bool :=
  a.version < b.version

/-- `LoadMigrations`, over the order in which the map is iterated and the
sorting function of the standard library -/
def loadMigrations (entries : Except String (List MigrationFile))
    (arrange : List Migration → List Migration)
    (sortSlice : (Migration → Migration → Bool) → List Migration →
      List Migration) : Except String (List Migration) :=
  match entries with
  | .error detail => .error ("read migrations: " ++ detail)
  | .ok files =>
    match untilError loadFile files [] with
    | (_, some detail) => .error detail
    | (byVersion, none) =>
      match (arrange byVersion).find? (·.up = "") with
      | some m =>
        .error ("migration " ++ toString m.version ++ " (" ++ m.name ++ ") missing up file")
      | none => .ok (sortSlice Migration.before (arrange byVersion))

structure Script where
  up : Bool
  migration : Migration
deriving DecidableEq

/-- What the migrations are concerned with of a database: the rows of
`schema_migrations`, if the table exists, and the scripts that were executed,
oldest first. -/
structure Database where
  table : Option (List (Int × String))
  executed : List Script
deriving DecidableEq

inductive TxFault
  | begin (detail : String)
  | script (detail : String)
  | record (detail : String)
  | commit (detail : String) (tookEffect : Bool)

/-- What goes wrong during a call.  `tx` has the transaction of each
migration. -/
structure MigrationFaults where
  load : Option String
  create : Option (String × Bool)
  query : Option String
  scan : Option String
  tx : Migration → Option TxFault

namespace Database

def empty : Database :=
  ⟨none, []⟩

def rows (db : Database) : List (Int × String) :=
  db.table.getD []

/-- `CREATE TABLE IF NOT EXISTS schema_migrations` -/
def createTable (db : Database) : Database :=
  { db with table := some db.rows }

def missingTable : String :=
  "ERROR: relation \"schema_migrations\" does not exist (SQLSTATE 42P01)"

/-- `INSERT INTO schema_migrations (version, name) VALUES ($1, $2)` -/
def insertRow (m : Migration) (db : Database) : Except String Database :=
  match db.table with
  | none => .error missingTable
  | some rows =>
    if m.version ∈ rows.map Prod.fst then
      .error ("ERROR: duplicate key value violates unique constraint " ++
        "\"schema_migrations_pkey\" (SQLSTATE 23505)")
    else
      .ok { db with table := some (rows ++ [(m.version, m.name)]) }

/-- `DELETE FROM schema_migrations WHERE version = $1` -/
def deleteRow (m : Migration) (db : Database) : Except String Database :=
  match db.table with
  | none => .error missingTable
  | some rows =>
    .ok { db with table := some (rows.filter (·.1 ≠ m.version)) }

def execute (script : Script) (db : Database) : Database :=
  { db with executed := db.executed ++ [script] }

end Database

/-- The errors of `applyOne` -/
def scriptText (up : Bool) (m : Migration) (detail : String) : String :=
  (if up then "apply migration " else "rollback migration ") ++
    toString m.version ++ " (" ++ m.name ++ "): " ++ detail

def recordText (up : Bool) (m : Migration) (detail : String) : String :=
  (if up then "record migration " else "unrecord migration ") ++
    toString m.version ++ ": " ++ detail

def applyOne (m : Migration) (up : Bool) (fault : Option TxFault)
    (db : Database) : Database × Option String :=
  match fault with
  | some (.begin detail) =>
    (db, some ("begin migration " ++ toString m.version ++ ": " ++ detail))
  | some (.script detail) => (db, some (scriptText up m detail))
  | some (.record detail) => (db, some (recordText up m detail))
  | some (.commit detail tookEffect) =>
    let text := "commit migration " ++ toString m.version ++ ": " ++ detail
    match record (db.execute ⟨up, m⟩) with
    | .error detail => (db, some (recordText up m detail))
    | .ok after => (if tookEffect then after else db, some text)
  | none =>
    match record (db.execute ⟨up, m⟩) with
    | .error detail => (db, some (recordText up m detail))
    | .ok after => (after, none)
where
  record (db : Database) : Except String Database :=
    if up then db.insertRow m else db.deleteRow m

/-- One round of the loop of `Migrate` -/
def applyPending (applied : List Int) (faults : MigrationFaults)
    (db : Database) (m : Migration) : Database × Option String :=
  if m.version ∈ applied then (db, none)
  else applyOne m true (faults.tx m) db

/-- `Migrate`, on what `LoadMigrations` returned -/
def migrate (loaded : Except String (List Migration))
    (faults : MigrationFaults) (db : Database) : Database × Option String :=
  match loaded with
  | .error detail => (db, some detail)
  | .ok ms =>
    match faults.create with
    | some (detail, tookEffect) =>
      (if tookEffect then db.createTable else db, some ("create schema_migrations: " ++ detail))
    | none =>
      match faults.query, faults.scan with
      | some detail, _ =>
        (db.createTable, some ("read schema_migrations: " ++ detail))
      | none, some detail => (db.createTable, some detail)
      | none, none =>
        untilError (applyPending (db.rows.map Prod.fst) faults) ms db.createTable

/-- The versions that `Rollback` reads, in descending order -/
def Database.versionsDescending (db : Database) : List Int :=
  (db.rows.map Prod.fst).insertionSort fun a b => b ≤ a

/-- The migrations that `Rollback` undoes -/
def selectApplied (ms : List Migration) (steps : Int) (versions : List Int) : List Migration :=
  (versions.take steps.toNat).flatMap fun version =>
    ms.filter (·.version = version)

/-- `Rollback`, on what `LoadMigrations` returned -/
def rollback (loaded : Except String (List Migration)) (steps : Int)
    (faults : MigrationFaults) (db : Database) : Database × Option String :=
  match loaded with
  | .error detail => (db, some detail)
  | .ok ms =>
    match db.table, faults.query, faults.scan with
    | none, _, _ => (db, some Database.missingTable)
    | some _, some detail, _ => (db, some detail)
    | some _, none, some detail => (db, some detail)
    | some _, none, none =>
      untilError (fun db m => applyOne m false (faults.tx m) db)
        (selectApplied ms steps db.versionsDescending) db

end Simulator
