import Simulator.Migrations

/-!
# Migrations are applied as a prefix

Whatever fails, `schema_migrations` lists the first migrations in the order of their
versions.
-/

namespace Simulator

open BinaryHeap StoppableLoops List Migration

section

variable {byVersion ms : List Migration} {ver : Int} {name direction content : String}

theorem Migration.version_fill (m : Migration) (direction content : String) :
    (m.fill direction content).version = m.version := by
  unfold fill
  split <;> rfl

theorem mem_versions_fillVersion {other : Int} :
    other ∈ (fillVersion ver name direction content byVersion).map version ↔
      other = ver ∨ other ∈ byVersion.map version := by
  induction byVersion with
  | nil => simp [fillVersion, version_fill]
  | cons m rest ih =>
    unfold fillVersion
    split
    · rename_i eq
      simp [version_fill, eq]
    · simp only [map_cons, mem_cons, ih]
      tauto

theorem nodup_fillVersion (nodup : (byVersion.map version).Nodup) :
    ((fillVersion ver name direction content byVersion).map version).Nodup := by
  induction byVersion with
  | nil => simp [fillVersion]
  | cons m rest ih =>
    rw [map_cons, nodup_cons] at nodup
    unfold fillVersion
    split
    · rw [map_cons, version_fill, nodup_cons]
      exact nodup
    · rename_i ne
      rw [map_cons, nodup_cons, mem_versions_fillVersion]
      refine ⟨?_, ih nodup.2⟩
      rintro (eq | listed)
      · exact ne eq
      · exact nodup.1 listed

theorem nodup_loadFiles (files : List MigrationFile)
    (nodup : (byVersion.map version).Nodup) : ((untilError loadFile files byVersion).1.map
      version).Nodup := by
  induction files generalizing byVersion with
  | nil => exact nodup
  | cons file rest ih =>
    unfold untilError
    split
    · rename_i next loaded
      apply ih
      unfold loadFile at loaded
      split at loaded
      · cases loaded
      · split at loaded
        · cases loaded
        · cases loaded
          exact nodup_fillVersion nodup
    · rename_i next msg failed
      unfold loadFile at failed
      split at failed
      · cases failed
        exact nodup
      · split at failed
        · cases failed
          exact nodup
        · cases failed

theorem weakOrder_before :
    WeakOrder before fun _ => True where
  known_left := fun _ => trivial
  known_right := fun _ => trivial
  asymm := by
    intro a b old
    simp only [before, decide_eq_true_eq, decide_eq_false_iff_not] at old ⊢
    omega
  not_less_trans := by
    intro a b c _ _ _ first second
    simp only [before, decide_eq_false_iff_not] at first second ⊢
    omega

theorem loadMigrations_ascending {entries : Except String (List MigrationFile)}
    {arrange : List Migration → List Migration}
    {sort : (Migration → Migration → Bool) → List Migration → List Migration}
    (arranges : ∀ list, (arrange list).Perm list) (sorts : Sorts sort)
    (loaded : loadMigrations entries arrange sort = .ok ms) :
    ms.Pairwise fun a b => a.version < b.version := by
  unfold loadMigrations at loaded
  split at loaded
  · cases loaded
  · rename_i files
    split at loaded
    · cases loaded
    · rename_i byVersion read
      split at loaded
      · cases loaded
      · cases loaded
        obtain ⟨perm, sorted⟩ := sorts weakOrder_before (arrange byVersion) (fun _ _ => trivial)
        have nodup : ((untilError loadFile files []).1.map
            version).Nodup := nodup_loadFiles files nodup_nil
        rw [read] at nodup
        have distinct := ((perm.trans (arranges byVersion)).map version).nodup_iff.mpr nodup
        rw [List.Nodup, pairwise_map] at distinct
        refine (sorted.and distinct).imp ?_
        rintro a b ⟨notBefore, ne⟩
        have inOrder : ¬ b.version < a.version := by
          simpa [before] using notBefore
        omega

end

def inEffect (scripts : List Script) : List Migration :=
  scripts.foldl (fun active script =>
    if script.up then active ++ [script.migration]
    else active.filter (·.version ≠ script.migration.version)) []

/-- The first `k` migrations are applied. -/
structure Applied (ms : List Migration) (k : Nat) (db : Database) :
    Prop where
  bound : k ≤ ms.length
  rows : db.rows = (ms.take k).map fun m => (m.version, m.name)
  active : inEffect db.executed = ms.take k

inductive MigrationCall
  | migrate (faults : MigrationFaults)
  | rollback (steps : Int) (faults : MigrationFaults)

/-- What `LoadMigrations` returns during a call. -/
def MigrationFaults.loaded (faults : MigrationFaults)
    (ms : List Migration) : Except String (List Migration) :=
  match faults.load with
  | some detail => .error detail
  | none => .ok ms

namespace MigrationCall

def perform (ms : List Migration) (call : MigrationCall) (db : Database) :
    Database × Option String :=
  match call with
  | .migrate faults => Simulator.migrate (faults.loaded ms) faults db
  | .rollback steps faults =>
    Simulator.rollback (faults.loaded ms) steps faults db

def performAll (ms : List Migration) (calls : List MigrationCall) (db : Database) : Database :=
  calls.foldl (fun db call => (call.perform ms db).1) db

/-- What a call that returned nil has done: all migrations are applied, or the
last `steps` ones are not applied any more. -/
def Done (ms : List Migration) (k k' : Nat) (db after : Database) :
    MigrationCall → Prop
  | .migrate _ =>
    k' = ms.length ∧ after.executed = db.executed ++ (ms.drop k).map (Script.mk true)
  | .rollback steps _ =>
    k' = k - min (max steps 0).toNat k ∧ after.executed = db.executed ++
        ((ms.take k).drop k').reverse.map (Script.mk false)

end MigrationCall

section

variable {ms : List Migration} {m : Migration} {k : Nat} {db after : Database} {up : Bool}

theorem inEffect_append (scripts : List Script) (script : Script) :
    inEffect (scripts ++ [script]) =
      if script.up then inEffect scripts ++ [script.migration]
      else (inEffect scripts).filter (·.version ≠ script.migration.version) := by
  rw [inEffect, foldl_append]
  rfl

theorem take_succ_of_getElem? (next : ms[k]? = some m) : ms.take (k + 1) = ms.take k ++ [m] := by
  rw [take_add_one, next]
  rfl

theorem lt_of_getElem? (next : ms[k]? = some m) : k < ms.length :=
  (List.getElem?_eq_some_iff.mp next).1

section

variable (ascending : ms.Pairwise fun a b => a.version < b.version) (next : ms[k]? = some m)
include ascending next

theorem version_lt_of_mem_take : ∀ other ∈ ms.take k, other.version < m.version := by
  have split : (ms.take (k + 1)).Pairwise fun a b => a.version < b.version :=
    ascending.sublist (take_sublist _ _)
  rw [take_succ_of_getElem? next, pairwise_append] at split
  intro other mem
  exact split.2.2 other mem m mem_cons_self

theorem filter_take_succ : (ms.take (k + 1)).filter (·.version ≠ m.version) = ms.take k := by
  have old := version_lt_of_mem_take ascending next
  rw [take_succ_of_getElem? next, filter_append]
  have kept : (ms.take k).filter (·.version ≠ m.version) = ms.take k := by
    rw [filter_eq_self]
    intro other mem
    have := old other mem
    simp only [decide_eq_true_eq]
    omega
  rw [kept]
  simp

end

theorem applyOne_cases (fault : Option TxFault)
    (spot : applyOne.record m up (db.execute ⟨up, m⟩) = .ok after) :
    (∃ text, applyOne m up fault db = (db, some text)) ∨
    (∃ text, applyOne m up fault db = (after, some text)) ∨
    applyOne m up fault db = (after, none) := by
  unfold applyOne
  rcases fault with _ | ⟨msg | msg | msg | ⟨msg, tookEffect⟩⟩
  · exact .inr (.inr (by simp only [spot]))
  · exact .inl ⟨_, rfl⟩
  · exact .inl ⟨_, rfl⟩
  · exact .inl ⟨_, rfl⟩
  · cases tookEffect with
    | false => exact .inl ⟨_, by simp only [spot]; rfl⟩
    | true => exact .inr (.inl ⟨_, by simp only [spot]; rfl⟩)

section

variable (ascending : ms.Pairwise fun a b => a.version < b.version)
include ascending

theorem Applied.exists_recorded_up
    (applied : Applied ms k db) (next : ms[k]? = some m) (made : db.table.isSome = true) :
    ∃ after, applyOne.record m true (db.execute ⟨true, m⟩) = .ok after ∧
      Applied ms (k + 1) after ∧ after.table.isSome = true ∧
      after.executed = db.executed ++ [⟨true, m⟩] := by
  obtain ⟨rows, table⟩ := Option.isSome_iff_exists.mp made
  have rowsEq : rows = (ms.take k).map fun m => (m.version, m.name) := by
    have listed := applied.rows
    rw [Database.rows, table] at listed
    exact listed
  have fresh : m.version ∉ rows.map Prod.fst := by
    intro mem
    rw [rowsEq, List.map_map] at mem
    obtain ⟨other, listed, eq⟩ := mem_map.mp mem
    have old := version_lt_of_mem_take ascending next other listed
    simp only [Function.comp_apply] at eq
    omega
  refine ⟨⟨some (rows ++ [(m.version, m.name)]),
    db.executed ++ [⟨true, m⟩]⟩, ?_, ⟨?_, ?_, ?_⟩, rfl, rfl⟩
  · simp only [applyOne.record, if_true, Database.insertRow,
      Database.execute, table, fresh, if_false]
  · exact lt_of_getElem? next
  · rw [take_succ_of_getElem? next, map_append, ← rowsEq]
    rfl
  · rw [inEffect_append, applied.active, take_succ_of_getElem? next]
    rfl

theorem Applied.exists_recorded_down
    (applied : Applied ms (k + 1) db) (last : ms[k]? = some m) (made : db.table.isSome = true) :
    ∃ after, applyOne.record m false (db.execute ⟨false, m⟩) = .ok after ∧
      Applied ms k after ∧ after.table.isSome = true ∧
      after.executed = db.executed ++ [⟨false, m⟩] := by
  obtain ⟨rows, table⟩ := Option.isSome_iff_exists.mp made
  have rowsEq : rows = (ms.take (k + 1)).map fun m => (m.version, m.name) := by
    have listed := applied.rows
    rw [Database.rows, table] at listed
    exact listed
  refine ⟨⟨some (rows.filter (·.1 ≠ m.version)),
    db.executed ++ [⟨false, m⟩]⟩, ?_, ⟨?_, ?_, ?_⟩, rfl, rfl⟩
  · simp only [applyOne.record, Bool.false_eq_true, if_false,
      Database.deleteRow, Database.execute, table]
  · exact Nat.le_of_succ_le applied.bound
  · rw [← filter_take_succ ascending last, Database.rows, rowsEq, Option.getD_some, List.filter_map]
    rfl
  · rw [inEffect_append, applied.active, ← filter_take_succ ascending last]
    simp

theorem Applied.applyAll (tx : Migration → Option TxFault) {pending : List Migration}
    (applied : Applied ms k db) (made : db.table.isSome = true) (rest : ms.drop k = pending) :
    ∃ k', Applied ms k' (untilError (fun db m => applyOne m true (tx m) db) pending db).1 ∧
      ((untilError (fun db m => applyOne m true (tx m) db) pending db).2 = none → k' = ms.length ∧
        (untilError (fun db m => applyOne m true (tx m) db) pending
          db).1.executed = db.executed ++ pending.map (Script.mk true)) := by
  induction pending generalizing k db with
  | nil =>
    refine ⟨k, applied, fun _ => ⟨?_, ?_⟩⟩
    · have bound := applied.bound
      have all := drop_eq_nil_iff.mp rest
      omega
    · simp [untilError]
  | cons m pending ih =>
    have next : ms[k]? = some m := by
      rw [← head?_drop, rest]
      rfl
    have rest' : ms.drop (k + 1) = pending := by
      rw [← tail_drop, rest]
      rfl
    obtain ⟨after, spot, applied', created', executed⟩ :=
      applied.exists_recorded_up ascending next made
    rcases applyOne_cases (tx m) spot with ⟨text, failed⟩ | ⟨text, failed⟩ | succeeded
    · rw [untilError_cons_some failed]
      exact ⟨k, applied, by rintro ⟨⟩⟩
    · rw [untilError_cons_some failed]
      exact ⟨k + 1, applied', by rintro ⟨⟩⟩
    · rw [untilError_cons_none succeeded]
      obtain ⟨k', later, done⟩ := ih applied' created' rest'
      refine ⟨k', later, fun noError => ?_⟩
      obtain ⟨all, scripts⟩ := done noError
      refine ⟨all, ?_⟩
      rw [scripts, executed, append_assoc]
      rfl

theorem Applied.undoLast (tx : Migration → Option TxFault) (j : Nat) (enough : j ≤ k)
    (applied : Applied ms k db) (made : db.table.isSome = true) :
    ∃ k', Applied ms k' (untilError (fun db m => applyOne m false (tx m) db)
          ((ms.take k).drop (k - j)).reverse db).1 ∧
      ((untilError (fun db m => applyOne m false (tx m) db)
          ((ms.take k).drop (k - j)).reverse db).2 = none → k' = k - j ∧
        (untilError (fun db m => applyOne m false (tx m) db)
          ((ms.take k).drop (k - j)).reverse db).1.executed = db.executed ++
            ((ms.take k).drop (k - j)).reverse.map (Script.mk false)) := by
  induction j generalizing k db with
  | zero =>
    have nothing : (ms.take k).drop (k - 0) = [] := by
      rw [drop_eq_nil_iff, length_take]
      omega
    rw [nothing]
    exact ⟨k, applied, fun _ => ⟨rfl, by simp [untilError]⟩⟩
  | succ j ih =>
    obtain ⟨k, rfl⟩ : ∃ k', k = k' + 1 := ⟨k - 1, by omega⟩
    have inRange : k < ms.length := applied.bound
    have last : ms[k]? = some ms[k] := getElem?_eq_getElem inRange
    have split : ((ms.take (k + 1)).drop (k + 1 - (j + 1))).reverse =
        ms[k] :: ((ms.take k).drop (k - j)).reverse := by
      have start : k + 1 - (j + 1) ≤ (ms.take k).length := by
        rw [length_take]
        omega
      rw [take_succ_of_getElem? last, drop_append_of_le_length start, reverse_append]
      have eq : k + 1 - (j + 1) = k - j := by omega
      rw [eq]
      rfl
    rw [split]
    obtain ⟨after, spot, applied', created', executed⟩ :=
      applied.exists_recorded_down ascending last made
    rcases applyOne_cases (tx ms[k]) spot with ⟨text, failed⟩ | ⟨text, failed⟩ | succeeded
    · rw [untilError_cons_some failed]
      exact ⟨k + 1, applied, by rintro ⟨⟩⟩
    · rw [untilError_cons_some failed]
      exact ⟨k, applied', by rintro ⟨⟩⟩
    · rw [untilError_cons_none succeeded]
      obtain ⟨k', later, done⟩ := ih (by omega) applied' created'
      refine ⟨k', later, fun noError => ?_⟩
      obtain ⟨count, scripts⟩ := done noError
      refine ⟨by omega, ?_⟩
      rw [scripts, executed, append_assoc]
      rfl

theorem filter_version (mem : m ∈ ms) : ms.filter (·.version = m.version) = [m] := by
  induction ms with
  | nil => cases mem
  | cons first rest ih =>
    rw [pairwise_cons] at ascending
    rcases mem_cons.mp mem with rfl | later
    · have others : rest.filter (·.version = m.version) = [] := by
        rw [filter_eq_nil_iff]
        intro other listed
        have := ascending.1 other listed
        simp only [decide_eq_true_eq]
        omega
      rw [filter_cons_of_pos (by simp), others]
    · have ne := ascending.1 m later
      rw [filter_cons_of_neg (by simp only [decide_eq_true_eq]; omega)]
      exact ih ascending.2 later

end

theorem Applied.versions (applied : Applied ms k db) :
    db.rows.map Prod.fst = (ms.take k).map Migration.version := by
  rw [applied.rows, List.map_map]
  rfl

section

variable (ascending : ms.Pairwise fun a b => a.version < b.version) (applied : Applied ms k db)
include ascending applied

theorem Applied.versionsDescending :
    db.versionsDescending = (ms.take k).reverse.map version := by
  have descending : ((ms.take k).reverse.map version).Pairwise fun a b => b ≤ a := by
    rw [pairwise_map, pairwise_reverse]
    exact (ascending.sublist (take_sublist _ _)).imp fun old => by
      omega
  have sorted : db.versionsDescending.Pairwise fun a b => b ≤ a := pairwise_insertionSort _ _
  have perm : db.versionsDescending.Perm ((ms.take k).reverse.map version) := by
    unfold Database.versionsDescending
    rw [applied.versions]
    exact (perm_insertionSort _ _).trans ((reverse_perm _).symm.map _)
  exact perm.eq_of_pairwise (fun _ _ _ _ first second => by omega) sorted descending

theorem Applied.selectApplied (steps : Int) :
    selectApplied ms steps db.versionsDescending =
      ((ms.take k).drop (k - min steps.toNat k)).reverse := by
  have length : (ms.take k).length = k := by
    rw [length_take]
    have bound := applied.bound
    omega
  have last : ((ms.take k).reverse.take steps.toNat) =
      ((ms.take k).drop (k - min steps.toNat k)).reverse := by
    rw [take_reverse, length]
    congr 2
    omega
  unfold Simulator.selectApplied
  rw [applied.versionsDescending ascending, ← map_take, last, flatMap_map]
  have single : ∀ m ∈ ((ms.take k).drop (k - min steps.toNat k)).reverse,
      ms.filter (·.version = m.version) = [m] := by
    intro m mem
    apply filter_version ascending
    exact mem_of_mem_take (mem_of_mem_drop (mem_reverse.mp mem))
  rw [flatMap_congr single]
  exact flatMap_singleton' _

end

theorem Applied.createTable (applied : Applied ms k db) : Applied ms k db.createTable :=
  ⟨applied.bound, applied.rows, applied.active⟩

section

variable (ascending : ms.Pairwise fun a b => a.version < b.version) (applied : Applied ms k db)
include ascending applied

theorem Applied.filter_pending : (ms.filter fun m => !decide (m.version ∈ db.rows.map Prod.fst)) =
      ms.drop k := by
  rw [applied.versions]
  have split : ms.take k ++ ms.drop k = ms := take_append_drop k ms
  rw [← split, pairwise_append] at ascending
  have listed : ((ms.take k).filter fun m =>
      !decide (m.version ∈ (ms.take k).map version)) = [] := by
    rw [filter_eq_nil_iff]
    intro m mem
    have present : m.version ∈ (ms.take k).map version := mem_map_of_mem mem
    simp only [present, decide_true, Bool.not_true, Bool.false_eq_true, not_false_iff]
  have unlisted : ((ms.drop k).filter fun m =>
      !decide (m.version ∈ (ms.take k).map version)) =
        ms.drop k := by
    rw [filter_eq_self]
    intro m mem
    simp only [Bool.not_eq_true', decide_eq_false_iff_not]
    intro present
    obtain ⟨other, old, eq⟩ := mem_map.mp present
    have := ascending.2.2 other old m mem
    omega
  conv_lhs => rw [← split]
  rw [filter_append, split, listed, unlisted, nil_append]

theorem Applied.perform_migrate (faults : MigrationFaults) :
    ∃ k', Applied ms k' (migrate (.ok ms) faults db).1 ∧ ((migrate (.ok ms) faults db).2 = none →
        k' = ms.length ∧ (migrate (.ok ms) faults db).1.executed =
          db.executed ++ (ms.drop k).map (Script.mk true)) := by
  have made := applied.createTable
  unfold migrate
  rcases faults.create with _ | ⟨msg, tookEffect⟩
  · rcases faults.query with _ | msg
    · rcases faults.scan with _ | msg
      · have loop : untilError (applyPending (db.rows.map Prod.fst) faults) ms db.createTable =
            untilError (fun db m => applyOne m true (faults.tx m) db)
              (ms.drop k) db.createTable := by
          rw [← applied.filter_pending ascending]
          apply untilError_filter
          · intro db' m listed
            rw [applyPending, if_pos (of_decide_eq_true listed)]
          · intro db' m unlisted
            rw [applyPending, if_neg (of_decide_eq_false unlisted)]
        simp only [loop]
        exact made.applyAll ascending faults.tx rfl rfl
      · exact ⟨k, made, nofun⟩
    · exact ⟨k, made, nofun⟩
  · cases tookEffect with
    | false => exact ⟨k, applied, nofun⟩
    | true => exact ⟨k, made, nofun⟩

theorem Applied.perform_rollback (steps : Int) (faults : MigrationFaults) :
    ∃ k', Applied ms k' (rollback (.ok ms) steps faults db).1 ∧
      ((rollback (.ok ms) steps faults db).2 = none → k' = k - min (max steps 0).toNat k ∧
        (rollback (.ok ms) steps faults db).1.executed = db.executed ++
          ((ms.take k).drop k').reverse.map (Script.mk false)) := by
  unfold rollback
  cases table : db.table with
  | none => exact ⟨k, applied, nofun⟩
  | some rows =>
    rcases faults.query with _ | msg
    · rcases faults.scan with _ | msg
      · have pos : (max steps 0).toNat = steps.toNat := by omega
        simp only [applied.selectApplied ascending, pos]
        obtain ⟨k', later, done⟩ := applied.undoLast ascending faults.tx
          (min steps.toNat k) (by omega) (by rw [table]; rfl)
        refine ⟨k', later, fun noError => ?_⟩
        obtain ⟨rfl, scripts⟩ := done noError
        exact ⟨rfl, scripts⟩
      · exact ⟨k, applied, nofun⟩
    · exact ⟨k, applied, nofun⟩

theorem Applied.perform (call : MigrationCall) :
    ∃ k', Applied ms k' (call.perform ms db).1 ∧ ((call.perform ms db).2 = none →
        call.Done ms k k' db (call.perform ms db).1) := by
  cases call with
  | migrate faults =>
    cases load : faults.load with
    | none =>
      simp only [MigrationCall.perform, MigrationFaults.loaded, load]
      exact applied.perform_migrate ascending faults
    | some msg =>
      simp only [MigrationCall.perform, MigrationFaults.loaded, load]
      exact ⟨k, applied, nofun⟩
  | rollback steps faults =>
    cases load : faults.load with
    | none =>
      simp only [MigrationCall.perform, MigrationFaults.loaded, load]
      exact applied.perform_rollback ascending steps faults
    | some msg =>
      simp only [MigrationCall.perform, MigrationFaults.loaded, load]
      exact ⟨k, applied, nofun⟩

theorem Applied.performAll (calls : List MigrationCall) :
    ∃ k', Applied ms k' (MigrationCall.performAll ms calls db) := by
  induction calls generalizing k db with
  | nil => exact ⟨k, applied⟩
  | cons call calls ih =>
    obtain ⟨k', later, _⟩ := applied.perform ascending call
    exact ih later

end

end

theorem migrations_form_prefix {ms : List Migration}
    (ascending : ms.Pairwise fun a b => a.version < b.version)
    (calls : List MigrationCall) (call : MigrationCall) :
    ∃ k k', Applied ms k (MigrationCall.performAll ms calls .empty) ∧ Applied ms k'
        (call.perform ms (MigrationCall.performAll ms calls .empty)).1 ∧
      ((call.perform ms (MigrationCall.performAll ms calls .empty)).2 = none →
        call.Done ms k k' (MigrationCall.performAll ms calls .empty)
          (call.perform ms (MigrationCall.performAll ms calls .empty)).1) := by
  have nothing : Applied ms 0 .empty := ⟨Nat.zero_le _, rfl, rfl⟩
  obtain ⟨k, applied⟩ := nothing.performAll ascending calls
  obtain ⟨k', later, done⟩ := applied.perform ascending call
  exact ⟨k, k', applied, later, done⟩

def shippedMigrations : List Migration :=
  [⟨1, "init", "CREATE", "DROP"⟩, ⟨2, "users", "CREATE", "DROP"⟩]

def secondFails (tookEffect : Bool) : MigrationFaults :=
  ⟨none, none, none, none, fun m =>
    if m.version = 2 then some (.commit "timeout" tookEffect) else none⟩

def noFaults : MigrationFaults :=
  ⟨none, none, none, none, fun _ => none⟩

theorem migrations_form_prefix_shipped :
    (shippedMigrations.Pairwise fun a b => a.version < b.version) ∧
    ∃ k k', Applied shippedMigrations k (MigrationCall.performAll shippedMigrations
          [.rollback 1 noFaults, .migrate (secondFails false), .migrate noFaults] .empty) ∧
      Applied shippedMigrations k' ((MigrationCall.rollback 5 noFaults).perform shippedMigrations
          (MigrationCall.performAll shippedMigrations
            [.rollback 1 noFaults, .migrate (secondFails false), .migrate noFaults] .empty)).1 ∧
      k' = k - min 5 k := by
  have ascending : shippedMigrations.Pairwise fun a b => a.version < b.version := by
    decide
  obtain ⟨k, k', applied, later, done⟩ := migrations_form_prefix ascending
    [.rollback 1 noFaults, .migrate (secondFails false), .migrate noFaults] (.rollback 5 noFaults)
  exact ⟨ascending, k, k', applied, later, (done rfl).1⟩

end Simulator
