import Simulator.World

/-!
# Operations on a world and the worlds they reach

`Reachable` closes the empty world under operations and under restores of snapshots of
reachable worlds, also where the restore fails half way.
-/

namespace Simulator

open World ComponentStore EntityManager

inductive ColumnOp (α : Type)
  | set (e : EntityID) (v : α)
  | get (e : EntityID)
  | has (e : EntityID)
  | remove (e : EntityID)
  | each
  | entityIDs
  | len

inductive ColumnReply (α : Type)
  | done
  | value (found : Option α)
  | holds (answer : Bool)
  | entries (visited : List (EntityID × α))
  | entities (ids : List EntityID)
  | count (n : Nat)

namespace ColumnOp

variable {α : Type}

def run (op : ColumnOp α) (c : Column α) : ColumnReply α × Column α × Bool :=
  match op with
  | .set e v => (.done, c.set e v, !c.has e)
  | .get e => (.value (c.get e), c, false)
  | .has e => (.holds (c.has e), c, false)
  | .remove e => (.holds (c.remove e).1, (c.remove e).2, (c.remove e).1)
  | .each => (.entries c.each, c, false)
  | .entityIDs => (.entities c.entityIDs, c, false)
  | .len => (.count c.len, c, false)

theorem consistent_run (op : ColumnOp α) {c : Column α}
    (valid : c.Consistent) : (op.run c).2.1.Consistent := by
  cases op with
  | set e v => exact valid.set e v
  | remove e => exact valid.remove e
  | get e | has e | each | entityIDs | len => exact valid

theorem run_alike (op : ColumnOp α) {first second : Column α} (alike : Column.Alike first second) :
    (op.run first).1 = (op.run second).1 ∧ (op.run first).2.2 = (op.run second).2.2 ∧
      Column.Alike (op.run first).2.1 (op.run second).2.1 := by
  cases op with
  | set e v => exact ⟨rfl, by simp [run, alike.has_eq e], alike.set e v⟩
  | get e => exact ⟨by simp [run, alike.get_eq e], rfl, alike⟩
  | has e => exact ⟨by simp [run, alike.has_eq e], rfl, alike⟩
  | remove e =>
    obtain ⟨answerEq, stillAlike⟩ := alike.remove e
    exact ⟨by simp [run, answerEq], answerEq, stillAlike⟩
  | each => exact ⟨by simp [run, alike.each_eq], rfl, alike⟩
  | entityIDs => exact ⟨by simp [run, alike.entityIDs_eq], rfl, alike⟩
  | len => exact ⟨by simp [run, Column.len, alike.data_eq], rfl, alike⟩

end ColumnOp

variable {G : GoTypes}

inductive Operation (G : GoTypes)
  | create
  | destroy (id : EntityID)
  | alive (id : EntityID)
  | ids
  | len
  | registerComponent (name : String)
  | componentName (id : ComponentID)
  | columnOf (t : G.Ty) (id : ComponentID)
  | column (t : G.Ty) (id : ComponentID) (op : ColumnOp (G.Value t))
  | entitiesOf (id : ComponentID)
  | setResource (t : G.Ty) (v : G.Value t)
  | getResource (t : G.Ty)
  | registerTag (name : String)
  | tagName (tag : Tag)
  | addTag (e : EntityID) (tag : Tag)
  | removeTag (e : EntityID) (tag : Tag)
  | hasTag (e : EntityID) (tag : Tag)
  | removeEntityTags (e : EntityID)
  | push (e : Event G)
  | pop
  | peek
  | peekAll
  | queueLen
  | tick
  | time
  | advance
  | advanceTime (t : Float64)
  | registerPayloadType (t : G.Ty)

inductive Reply (G : GoTypes)
  | done
  | holds (answer : Bool)
  | count (n : Int)
  | index (n : Nat)
  | text (s : String)
  | entity (e : EntityID)
  | entities (ids : List EntityID)
  | column (t : G.Ty) (reply : ColumnReply (G.Value t))
  | resource (t : G.Ty) (found : Option (G.Value t))
  | event (found : Option (Event G))
  | events (all : List (Event G))
  | tick (n : UInt64)
  | time (t : Float64)

abbrev SortSlice (α : Type) :=
  (α → α → Bool) → List α → List α

namespace World

/-- `bump`, if a structural change happened -/
def bumpIf (w : World G) (changed : Bool) : World G :=
  { w with revision := if changed then w.revision + 1 else w.revision }

/-- An operation on the column of `id`, created on first use. -/
def runColumn (w : World G) (t : G.Ty) (id : ComponentID)
    (op : ColumnOp (G.Value t)) : Option (Reply G × World G) :=
  match w.components.columnOf t id with
  | none => none
  | some column =>
    let outcome := op.run column
    some (.column t outcome.1,
      { w with components := w.components.bind t id outcome.2.1 }.bumpIf outcome.2.2)

/-- Run an operation; `none` is a panic. -/
def run (sortSlice : SortSlice (Event G)) (op : Operation G)
    (w : World G) : Option (Reply G × World G) :=
  match op with
  | .create =>
    match w.entities.create with
    | none => none
    | some (id, entities) =>
      some (.entity id, { w with entities := entities }.bumpIf true)
  | .destroy id =>
    some (.holds (w.entities.destroy id).1,
      { w with entities := (w.entities.destroy id).2 }.bumpIf (w.entities.destroy id).1)
  | .alive id => some (.holds (w.entities.alive id), w)
  | .ids => some (.entities w.entities.ids, w)
  | .len => some (.count w.entities.len, w)
  | .registerComponent name =>
    some (.index (w.components.register name).1,
      { w with components := (w.components.register name).2 })
  | .componentName id => some (.text (w.components.name id), w)
  | .columnOf t id =>
    match w.components.columnOf t id with
    | none => none
    | some column =>
      some (.done, { w with components := w.components.bind t id column })
  | .column t id op => w.runColumn t id op
  | .entitiesOf id => some (.entities (w.components.entities id), w)
  | .setResource t v =>
    some (.done, { w with resources := w.resources.setResource t v })
  | .getResource t => some (.resource t (w.resources.getResource t), w)
  | .registerTag name =>
    some (.index (w.tags.register name).1, { w with tags := (w.tags.register name).2 })
  | .tagName tag => some (.text (w.tags.name tag), w)
  | .addTag e tag =>
    some (.done, { w with tagStore := w.tagStore.add e tag })
  | .removeTag e tag =>
    some (.done, { w with tagStore := w.tagStore.remove e tag })
  | .hasTag e tag => some (.holds (w.tagStore.has e tag), w)
  | .removeEntityTags e =>
    some (.done, { w with tagStore := w.tagStore.removeEntity e })
  | .push e =>
    some (.event (some (w.events.push e).1), { w with events := (w.events.push e).2 })
  | .pop =>
    some (.event w.events.pop.1, { w with events := w.events.pop.2 })
  | .peek => some (.event w.events.peek, w)
  | .peekAll => some (.events (w.events.peekAll sortSlice), w)
  | .queueLen => some (.count w.events.len, w)
  | .tick => some (.tick w.clock.tick, w)
  | .time => some (.time w.clock.time, w)
  | .advance => some (.done, { w with clock := w.clock.advance })
  | .advanceTime t =>
    some (.done, { w with clock := w.clock.advanceTime t })
  | .registerPayloadType t => some (.done, w.registerPayloadType t)

def replies (sortSlice : SortSlice (Event G)) :
    List (Operation G) → World G → List (Option (Reply G))
  | [], _ => []
  | op :: rest, w =>
    match w.run sortSlice op with
    | none => [none]
    | some (reply, after) => some reply :: replies sortSlice rest after

/-- The world after a sequence of operations; `none` after a panic. -/
def runAll (sortSlice : SortSlice (Event G)) :
    List (Operation G) → World G → Option (World G)
  | [], w => some w
  | op :: rest, w =>
    match w.run sortSlice op with
    | none => none
    | some (_, after) => runAll sortSlice rest after

inductive Reachable (hash : Snapshot → String)
    (sortSlice : SortSlice (Event G)) : World G → Prop
  | new (metadata : Metadata) : Reachable hash sortSlice (.new metadata)
  | run {w after : World G} {op : Operation G} {reply : Reply G} : Reachable hash sortSlice w →
      w.run sortSlice op = some (reply, after) → Reachable hash sortSlice after
  | restore {w origin after : World G} {order : MapOrder G.Any}
      {s : Snapshot} {outcome : Option WorldError} (modelConfig : RawMessage) (checksum : String) :
      Reachable hash sortSlice w → Reachable hash sortSlice origin →
      origin.snapshot hash order = .ok s → w.restore hash
          { s with modelConfig := modelConfig, checksum := checksum } =
        some (after, outcome) →
      Reachable hash sortSlice after

variable {w : World G} {sortSlice : SortSlice (Event G)} {after : World G}

section Inversion

variable {t : G.Ty} {id : ComponentID} {reply : Reply G}

theorem create_of_run (ran : w.run sortSlice .create = some (reply, after)) :
    ∃ id entities, w.entities.create = some (id, entities) ∧ reply = .entity id ∧
      after = { w with entities := entities }.bumpIf true := by
  simp only [run] at ran
  split at ran
  · cases ran
  · rename_i id entities created
    cases ran
    exact ⟨id, entities, created, rfl, rfl⟩

theorem columnOf_of_run (ran : w.run sortSlice (.columnOf t id) = some (reply, after)) :
    ∃ column, w.components.columnOf t id = some column ∧ reply = .done ∧
      after = { w with components := w.components.bind t id column } := by
  simp only [run] at ran
  split at ran
  · cases ran
  · rename_i column found
    cases ran
    exact ⟨column, found, rfl, rfl⟩

theorem column_of_run {op : ColumnOp (G.Value t)}
    (ran : w.run sortSlice (.column t id op) = some (reply, after)) :
    ∃ column, w.components.columnOf t id = some column ∧ reply = .column t (op.run column).1 ∧
      after = { w with components := w.components.bind t id (op.run column).2.1 }.bumpIf
        (op.run column).2.2 := by
  simp only [run, runColumn] at ran
  split at ran
  · cases ran
  · rename_i column found
    cases ran
    exact ⟨column, found, rfl, rfl⟩

end Inversion

theorem Reachable.runAll {hash : Snapshot → String} {ops : List (Operation G)}
    (reachable : Reachable hash sortSlice w) (ran : runAll sortSlice ops w = some after) :
    Reachable hash sortSlice after := by
  induction ops generalizing w with
  | nil =>
    cases ran
    exact reachable
  | cons op ops ih =>
    simp only [runAll] at ran
    split at ran
    · cases ran
    · rename_i reply next step
      exact ih (reachable.run step) ran

structure Sound (w : World G) : Prop where
  entities : w.entities.versions.length < 2 ^ 32 → w.entities.Consistent
  columns : ∀ id column, w.components.cols id = some column → column.2.Consistent
  tags : w.tags.Consistent

theorem sound_new (metadata : Metadata) : (new metadata : World G).Sound where
  entities _ := consistent_new
  columns := by
    intro id col held
    cases held
  tags := TagRegistry.consistent_new

section

variable (sound : w.Sound)
include sound

theorem Sound.columnOf {t : G.Ty} {id : ComponentID} {col : Column (G.Value t)}
    (hit : w.components.columnOf t id = some col) : col.Consistent := by
  cases bound : w.components.cols id with
  | none =>
    rw [columnOf_unbound bound] at hit
    cases hit
    exact Column.consistent_empty
  | some held =>
    obtain ⟨other, old⟩ := held
    by_cases eq : other = t
    · subst eq
      rw [columnOf_bound bound] at hit
      cases hit
      exact sound.columns id _ bound
    · rw [columnOf_other bound eq] at hit
      cases hit

theorem Sound.bind (t : G.Ty)
    (id : ComponentID) {column : Column (G.Value t)} (consistent : column.Consistent) :
    ({ w with components := w.components.bind t id column } : World G).Sound where
  entities := sound.entities
  columns := by
    intro other held found
    by_cases same : other = id
    · subst same
      rw [cols_bind_self] at found
      cases found
      exact consistent
    · simp only [cols_bind_of_ne _ _ _ same] at found
      exact sound.columns other held found
  tags := sound.tags

theorem Sound.bumpIf (changed : Bool) : (w.bumpIf changed).Sound :=
  ⟨sound.entities, sound.columns, sound.tags⟩

theorem Sound.register (name : String) :
    ({ w with components := (w.components.register name).2 } : World G).Sound := by
  refine ⟨sound.entities, ?_, sound.tags⟩
  cases known : w.components.byName name with
  | some id =>
    rw [register_of_found known]
    exact sound.columns
  | none =>
    rw [register_of_fresh known]
    exact sound.columns

theorem Sound.run {op : Operation G} {reply : Reply G}
    (ran : w.run sortSlice op = some (reply, after)) : after.Sound := by
  cases op with
  | create =>
    obtain ⟨id, entities, created, rfl, rfl⟩ := create_of_run ran
    refine ⟨fun small => ?_, sound.columns, sound.tags⟩
    have before := versions_length_le_of_create created
    exact (sound.entities (lt_of_le_of_lt before small)).create created small
  | destroy id =>
    cases ran
    refine ⟨fun small => ?_, sound.columns, sound.tags⟩
    apply EntityManager.Consistent.destroy
    apply sound.entities
    rwa [← versions_destroy w.entities id]
  | registerComponent name =>
    cases ran
    exact sound.register name
  | columnOf t id =>
    obtain ⟨column, found, rfl, rfl⟩ := columnOf_of_run ran
    exact sound.bind t id (sound.columnOf found)
  | column t id op =>
    obtain ⟨column, found, rfl, rfl⟩ := column_of_run ran
    exact (sound.bind t id (op.consistent_run (sound.columnOf found))).bumpIf _
  | registerTag name =>
    cases ran
    exact ⟨sound.entities, sound.columns, sound.tags.register name⟩
  | _ =>
    -- the remaining operations touch none of the three parts
    cases ran
    exact ⟨sound.entities, sound.columns, sound.tags⟩

end

def sampleMetadata (simulationID : String) : Metadata :=
  ⟨simulationID, "sample", "1", 7, .tick⟩

def keptOrder (α : Type) : MapOrder α :=
  ⟨id, List.Perm.refl⟩

def sampleSetup : List (Operation flagTypes) :=
  [.registerComponent "flag", .columnOf .flag 0]

def sampleRun : List (Operation flagTypes) :=
  [.create, .create, .column .flag 0 (.set ⟨1⟩ true), .destroy ⟨2 ^ 32 + 1⟩,
    .push ⟨0, "tick", .zero, 0, 0, ⟨1⟩, ⟨0⟩, none⟩]

def sampleWorld (simulationID : String) (ops : List (Operation flagTypes)) : World flagTypes :=
  (runAll (fun _ events => events) ops
    (.new (sampleMetadata simulationID))).getD (.new (sampleMetadata ""))

def flaggedWorld : World flagTypes :=
  sampleWorld "a" (sampleSetup ++ [.create, .create, .column .flag 0 (.set ⟨1⟩ true),
    .column .flag 0 (.set ⟨2 ^ 32 + 1⟩ false)])

end World

end Simulator
