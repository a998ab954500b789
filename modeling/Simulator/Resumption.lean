import Simulator.ModelLayout
import Simulator.RestoreAtomicity

/-!
# Resuming a run from a snapshot

A restore into a fresh simulation gives an alike world; whether the run continues is then
a question about the fields of the model value alone.
-/

namespace Simulator

open Requests Option World Program Snapshot

variable {G : GoTypes} {α : Type}

namespace World.Alike

variable {first second third : World G}

theorem symm (alike : Alike first second) : Alike second first where
  entities := alike.entities.symm
  names := alike.names.symm
  columns id := by
    have columns := alike.columns id
    generalize first.components.cols id = left at columns ⊢
    generalize second.components.cols id = right at columns ⊢
    cases columns with
    | unbound => exact .unbound
    | bound held =>
      exact .bound ⟨held.dense_eq.symm, held.data_eq.symm,
        held.consistent_right, held.consistent_left⟩
  resources t := (alike.resources t).symm
  tags := alike.tags.symm
  tagStore := alike.tagStore.symm
  events := alike.events.symm
  clock := alike.clock.symm

theorem trans (alike : Alike first second) (next : Alike second third) :
    Alike first third where
  entities := alike.entities.trans next.entities
  names := alike.names.trans next.names
  columns id := by
    have columns := alike.columns id
    have others := next.columns id
    generalize first.components.cols id = left at columns ⊢
    generalize second.components.cols id = middle at columns others
    generalize third.components.cols id = right at others ⊢
    cases columns with
    | unbound => exact others
    | bound held =>
      cases others with
      | bound further =>
        exact .bound ⟨held.dense_eq.trans further.dense_eq,
          held.data_eq.trans further.data_eq, held.consistent_left, further.consistent_right⟩
  resources t := (alike.resources t).trans (next.resources t)
  tags := alike.tags.trans next.tags
  tagStore := alike.tagStore.trans next.tagStore
  events := alike.events.trans next.events
  clock := alike.clock.trans next.clock

theorem refl (sound : first.Sound) : Alike first first where
  entities := rfl
  names := rfl
  columns id := by
    cases held : first.components.cols id with
    | none => exact .unbound
    | some column =>
      have consistent := sound.columns id column held
      exact .bound ⟨rfl, rfl, consistent, consistent⟩
  resources _ := rfl
  tags := rfl
  tagStore := rfl
  events := rfl
  clock := rfl

theorem runCode (alike : Alike first second) (sortSlice : SortSlice (Event G)) (code : Code G α) :
    Program.SameResult Alike (first.runCode sortSlice code) (second.runCode sortSlice code) := by
  refine run_related (fun op left right related => ?_) code alike
  rcases related.run sortSlice op with ⟨leftFails, rightFails⟩ |
      ⟨reply, leftAfter, rightAfter, leftRan, rightRan, stillAlike⟩
  · rw [leftFails, rightFails]
    exact .none
  · rw [leftRan, rightRan]
    exact .some ⟨rfl, stillAlike⟩

end World.Alike

structure SnapshotModel (G : GoTypes) (M : Type) where
  snapshotConfig : M → G.Any
  restoreConfig : Json → M → M × Option String

/-- A configured model and its executor.  `metrics` is empty for a model that
reports none. -/
structure ModelProgram (G : GoTypes) where
  Fields : Type
  setUp : UInt64 → Code G Fields
  step : Fields → Code G Fields
  metrics : Fields → List (String × Float64)
  config : Option (SnapshotModel G Fields)

/-- The errors of `Simulation.Snapshot`. -/
inductive SnapshotError
  | alreadyRunning
  | world (cause : WorldError)
  | modelConfig (detail : String)

namespace ModelProgram

variable (model : ModelProgram G) (sortSlice : SortSlice (Event G))

abbrev Sim :=
  RestorableSimulation G model.Fields

/-- `New`; `none` if `Initialize` panics -/
def new (metadata : Metadata) : Option model.Sim :=
  ((World.new metadata).runCode sortSlice (model.setUp metadata.seed)).map
    fun ended => ⟨false, ended.2, ended.1⟩

/-- `n` steps; `none` if one panics or returns an error -/
def advance (n : Nat) (sim : model.Sim) : Option model.Sim :=
  (sim.world.runCode sortSlice (Program.iterate model.step n sim.model)).map
      fun ended => { sim with world := ended.2, model := ended.1 }

variable {model}

/-- `Simulation.Snapshot` -/
def snapshot (hash : Snapshot → String) (order : MapOrder G.Any)
    (sim : model.Sim) : Except SnapshotError Snapshot :=
  if sim.running then .error .alreadyRunning
  else
    match sim.world.snapshot hash order with
    | .error cause => .error (.world cause)
    | .ok s =>
      match model.config with
      | none => .ok s
      | some methods =>
        match G.marshal (methods.snapshotConfig sim.model).2 with
        | .error detail => .error (.modelConfig detail)
        | .ok raw =>
          match { s with modelConfig := some raw }.withChecksum hash with
          | .error cause => .error (.world cause)
          | .ok s => .ok s

/-- `Simulation.Restore` -/
def restore (hash : Snapshot → String) (sim : model.Sim) (s : Snapshot) :
    Option (model.Sim × Option RestoreError) :=
  RestorableSimulation.restore hash (model.config.map SnapshotModel.restoreConfig) sim s

variable (model)

def Same : Option model.Sim → Option model.Sim → Prop :=
  Option.Rel fun left right =>
    model.metrics left.model = model.metrics right.model ∧ World.Alike left.world right.world

/-- The `n` steps from here, and their metrics, are the same with these
fields of the model. -/
def Indifferent (n : Nat) (sim : model.Sim) (fields : model.Fields) : Prop :=
  model.Same (model.advance sortSlice n { sim with model := fields })
    (model.advance sortSlice n sim)

/-- The model stays within the layout that its `Initialize` sets up, and
`RestoreConfig` brings nothing but the configuration the simulation has. -/
structure Orderly (layout : Layout G) (Wired : model.Fields → Prop) :
    Prop where
  setUp : ∀ {sortSlice metadata seed fields w},
    (World.new metadata).runCode sortSlice (model.setUp seed) =
      some (fields, w) → w.Laid metadata layout ∧ Wired fields
  step : ∀ fields, Wired fields → (model.step fields).Ensures (Operation.Within layout) Wired
  config : ∀ methods, model.config = some methods → ∀ fields fresh raw, Wired fields → Wired fresh →
      G.marshal (methods.snapshotConfig fields).2 = .ok raw →
        methods.restoreConfig raw fresh = (fresh, none)

variable {model} {sortSlice} {sim : model.Sim}

theorem advance_succ (n : Nat) {stepped : Option (model.Fields × World G)}
    (ran : sim.world.runCode sortSlice (model.step sim.model) = stepped) :
    model.advance sortSlice (n + 1) sim = stepped.bind fun ended => model.advance sortSlice n
        { sim with world := ended.2, model := ended.1 } := by
  rw [← ran]
  simp only [advance, iterate, runCode, run_bind, map_bind]
  rfl

variable {fields : model.Fields} {left right : Option model.Sim}

theorem advance_one {w : World G}
    (ran : sim.world.runCode sortSlice (model.step sim.model) = some (fields, w)) :
    model.advance sortSlice 1 sim = some { sim with world := w, model := fields } :=
  advance_succ 0 ran

theorem advance_add (k n : Nat) (sim : model.Sim) :
    model.advance sortSlice (k + n) sim =
      (model.advance sortSlice k sim).bind (model.advance sortSlice n) := by
  simp only [advance, runCode, run_iterate_add, map_bind, bind_map]
  rfl

theorem same_of_alike {first second : model.Sim} (alike : World.Alike first.world second.world)
    (fields : first.model = second.model) (n : Nat) :
    model.Same (model.advance sortSlice n first) (model.advance sortSlice n second) := by
  have ran := alike.runCode sortSlice (iterate model.step n first.model)
  unfold Same advance
  rw [← fields]
  generalize first.world.runCode sortSlice (iterate model.step n first.model) = left at ran ⊢
  generalize second.world.runCode sortSlice (iterate model.step n first.model) = right at ran ⊢
  cases ran with
  | none => exact .none
  | some same =>
    exact .some ⟨congrArg model.metrics same.1, same.2⟩

theorem Same.symm (same : model.Same left right) : model.Same right left := by
  cases same with
  | none => exact .none
  | some held => exact .some ⟨held.1.symm, held.2.symm⟩

theorem Same.trans {middle : Option model.Sim}
    (same : model.Same left middle) (next : model.Same middle right) : model.Same left right := by
  cases same with
  | none => exact next
  | some held =>
    cases next with
    | some further =>
      exact .some ⟨held.1.trans further.1, held.2.trans further.2⟩

theorem indifferent_self (sound : sim.world.Sound)
    (n : Nat) : model.Indifferent sortSlice n sim sim.model :=
  same_of_alike (.refl sound) rfl n

theorem Indifferent.metrics_eq (indifferent : model.Indifferent sortSlice 0 sim fields) :
    model.metrics fields = model.metrics sim.model := by
  cases indifferent with
  | some same => exact same.1

theorem snapshot_eq_ok {hash : Snapshot → String} {order : MapOrder G.Any}
    {s : Snapshot} (captured : snapshot hash order sim = .ok s) :
    World.CapturedBy order sim.world s ∧ s.checksum = hash { s with checksum := "" } ∧
      (∀ time ∈ s.times, time.isFinite = true) ∧ ((model.config = none ∧ s.modelConfig = none) ∨
        ∃ methods raw, model.config = some methods ∧
          G.marshal (methods.snapshotConfig sim.model).2 = .ok raw ∧ s.modelConfig = some raw) := by
  unfold snapshot at captured
  split at captured
  · cases captured
  · split at captured
    · cases captured
    · rename_i plain plainOk
      obtain ⟨parts, noConfig, checksum, finite⟩ := World.snapshot_eq_ok plainOk
      split at captured
      · rename_i without
        cases captured
        exact ⟨parts, checksum, finite, .inl ⟨without, noConfig⟩⟩
      · rename_i methods found
        split at captured
        · cases captured
        · rename_i raw marshalled
          unfold withChecksum at captured
          cases computed : computeChecksum hash
              { plain with modelConfig := some raw } with
          | error detail => simp [computed] at captured
          | ok value =>
            simp only [computed, Except.ok.injEq] at captured
            subst captured
            obtain ⟨rfl, _⟩ := Snapshot.computeChecksum_eq_ok computed
            exact ⟨parts.withConfig _ _, rfl, finite, .inr ⟨methods, raw, found, marshalled, rfl⟩⟩

namespace Orderly

variable {layout : Layout G} {Wired : model.Fields → Prop} {metadata : Metadata} {sim : model.Sim}
  {hash : Snapshot → String} {order : MapOrder G.Any} {k : Nat} {fresh paused : model.Sim}
  {s : Snapshot}

theorem new (orderly : model.Orderly layout Wired)
    (made : model.new sortSlice metadata = some sim) :
    sim.running = false ∧ sim.world.Laid metadata layout ∧ Wired sim.model := by
  obtain ⟨⟨fields, w⟩, ran, rfl⟩ := map_eq_some_iff.mp made
  obtain ⟨laid, wired⟩ := orderly.setUp ran
  exact ⟨rfl, laid, wired⟩

theorem advance (orderly : model.Orderly layout Wired) {n : Nat}
    {after : model.Sim} (laid : sim.world.Laid metadata layout) (wired : Wired sim.model)
    (ran : model.advance sortSlice n sim = some after) :
    after.running = sim.running ∧ after.world.Laid metadata layout ∧ Wired after.model := by
  obtain ⟨⟨fields, w⟩, ended, rfl⟩ := map_eq_some_iff.mp ran
  obtain ⟨stillLaid, stillWired⟩ := laid.runCode Wired
    (Program.Ensures.iterate orderly.step n wired) ended
  exact ⟨rfl, stillLaid, stillWired⟩

section

variable (orderly : model.Orderly layout Wired)
  (roundTrips : ∀ (t : G.Ty) (value : G.Value t), GoTypes.RoundTrips value)
  (made : model.new sortSlice metadata = some fresh)
  (ran : model.advance sortSlice k fresh = some paused)
  (indexSpace : paused.world.entities.versions.length < 2 ^ 31)
  (captured : snapshot hash order paused = .ok s)
include orderly roundTrips made ran indexSpace captured

theorem restored :
    ∃ restored, restore hash fresh s = some (restored, none) ∧
      World.Alike paused.world restored.world ∧ restored.model = fresh.model := by
  obtain ⟨idle, laid, wired⟩ := orderly.new made
  obtain ⟨_, pausedLaid, pausedWired⟩ := orderly.advance laid wired ran
  obtain ⟨parts, checksum, finite, config⟩ := snapshot_eq_ok captured
  obtain ⟨world, succeeded, alike⟩ := alike_of_restore
    pausedLaid.sound indexSpace (pausedLaid.twin laid)
    (pausedLaid.roundTripping roundTrips) parts checksum finite
  refine ⟨{ fresh with world := world }, ?_, alike, rfl⟩
  unfold restore RestorableSimulation.restore
  rw [if_neg (by simp [idle]), succeeded]
  rcases config with ⟨without, noConfig⟩ | ⟨methods, raw, found, marshalled, kept⟩
  · simp only [without, map_none]
  · have reloaded := orderly.config methods found paused.model fresh.model raw
      pausedWired wired marshalled
    simp only [found, kept, map_some, reloaded]

theorem same_iff_indifferent :
    ∃ restored, restore hash fresh s = some (restored, none) ∧
      ∀ n, model.Same (model.advance sortSlice n restored) (model.advance sortSlice (k + n) fresh) ↔
        model.Indifferent sortSlice n paused fresh.model := by
  obtain ⟨restored, succeeded, alike, fields⟩ :=
    orderly.restored roundTrips made ran indexSpace captured
  refine ⟨restored, succeeded, fun n => ?_⟩
  have continued : model.advance sortSlice (k + n) fresh =
      model.advance sortSlice n paused := by
    rw [advance_add, ran]
    rfl
  have swapped : model.Same (model.advance sortSlice n restored)
      (model.advance sortSlice n { paused with model := fresh.model }) := by
    apply same_of_alike
    · exact alike.symm
    · exact fields
  rw [continued]
  exact ⟨fun same => swapped.symm.trans same, fun same => swapped.trans same⟩

end

end Orderly

end ModelProgram

end Simulator
