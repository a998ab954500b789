import Simulator.Resumption

/-!
# The counter model

The accumulators and the random streams are components; the steps change no field of
the model value.
-/

namespace Simulator

open Requests Code

/-- `Value` -/
structure CounterValue where
  v : UInt64

structure RandState where
  state : UInt64

structure CounterConfig where
  n : Int
  incrementMax : UInt64

inductive CounterTy
  | value
  | rand
  | config
deriving DecidableEq

namespace CounterTy

def Value : CounterTy → Type
  | value => CounterValue
  | rand => RandState
  | config => CounterConfig

def name : CounterTy → String
  | value => "counter.Value"
  | rand => "counter.RandState"
  | config => "counter.counterConfig"

theorem name_ne (t : CounterTy) : t.name ≠ "" := by
  cases t <;> decide

end CounterTy

abbrev counterTypes (codec : ∀ t, JsonCodec (CounterTy.Value t)) : GoTypes :=
  componentTypes CounterTy CounterTy.Value CounterTy.name CounterTy.name_ne codec

/-- `CounterWorld`; `valueCol` and `randCol` are the columns of the two
components -/
structure CounterWorld where
  n : Int
  incrementMax : UInt64
  valueID : ComponentID
  randID : ComponentID

namespace CounterWorld

/-- A new value after `Configure`. -/
def configure (c : CounterConfig) : CounterWorld :=
  ⟨c.n, c.incrementMax, 0, 0⟩

variable {codec : ∀ t, JsonCodec (CounterTy.Value t)}

/-- `valueCol.GetShard` -/
def value (m : CounterWorld) (e : EntityID) : Code (counterTypes codec) (Option CounterValue) :=
  Code.get (G := counterTypes codec) (some .value) m.valueID e

/-- `randCol.GetShard` -/
def rand (m : CounterWorld) (e : EntityID) : Code (counterTypes codec) (Option RandState) :=
  Code.get (G := counterTypes codec) (some .rand) m.randID e

def createCounter (m : CounterWorld) (seed : UInt64) (i : Nat) :
    Code (counterTypes codec) Unit := do
  let e ← Code.create
  let stream := RNG.deriveU64 seed (UInt64.ofNat i + 1)
  Code.set (G := counterTypes codec) (some .value) m.valueID e (⟨0⟩ : CounterValue)
  Code.set (G := counterTypes codec) (some .rand) m.randID e (⟨stream.state⟩ : RandState)

/-- `Initialize` -/
def setUp (m : CounterWorld) (seed : UInt64) : Code (counterTypes codec) CounterWorld := do
  let valueID ← Code.registerComponent (some .value) "counter.value"
  let randID ← Code.registerComponent (some .rand) "counter.rand"
  let m := { m with valueID := valueID, randID := randID }
  (List.range m.n.toNat).foldlM (fun _ i => m.createCounter seed i) ()
  return m

/-- The body of the loop of `counterSystem.Run` -/
def increment (m : CounterWorld) (e : EntityID) : Code (counterTypes codec) Unit := do
  let max := if m.incrementMax = 0 then 1000 else m.incrementMax
  match ← m.rand e with
  | none => return ()
  | some rs =>
    let drawn ← Code.ofExcept (RNG.uint64n ⟨rs.state⟩ max)
    let v := (← m.value e).getD ⟨0⟩
    Code.setShard (G := counterTypes codec) (some .value) m.valueID e
      (⟨v.v + drawn.1⟩ : CounterValue)
    Code.setShard (G := counterTypes codec) (some .rand) m.randID e (⟨drawn.2.state⟩ : RandState)

def work (m : CounterWorld) : Code (counterTypes codec) CounterWorld :=
  Code.runSystem [m.valueID, m.randID] [m.valueID, m.randID] (fun entities m => do
      entities.foldlM (fun _ e => m.increment e) ()
      return m) m

def snapshotConfig (m : CounterWorld) : (counterTypes codec).Any :=
  ⟨some .config, (⟨m.n, m.incrementMax⟩ : CounterConfig)⟩

/-- `RestoreConfig` on a message that is not empty -/
def restoreConfig (codec : JsonCodec CounterConfig) (raw : Json)
    (m : CounterWorld) : CounterWorld × Option String :=
  match codec.unmarshal raw with
  | .error detail => (m, some detail)
  | .ok c => ({ m with n := c.n, incrementMax := c.incrementMax }, none)

def program (codec : ∀ t, JsonCodec (CounterTy.Value t))
    (c : CounterConfig) : ModelProgram (counterTypes codec) where
  Fields := CounterWorld
  setUp := (configure c).setUp
  step := Code.tickStep work
  metrics _ := []
  config := some ⟨snapshotConfig, restoreConfig (codec .config)⟩

def layout (codec : ∀ t, JsonCodec (CounterTy.Value t)) : Layout (counterTypes codec) :=
  [("counter.value", some .value), ("counter.rand", some .rand)]

def placed (c : CounterConfig) : CounterWorld :=
  ⟨c.n, c.incrementMax, 0, 1⟩

variable {sort : SortSlice (Event (counterTypes codec))} {metadata : Metadata} {c : CounterConfig}

theorem setUp_laid {seed : UInt64} {m : CounterWorld} {w : World (counterTypes codec)}
    (ran : (World.new metadata).runCode sort ((configure c).setUp seed) = some (m, w)) :
    w.Laid metadata (layout codec) ∧ m = placed c := by
  obtain ⟨first, firstLaid, rest⟩ :=
    (World.laid_new metadata).runCode_registerComponent List.not_mem_nil ran
  obtain ⟨second, laid, rest⟩ := firstLaid.runCode_registerComponent (by simp) rest
  refine laid.runCode (fun after => after = placed c) ?_ rest
  refine .seq ?_ fun _ => rfl
  refine .foldlM (fun _ i _ => ?_) _ trivial
  refine .request_bind trivial fun e => ?_
  refine .request_bind rfl fun _ => ?_
  exact .request rfl fun _ => trivial

theorem ensures_increment (c : CounterConfig) (e : EntityID) :
    ((placed c).increment e).Within (layout codec) := by
  refine .request_bind rfl fun rs => ?_
  cases rs with
  | none => trivial
  | some rs =>
    refine .seq ?_ fun drawn => ?_
    · exact ensures_ofExcept fun _ _ => trivial
    · refine .request_bind rfl fun v => ?_
      refine .seq ?_ fun _ => ?_
      · exact ensures_setShard (fun _ => rfl) trivial
      · exact ensures_setShard (fun _ => rfl) trivial

theorem ensures_step (c : CounterConfig) : (tickStep work (placed c)).Ensures
      (Operation.Within (layout codec)) fun after => after = placed c := by
  refine ensures_tickStep trivial ?_
  refine ensures_runSystem trivial (fun _ => trivial) rfl fun es => ?_
  refine .seq ?_ fun _ => rfl
  exact .foldlM (fun _ e _ => ensures_increment c e) es trivial

theorem orderly (codec : ∀ t, JsonCodec (CounterTy.Value t)) (c : CounterConfig) :
    (program codec c).Orderly (layout codec) fun m => m = placed c where
  setUp ran := setUp_laid ran
  step m wired := by
    rw [wired]
    exact ensures_step c
  config methods hit fields fresh raw wired freshWired enc := by
    cases hit
    subst wired freshWired
    have dec := (codec .config).roundTrips _ raw enc
    simp only [restoreConfig, dec]
    rfl

theorem indifferent {k : Nat} {fresh paused : (program codec c).Sim}
    (made : (program codec c).new sort metadata = some fresh)
    (ran : (program codec c).advance sort k fresh = some paused) (n : Nat) :
    (program codec c).Indifferent sort n paused fresh.model := by
  obtain ⟨_, laid, freshPlaced⟩ := (orderly codec c).new made
  obtain ⟨_, pausedLaid, pausedPlaced⟩ := (orderly codec c).advance laid freshPlaced ran
  rw [freshPlaced, ← pausedPlaced]
  exact ModelProgram.indifferent_self pausedLaid.sound n

end CounterWorld

end Simulator
