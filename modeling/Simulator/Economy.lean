import Simulator.Resumption

/-!
# The economy model

The agents are components; the price and its history are fields of the model value.
-/

namespace Simulator

open Requests

structure Agent where
  cash : Float64
  goods : Float64

inductive EconomyTy
  | agent
deriving DecidableEq

abbrev economyTypes (codec : JsonCodec Agent) : GoTypes :=
  componentTypes EconomyTy (fun _ => Agent) (fun _ => "economy.Agent")
    (fun _ => by decide) (fun _ => codec)

namespace Economy

structure Config where
  agents : Int
  productivity : Float64
  demand : Float64
  priceAdjust : Float64
  priceCap : Float64
  supplyShockTick : Int
  shockFactor : Float64

def Config.withDefaults (c : Config) : Config :=
  { c with
    agents := if c.agents ≤ 0 then 100 else c.agents
    productivity :=
      if c.productivity.lessEq .zero then ⟨0x4024000000000000⟩
      else c.productivity
    demand :=
      if c.demand.lessEq .zero then ⟨0x4024000000000000⟩ else c.demand
    priceAdjust :=
      if c.priceAdjust.lessEq .zero then ⟨0x3FA999999999999A⟩
      else c.priceAdjust
    shockFactor :=
      if c.shockFactor.lessEq .zero then ⟨0x3FE0000000000000⟩
      else c.shockFactor }

end Economy

/-- `Economy`; its field `agentCol` is the column of `agentID` -/
structure Economy where
  cfg : Economy.Config
  agentID : ComponentID
  price : Float64
  totalWealth : Float64
  prices : List Float64
  rng : RNG

namespace Economy

/-- A new value after `Configure`. -/
def configure (c : Config) : Economy where
  cfg := c.withDefaults
  agentID := 0
  price := .zero
  totalWealth := .zero
  prices := []
  rng := ⟨0⟩

variable {codec : JsonCodec Agent} (F : FloatOps)

/-- `Initialize` -/
def setUp (m : Economy) (seed : UInt64) : Code (economyTypes codec) Economy := do
  let m :=
    if m.cfg.agents = 0 then { m with cfg := m.cfg.withDefaults } else m
  let agentID ← Code.registerComponent (some .agent) "econ.agent"
  let m := { m with
    agentID := agentID
    rng := .deriveU64 seed 1
    price := ⟨0x3FF0000000000000⟩ }
  Program.iterate (fun () => do
    let e ← Code.create
    Code.set (some .agent) agentID e
      ⟨⟨0x4059000000000000⟩, m.cfg.productivity⟩) m.cfg.agents.toNat ()
  return m

/-- The agents that `agentCol.Each` visits -/
def agents (m : Economy) : Code (economyTypes codec) (List (EntityID × Agent)) :=
  Code.each (G := economyTypes codec) (some .agent) m.agentID

def production (cfg : Config) (factor : Float64) (rng : RNG) : Float64 × RNG :=
  let drawn := rng.float64 F
  (F.mul (F.mul cfg.productivity (F.add ⟨0x3FECCCCCCCCCCCCD⟩
    (F.mul ⟨0x3FC999999999999A⟩ drawn.1))) factor, drawn.2)

/-- The first loop of `Step`: the production of each agent. -/
def produce (cfg : Config) (factor : Float64) :
    List (EntityID × Agent) → RNG → List Float64 × RNG
  | [], rng => ([], rng)
  | _ :: rest, rng =>
    let first := production F cfg factor rng
    let others := produce cfg factor rest first.2
    (first.1 :: others.1, others.2)

/-- The price that `Step` finds for a supply. -/
def clear (m : Economy) (supply : Float64) : Float64 :=
  let demand := F.mul (.ofInt m.cfg.agents) m.cfg.demand
  let price :=
    if Float64.zero.less supply then
      F.mul m.price (F.add ⟨0x3FF0000000000000⟩
        (F.div (F.mul m.cfg.priceAdjust (F.sub demand supply)) supply))
    else m.price
  let price :=
    if Float64.zero.less m.cfg.priceCap && m.cfg.priceCap.less price then
      m.cfg.priceCap
    else price
  Float64.max ⟨0x3F847AE147AE147B⟩ price

/-- The second loop of `Step`, for one agent: trade at the price, and add to
the total wealth. -/
def trade (m : Economy) (price wealth : Float64) (entry : (EntityID × Agent) × Float64) :
    Code (economyTypes codec) Float64 := do
  let net := F.sub entry.2 m.cfg.demand
  let cash := F.add entry.1.2.cash (F.mul net price)
  Code.set (some .agent) m.agentID entry.1.1 ⟨cash, entry.1.2.goods⟩
  return F.add wealth cash

def step (m : Economy) : Code (economyTypes codec) Economy := do
  let tick := (← Code.tick).toInt64.toInt
  let factor :=
    if m.cfg.supplyShockTick > 0 ∧ tick ≥ m.cfg.supplyShockTick then
      m.cfg.shockFactor
    else ⟨0x3FF0000000000000⟩
  let producers ← m.agents
  let prods := produce F m.cfg factor producers m.rng
  let price := clear F m (prods.1.foldl F.add .zero)
  let traders ← m.agents
  let totalWealth ← (traders.zip prods.1).foldlM (trade F m price) .zero
  return { m with
    rng := prods.2
    price := price
    totalWealth := totalWealth
    prices := m.prices ++ [price] }

def metrics (m : Economy) : List (String × Float64) :=
  match m.prices with
  | [] => []
  | first :: _ =>
    [("avg_price", F.div (m.prices.foldl F.add .zero) (.ofInt m.prices.length)),
      ("final_price", m.price), ("min_price", m.prices.foldl Float64.min first),
      ("max_price", m.prices.foldl Float64.max first), ("total_wealth", m.totalWealth)]

def program (codec : JsonCodec Agent) (c : Config) :
    ModelProgram (economyTypes codec) where
  Fields := Economy
  setUp := (configure c).setUp
  step := Code.tickStep (step F)
  metrics := metrics F
  config := none

def layout (codec : JsonCodec Agent) : Layout (economyTypes codec) :=
  [("econ.agent", some .agent)]

variable {F} {sort : SortSlice (Event (economyTypes codec))} {metadata : Metadata} {c : Config}

theorem setUp_laid {seed : UInt64} {m : Economy}
    {w : World (economyTypes codec)} (ran : (World.new metadata).runCode sort
      ((configure c).setUp seed) = some (m, w)) :
    w.Laid metadata (layout codec) ∧ m.agentID = 0 ∧ m.prices = [] := by
  obtain ⟨mid, laid, rest⟩ :=
    (World.laid_new metadata).runCode_registerComponent List.not_mem_nil ran
  refine laid.runCode (fun after => after.agentID = 0 ∧ after.prices = []) ?_ rest
  refine .seq ?_ fun _ => ?_
  · refine .iterate (fun _ _ => ?_) _ trivial
    refine .request_bind trivial fun e => ?_
    exact .request rfl fun _ => trivial
  · refine ⟨rfl, ?_⟩
    dsimp only
    split <;> rfl

theorem ensures_step (m : Economy) (wired : m.agentID = 0) :
    (Code.tickStep (step F) m).Ensures (Operation.Within (layout codec))
      fun after => after.agentID = 0 ∧ after.prices ≠ [] := by
  have inLayout : (layout codec)[m.agentID]?.map Prod.snd = some (some EconomyTy.agent) := by
    rw [wired]
    rfl
  refine Code.ensures_tickStep trivial ?_
  refine .request_bind trivial fun tick => ?_
  dsimp only
  refine .request_bind inLayout fun producers => ?_
  refine .request_bind inLayout fun traders => ?_
  refine .seq ?_ fun totalWealth => ?_
  · refine .foldlM (fun wealth x _ => ?_) _ trivial
    exact .request_bind inLayout fun _ => trivial
  · exact ⟨wired, by simp⟩

theorem orderly (codec : JsonCodec Agent) (c : Config) :
    (program F codec c).Orderly (layout codec) fun m => m.agentID = 0 where
  setUp ran := by
    obtain ⟨laid, wired, _⟩ := setUp_laid ran
    exact ⟨laid, wired⟩
  step m wired := Program.Ensures.mono (ensures_step m wired) fun _ kept => kept.1
  config _ found := by cases found

theorem indifferent_iff {k : Nat} {fresh paused : (program F codec c).Sim}
    (made : (program F codec c).new sort metadata = some fresh)
    (ran : (program F codec c).advance sort k fresh = some paused) :
    (∀ n, (program F codec c).Indifferent sort n paused fresh.model) ↔ k = 0 := by
  obtain ⟨_, laid, wired⟩ := (orderly codec c).new made
  constructor
  · intro indifferent
    cases k with
    | zero => rfl
    | succ k =>
      obtain ⟨⟨m, w⟩, setUp, rfl⟩ := Option.map_eq_some_iff.mp made
      obtain ⟨⟨last, final⟩, steps, rfl⟩ := Option.map_eq_some_iff.mp ran
      have records : (Program.iterate (program F codec c).step (k + 1)
          m).Ensures (Operation.Within (layout codec))
          fun after => after.agentID = 0 ∧ after.prices ≠ [] :=
        Program.Ensures.iterate_succ ensures_step (fun _ kept => kept.1) k wired
      obtain ⟨_, _, recorded⟩ := laid.runCode _ records steps
      have same : metrics F m = metrics F last := (indifferent 0).metrics_eq
      obtain ⟨first, others, priced⟩ := List.exists_cons_of_ne_nil recorded
      simp [metrics, (setUp_laid setUp).2.2, priced] at same
  · rintro rfl
    cases ran
    exact ModelProgram.indifferent_self laid.sound

end Economy

end Simulator
