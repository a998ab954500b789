import Simulator.InterleavedProcesses
import Simulator.World

/-!
# The scheduler

`step` makes one move of one goroutine, and any sequence of moves is an interleaving.  A
level of one system is run without a goroutine of its own, which makes the same moves
possible.
-/

namespace Simulator

open Interleaving

variable {G : GoTypes}

/-- What `scheduler.run` can fail with. -/
inductive RunError
  | contextCanceled
  | failed (detail : String)
deriving DecidableEq

def RunError.message : RunError → String
  | .contextCanceled => "context canceled"
  | .failed detail => detail

/-- `System`, and `Serial` of a `SerialSystem`.  `run` takes the shard; its
result is the error it returns.  Systems that look at their context are not
modelled. -/
structure System (G : GoTypes) where
  reads : List ComponentID
  writes : List ComponentID
  serial : Bool
  run : List EntityID → Process (World G) (Option RunError)

def intersectsWrite (writes other : List ComponentID) : Bool :=
  writes.any fun written => other.any fun touched => written == touched

def conflicts (a b : System G) : Bool :=
  intersectsWrite a.writes b.reads || intersectsWrite a.writes b.writes ||
    intersectsWrite b.writes a.reads

/-- The inner loop of `dependencyLevels`: the highest level among the earlier
systems that conflict with `sys`, and zero if there is none. -/
def blockingLevel (sys : System G) : List (System G × Nat) → Nat
  | [] => 0
  | (earlier, level) :: rest =>
    if conflicts sys earlier ∧ level > blockingLevel sys rest then level
    else blockingLevel sys rest

/-- The first loop of `dependencyLevels`: the systems with their levels,
counted from one, latest first. -/
def assignLevels : List (System G) → List (System G × Nat) → List (System G × Nat)
  | [], assigned => assigned
  | sys :: rest, assigned =>
    assignLevels rest ((sys, blockingLevel sys assigned + 1) :: assigned)

/-- The array `levels` of `dependencyLevels` -/
def systemLevels (systems : List (System G)) : List Nat :=
  (assignLevels systems []).reverse.map Prod.snd

/-- `dependencyLevels`, as positions in the list of systems. -/
def dependencyLevels (systems : List (System G)) : List (List Nat) :=
  (List.range ((systemLevels systems).foldl max 0)).map fun level =>
    (List.range systems.length).filter fun i =>
      (systemLevels systems)[i]? = some (level + 1)

structure EntitySet where
  rev : UInt64
  ids : List EntityID

/-- `scheduler` without its cache. -/
structure Scheduler (G : GoTypes) where
  workers : Int
  systems : List (System G)

/-- `levels`, computed once by `newScheduler` -/
def Scheduler.levels (s : Scheduler G) : List (List Nat) :=
  dependencyLevels s.systems

/-- The cache `newScheduler` starts with, by the position of the system -/
def newCache : Nat → EntitySet :=
  fun _ => ⟨0, []⟩

/-- The closure `add` of `systemEntities` -/
def addEntities (out es : List EntityID) : List EntityID :=
  es.foldl (fun out e => if e ∈ out then out else out ++ [e]) out

def systemEntities (w : World G) (sys : System G) : List EntityID :=
  match sys.reads, sys.writes with
  | [], [] => w.entities.ids
  | [read], [] => w.components.entities read
  | [], [written] => w.components.entities written
  | reads, writes =>
    (reads ++ writes).foldl (fun out id => addEntities out (w.components.entities id)) []

/-- `scheduler.entitySet`: the cached set, or a new one for the cache. -/
def entitySet (w : World G) (cached : EntitySet) (sys : System G) : EntitySet :=
  if cached.rev = w.revision then cached
  else ⟨w.revision, systemEntities w sys⟩

/-- `partition`.  The caller never passes an empty list. -/
def partition (entities : List EntityID) (workers : Int) : List (List EntityID) :=
  if workers ≤ 1 then [entities]
  else
    let n := entities.length
    let workers := min workers.toNat n
    let chunk := (n + workers - 1) / workers
    (List.range workers).map fun i =>
      let start := i * chunk
      if start ≥ n then []
      else (entities.take (min (start + chunk) n)).drop start

/-- One goroutine of `runSystem`: before its `select`, running with a place
in the semaphore, or returned. -/
inductive ShardRun (G : GoTypes)
  | waiting (body : Process (World G) (Option RunError))
  | running (body : Process (World G) (Option RunError))
  | returned

/-- One call of `runSystem`: not made yet, waiting for its shards with the
errors received so far, or returned. -/
inductive SystemRun (G : GoTypes)
  | pending
  | active (shards : List (ShardRun G)) (errors : List RunError)
  | returned

/-- A call of `scheduler.run`: the levels still to run, the systems, the
errors received from the systems of the current level, and the result once it
has returned. -/
structure RunState (G : GoTypes) where
  world : World G
  cache : Nat → EntitySet
  levels : List (List Nat)
  runs : List (SystemRun G)
  errors : List RunError
  result : Option (Except RunError Unit)

inductive SchedulerMove
  | start (system : Nat)
  | acquire (system shard : Nat)
  | cancel (system shard : Nat)
  | act (system shard : Nat)
  | release (system shard : Nat)
  | join (system : Nat)
  | advance
deriving DecidableEq

def ShardRun.isRunning : ShardRun G → Bool
  | .running _ => true
  | _ => false

def ShardRun.isReturned : ShardRun G → Bool
  | .returned => true
  | _ => false

def SystemRun.isReturned : SystemRun G → Bool
  | .returned => true
  | _ => false

/-- The part of `runSystem` up to the wait for its goroutines. -/
def launch (workers : Int) (sys : System G) (entities : List EntityID) : SystemRun G :=
  if entities = [] then .returned
  else
    match partition entities (if sys.serial then 1 else workers) with
    | [shard] => .active [.running (sys.run shard)] []
    | shards => .active (shards.map fun shard => .waiting (sys.run shard)) []

namespace Scheduler

/-- The state in which `run` is called. -/
def begin (s : Scheduler G) (w : World G) (cache : Nat → EntitySet) :
    RunState G where
  world := w
  cache := cache
  levels := s.levels
  runs := s.systems.map fun _ => .pending
  errors := []
  result := none

def start (s : Scheduler G) (st : RunState G) (idx : Nat) : Option (RunState G) :=
  match st.levels, s.systems[idx]?, st.runs[idx]? with
  | level :: _, some sys, some .pending =>
    if idx ∈ level then
      let set := entitySet st.world (st.cache idx) sys
      some { st with
        cache := Function.update st.cache idx set
        runs := st.runs.set idx (launch s.workers sys set.ids) }
    else none
  | _, _, _ => none

/-- Make a move of one shard: `move` gives the shard's new state, the error
it sends and the world. -/
def moveShard (st : RunState G) (idx shard : Nat) (move : List (ShardRun G) → ShardRun G →
      Option (ShardRun G × Option RunError × World G)) : Option (RunState G) :=
  match st.runs[idx]? with
  | some (.active shards errors) =>
    match shards[shard]? with
    | some current =>
      (move shards current).map fun (next, error, world) =>
        { st with
          world := world
          runs := st.runs.set idx (.active (shards.set shard next) (errors ++ error.toList)) }
    | none => none
  | _ => none

/-- The move a shard goroutine makes by itself: `select` takes a free place
or, if the context is done, may give up; then the body runs action by
action, and its error is sent after the place is free again. -/
def shardMove (s : Scheduler G) (cancelled : Bool) (w : World G) :
    SchedulerMove → List (ShardRun G) → ShardRun G → Option (ShardRun G × Option RunError × World G)
  | .acquire _ _, shards, .waiting body =>
    if shards.countP ShardRun.isRunning < s.workers.toNat then
      some (.running body, none, w)
    else none
  | .cancel _ _, _, .waiting _ =>
    if cancelled then some (.returned, some .contextCanceled, w) else none
  | .act _ _, _, .running (.act effect rest) =>
    some (.running (rest w), none, effect w)
  | .release _ _, _, .running (.halt error) => some (.returned, error, w)
  | _, _, _ => none

/-- `runSystem` returns once all its shards have. -/
def join (st : RunState G) (idx : Nat) : Option (RunState G) :=
  match st.runs[idx]? with
  | some (.active shards errors) =>
    if shards.all ShardRun.isReturned then
      some { st with
        runs := st.runs.set idx .returned
        errors := st.errors ++ errors.head?.toList }
    else none
  | _ => none

/-- The loop of `run`: the next level, or the end. -/
def advance (st : RunState G) : Option (RunState G) :=
  match st.levels with
  | [] => some { st with result := some (.ok ()) }
  | level :: rest =>
    if level.all fun idx => (st.runs[idx]?).any SystemRun.isReturned then
      match st.errors with
      | [] => some { st with levels := rest }
      | error :: _ => some { st with result := some (.error error) }
    else none

/-- One move of one goroutine of `run`; `cancelled` tells whether the context
is done at this moment. -/
def step (s : Scheduler G) (cancelled : Bool) (st : RunState G)
    (move : SchedulerMove) : Option (RunState G) :=
  if st.result.isSome then none
  else
    match move with
    | .start idx => s.start st idx
    | .acquire idx shard | .cancel idx shard | .act idx shard
    | .release idx shard =>
      moveShard st idx shard (s.shardMove cancelled st.world move)
    | .join idx => join st idx
    | .advance => advance st

def Step (s : Scheduler G) (cancelled : Bool) (st next : RunState G) : Prop :=
  ∃ move, s.step cancelled st move = some next

def Reaches (s : Scheduler G) : RunState G → RunState G → Prop :=
  Relation.ReflTransGen fun st next => ∃ cancelled, s.Step cancelled st next

def ReachesUncancelled (s : Scheduler G) : RunState G → RunState G → Prop :=
  Relation.ReflTransGen (s.Step false)

def entitiesOf (s : Scheduler G) (w : World G) (cache : Nat → EntitySet)
    (idx : Nat) : List EntityID :=
  match s.systems[idx]? with
  | some sys => (entitySet w (cache idx) sys).ids
  | none => []

def runWhole (s : Scheduler G) (cache : Nat → EntitySet) (w : World G) (idx : Nat) : World G :=
  match s.systems[idx]? with
  | some sys => (sys.run (s.entitiesOf w cache idx)).exec w
  | none => w

def runSerially (s : Scheduler G) (cache : Nat → EntitySet) (w : World G) : World G :=
  (List.range s.systems.length).foldl (s.runWhole cache) w

end Scheduler

end Simulator
