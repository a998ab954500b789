import Simulator.Manager

/-!
# Failed manager operations

`Create` changes the map after its last fallible call, `Delete` and `Replay` before.
-/

namespace Simulator

open List Option

namespace LiveSim

variable {G : GoTypes} {live : LiveSim G}

theorem stop_of_going (going : live.state.isGoing = true) :
    ∃ next, live.stop = .ok next ∧ next.state = .stopped := by
  unfold state at going
  simp only [stop, Sim.stop, going, if_true]
  exact ⟨_, rfl, rfl⟩

theorem stop_of_not_going
    (still : live.state.isGoing = false) : live.stop = .error .notRunning := by
  unfold state at still
  simp [stop, Sim.stop, still, Except.map]

theorem start_of_not_running (still : live.state ≠ .running) :
    ∃ next, live.start = .ok next ∧ next.state = .running := by
  unfold state at still
  simp only [start, Sim.begin, still, if_false]
  exact ⟨_, rfl, rfl⟩

end LiveSim

namespace Runner

namespace Manager

variable {G : GoTypes} {M : Type}

section State

variable {m : Manager G} {address other : Nat} {live : LiveSim G}

theorem state_setSim_self (lt : address < m.heap.length) :
    (m.setSim address live).state address = live.state := by
  simp [state, setSim, getElem?_set_self lt]

theorem state_setSim_of_ne (ne : other ≠ address) :
    (m.setSim address live).state other = m.state other := by
  simp [state, setSim, getElem?_set_ne ne.symm]

theorem state_alloc (lt : address < m.heap.length) :
    (m.alloc live).state address = m.state address := by
  simp [state, alloc, getElem?_append_left lt]

theorem exists_live (lt : address < m.heap.length) :
    ∃ live, m.heap[address]? = some live ∧ m.state address = live.state := by
  refine ⟨m.heap[address], getElem?_eq_getElem lt, ?_⟩
  simp [state, getElem?_eq_getElem lt]

theorem operate_stop_of_not_going (still : (m.state address).isGoing = false) :
    m.operate address LiveSim.stop = .error .notRunning := by
  unfold operate
  split
  · rfl
  · rename_i live hit
    have eq : m.state address = live.state := by simp [state, hit]
    rw [eq] at still
    rw [LiveSim.stop_of_not_going still]
    rfl

theorem operate_stop_of_going (lt : address < m.heap.length)
    (going : (m.state address).isGoing = true) :
    ∃ next, m.operate address LiveSim.stop = .ok (m.setSim address next) ∧
      next.state = .stopped := by
  obtain ⟨live, hit, eq⟩ := exists_live lt
  rw [eq] at going
  obtain ⟨next, stopped, nextState⟩ := LiveSim.stop_of_going going
  refine ⟨next, ?_, nextState⟩
  simp [operate, hit, stopped, Except.map]

end State

inductive Mutation
  | create (faults : CreateFaults) (newID : String) (now : Nat) (req : CreateRequest)
  | delete (fails : Option String) (id : String)
  | replay (upsert update : Option String) (newID id : String)

def Mutation.run (host : Host G M) :
    Mutation → Manager G → Option String × Manager G
  | .create faults newID now req, m =>
    match m.create host faults newID now req with
    | (.error detail, after) => (some detail, after)
    | (.ok _, after) => (none, after)
  | .delete fails id, m => m.delete fails id
  | .replay upsert update newID id, m => m.replay host upsert update newID id

structure Unchanged (m after : Manager G) : Prop where
  sims : after.sims = m.sims
  states : ∀ id mg, m.sims id = some mg → after.state mg.sim = m.state mg.sim

theorem Unchanged.refl (m : Manager G) : Unchanged m m :=
  ⟨rfl, fun _ _ _ => rfl⟩

theorem unchanged_alloc (m : Manager G) (live : LiveSim G) : Unchanged m (m.alloc live) :=
  ⟨rfl, fun id mg hit => state_alloc (m.linked id mg hit)⟩

/-- The operation reaches a call that fails after it has changed something:
`Delete` the row of a simulation that is not going, `Replay` the
instantiation of the stored configuration of one that is. -/
def Mutation.Strays (host : Host G M) (m : Manager G) : Mutation → Prop
  | .create _ _ _ _ => False
  | .delete fails id => ∃ mg, m.sims id = some mg ∧
      (m.state mg.sim).isGoing = false ∧ fails.isSome = true
  | .replay upsert _ newID id => ∃ mg detail, m.sims id = some mg ∧
      (m.state mg.sim).isGoing = true ∧ instantiate host upsert newID (mg.info.config.request id) =
        .error detail

theorem unchanged_create (host : Host G M) (faults : CreateFaults)
    (newID : String) (now : Nat) (req : CreateRequest) (m : Manager G)
    {msg : String} {after : Manager G}
    (failed : m.create host faults newID now req = (.error msg, after)) : Unchanged m after := by
  unfold create at failed
  split at failed
  · cases failed
    exact .refl m
  · split at failed
    · cases failed
      exact unchanged_alloc m _
    · cases failed

theorem isGoing_iff {state : State} :
    state.isGoing = true ↔ state = .running ∨ state = .paused := by
  cases state <;> simp [State.isGoing]

theorem delete_cases (fails : Option String) (id : String) (m : Manager G) :
    (∃ msg, m.delete fails id = (some msg, m) ∧
      ∀ mg, m.sims id = some mg → (m.state mg.sim).isGoing = true) ∨
    ∃ mg, m.sims id = some mg ∧ (m.state mg.sim).isGoing = false ∧ m.delete fails id =
        match (m.remove id).deleteSimulation fails id with
        | .error msg =>
          (some ("runner: delete simulation: " ++ msg), m.remove id)
        | .ok after => (none, after) := by
  unfold delete lookup
  cases hit : m.sims id with
  | none => exact .inl ⟨_, rfl, by simp⟩
  | some mg =>
    simp only
    cases going : (m.state mg.sim).isGoing with
    | true =>
      left
      rw [if_pos (isGoing_iff.mp going)]
      refine ⟨_, rfl, ?_⟩
      intro other eq
      cases eq
      exact going
    | false =>
      right
      have notGoing : ¬ (m.state mg.sim = .running ∨ m.state mg.sim = .paused) := by
        rw [← isGoing_iff, going]
        simp
      refine ⟨mg, rfl, going, ?_⟩
      rw [if_neg notGoing, operate_stop_of_not_going going]
      rfl

theorem delete_atomic_iff (fails : Option String) (id : String) (m : Manager G) :
    ((m.delete fails id).1.isSome = true → Unchanged m (m.delete fails id).2) ↔
      ¬ ∃ mg, m.sims id = some mg ∧ (m.state mg.sim).isGoing = false ∧ fails.isSome = true := by
  rcases delete_cases fails id m with ⟨msg, refused, going⟩ | ⟨mg, hit, still, deleted⟩
  · rw [refused]
    constructor
    · rintro _ ⟨mg, hit, still, _⟩
      rw [going mg hit] at still
      cases still
    · intro _ _
      exact .refl m
  · rw [deleted]
    cases fails with
    | none => simp [deleteSimulation]
    | some msg =>
      simp only [deleteSimulation, isSome_some, forall_const, and_true]
      constructor
      · intro kept _
        have eq := congrFun kept.sims id
        rw [hit] at eq
        simp [remove] at eq
      · intro no
        exact absurd ⟨mg, hit, still⟩ no

variable {live : LiveSim G} {host : Host G M} {upsert : Option String} {req : CreateRequest}
  {info : SimulationInfo}

theorem made_of_instantiate {newID : String}
    (built : instantiate host upsert newID req = .ok (live, info)) :
    live.sim = .new live.built.initial ∧ info.status = "created" ∧
      info.ownerID = ownerPtr req.ownerID ∧ info.createdAt = none := by
  unfold instantiate at built
  split at built
  · cases built
  · split at built
    · cases built
    · cases built
      exact ⟨rfl, rfl, rfl, rfl⟩

theorem state_of_instantiate {newID : String}
    (built : instantiate host upsert newID req = .ok (live, info)) : live.state = .idle := by
  rw [LiveSim.state, (made_of_instantiate built).1]
  rfl

/-- The manager after `Replay` has called `Stop`. -/
def halted (m : Manager G) (address : Nat) : Manager G :=
  (m.operate address LiveSim.stop).toOption.getD m

@[simp]
theorem sims_halted (m : Manager G) (address : Nat) : (m.halted address).sims = m.sims := by
  unfold halted
  cases operated : m.operate address LiveSim.stop with
  | error cause => rfl
  | ok after =>
    obtain ⟨_, _, _, _, rfl⟩ := operate_eq_ok operated
    rfl

@[simp]
theorem rows_halted (m : Manager G) (address : Nat) : (m.halted address).rows = m.rows := by
  unfold halted
  cases operated : m.operate address LiveSim.stop with
  | error cause => rfl
  | ok after =>
    obtain ⟨_, _, _, _, rfl⟩ := operate_eq_ok operated
    rfl

theorem halted_of_not_going {m : Manager G} {address : Nat}
    (still : (m.state address).isGoing = false) : m.halted address = m := by
  rw [halted, operate_stop_of_not_going still]
  rfl

def placed (m : Manager G) (id : String) (live : LiveSim G) (info : SimulationInfo) : Manager G :=
  (m.alloc live).put id ⟨m.heap.length, info⟩ (by simp [alloc])

theorem operate_start_placed (m : Manager G) (id : String)
    (info : SimulationInfo) (fresh : live.state = .idle) :
    ∃ next, (m.placed id live info).operate m.heap.length LiveSim.start =
      .ok ((m.placed id live info).setSim m.heap.length next) := by
  have idle : live.state ≠ .running := by
    rw [fresh]
    decide
  obtain ⟨next, started, -⟩ := LiveSim.start_of_not_running idle
  refine ⟨next, ?_⟩
  have held : (m.placed id live info).heap[m.heap.length]? = some live := by
    simp [placed, put, alloc]
  simp [operate, held, started, Except.map]

theorem replay_cases (host : Host G M) (upsert update : Option String)
    (newID id : String) (m : Manager G) : (m.sims id = none ∧
      m.replay host upsert update newID id = (some notFound, m)) ∨
    (∃ mg msg, m.sims id = some mg ∧ instantiate host upsert newID (mg.info.config.request id) =
        .error msg ∧ m.replay host upsert update newID id = (some msg, m.halted mg.sim)) ∨
    ∃ mg live info next, m.sims id = some mg ∧
      instantiate host upsert newID (mg.info.config.request id) = .ok (live, info) ∧
      m.replay host upsert update newID id = (none, (((m.halted mg.sim).placed id live info).setSim
          (m.halted mg.sim).heap.length next).updateStatus update id "running") := by
  cases hit : m.sims id with
  | none =>
    left
    simp [replay, lookup, hit]
  | some mg =>
    right
    cases built : instantiate host upsert newID (mg.info.config.request id) with
    | error msg =>
      left
      refine ⟨mg, msg, rfl, built, ?_⟩
      simp only [replay, lookup, hit, built]
      rfl
    | ok pair =>
      right
      obtain ⟨live, info⟩ := pair
      obtain ⟨next, started⟩ := (m.halted mg.sim).operate_start_placed id info
          (state_of_instantiate built)
      refine ⟨mg, live, info, next, rfl, built, ?_⟩
      simp only [replay, lookup, hit, built]
      unfold placed halted at started
      rw [started]
      rfl

theorem replay_atomic_iff (host : Host G M) (upsert update : Option String)
    (newID id : String) (m : Manager G) : ((m.replay host upsert update newID id).1.isSome = true →
        Unchanged m (m.replay host upsert update newID id).2) ↔ ¬ ∃ mg msg, m.sims id = some mg ∧
        (m.state mg.sim).isGoing = true ∧
        instantiate host upsert newID (mg.info.config.request id) =
          .error msg := by
  rcases replay_cases host upsert update newID id m with
    ⟨missing, refused⟩ | ⟨mg, msg, hit, failed, stopped⟩ |
      ⟨mg, live, info, next, hit, built, replayed⟩
  · rw [refused, missing]
    simp [Unchanged.refl]
  · rw [stopped]
    cases going : (m.state mg.sim).isGoing with
    | false =>
      rw [halted_of_not_going going]
      constructor
      · rintro _ ⟨other, _, eq, running, _⟩
        rw [hit, some.injEq] at eq
        rw [← eq, going] at running
        cases running
      · intro _ _
        exact .refl m
    | true =>
      constructor
      · intro kept _
        obtain ⟨next, operated, nextState⟩ := operate_stop_of_going (m.linked id mg hit) going
        have eq := (kept rfl).states id mg hit
        simp only [halted, operated, Except.toOption, Option.getD_some,
          state_setSim_self (m.linked id mg hit), nextState] at eq
        rw [← eq] at going
        cases going
      · intro no
        exact absurd ⟨mg, msg, hit, going, failed⟩ no
  · rw [replayed]
    constructor
    · rintro _ ⟨other, msg, eq, _, failed⟩
      rw [hit, some.injEq] at eq
      rw [← eq, built] at failed
      cases failed
    · intro _ failed
      cases failed

theorem failure_changes_nothing_iff (host : Host G M) (call : Mutation) (m : Manager G) :
    ((call.run host m).1.isSome = true → Unchanged m (call.run host m).2) ↔
      ¬ call.Strays host m := by
  cases call with
  | create faults newID now req =>
    simp only [Mutation.run, Mutation.Strays, not_false_iff, iff_true]
    split
    · rename_i msg after failed
      intro _
      exact unchanged_create host faults newID now req m failed
    · intro failed
      cases failed
  | delete fails id => exact delete_atomic_iff fails id m
  | replay upsert update newID id =>
    exact replay_atomic_iff host upsert update newID id m

def idleHost : Host flagTypes Unit where
  methods := idleMethods
  registry := idleRegistry
  valid := fun text => text = "null"
  valid_null := by decide
  valid_empty := by decide
  format := fun _ => "NaN"
  column := id
  column_null := rfl
  valid_column := fun _ valid => valid

/-- A manager in which the user `u` has created one simulation. -/
def idleManager : Manager flagTypes :=
  (create idleHost ⟨none, none⟩ "t" 0 ⟨idlePayload "1.0.0" "tick", "u"⟩ (new fun _ => none)).2

theorem failed_calls_leave_traces : (idleManager.get "s").isSome = true ∧
      (idleManager.delete (some "conn closed") "s").1 =
        some "runner: delete simulation: conn closed" ∧
      (idleManager.delete (some "conn closed") "s").2.get "s" = none ∧
      ((idleManager.start none "s").2.get "s").map (·.status) = some "running" ∧
      ((idleManager.start none "s").2.replay idleHost (some "conn closed")
        none "t" "s").1 = some "runner: persist model: conn closed" ∧
      (((idleManager.start none "s").2.replay idleHost (some "conn closed")
        none "t" "s").2.get "s").map (·.status) = some "stopped" :=
  ⟨rfl, rfl, rfl, rfl, rfl, rfl⟩

end Manager

end Runner

end Simulator
