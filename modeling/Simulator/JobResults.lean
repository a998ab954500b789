import Simulator.RunResolution
import Simulator.RuntimeMoves
import Simulator.TransitionRuns

/-!
# Results of jobs

The status of a result follows from the error of `Run` alone.
-/

namespace Simulator

open Transition Option Function

/-- `Result`, without the time it was made. -/
structure JobResult where
  jobID : String
  simulationID : String
  status : String
  error : String
  snapshot : Option String
deriving DecidableEq

/-- What `RunJob` has at hand once the simulation is built.  `capture` is
`Snapshot` with the encoding of what it returns, missing where one of them
fails. -/
structure JobTask {W : Type} (E : Executor W) where
  jobID : String
  simulationID : String
  initial : W
  limit : Limit W
  capture : W → Option String

/-- The task of a job whose simulation `New` has built. -/
def BuiltSimulation.task {G : GoTypes} (built : BuiltSimulation G)
    (jobID : String) (capture : World G × built.Extra → Option String) : JobTask built.executor :=
  ⟨jobID, built.cfg.id, built.initial, defaultLimit built.cfg.runConfig, capture⟩

/-- Where `RunJob` is: before `Run`, in it, before `Snapshot`, before
`PublishResult`, or at its end. -/
inductive JobPoint
  | fresh
  | running
  | ran (runErr : Option String)
  | publishing (result : JobResult)
  | returned (error : Option String)

/-- `RunJob` with its simulation and the context of the worker.  `completion`
records the world in which the run found its limit reached or its events
drained. -/
structure JobRun {W : Type} (E : Executor W) where
  sim : Sim E
  cancelled : Bool
  point : JobPoint
  published : Option JobResult
  completion : Option W

/-- The moves: `Run` begins, its loop and its watcher go on, the context of
the worker is cancelled, and `Run` returns, the snapshot is taken and the
result is published, with or without an error. -/
inductive JobAction {W : Type} (E : Executor W)
  | begin
  | loop (action : LoopAction E)
  | watch
  | cancel
  | leave
  | capture
  | publish (error : Option String)

namespace JobRun

variable {W : Type} {E : Executor W}

def start (task : JobTask E) : JobRun E :=
  ⟨.new task.initial, false, .fresh, none, none⟩

def cancelRun (sim : Sim E) : Sim E :=
  (sim.cancelContext 0).getD sim

/-- The result `RunJob` publishes after its run. -/
def result (task : JobTask E) (sim : Sim E) (runErr : Option String) :
    JobResult where
  jobID := task.jobID
  simulationID := task.simulationID
  status := match runErr with
    | none => "completed"
    | some _ => "failed"
  error := runErr.getD ""
  snapshot := match sim.check with
    | .ok () => task.capture sim.world
    | .error _ => none

def step (task : JobTask E) (j : JobRun E) : JobAction E → Option (JobRun E)
  | .begin =>
    match j.point with
    | .fresh =>
      match j.sim.begin task.limit with
      | .ok sim => some { j with
          sim := if j.cancelled then cancelRun sim else sim
          point := .running }
      | .error error => some { j with point := .ran (some error.message) }
    | _ => none
  | .loop action =>
    match j.point with
    | .running => (j.sim.loopStep 0 action).map fun sim => { j with
        sim := sim
        completion :=
          if (j.sim.loops 0).log.ranOut = false ∧
              (sim.loops 0).log.ranOut = true then some sim.world
          else j.completion }
    | _ => none
  | .watch => (j.sim.watch 0).map fun sim => { j with sim := sim }
  | .cancel => some { j with sim := cancelRun j.sim, cancelled := true }
  | .leave =>
    match j.point, (j.sim.loops 0).point with
    | .running, .closed runErr => some { j with point := .ran runErr }
    | _, _ => none
  | .capture =>
    match j.point with
    | .ran runErr => some { j with
        point := .publishing (result task j.sim runErr) }
    | _ => none
  | .publish error =>
    match j.point with
    | .publishing result =>
      match error with
      | none => some { j with
          point := .returned none, published := some result }
      | some error => some { j with point := .returned (some error) }
    | _ => none

/-- The context of the worker is not cancelled before `Run` or while the
simulation is running. -/
def Uncut (j : JobRun E) : JobAction E → Prop
  | .cancel => j.point ≠ .fresh ∧ j.sim.control.state ≠ .running
  | _ => True

end JobRun

def LoopPoint.ending {Frame : Type} : LoopPoint Frame → Option (Option String)
  | .exiting runErr => some runErr
  | .finalized runErr => some runErr
  | .released runErr => some runErr
  | .closed runErr => some runErr
  | _ => none

@[simp]
theorem LoopPoint.ending_wake {Frame : Type} (point : LoopPoint Frame) :
    point.wake.ending = point.ending := by
  cases point <;> rfl

section

variable {W : Type} {E : Executor W}

structure Loop.Settles (state : State) (world : W) (completion : Option W)
    (loop : Loop E) : Prop where
  going : loop.point.ending = none → state = .running ∧
    loop.cancelled = false ∧ loop.log.ranOut = false
  clean : loop.point.ending = some none →
    state = .completed ∧ completion = some world ∧ loop.log.ranOut = true
  uninterrupted : loop.point ≠ .interrupted

variable {i : Nat} {c c' : Control} {w w' : W} {loop loop' : Loop E} {action : LoopAction E}
  {woken : Bool} {completion : Option W} {point : LoopPoint E.Frame}

theorem Loop.Settles.goes (settles : loop.Settles c.state w completion) (here : loop.point = point)
    (round : point.ending = none) : c.state = .running ∧
      loop.cancelled = false ∧ loop.log.ranOut = false :=
  settles.going (by rw [here]; exact round)

theorem Loop.Settles.cleanly (settles : loop.Settles c.state w completion)
    (here : loop.point = point) (ended : point.ending = some none) :
    c.state = .completed ∧ completion = some w ∧ loop.log.ranOut = true :=
  settles.clean (by rw [here]; exact ended)

def recorded (before after : Loop E) (world : W) (completion : Option W) : Option W :=
  if before.log.ranOut = false ∧ after.log.ranOut = true then some world
  else completion

variable {state : State}

theorem Loop.Settles.round (going : state = .running ∧ loop'.cancelled = false ∧
      loop'.log.ranOut = false) (round : loop'.point.ending = none)
    (uninterrupted : loop'.point ≠ .interrupted) :
    loop'.Settles state w completion where
  going := fun _ => going
  clean := fun ended => by rw [round] at ended; cases ended
  uninterrupted := uninterrupted

theorem Loop.Settles.erring {msg : String} (ended : loop'.point.ending = some (some msg)) :
    loop'.Settles state w completion where
  going := fun round => by rw [ended] at round; cases round
  clean := fun clean => by rw [ended] at clean; cases clean
  uninterrupted := fun here => by rw [here] at ended; cases ended

theorem Loop.Settles.atEnd (done : state = .completed ∧ completion = some w ∧
      loop'.log.ranOut = true) (ended : loop'.point.ending = some none) :
    loop'.Settles state w completion where
  going := fun round => by rw [ended] at round; cases round
  clean := fun _ => done
  uninterrupted := fun here => by rw [here] at ended; cases ended

theorem Loop.Settles.past (done : state = .completed ∧ completion = some w ∧ loop.log.ranOut = true)
    (same : loop'.log = loop.log) (ended : loop'.point.ending = some none) :
    loop'.Settles state w (recorded loop loop' w completion) := by
  have nothing : recorded loop loop' w completion = completion := by
    rw [recorded, if_neg]
    rintro ⟨notYet, _⟩
    rw [done.2.2] at notYet
    cases notYet
  rw [nothing]
  exact .atEnd ⟨done.1, done.2.1, by rw [same]; exact done.2.2⟩ ended

theorem LoopMoves.settles (moved : LoopMoves i c w loop action c' w' loop' woken)
    (settles : loop.Settles c.state w completion) :
    loop'.Settles c'.state w' (recorded loop loop' w' completion) := by
  cases moved with
  | register here | park here paused | check here running | reach here answer | enter here answer
  | advance here advanced | finish here advanced | fail here notDone | drain here | count here =>
    exact .round (settles.goes here rfl) rfl nofun
  | leave here notPaused notRunning =>
    exact absurd (settles.goes here rfl).1 notRunning
  | limitPanic here answer | panic here | record here | finalizeError here => exact .erring rfl
  | interrupt here done =>
    rw [(settles.goes here rfl).2.1] at done
    cases done
  | complete here =>
    have going : c.state = .running ∧ loop.cancelled = false ∧ loop.log.ranOut = false := by
      rcases here with here | here
      · exact settles.goes here rfl
      · exact settles.goes here rfl
    refine .atEnd ⟨?_, ?_, rfl⟩ rfl
    · rw [going.1]
      rfl
    · exact if_pos ⟨going.2.2, rfl⟩
  | halt here => exact absurd here settles.uninterrupted
  | finalize here =>
    obtain ⟨completed, world, ranOut⟩ := settles.cleanly here rfl
    exact .past ⟨by rw [completed]; rfl, world, ranOut⟩ rfl rfl
  | @release runErr here | @close runErr here =>
    cases runErr with
    | none => exact .past (settles.cleanly here rfl) rfl rfl
    | some detail => exact .erring rfl

theorem Loop.Settles.past_end {state' : State} (settles : loop.Settles state w completion)
    (ended : loop.point.ending ≠ none) (sameState : state = .completed → state' = .completed)
    (samePoint : loop'.point.ending = loop.point.ending)
    (sameRun : loop'.log.ranOut = loop.log.ranOut) :
    loop'.Settles state' w completion where
  going := fun round => absurd (samePoint.symm.trans round) ended
  clean := by
    intro clean
    obtain ⟨done, world, ranOut⟩ := settles.clean (samePoint.symm.trans clean)
    exact ⟨sameState done, world, by rw [sameRun]; exact ranOut⟩
  uninterrupted := by
    intro here
    rw [here] at samePoint
    exact ended samePoint.symm

end

namespace JobRun

variable {W : Type} {E : Executor W} {task : JobTask E} {j next : JobRun E}

def Vouched (task : JobTask E) (sim : Sim E) (result : JobResult) : Prop :=
  result.status = "completed" → (sim.loops 0).point.ending = some none ∧
    result.snapshot = task.capture sim.world

/-- The invariant of `RunJob`. -/
structure Truthful (task : JobTask E) (j : JobRun E) : Prop where
  fresh : j.point = .fresh → j.sim = .new task.initial ∧ j.cancelled = false
  settles : j.point ≠ .fresh → (j.sim.loops 0).Settles j.sim.control.state j.sim.world j.completion
  ran : ∀ runErr, j.point = .ran runErr → (j.sim.loops 0).point.ending = some runErr
  publishing : ∀ result, j.point = .publishing result → Vouched task j.sim result
  published : ∀ result, j.published = some result →
    (∃ error, j.point = .returned error) ∧ Vouched task j.sim result

theorem truthful_start : Truthful task (start task) where
  fresh := fun _ => ⟨rfl, rfl⟩
  settles := fun notFresh => absurd rfl notFresh
  ran := nofun
  publishing := nofun
  published := nofun

section

variable (truthful : Truthful task j)
include truthful

theorem Truthful.begin (stepped : j.step task .begin = some next) : Truthful task next := by
  rw [step] at stepped
  split at stepped
  · rename_i here
    obtain ⟨isNew, notCancelled⟩ := truthful.fresh here
    rw [isNew, notCancelled] at stepped
    cases stepped
    refine ⟨nofun, fun _ => ?_, nofun, nofun, ?_⟩
    · exact .round ⟨rfl, rfl, rfl⟩ rfl nofun
    · intro res published
      obtain ⟨⟨_, ret⟩, _⟩ := truthful.published res published
      rw [here] at ret
      cases ret
  · cases stepped

theorem Truthful.loop {action : LoopAction E} (stepped : j.step task (.loop action) = some next) :
    Truthful task next := by
  rw [step] at stepped
  split at stepped
  · rename_i here
    obtain ⟨sim, looped, rfl⟩ := map_eq_some_iff.mp stepped
    have settles := truthful.settles (by rw [here]; nofun)
    have moves : j.sim.Moves (.loop 0 action) sim := Sim.moves_of_step looped
    cases moves with
    | loop moved =>
      have after := moved.settles settles
      refine ⟨?_, fun _ => ?_, ?_, ?_, ?_⟩
      · intro fresh
        rw [here] at fresh
        cases fresh
      · simpa [recorded] using after
      · intro runErr ran
        rw [here] at ran
        cases ran
      · intro res publishing
        rw [here] at publishing
        cases publishing
      · intro res published
        obtain ⟨⟨_, ret⟩, _⟩ := truthful.published res published
        rw [here] at ret
        cases ret
  · cases stepped

theorem Truthful.aside {sim : Sim E} {cancelled : Bool} (notFresh : j.point ≠ .fresh)
    (settles : (sim.loops 0).Settles sim.control.state sim.world j.completion)
    (samePoint : (sim.loops 0).point.ending = (j.sim.loops 0).point.ending)
    (sameWorld : sim.world = j.sim.world) :
    Truthful task { j with sim := sim, cancelled := cancelled } where
  fresh := fun fresh => absurd fresh notFresh
  settles := fun _ => settles
  ran := fun runErr ran => samePoint.trans (truthful.ran runErr ran)
  publishing := by
    intro res publishing done
    obtain ⟨ended, snapshot⟩ := truthful.publishing res publishing done
    exact ⟨samePoint.trans ended, by rw [sameWorld]; exact snapshot⟩
  published := by
    intro res published
    obtain ⟨ret, vouched⟩ := truthful.published res published
    refine ⟨ret, ?_⟩
    intro done
    obtain ⟨ended, snapshot⟩ := vouched done
    exact ⟨samePoint.trans ended, by rw [sameWorld]; exact snapshot⟩

theorem Truthful.notFresh_of_watch
    (waiting : (j.sim.loops 0).watcher = .waiting) : j.point ≠ .fresh := by
  intro fresh
  rw [(truthful.fresh fresh).1] at waiting
  cases waiting

theorem Truthful.watch (step : j.step task .watch = some next) : Truthful task next := by
  obtain ⟨sim, watched, rfl⟩ := map_eq_some_iff.mp step
  have moves : j.sim.Moves (.watch 0) sim := Sim.moves_of_step watched
  cases moves with
  | watch waiting done =>
    have notFresh := truthful.notFresh_of_watch waiting
    have settles := truthful.settles notFresh
    have ended : (j.sim.loops 0).point.ending ≠ none := by
      intro round
      rw [(settles.going round).2.1] at done
      cases done
    have samePoint : (j.sim.wakeAll j.sim.control.state.isGoing
        0).point.ending = (j.sim.loops 0).point.ending := by
      unfold Sim.wakeAll
      split
      · exact LoopPoint.ending_wake _
      · rfl
    have sameLog : (j.sim.wakeAll j.sim.control.state.isGoing 0).log = (j.sim.loops 0).log := by
      unfold Sim.wakeAll
      split <;> rfl
    refine truthful.aside notFresh ?_ ?_ rfl
    · simp only [update_self]
      exact settles.past_end ended (fun completed => by rw [completed]; rfl)
        samePoint (congrArg _ sameLog)
    · simp only [update_self]
      exact samePoint

theorem Truthful.cancel (uncut : j.Uncut .cancel)
    (step : j.step task .cancel = some next) : Truthful task next := by
  cases step
  obtain ⟨notFresh, idle⟩ := uncut
  have settles := truthful.settles notFresh
  have ended : (j.sim.loops 0).point.ending ≠ none := fun round => idle (settles.going round).1
  unfold cancelRun Sim.cancelContext
  split
  · refine truthful.aside notFresh ?_ ?_ rfl
    · simp only [getD_some, update_self]
      exact settles.past_end ended (fun done => done) rfl rfl
    · simp only [getD_some, update_self]
      rfl
  · exact truthful.aside notFresh settles rfl rfl

theorem Truthful.goTo (notFresh : j.point ≠ .fresh)
    {point : JobPoint} (alsoNotFresh : point ≠ .fresh) (unpublished : j.published = none)
    (ran : ∀ runErr, point = .ran runErr → (j.sim.loops 0).point.ending = some runErr)
    (publishing : ∀ res, point = .publishing res → Vouched task j.sim res) :
    Truthful task { j with point := point } where
  fresh := fun fresh => absurd fresh alsoNotFresh
  settles := fun _ => truthful.settles notFresh
  ran := ran
  publishing := publishing
  published := by
    intro res published
    rw [unpublished] at published
    cases published

theorem Truthful.unpublished (notReturned : ∀ error, j.point ≠ .returned error) :
    j.published = none := by
  cases published : j.published with
  | none => rfl
  | some res =>
    obtain ⟨⟨error, ret⟩, _⟩ := truthful.published res published
    exact absurd ret (notReturned error)

theorem Truthful.leave (stepped : j.step task .leave = some next) : Truthful task next := by
  rw [step] at stepped
  split at stepped
  · rename_i runErr here closed
    cases stepped
    refine truthful.goTo (by rw [here]; nofun) nofun
      (truthful.unpublished (by rw [here]; nofun)) ?_ nofun
    intro other eq
    cases eq
    rw [closed]
    rfl
  · cases stepped

theorem Truthful.vouched {runErr : Option String} (here : j.point = .ran runErr) :
    Vouched task j.sim (result task j.sim runErr) := by
  intro done
  have ended := truthful.ran runErr here
  cases runErr with
  | some msg =>
    have failed : "failed" = "completed" := done
    exact absurd failed (by decide)
  | none =>
    refine ⟨ended, ?_⟩
    have settles := truthful.settles (by rw [here]; nofun)
    have checked : j.sim.check = .ok () := by
      rw [Sim.check, (settles.clean ended).1]
      rfl
    rw [result]
    dsimp only
    rw [checked]

theorem Truthful.capture (stepped : j.step task .capture = some next) : Truthful task next := by
  rw [step] at stepped
  split at stepped
  · rename_i runErr here
    cases stepped
    refine truthful.goTo (by rw [here]; nofun) nofun
      (truthful.unpublished (by rw [here]; nofun)) nofun ?_
    intro other eq
    cases eq
    exact truthful.vouched here
  · cases stepped

theorem Truthful.publish {error : Option String}
    (stepped : j.step task (.publish error) = some next) : Truthful task next := by
  rw [step] at stepped
  split at stepped
  · rename_i res here
    cases error with
    | none =>
      cases stepped
      refine ⟨nofun, fun _ => truthful.settles (by rw [here]; nofun), nofun, nofun, ?_⟩
      intro other eq
      cases eq
      exact ⟨⟨none, rfl⟩, truthful.publishing res here⟩
    | some msg =>
      cases stepped
      exact truthful.goTo (by rw [here]; nofun) nofun
        (truthful.unpublished (by rw [here]; nofun)) nofun nofun
  · cases stepped

theorem Truthful.step {action : JobAction E}
    (uncut : j.Uncut action) (step : j.step task action = some next) : Truthful task next := by
  cases action with
  | begin => exact truthful.begin step
  | loop action => exact truthful.loop step
  | watch => exact truthful.watch step
  | cancel => exact truthful.cancel uncut step
  | leave => exact truthful.leave step
  | capture => exact truthful.capture step
  | publish error => exact truthful.publish step

end

theorem completed_results_truthful (reachable : Reachable (fun j action => j.step task action) Uncut
      (start task) j) {result : JobResult} (published : j.published = some result)
    (completed : result.status = "completed") :
    j.sim.control.state = .completed ∧ (j.sim.loops 0).log.ranOut = true ∧
      ∃ world, j.completion = some world ∧ result.snapshot = task.capture world := by
  have truthful : Truthful task j := reachable.invariant truthful_start
    fun _ _ _ truthful uncut step => truthful.step uncut step
  obtain ⟨⟨error, ret⟩, vouched⟩ := truthful.published result published
  obtain ⟨ended, snapshot⟩ := vouched completed
  have settles := truthful.settles (by rw [ret]; nofun)
  obtain ⟨state, completion, ranOut⟩ := settles.clean ended
  exact ⟨state, ranOut, j.sim.world, completion, snapshot⟩

def spawnerTask : JobTask spawner :=
  ⟨"j", "s", (.new (World.sampleMetadata "spawner"), ()), .atSteps 1,
    fun (w, _) => some (toString w.entities.dense.length)⟩

def keepsContext : JobAction spawner → Bool
  | .cancel => false
  | _ => true

theorem uncut_of_keepsContext (j : JobRun spawner) (action : JobAction spawner)
    (keeps : keepsContext action = true) : j.Uncut action := by
  cases action with
  | cancel => cases keeps
  | _ => trivial

/-- The end of `RunJob` after its loop has left. -/
def finishJob : List (JobAction spawner) :=
  [.loop .finalize, .loop .release, .loop .close, .leave, .capture, .publish none]

theorem completed_results_truthful_spawner :
    ∃ j result, run (fun j action => step spawnerTask j action)
        (fun _ action => keepsContext action)
        ([.begin, .loop .register, .loop .look, .loop (.ask .no),
          .loop (.advance ()), .loop (.advance ()), .loop .handle,
          .loop .look, .loop (.ask .yes), .loop .settle] ++ finishJob)
        (start spawnerTask) = some j ∧ j.published = some result ∧ result.status = "completed" ∧
      result.snapshot = some "1" ∧ j.sim.control.state = .completed := by
  obtain ⟨j, result, ran, published, completed, snapshot⟩ :
      ∃ j result, run (fun j action => step spawnerTask j action)
          (fun _ action => keepsContext action)
          ([.begin, .loop .register, .loop .look, .loop (.ask .no),
            .loop (.advance ()), .loop (.advance ()), .loop .handle,
            .loop .look, .loop (.ask .yes), .loop .settle] ++ finishJob)
          (start spawnerTask) = some j ∧ j.published = some result ∧ result.status = "completed" ∧
        result.snapshot = some "1" := ⟨_, _, rfl, rfl, rfl, rfl⟩
  have reachable := (reachable_of_run ran).mono uncut_of_keepsContext
  exact ⟨j, result, ran, published, completed, snapshot,
    (completed_results_truthful reachable published completed).1⟩

theorem stopped_run_reported_completed :
    ∃ j result, run (fun j action => step spawnerTask j action) (fun _ _ => true)
        ([.begin, .loop .register, .cancel, .watch, .loop .look] ++ finishJob)
        (start spawnerTask) = some j ∧ j.published = some result ∧ result.status = "completed" ∧
      result.snapshot = some "0" ∧ j.sim.control.state = .stopped ∧ j.completion = none :=
  ⟨_, _, rfl, rfl, rfl, rfl, rfl, rfl⟩

end JobRun

end Simulator
