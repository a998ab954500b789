import Simulator.ShardCalls
import Simulator.TransitionRuns
import Simulator.WorldOperations

/-!
# Which error a failed tick reports

The first error sent to the channel is returned, and any error of the first failing
level can be the first.
-/

namespace Simulator

open Interleaving List Option Function ShardRun

namespace Scheduler

variable {G : GoTypes} {s : Scheduler G} {w : World G} {cache : Nat → EntitySet}
  {outcome : Nat → List (Option RunError)} {st next : RunState G}

structure Determined (s : Scheduler G) (w : World G) (cache : Nat → EntitySet)
    (outcome : Nat → List (Option RunError)) : Prop where
  shards : ∀ st, s.ReachesUncancelled (s.begin w cache) st →
    ∀ (idx : Nat) sys, s.systems[idx]? = some sys → st.runs[idx]? = some .pending →
      idx ∈ st.levels.headD [] →
      (shardsOf s.workers sys (entitySet st.world (st.cache idx) sys).ids).length =
        (outcome idx).length
  results : ∀ st, s.ReachesUncancelled (s.begin w cache) st →
    ∀ (idx : Nat) shards errors (j : Nat) result, st.runs[idx]? = some (.active shards errors) →
      shards[j]? = some (.running (.halt result)) → (outcome idx)[j]? = some result

def fails (outcome : Nat → List (Option RunError)) (level : List Nat) : Bool :=
  level.any fun idx => (outcome idx).any Option.isSome

theorem fails_iff {level : List Nat} :
    fails outcome level = true ↔ ∃ idx ∈ level, ∃ error, some error ∈ outcome idx := by
  simp [fails, isSome_iff_exists]

def Agreeing (s : Scheduler G) (outcome : Nat → List (Option RunError)) : Prop :=
  ∀ level, s.levels.find? (fails outcome) = some level →
    ∀ idx ∈ level, ∀ other ∈ level, ∀ error another,
      some error ∈ outcome idx → some another ∈ outcome other → error = another

def Reproducible (s : Scheduler G) (w : World G) (cache : Nat → EntitySet) : Prop :=
  ∀ st other result another, s.ReachesUncancelled (s.begin w cache) st → st.result = some result →
    s.ReachesUncancelled (s.begin w cache) other → other.result = some another → result = another

structure Reported (s : Scheduler G) (outcome : Nat → List (Option RunError))
    (st : RunState G) : Prop where
  passed : ∃ before, s.levels = before ++ st.levels ∧ ∀ level ∈ before, fails outcome level = false
  later : ∀ level ∈ st.levels.tail, ∀ idx ∈ level, st.runs[idx]? = some .pending
  active : ∀ (idx : Nat) shards errors, st.runs[idx]? = some (.active shards errors) →
    idx ∈ st.levels.headD [] ∧ shards.length = (outcome idx).length ∧
      (∀ (j : Nat) error, shards[j]? = some .returned →
        (outcome idx)[j]? = some (some error) → error ∈ errors) ∧
      ∀ error ∈ errors, some error ∈ outcome idx
  returned : ∀ idx ∈ st.levels.headD [], st.runs[idx]? = some .returned →
    ∀ error, some error ∈ outcome idx → st.errors ≠ []
  errors : ∀ error ∈ st.errors, ∃ idx ∈ st.levels.headD [], some error ∈ outcome idx
  failed : ∀ error, st.result = some (.error error) → error ∈ st.errors
  finished : st.result = some (.ok ()) → st.levels = []

theorem reported_begin (s : Scheduler G) (w : World G) (cache : Nat → EntitySet) :
    Reported s outcome (s.begin w cache) := by
  have isPending : ∀ (idx : Nat) run, (s.begin w cache).runs[idx]? = some run → run = .pending := by
    intro idx run held
    simp only [begin, getElem?_map] at held
    obtain ⟨_, _, rfl⟩ := map_eq_some_iff.mp held
    rfl
  refine ⟨⟨[], rfl, by simp⟩, fun level mem idx inLevel => ?_, ?_, ?_, by simp [begin],
    by rintro _ ⟨⟩, by rintro ⟨⟩⟩
  · have lt := (sized_begin s w cache).inRange level (mem_of_mem_tail mem) idx inLevel
    simp [begin, lt]
  · intro idx shards errors active
    cases isPending idx _ active
  · intro idx _ ret
    cases isPending idx _ ret

namespace Reported

variable {idx : Nat}

theorem set (reported : Reported s outcome st) {run : SystemRun G}
    (inLevel : idx ∈ st.levels.headD []) (runs : next.runs = st.runs.set idx run)
    (levels : next.levels = st.levels) (result : next.result = none) {more : List RunError}
    (sent : next.errors = st.errors ++ more) (own : ∀ error ∈ more, some error ∈ outcome idx)
    (active : ∀ shards errors, run = .active shards errors → shards.length = (outcome idx).length ∧
        (∀ (j : Nat) error, shards[j]? = some .returned →
          (outcome idx)[j]? = some (some error) → error ∈ errors) ∧
        ∀ error ∈ errors, some error ∈ outcome idx)
    (returned : run = .returned → ∀ error, some error ∈ outcome idx → next.errors ≠ []) :
    Reported s outcome next where
  passed := by rw [levels]; exact reported.passed
  later := by
    intro level member other inLater
    rw [levels] at member
    obtain ⟨before, split, _⟩ := reported.passed
    have different : idx ≠ other := by
      rintro rfl
      exact notMem_later split inLevel level member inLater
    rw [runs, getElem?_set_ne different]
    exact reported.later level member other inLater
  active := by
    intro other shards errors held
    rw [levels]
    rcases getElem?_set_cases (runs ▸ held) with ⟨rfl, isRun⟩ | ⟨_, before⟩
    · exact ⟨inLevel, active shards errors isRun.symm⟩
    · exact reported.active other shards errors before
  returned := by
    intro other member held error failing
    rw [levels] at member
    rcases getElem?_set_cases (runs ▸ held) with ⟨rfl, isRun⟩ | ⟨_, before⟩
    · exact returned isRun.symm error failing
    · have some := reported.returned other member before error failing
      simp [sent, some]
  errors := by
    intro error member
    rw [sent, mem_append] at member
    rw [levels]
    rcases member with old | new
    · exact reported.errors error old
    · exact ⟨idx, inLevel, own error new⟩
  failed := by rw [result]; nofun
  finished := by rw [result]; nofun

theorem start (reported : Reported s outcome st) {sys : System G}
    (running : st.result = none) (inLevel : idx ∈ st.levels.headD [])
    (shards : (shardsOf s.workers sys (entitySet st.world (st.cache idx) sys).ids).length =
      (outcome idx).length) :
    Reported s outcome { st with
      cache := update st.cache idx (entitySet st.world (st.cache idx) sys)
      runs := st.runs.set idx
        (launch s.workers sys (entitySet st.world (st.cache idx) sys).ids) } := by
  refine reported.set inLevel rfl rfl running (append_nil _).symm nofun ?_ ?_
  · intro runs errors began
    obtain ⟨rfl, rfl⟩ := launch_active began
    refine ⟨by rw [length_map, shards], fun j error held => ?_, nofun⟩
    rw [getElem?_map] at held
    obtain ⟨_, _, no⟩ := map_eq_some_iff.mp held
    unfold launchShard at no
    split at no <;> cases no
  · intro began error failing
    rw [launch_eq] at began
    split at began
    · rename_i none
      rw [none, length_nil, eq_comm, length_eq_zero_iff] at shards
      rw [shards] at failing
      cases failing
    · cases began

variable {shards : List (ShardRun G)} {errors : List RunError}

section

variable (reported : Reported s outcome st)
include reported

theorem shard (running : st.result = none) {j : Nat}
    {cur changed : ShardRun G} {error : Option RunError} {world : World G}
    (active : st.runs[idx]? = some (.active shards errors)) (held : shards[j]? = some cur)
    (moved : ShardMoves s false st.world shards cur changed error world)
    (res : ∀ e, cur = .running (.halt e) → (outcome idx)[j]? = some e) :
    Reported s outcome { st with
      world := world
      runs := st.runs.set idx (.active (shards.set j changed) (errors ++ error.toList)) } := by
  obtain ⟨inLevel, length, complete, sound⟩ := reported.active idx shards errors active
  refine reported.set inLevel rfl rfl running (append_nil _).symm nofun ?_ nofun
  rintro _ _ ⟨⟩
  have ended : changed = .returned → (outcome idx)[j]? = some error := by
    cases moved with
    | release => exact fun _ => res _ rfl
    | cancel _ done => cases done
    | _ => exact nofun
  have sentOwn : ∀ e ∈ error.toList, some e ∈ outcome idx := by
    intro e mem
    cases moved with
    | release =>
      rw [mem_toList] at mem
      exact mem_of_getElem? (mem ▸ res _ rfl)
    | cancel _ done => cases done
    | _ => cases mem
  refine ⟨by simpa using length, fun i e hit failing => ?_, fun e mem => ?_⟩
  · rcases getElem?_set_cases hit with ⟨rfl, isChanged⟩ | ⟨_, before⟩
    · rw [ended isChanged.symm, some.injEq] at failing
      simp [failing]
    · exact mem_append_left _ (complete i e before failing)
  · rcases mem_append.mp mem with old | new
    · exact sound e old
    · exact sentOwn e new

theorem join (running : st.result = none) (active : st.runs[idx]? = some (.active shards errors))
    (ret : ∀ shard ∈ shards, shard = .returned) :
    Reported s outcome { st with
      runs := st.runs.set idx .returned
      errors := st.errors ++ errors.head?.toList } := by
  obtain ⟨inLevel, length, complete, sound⟩ := reported.active idx shards errors active
  refine reported.set inLevel rfl rfl running rfl ?_ nofun ?_
  · intro error mem
    rw [mem_toList] at mem
    exact sound error (mem_of_head? mem)
  · intro _ error failing
    obtain ⟨j, hit⟩ := mem_iff_getElem?.mp failing
    have lt : j < shards.length := length ▸ (List.getElem?_eq_some_iff.mp hit).1
    have isReturned : shards[j]? = some .returned := by
      rw [getElem?_eq_getElem lt, ret _ (getElem_mem lt)]
    have mem := complete j error isReturned hit
    cases errors with
    | nil => cases mem
    | cons first others => simp

theorem nextLevel (running : st.result = none)
    {level : List Nat} {rest : List (List Nat)} (levels : st.levels = level :: rest)
    (returned : ∀ idx ∈ level, st.runs[idx]? = some .returned) (noError : st.errors = []) :
    Reported s outcome { st with levels := rest } where
  passed := by
    obtain ⟨before, split, none⟩ := reported.passed
    refine ⟨before ++ [level], by simp [split, levels], fun earlier member => ?_⟩
    rcases mem_append.mp member with old | new
    · exact none earlier old
    · rw [mem_singleton.mp new, ← Bool.not_eq_true, fails_iff]
      rintro ⟨idx, inLevel, error, failing⟩
      exact reported.returned idx (by rw [levels]; exact inLevel) (returned idx inLevel) error
        failing noError
  later := by
    intro later member
    refine reported.later later ?_
    rw [levels]
    exact mem_of_mem_tail member
  active := by
    intro idx shards errors held
    have inLevel := (reported.active idx shards errors held).1
    rw [levels] at inLevel
    cases (returned idx inLevel).symm.trans held
  returned := by
    intro idx member held
    cases rest with
    | nil => cases member
    | cons current others =>
      have pending := reported.later current (by rw [levels]; exact mem_cons_self) idx member
      cases pending.symm.trans held
  errors := by simp [noError]
  failed := by simp [running]
  finished := by simp [running]

theorem step (determined : Determined s w cache outcome)
    (reaches : s.ReachesUncancelled (s.begin w cache) st) (stepped : s.Step false st next) :
    Reported s outcome next := by
  obtain ⟨running, moved⟩ := moves_of_step stepped
  cases moved with
  | @start level rest idx sys levels mem system pending =>
    have inLevel : idx ∈ st.levels.headD [] := by rw [levels]; exact mem
    exact reported.start running inLevel
      (determined.shards st reaches idx sys system pending inLevel)
  | @shard idx j shards errors cur changed error world active held own =>
    refine reported.shard running active held own fun e halted => ?_
    exact determined.results st reaches idx shards errors j e active (halted ▸ held)
  | join active ret => exact reported.join running active ret
  | nextLevel levels ret noError =>
    exact reported.nextLevel running levels ret noError
  | fail levels ret someError =>
    refine { reported with failed := ?_, finished := nofun }
    rintro e ⟨⟩
    rw [someError]
    exact mem_cons_self
  | finish levels => exact { reported with failed := nofun, finished := fun _ => levels }

end

theorem reaches (determined : Determined s w cache outcome)
    (reaches : s.ReachesUncancelled (s.begin w cache) st) : Reported s outcome st := by
  induction reaches with
  | refl => exact reported_begin s w cache
  | tail old step ih => exact ih.step determined old step

end Reported

section

variable (determined : Determined s w cache outcome)
  (reaches : s.ReachesUncancelled (s.begin w cache) st)
include determined reaches

theorem located {error : RunError} (res : st.result = some (.error error)) :
    ∃ level, s.levels.find? (fails outcome) = some level ∧
      ∃ idx ∈ level, some error ∈ outcome idx := by
  have reported := Reported.reaches determined reaches
  obtain ⟨old, split, none⟩ := reported.passed
  obtain ⟨idx, inLevel, failing⟩ := reported.errors error (reported.failed error res)
  cases levels : st.levels with
  | nil =>
    rw [levels] at inLevel
    cases inLevel
  | cons level rest =>
    rw [levels] at inLevel split
    refine ⟨level, find?_eq_some_iff_append.mpr ⟨?_, old, rest, split, ?_⟩, idx, inLevel, failing⟩
    · exact fails_iff.mpr ⟨idx, inLevel, error, failing⟩
    · simpa using none

theorem find?_of_ok (res : st.result = some (.ok ())) : s.levels.find? (fails outcome) = none := by
  have reported := Reported.reaches determined reaches
  obtain ⟨old, split, none⟩ := reported.passed
  rw [reported.finished res, append_nil] at split
  rw [split, find?_eq_none]
  simpa using none

end

theorem reproducible_of_agreeing (determined : Determined s w cache outcome)
    (agreeing : s.Agreeing outcome) : s.Reproducible w cache := by
  intro st other res another reaches isResult otherReaches isAnother
  match res, another with
  | .ok (), .ok () => rfl
  | .ok (), .error _ =>
    obtain ⟨level, hit, _⟩ := located determined otherReaches isAnother
    cases hit.symm.trans (find?_of_ok determined reaches isResult)
  | .error _, .ok () =>
    obtain ⟨level, hit, _⟩ := located determined reaches isResult
    cases hit.symm.trans (find?_of_ok determined otherReaches isAnother)
  | .error error, .error otherError =>
    obtain ⟨level, hit, idx, inLevel, failing⟩ := located determined reaches isResult
    obtain ⟨_, foundAgain, otherIdx, otherIn, otherFailing⟩ :=
      located determined otherReaches isAnother
    cases hit.symm.trans foundAgain
    rw [agreeing level hit idx inLevel otherIdx otherIn error otherError failing otherFailing]

variable {level : List Nat} {idx : Nat} {rest : List (List Nat)} {error : RunError} {j : Nat}
  {sys : System G}

theorem enter_level (determined : Determined s w cache outcome) {old : List (List Nat)}
    (split : s.levels = old ++ level :: rest) (none : ∀ prior ∈ old, fails outcome prior = false) :
    ∃ st, s.ReachesUncancelled (s.begin w cache) st ∧ st.levels = level :: rest ∧
      st.errors = [] ∧ st.result = .none ∧ ∀ idx ∈ level, st.runs[idx]? = some .pending := by
  induction old using reverseRecOn generalizing level rest with
  | nil =>
    refine ⟨s.begin w cache, .refl, split, rfl, rfl, fun idx inLevel => ?_⟩
    have lt := (sized_begin s w cache).inRange level (by simp [begin, split]) idx inLevel
    simp [begin, lt]
  | append_singleton old last ih =>
    rw [append_assoc, singleton_append] at split
    obtain ⟨st, reaches, levels, -, running, -⟩ :=
      ih split fun prior mem => none prior (mem_append_left _ mem)
    clear ih
    induction st using (wellFounded_step s).induction with
    | _ st ih =>
      obtain ⟨next, step⟩ := exists_step ((sized_begin s w cache).reaches reaches.reaches) running
      have reported := Reported.reaches determined reaches
      have goOn := ih next ⟨false, step⟩ (reaches.tail step)
      cases (moves_of_step step).2 with
      | start | shard | join => exact goOn levels running
      | nextLevel cur ret noError =>
        cases cur.symm.trans levels
        exact ⟨_, reaches.tail step, rfl, noError, running,
          reported.later level (by rw [levels]; exact mem_cons_self)⟩
      | fail cur ret someError =>
        obtain ⟨idx, inLevel, failing⟩ := reported.errors _ (someError ▸ mem_cons_self)
        rw [levels] at inLevel
        change idx ∈ last at inLevel
        have fine := none last (mem_append_right _ (mem_singleton_self _))
        rw [fails_iff.mpr ⟨idx, inLevel, _, failing⟩] at fine
        cases fine
      | finish cur => cases cur.symm.trans levels

theorem fail_with (sized : Sized s st) (running : st.result = none)
    (levels : st.levels = level :: rest) (first : st.errors.head? = some error) :
    ∃ last, s.ReachesUncancelled st last ∧ last.result = some (.error error) := by
  induction st using (wellFounded_step s).induction with
  | _ st ih =>
    obtain ⟨next, step⟩ := exists_step sized running
    have moved := (moves_of_step step).2
    have goOn := ih next ⟨false, step⟩ (sized.step moved)
    have along : (next.result = none → next.levels = level :: rest →
        next.errors.head? = some error →
        ∃ last, s.ReachesUncancelled st last ∧ last.result = some (.error error)) := by
      intro running levels first
      obtain ⟨last, reaches, res⟩ := goOn running levels first
      exact ⟨last, .head step reaches, res⟩
    cases moved with
    | start | shard => exact along running levels first
    | join =>
      refine along running levels ?_
      rw [head?_append, first]
      rfl
    | nextLevel _ _ noError =>
      rw [noError] at first
      cases first
    | fail _ _ someError =>
      rw [someError] at first
      cases first
      exact ⟨_, .single step, rfl⟩
    | finish cur => cases cur.symm.trans levels

theorem start_running (sized : Sized s st) (running : st.result = none)
    (inLevel : idx ∈ st.levels.headD []) (system : s.systems[idx]? = some sys)
    (pending : st.runs[idx]? = some .pending)
    (lt : j < (shardsOf s.workers sys (entitySet st.world (st.cache idx) sys).ids).length) :
    ∃ next shards body, s.ReachesUncancelled st next ∧ next.levels = st.levels ∧
      next.errors = st.errors ∧ next.result = none ∧
      next.runs[idx]? = some (.active shards []) ∧ shards[j]? = some (.running body) := by
  obtain ⟨began, started, levels, errors, beganRunning, runs⟩ : ∃ began, s.Step false st began ∧
      began.levels = st.levels ∧ began.errors = st.errors ∧ began.result = none ∧
      began.runs[idx]? = some
        (launch s.workers sys (entitySet st.world (st.cache idx) sys).ids) := by
    refine ⟨{ st with
      cache := update st.cache idx (entitySet st.world (st.cache idx) sys)
      runs := st.runs.set idx _ }, ⟨.start idx, ?_⟩, rfl, rfl, running,
      List.getElem?_set_self (List.getElem?_eq_some_iff.mp pending).1⟩
    cases levels : st.levels with
    | nil =>
      rw [levels] at inLevel
      cases inLevel
    | cons level rest =>
      rw [levels] at inLevel
      simp_all [Scheduler.step, Scheduler.start]
  rw [launch_eq, if_neg (ne_nil_of_length_pos (Nat.zero_lt_of_lt lt))] at runs
  generalize shardsOf s.workers sys (entitySet st.world (st.cache idx) sys).ids = parts at *
  have held : (parts.map (launchShard sys parts.length))[j]? =
      some (launchShard sys parts.length parts[j]) := by
    rw [getElem?_map, getElem?_eq_getElem lt]
    rfl
  by_cases single : parts.length = 1
  · rw [launchShard, if_pos single] at held
    exact ⟨began, _, _, .single started, levels, errors, beganRunning, runs, held⟩
  · rw [launchShard, if_neg single] at held
    have workers := (sized.step (moves_of_step started).2).bounded idx _ _ _ runs
      (mem_of_getElem? held)
    have idle : (parts.map (launchShard sys parts.length)).countP isRunning = 0 := by
      simp [countP_eq_zero, launchShard, single, isRunning]
    have free : (parts.map (launchShard sys parts.length)).countP isRunning <
        s.workers.toNat := by omega
    obtain ⟨next, acquired, nextLevels, nextErrors, nextRunning, active⟩ :=
      exists_step_of_shardMoves beganRunning runs held (.acquire _ free)
    exact ⟨next, _, _, .tail (.single started) acquired, nextLevels.trans levels,
      nextErrors.trans errors, nextRunning, active,
      List.getElem?_set_self (List.getElem?_eq_some_iff.mp held).1⟩

variable {shards : List (ShardRun G)} {errors : List RunError}

theorem reaches_halt (body : Process (World G) (Option RunError)) (running : st.result = none)
    (active : st.runs[idx]? = some (.active shards errors))
    (held : shards[j]? = some (.running body)) :
    ∃ mid ended res, s.ReachesUncancelled st mid ∧ mid.levels = st.levels ∧
      mid.errors = st.errors ∧ mid.result = none ∧
      mid.runs[idx]? = some (.active ended errors) ∧ ended[j]? = some (.running (.halt res)) := by
  induction body generalizing st shards with
  | halt res => exact ⟨st, shards, res, .refl, rfl, rfl, running, active, held⟩
  | act effect rest ih =>
    obtain ⟨next, step, levels, errors, stillRunning, nextActive⟩ :=
      exists_step_of_shardMoves running active held (.act effect rest)
    rw [toList_none, append_nil] at nextActive
    obtain ⟨mid, ended, res, reaches, midLevels, midErrors, after⟩ := ih st.world stillRunning
      nextActive (List.getElem?_set_self (List.getElem?_eq_some_iff.mp held).1)
    exact ⟨mid, ended, res, .head step reaches, midLevels.trans levels,
      midErrors.trans errors, after⟩

theorem drain (sized : Sized s st) (running : st.result = none)
    (active : st.runs[idx]? = some (.active shards errors)) (sent : errors.head? = some error) :
    ∃ last, s.ReachesUncancelled st last ∧ last.levels = st.levels ∧ last.result = none ∧
      last.errors = st.errors ++ [error] := by
  induction st using (wellFounded_step s).induction generalizing shards errors with
  | _ st ih =>
    rcases exists_shardMoves sized active with ret | ⟨j, _, _, _, _, held, moved⟩
    · refine ⟨_, .single (step_of_returned running active ret), rfl, running, ?_⟩
      rw [sent]
      rfl
    · obtain ⟨next, step, levels, errors, stillRunning, nextActive⟩ :=
        exists_step_of_shardMoves running active held moved
      rw [← levels, ← errors]
      obtain ⟨last, reaches, after⟩ := ih next ⟨false, step⟩
        (sized.step (moves_of_step step).2) stillRunning nextActive
        (by rw [head?_append, sent]; rfl)
      exact ⟨last, .head step reaches, after⟩

theorem exists_run_with (determined : Determined s w cache outcome)
    (hit : s.levels.find? (fails outcome) = some level) (inLevel : idx ∈ level)
    (failing : some error ∈ outcome idx) :
    ∃ st, s.ReachesUncancelled (s.begin w cache) st ∧ st.result = some (.error error) := by
  obtain ⟨_, old, rest, split, none⟩ := find?_eq_some_iff_append.mp hit
  obtain ⟨st, entered, levels, noErrors, running, pending⟩ :=
    enter_level determined split (by simpa using none)
  have sized := (sized_begin s w cache).reaches entered.reaches
  have inRange := sized.inRange level (by rw [levels]; exact mem_cons_self) idx inLevel
  have system := getElem?_eq_getElem inRange
  have atHead : idx ∈ st.levels.headD [] := by rw [levels]; exact inLevel
  have count := determined.shards st entered idx _ system (pending idx inLevel) atHead
  obtain ⟨j, res⟩ := mem_iff_getElem?.mp failing
  -- the chosen shard is the first to end, and its system the first to return
  obtain ⟨began, _, body, started, beganLevels, beganErrors, beganRunning, beganActive, beganHeld⟩ :=
    start_running sized running atHead system (pending idx inLevel)
      (count ▸ (List.getElem?_eq_some_iff.mp res).1)
  obtain ⟨mid, ended, sent, first, midLevels, midErrors, midRunning, active, held⟩ :=
    reaches_halt body beganRunning beganActive beganHeld
  have reached := (entered.trans started).trans first
  have isError := determined.results mid reached idx ended [] j sent active held
  rw [res, some.injEq] at isError
  subst isError
  obtain ⟨next, released, nextLevels, nextErrors, nextRunning, nextActive⟩ :=
    exists_step_of_shardMoves midRunning active held (.release (some error))
  have nextReached : s.ReachesUncancelled _ next := reached.tail released
  obtain ⟨last, drained, lastLevels, lastRunning, lastErrors⟩ :=
    drain ((sized_begin s w cache).reaches nextReached.reaches) nextRunning nextActive rfl
  have lastReached : s.ReachesUncancelled _ last := nextReached.trans drained
  obtain ⟨final, failed, finalResult⟩ :=
    fail_with ((sized_begin s w cache).reaches lastReached.reaches) lastRunning
      (by rw [lastLevels, nextLevels, midLevels, beganLevels, levels])
      (by rw [lastErrors, nextErrors, midErrors, beganErrors, noErrors]; rfl)
  exact ⟨final, lastReached.trans failed, finalResult⟩

theorem error_reproducible_iff (determined : Determined s w cache outcome) :
    s.Reproducible w cache ↔ s.Agreeing outcome := by
  refine ⟨?_, reproducible_of_agreeing determined⟩
  intro reproducible level hit idx inLevel other otherIn error another failing otherFailing
  obtain ⟨st, reaches, res⟩ := exists_run_with determined hit inLevel failing
  obtain ⟨st', reaches', result'⟩ := exists_run_with determined hit otherIn otherFailing
  cases reproducible st st' _ _ reaches res reaches' result'
  rfl

def shardsAt (s : Scheduler G) (w : World G) (cache : Nat → EntitySet) (idx : Nat) :
    List (List EntityID) :=
  (s.systems[idx]?).elim [] fun sys => shardsOf s.workers sys (entitySet w (cache idx) sys).ids

structure Halting (s : Scheduler G) (w : World G) (cache : Nat → EntitySet)
    (result : Nat → List EntityID → Option RunError) (st : RunState G) : Prop where
  world : st.world = w
  cached : ∀ idx : Nat, st.runs[idx]? = some .pending → st.cache idx = cache idx
  bodies : ∀ (idx : Nat) shards errors, st.runs[idx]? = some (.active shards errors) →
    ∀ (j : Nat) body, shards[j]? = some (.waiting body) ∨ shards[j]? = some (.running body) →
      ∃ shard, (s.shardsAt w cache idx)[j]? = some shard ∧ body = .halt (result idx shard)

theorem Halting.set {res : Nat → List EntityID → Option RunError}
    (halting : Halting s w cache res st) {run : SystemRun G}
    (world : next.world = st.world) (runs : next.runs = st.runs.set idx run)
    (eq : ∀ other ≠ idx, next.cache other = st.cache other) (started : run ≠ .pending)
    (bodies : ∀ shards errors, run = .active shards errors → ∀ (j : Nat) body,
      shards[j]? = some (.waiting body) ∨ shards[j]? = some (.running body) →
        ∃ shard, (s.shardsAt w cache idx)[j]? = some shard ∧ body = .halt (res idx shard)) :
    Halting s w cache res next := by
  refine ⟨world.trans halting.world, fun other pending => ?_, fun other shards errors active => ?_⟩
  · rcases getElem?_set_cases (runs ▸ pending) with ⟨_, isRun⟩ | ⟨ne, old⟩
    · exact absurd isRun.symm started
    · exact (eq other ne).trans (halting.cached other old)
  · rcases getElem?_set_cases (runs ▸ active) with ⟨rfl, isRun⟩ | ⟨_, old⟩
    · exact bodies shards errors isRun.symm
    · exact halting.bodies other shards errors old

theorem launch_bodies {workers : Int} {es : List EntityID}
    (began : launch workers sys es = .active shards errors)
    {body : Process (World G) (Option RunError)}
    (held : shards[j]? = some (.waiting body) ∨ shards[j]? = some (.running body)) :
    ∃ shard, (shardsOf workers sys es)[j]? = some shard ∧ body = sys.run shard := by
  obtain ⟨rfl, -⟩ := launch_active began
  simp only [getElem?_map, map_eq_some_iff] at held
  unfold launchShard at held
  rcases held with ⟨shard, hit, eq⟩ | ⟨shard, hit, eq⟩
  all_goals
    split at eq <;> cases eq
    exact ⟨shard, hit, rfl⟩

theorem determined_of_halts (res : Nat → List EntityID → Option RunError)
    (halts : ∀ (idx : Nat) sys, s.systems[idx]? = some sys →
      ∀ shard, sys.run shard = .halt (res idx shard)) (w : World G) (cache : Nat → EntitySet) :
    Determined s w cache fun idx => (s.shardsAt w cache idx).map (res idx) := by
  have halting : ∀ st, s.ReachesUncancelled (s.begin w cache) st →
      Halting s w cache res st := by
    intro st reaches
    induction reaches with
    | refl =>
      refine ⟨rfl, fun _ _ => rfl, fun idx shards errors active => ?_⟩
      simp only [begin, getElem?_map] at active
      obtain ⟨_, _, no⟩ := map_eq_some_iff.mp active
      cases no
    | @tail st next _ step ih =>
      cases (moves_of_step step).2 with
      | @start level rest idx sys levels mem system pending =>
        refine ih.set rfl rfl (fun _ ne => update_of_ne ne _ _) launch_ne_pending ?_
        intro shards errors began j body held
        obtain ⟨shard, hit, rfl⟩ := launch_bodies began held
        refine ⟨shard, ?_, halts idx sys system shard⟩
        simpa [shardsAt, system, ← ih.world, ← ih.cached idx pending] using hit
      | @shard idx j shards errors cur changed error world active held own =>
        have bodies := ih.bodies idx shards errors active
        have kept : world = st.world := by
          cases own with
          | act effect rest =>
            obtain ⟨_, _, no⟩ := bodies j _ (.inr held)
            cases no
          | _ => rfl
        refine ih.set kept rfl (fun _ _ => rfl) (by rintro ⟨⟩) ?_
        rintro _ _ ⟨⟩ i body hit
        rcases hit with hit | hit
        all_goals rcases getElem?_set_cases hit with ⟨rfl, isChanged⟩ | ⟨_, old⟩
        · subst isChanged
          cases own
        · exact bodies i body (.inl old)
        · subst isChanged
          cases own with
          | acquire => exact bodies i body (.inl held)
          | act effect rest =>
            obtain ⟨_, _, no⟩ := bodies i _ (.inr held)
            cases no
        · exact bodies i body (.inr old)
      | join => exact ih.set rfl rfl (fun _ _ => rfl) (by rintro ⟨⟩) (by rintro _ _ ⟨⟩)
      | _ => exact ⟨ih.world, ih.cached, ih.bodies⟩
  constructor
  · intro st reaches idx sys system pending _
    have known := halting st reaches
    simp [shardsAt, system, known.world, known.cached idx pending]
  · intro st reaches idx shards errors j e active held
    obtain ⟨shard, hit, eq⟩ := (halting st reaches).bodies idx shards errors active j _ (.inr held)
    cases eq
    simp [hit]

def pairScheduler (result : Option EntityID → RunError) : Scheduler flagTypes :=
  ⟨2, [⟨[], [], false, fun shard => .halt (some (result shard.head?))⟩]⟩

def pairWorld : World flagTypes :=
  World.sampleWorld "a" [.create, .create]

def twins : Scheduler flagTypes :=
  pairScheduler fun _ => .failed "boom"

def rivals : Scheduler flagTypes :=
  pairScheduler fun first => .failed (if first = some ⟨1⟩ then "a" else "b")

theorem error_reproducible_iff_twins :
    ∃ outcome, Determined twins pairWorld newCache outcome ∧
      (twins.Reproducible pairWorld newCache ↔ twins.Agreeing outcome) := by
  have determined : Determined twins pairWorld newCache _ :=
    determined_of_halts (fun _ _ => some (.failed "boom")) (fun idx sys system shard => by
        rw [mem_singleton.mp (mem_of_getElem? system)]) pairWorld newCache
  exact ⟨_, determined, error_reproducible_iff determined⟩

theorem error_varies :
    ∃ st other, Transition.last (rivals.step false)
        [.start 0, .acquire 0 0, .acquire 0 1, .release 0 0, .release 0 1, .join 0, .advance]
        (rivals.begin pairWorld newCache) = some st ∧ Transition.last (rivals.step false)
        [.start 0, .acquire 0 0, .acquire 0 1, .release 0 1, .release 0 0, .join 0, .advance]
        (rivals.begin pairWorld newCache) = some other ∧
      st.result = some (.error (.failed "a")) ∧ other.result = some (.error (.failed "b")) :=
  ⟨_, _, rfl, rfl, rfl, rfl⟩

end Scheduler

end Simulator
