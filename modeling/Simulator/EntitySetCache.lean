import Simulator.RestoreAtomicity
import Simulator.SchedulerRefinement
import Simulator.TransitionRuns
import Simulator.WorldMembership

/-!
# The cached entity sets

An entity set is kept with the revision it was computed at, and a restore that fails
half way does not count the revision up.
-/

namespace Simulator

open List Option Function World ComponentStore EntityManager

variable {G : GoTypes}

open FirstFailure

structure CachedWorld (G : GoTypes) where
  world : World G
  cache : Nat → EntitySet

inductive CacheMove (G : GoTypes)
  | operation (op : Operation G)
  | setShard (t : G.Ty) (id : ComponentID) (e : EntityID) (v : G.Value t)
  | restore (s : Snapshot)
  | lookup (idx : Nat)

namespace CachedWorld

def new (metadata : Metadata) : CachedWorld G :=
  ⟨.new metadata, newCache⟩

/-- Make a move; `none` is a panic.  The error of a restore is left to the
caller. -/
def step (hash : Snapshot → String) (sortSlice : SortSlice (Event G))
    (systems : List (System G)) (st : CachedWorld G) :
    CacheMove G → Option (CachedWorld G)
  | .operation op => (st.world.run sortSlice op).map fun ran =>
    { st with world := ran.2 }
  | .setShard t id e v => some { st with
      world := st.world.setShard t id e v }
  | .restore s => (st.world.restore hash s).map fun ended =>
    { st with world := ended.1 }
  | .lookup idx => (systems[idx]?).map fun sys =>
    { st with
      cache := Function.update st.cache idx (entitySet st.world (st.cache idx) sys) }

end CachedWorld

namespace World

def Loads (w : World G) (s : Snapshot) : Prop :=
  w.componentsFail s = false ∧ w.resourcesFail s = false ∧ w.eventsFail s = false

def MembersAgree (w : World G) (s : Snapshot) : Prop :=
  s.entities.dense = w.entities.ids ∧
  ∀ id column, (loaded (ComponentStore.restoreOne w.components.byName w.components.cols)
      s.components).reverse.lookup id = some column → column.2.entityIDs = w.components.entities id

theorem entities_restored (s : ComponentStore G) (snaps : List ComponentSnapshot)
    (agree : ∀ id col, (loaded (restoreOne s.byName s.cols)
        snaps).reverse.lookup id = some col → col.2.entityIDs = s.entities id) (id : ComponentID) :
    (s.restore snaps).1.entities id = s.entities id := by
  have wrote : (s.restore snaps).1.cols id = ((loaded (restoreOne s.byName s.cols)
        snaps).reverse.lookup id).or (s.cols id) := by
    rw [← foldl_write]
    simp only [ComponentStore.restore, ComponentStore.restoreFrom_eq]
  cases last : (loaded (restoreOne s.byName s.cols) snaps).reverse.lookup id with
  | none =>
    rw [last, none_or] at wrote
    simp only [ComponentStore.entities, wrote]
  | some col =>
    rw [last, some_or] at wrote
    rw [← agree id col last, ComponentStore.entities, wrote]

theorem restore_revision {hash : Snapshot → String} {w after : World G}
    {s : Snapshot} {outcome : Option WorldError}
    (restored : w.restore hash s = some (after, outcome)) :
    ((∃ cause, w.accepts hash s = .error cause) ∧ after = w) ∨
    (Loads w s ∧ after.revision = w.revision + 1) ∨ (¬Loads w s ∧ after.revision = w.revision ∧
      (MembersAgree w s → SameMembers w after)) := by
  rcases restore_cases restored with ⟨cause, rejected, sameWorld, _⟩ |
      ⟨mode, entities, _, replaced, rest⟩
  · exact .inl ⟨⟨cause, rejected⟩, sameWorld⟩
  right
  have sameIds : s.entities.dense = entities.ids := (congrArg EntityManagerState.dense
      (snapshot_of_restore replaced)).symm
  -- wherever the restore is cut short, these are the memberships it leaves
  have agrees : ∀ cut : World G, cut.entities = entities →
      cut.components = (w.components.restore s.components).1 →
      MembersAgree w s → SameMembers w cut := by
    rintro cut entitiesEq componentsEq ⟨denseEq, columns⟩
    constructor
    · rw [entitiesEq, ← denseEq, sameIds]
    · intro id
      rw [componentsEq, entities_restored _ _ columns]
  simp only [Loads, componentsFail_eq, resourcesFail_eq, eventsFail_eq]
  rcases restoreComponents_cases { w with entities := entities } s mode with
    ⟨cause, failed, ended⟩ | ⟨_, cause, failed, ended⟩ |
    ⟨_, _, cause, failed, ended⟩ | ⟨components, resources, events, ended⟩
  all_goals rw [ended] at rest
  all_goals cases rest
  · exact .inr ⟨by simp [failed], rfl, agrees _ rfl rfl⟩
  · exact .inr ⟨by simp [failed], rfl, agrees _ rfl rfl⟩
  · exact .inr ⟨by simp [failed], rfl, agrees _ rfl rfl⟩
  · exact .inl ⟨by simp [components, resources, events], rfl⟩

variable {first second : World G}

theorem SameFrame.sameMembers (eq : SameFrame first second) : SameMembers first second := by
  refine ⟨?_, eq.entities_eq⟩
  have es : first.withoutColumns.entities =
      second.withoutColumns.entities := by rw [eq.1]
  exact congrArg ids es

theorem SameFrame.revision_eq (eq : SameFrame first second) : first.revision = second.revision := by
  have revisions : first.withoutColumns.revision =
      second.withoutColumns.revision := by rw [eq.1]
  exact revisions

end World

namespace CachedWorld

variable {hash : Snapshot → String} {sortSlice : SortSlice (Event G)} {systems : List (System G)}

def Invalidates (hash : Snapshot → String) (systems : List (System G))
    (st : CachedWorld G) : CacheMove G → Prop
  | .operation _ => st.world.revision.toNat + 1 < 2 ^ 64
  | .restore s => st.world.revision.toNat + 1 < 2 ^ 64 ∧
      ((∃ cause, st.world.accepts hash s = .error cause) ∨
        st.world.Loads s ∨ st.world.MembersAgree s ∨ ∀ idx sys, systems[idx]? = some sys →
          (st.cache idx).rev ≠ st.world.revision)
  | _ => True

structure Fresh (systems : List (System G)) (st : CachedWorld G) :
    Prop where
  current : ∀ (idx : Nat) (sys : System G), systems[idx]? = some sys →
    (st.cache idx).rev = st.world.revision → (st.cache idx).ids = systemEntities st.world sys
  past : ∀ (idx : Nat) (sys : System G), systems[idx]? = some sys →
    (st.cache idx).rev.toNat ≤ st.world.revision.toNat

theorem fresh_new (metadata : Metadata) :
    Fresh systems (new metadata : CachedWorld G) where
  current := by
    intro idx sys _ _
    exact (systemEntities_new metadata sys).symm
  past := by
    intro idx sys _
    exact Nat.le_refl _

variable {st : CachedWorld G} {idx : Nat} {sys : System G} {after : World G}

section

variable (fresh : st.Fresh systems)
include fresh

theorem Fresh.entitySet_ids (hit : systems[idx]? = some sys) :
    (entitySet st.world (st.cache idx) sys).ids = systemEntities st.world sys := by
  unfold entitySet
  split
  · rename_i eq
    exact fresh.current idx sys hit eq
  · rfl

theorem Fresh.sameMembers (revisionEq : after.revision =
      st.world.revision) (eq : World.SameMembers st.world after) :
    Fresh systems { st with world := after } where
  current := by
    intro idx sys hit sameRevision
    simp only [revisionEq] at sameRevision
    rw [fresh.current idx sys hit sameRevision, eq.systemEntities_eq sys]
  past := by
    intro idx sys hit
    simp only [revisionEq]
    exact fresh.past idx sys hit

theorem Fresh.bumped (revisionEq : after.revision = st.world.revision + 1)
    (room : st.world.revision.toNat + 1 < 2 ^ 64) : Fresh systems { st with world := after } := by
  have later : after.revision.toNat = st.world.revision.toNat + 1 := by
    rw [revisionEq, UInt64.toNat_add]
    simp
    omega
  constructor
  · intro idx sys hit sameRevision
    have past := fresh.past idx sys hit
    rw [sameRevision] at past
    simp only at past
    omega
  · intro idx sys hit
    have past := fresh.past idx sys hit
    simp only
    omega

theorem Fresh.lookup (hit : systems[idx]? = some sys) :
    Fresh systems { st with
      cache := update st.cache idx (entitySet st.world (st.cache idx) sys) } := by
  have setRevision : (entitySet st.world (st.cache idx) sys).rev =
      st.world.revision := by
    unfold entitySet
    split
    · assumption
    · rfl
  constructor
  · intro other otherSys otherFound sameRevision
    by_cases here : other = idx
    · subst here
      rw [hit] at otherFound
      cases otherFound
      simp only [update_self]
      exact fresh.entitySet_ids hit
    · simp only [update_of_ne here] at sameRevision ⊢
      exact fresh.current other otherSys otherFound sameRevision
  · intro other otherSys otherFound
    by_cases here : other = idx
    · subst here
      simp only [update_self, setRevision, Nat.le_refl]
    · simp only [update_of_ne here]
      exact fresh.past other otherSys otherFound

theorem Fresh.step {next : CachedWorld G} {move : CacheMove G} (allows : st.Invalidates hash systems move)
    (step : st.step hash sortSlice systems move = some next) : next.Fresh systems := by
  cases move with
  | operation op =>
    obtain ⟨⟨reply, after⟩, ran, rfl⟩ := map_eq_some_iff.mp step
    rcases run_members ran with ⟨revisionEq, eq⟩ | bumped
    · exact fresh.sameMembers revisionEq eq
    · exact fresh.bumped bumped allows
  | setShard t id e v =>
    cases step
    have frame := (setShard_spec t id e v st.world).1
    exact fresh.sameMembers frame.revision_eq.symm frame.sameMembers
  | restore s =>
    obtain ⟨⟨after, out⟩, back, rfl⟩ := map_eq_some_iff.mp step
    obtain ⟨room, harmless⟩ := allows
    rcases restore_revision back with ⟨_, sameWorld⟩ | ⟨_, bumped⟩ | ⟨cut, revisionEq, sameMembers⟩
    · rw [sameWorld]
      exact fresh
    · exact fresh.bumped bumped room
    · rcases harmless with ⟨cause, rejected⟩ | loads | agree | noneCurrent
      · have kept : after = st.world := by
          unfold World.restore at back
          rw [rejected] at back
          cases back
          rfl
        rw [kept]
        exact fresh
      · exact (cut loads).elim
      · exact fresh.sameMembers revisionEq (sameMembers agree)
      · constructor
        · intro idx sys hit sameRevision
          simp only [revisionEq] at sameRevision
          exact (noneCurrent idx sys hit sameRevision).elim
        · intro idx sys hit
          simp only [revisionEq]
          exact fresh.past idx sys hit
  | lookup idx =>
    obtain ⟨sys, hit, rfl⟩ := map_eq_some_iff.mp step
    exact fresh.lookup hit

end

theorem entitySet_fresh {metadata : Metadata} {st : CachedWorld G}
    (reachable : Transition.Reachable (step hash sortSlice systems)
      (Invalidates hash systems) (new metadata) st)
    {idx : Nat} {sys : System G} (found : systems[idx]? = some sys) :
    (entitySet st.world (st.cache idx) sys).ids = systemEntities st.world sys := by
  have fresh : st.Fresh systems := reachable.invariant (fresh_new metadata)
      fun _ _ _ old allows stepped => old.step allows stepped
  exact fresh.entitySet_ids found

def idleSystem : System flagTypes :=
  ⟨[], [], false, fun _ => .halt none⟩

def emptySnapshot : Snapshot :=
  (World.new (World.sampleMetadata "a") : World flagTypes).capture [] [] ⟨[], 0, 0⟩

theorem entitySet_fresh_restored :
    ∃ st, Transition.last (step (fun _ => "") (fun _ events => events) [idleSystem])
        [.operation .create, .lookup 0, .restore emptySnapshot]
        (new (World.sampleMetadata "a")) = some st ∧
      (entitySet st.world (st.cache 0) idleSystem).ids = systemEntities st.world idleSystem := by
  obtain ⟨st, ends, reachable⟩ : ∃ st, Transition.last
          (step (fun _ => "") (fun _ events => events) [idleSystem])
          [.operation .create, .lookup 0, .restore emptySnapshot]
          (new (sampleMetadata "a")) = some st ∧ Transition.Reachable
          (step (fun _ => "") (fun _ events => events) [idleSystem])
          (Invalidates (fun _ => "") [idleSystem]) (new (sampleMetadata "a")) st :=
    ⟨_, rfl, Transition.Reachable.take (Transition.Reachable.take
      (Transition.Reachable.take .start (.operation .create)
        (by decide : (0 : UInt64).toNat + 1 < 2 ^ 64) rfl)
      (.lookup 0) trivial rfl) (.restore emptySnapshot)
      ⟨by decide, .inr (.inl ⟨rfl, rfl, rfl⟩)⟩ rfl⟩
  exact ⟨st, ends, entitySet_fresh reachable rfl⟩

theorem cached_set_stale :
    ∃ st after, Transition.last (step (fun _ => "") (fun _ events => events) [idleSystem])
        [.operation .create, .lookup 0] (new (World.sampleMetadata "a")) = some st ∧
      st.world.restore (fun _ => "") ghostSnapshot =
        some (after, some (.component (.unknown "ghost"))) ∧
      (entitySet after (st.cache 0) idleSystem).ids = [EntityID.ofParts 0 1] ∧
      systemEntities after idleSystem = [] :=
  ⟨_, _, rfl, rfl, rfl, rfl⟩

end CachedWorld

def EngineAct (sortSlice : SortSlice (Event G)) (w after : World G) : Prop :=
  after = w ∨ (∃ op reply, w.run sortSlice op = some (reply, after)) ∨
    ∃ t id e v, after = w.setShard t id e v

def ByEngine (sortSlice : SortSlice (Event G)) :
    Interleaving.Process (World G) (Option RunError) → Prop
  | .halt _ => True
  | .act effect rest => (∀ w, EngineAct sortSlice w (effect w)) ∧ ∀ w, ByEngine sortSlice (rest w)

namespace Scheduler

variable {hash : Snapshot → String} {sortSlice : SortSlice (Event G)} {s : Scheduler G}

def AllByEngine (sortSlice : SortSlice (Event G)) (st : RunState G) : Prop :=
  ∀ (idx : Nat) shards errors, st.runs[idx]? = some (.active shards errors) →
    ∀ shard ∈ shards, ByEngine sortSlice shard.body

variable {st next : RunState G}

theorem AllByEngine.set {idx : Nat}
    {run : SystemRun G} (all : AllByEngine sortSlice st) (runsEq : next.runs = st.runs.set idx run)
    (own : ∀ shards errs, run = .active shards errs →
      ∀ shard ∈ shards, ByEngine sortSlice shard.body) : AllByEngine sortSlice next := by
  intro other shards errs active
  rw [runsEq, getElem?_set] at active
  split at active
  · split at active
    · cases active
      exact own shards errs rfl
    · cases active
  · exact all other shards errs active

theorem byEngine_launch {sys : System G}
    (bodies : ∀ shard, ByEngine sortSlice (sys.run shard)) (workers : Int)
    (es : List EntityID) (shards : List (ShardRun G)) (errs : List RunError)
    (began : launch workers sys es = .active shards errs) :
    ∀ shard ∈ shards, ByEngine sortSlice shard.body := by
  intro shard mem
  rcases launch_cases workers sys es with ⟨_, ret⟩ | ⟨started, active, bodiesEq⟩
  · rw [ret] at began
    cases began
  · rw [active] at began
    cases began
    have body : shard.body ∈ shards.map ShardRun.body := mem_map_of_mem mem
    rw [bodiesEq, List.mem_map] at body
    obtain ⟨entitiesOf, _, bodyEq⟩ := body
    rw [← bodyEq]
    exact bodies entitiesOf

theorem byEngine_shard {cancelled : Bool} {w world : World G}
    {shards : List (ShardRun G)} {cur next : ShardRun G}
    {error : Option RunError} (cache : Nat → EntitySet) (engine : ByEngine sortSlice cur.body)
    (moved : ShardMoves s cancelled w shards cur next error world) :
    ByEngine sortSlice next.body ∧ Transition.Reachable (CachedWorld.step hash sortSlice s.systems)
        (fun _ _ => True) ⟨w, cache⟩ ⟨world, cache⟩ := by
  cases moved with
  | acquire body free => exact ⟨engine, .start⟩
  | cancel body done | release error => exact ⟨trivial, .start⟩
  | act effect rest =>
    refine ⟨engine.2 w, ?_⟩
    rcases engine.1 w with eq | ⟨op, reply, ran⟩ | ⟨t, id, e, v, wrote⟩
    · rw [eq]
      exact .start
    · refine Transition.Reachable.start.take (.operation op) trivial ?_
      simp [CachedWorld.step, ran]
    · refine Transition.Reachable.start.take (.setShard t id e v) trivial ?_
      simp [CachedWorld.step, wrote]

end Scheduler

end Simulator
