import Simulator.WorldRestore

/-!
# Snapshots are transparent

`Alike` worlds give the same result for every operation and stay alike.
-/

namespace Simulator

variable {G : GoTypes}

namespace World

open ComponentStore List Function AList

structure Alike (first second : World G) : Prop where
  entities : first.entities = second.entities
  names : first.components.names = second.components.names
  columns : ∀ id, AlikeColumns (first.components.cols id) (second.components.cols id)
  resources : ∀ t, first.resources.getResource t = second.resources.getResource t
  tags : first.tags = second.tags
  tagStore : first.tagStore = second.tagStore
  events : first.events = second.events
  clock : first.clock = second.clock

namespace Alike

variable {first second : World G}

section

variable (alike : Alike first second)
include alike

theorem byName : first.components.byName = second.components.byName := by
  have right := second.components.registered
  rw [← alike.names] at right
  exact first.components.registered.byName_eq right

theorem bumpIf (left right : Bool) : Alike (first.bumpIf left) (second.bumpIf right) :=
  ⟨alike.entities, alike.names, alike.columns, alike.resources, alike.tags,
    alike.tagStore, alike.events, alike.clock⟩

theorem columnOf (t : G.Ty) (id : ComponentID) :
    (first.components.columnOf t id = none ∧ second.components.columnOf t id = none) ∨
      ∃ left right, first.components.columnOf t id = some left ∧
        second.components.columnOf t id = some right ∧
        Column.Alike left right := by
  have columns := alike.columns id
  cases left : first.components.cols id with
  | none =>
    cases right : second.components.cols id with
    | none =>
      rw [columnOf_unbound left, columnOf_unbound right]
      exact .inr ⟨.empty, .empty, rfl, rfl, rfl, rfl,
        Column.consistent_empty, Column.consistent_empty⟩
    | some col =>
      rw [left, right] at columns
      cases columns
  | some col =>
    rw [left] at columns
    generalize right : second.components.cols id = other at columns
    cases columns with
    | @bound bound old new columnAlike =>
      by_cases eq : bound = t
      · subst eq
        rw [columnOf_bound left, columnOf_bound right]
        exact .inr ⟨old, new, rfl, rfl, columnAlike⟩
      · rw [columnOf_other left eq, columnOf_other right eq]
        exact .inl ⟨rfl, rfl⟩

theorem bind (t : G.Ty) (id : ComponentID)
    {left right : Column (G.Value t)} (columns : Column.Alike left right) :
    Alike { first with components := first.components.bind t id left }
      { second with components := second.components.bind t id right } := by
  refine ⟨alike.entities, alike.names, fun other => ?_, alike.resources,
    alike.tags, alike.tagStore, alike.events, alike.clock⟩
  by_cases same : other = id
  · subst same
    rw [cols_bind_self, cols_bind_self]
    exact .bound columns
  · simp only [cols_bind_of_ne _ _ _ same]
    exact alike.columns other

theorem entitiesOf (id : ComponentID) :
    first.components.entities id = second.components.entities id := by
  have columns := alike.columns id
  unfold ComponentStore.entities
  generalize first.components.cols id = left at columns ⊢
  generalize second.components.cols id = right at columns ⊢
  cases columns with
  | unbound => rfl
  | bound columnAlike => exact columnAlike.entityIDs_eq

theorem register (name : String) : (first.components.register name).1 =
        (second.components.register name).1 ∧ Alike
        { first with components := (first.components.register name).2 }
        { second with components := (second.components.register name).2 } := by
  have byNameEq := congrFun alike.byName name
  cases known : first.components.byName name with
  | some id =>
    rw [known] at byNameEq
    rw [register_of_found known, register_of_found byNameEq.symm]
    exact ⟨rfl, alike⟩
  | none =>
    rw [known] at byNameEq
    rw [register_of_fresh known, register_of_fresh byNameEq.symm]
    refine ⟨by rw [alike.names], ?_⟩
    exact ⟨alike.entities, by simp [append, alike.names], alike.columns,
      alike.resources, alike.tags, alike.tagStore, alike.events, alike.clock⟩

theorem setResource (t : G.Ty) (v : G.Value t) :
    Alike { first with resources := first.resources.setResource t v }
      { second with resources := second.resources.setResource t v } := by
  refine ⟨alike.entities, alike.names, alike.columns, fun other => ?_,
    alike.tags, alike.tagStore, alike.events, alike.clock⟩
  have old := alike.resources other
  unfold ResourceRegistry.getResource ResourceRegistry.setResource at *
  by_cases eq : other = t
  · subst eq
    rw [lookup_insert, lookup_insert]
  · rw [lookup_insert_ne eq, lookup_insert_ne eq]
    exact old

theorem run (sortSlice : SortSlice (Event G)) (op : Operation G) :
    (first.run sortSlice op = none ∧ second.run sortSlice op = none) ∨
      ∃ reply left right, first.run sortSlice op = some (reply, left) ∧
        second.run sortSlice op = some (reply, right) ∧
        Alike left right := by
  obtain ⟨entities, names, columns, resources, tags, tagStore, events, clock⟩ := id alike
  cases op with
  | create =>
    simp only [World.run, ← entities]
    cases first.entities.create with
    | none => exact .inl ⟨rfl, rfl⟩
    | some created =>
      exact .inr ⟨_, _, _, rfl, rfl, { alike with entities := rfl }⟩
  | destroy id =>
    simp only [World.run, ← entities]
    exact .inr ⟨_, _, _, rfl, rfl, { alike with entities := rfl }⟩
  | registerComponent name =>
    obtain ⟨idEq, stillAlike⟩ := alike.register name
    exact .inr ⟨_, _, _, rfl, by simp only [World.run, idEq], stillAlike⟩
  | columnOf t id =>
    simp only [World.run]
    rcases alike.columnOf t id with ⟨left, right⟩ | ⟨_, _, left, right, columnAlike⟩
    · rw [left, right]
      exact .inl ⟨rfl, rfl⟩
    · rw [left, right]
      exact .inr ⟨_, _, _, rfl, rfl, alike.bind t id columnAlike⟩
  | column t id op =>
    simp only [World.run, runColumn]
    rcases alike.columnOf t id with ⟨left, right⟩ | ⟨_, _, left, right, columnAlike⟩
    · rw [left, right]
      exact .inl ⟨rfl, rfl⟩
    · rw [left, right]
      obtain ⟨replyEq, _, stillAlike⟩ := op.run_alike columnAlike
      simp only [replyEq]
      exact .inr ⟨_, _, _, rfl, rfl, (alike.bind t id stillAlike).bumpIf _ _⟩
  | setResource t v =>
    exact .inr ⟨_, _, _, rfl, rfl, alike.setResource t v⟩
  | registerTag name =>
    simp only [World.run, ← tags]
    exact .inr ⟨_, _, _, rfl, rfl, { alike with tags := rfl }⟩
  | addTag e tag | removeTag e tag | removeEntityTags e =>
    simp only [World.run, ← tagStore]
    exact .inr ⟨_, _, _, rfl, rfl, { alike with tagStore := rfl }⟩
  | push e | pop =>
    simp only [World.run, ← events]
    exact .inr ⟨_, _, _, rfl, rfl, { alike with events := rfl }⟩
  | advance | advanceTime t =>
    simp only [World.run, ← clock]
    exact .inr ⟨_, _, _, rfl, rfl, { alike with clock := rfl }⟩
  | registerPayloadType t =>
    exact .inr ⟨_, _, _, rfl, rfl, { alike with }⟩
  | componentName id =>
    exact .inr ⟨_, _, _, rfl, by simp only [World.run, ComponentStore.name, ← names], alike⟩
  | entitiesOf id =>
    exact .inr ⟨_, _, _, rfl, by simp only [World.run, alike.entitiesOf id], alike⟩
  | getResource t =>
    exact .inr ⟨_, _, _, rfl, by simp only [World.run, resources t], alike⟩
  | alive id | ids | len =>
    exact .inr ⟨_, _, _, rfl, by simp only [World.run, ← entities], alike⟩
  | tagName tag =>
    exact .inr ⟨_, _, _, rfl, by simp only [World.run, ← tags], alike⟩
  | hasTag e tag =>
    exact .inr ⟨_, _, _, rfl, by simp only [World.run, ← tagStore], alike⟩
  | peek | peekAll | queueLen =>
    exact .inr ⟨_, _, _, rfl, by simp only [World.run, ← events], alike⟩
  | tick | time =>
    exact .inr ⟨_, _, _, rfl, by simp only [World.run, ← clock], alike⟩

end

theorem replies_eq (sort : SortSlice (Event G))
    (ops : List (Operation G)) {first second : World G} (alike : Alike first second) :
    replies sort ops first = replies sort ops second := by
  induction ops generalizing first second with
  | nil => rfl
  | cons op ops ih =>
    simp only [replies]
    rcases alike.run sort op with ⟨left, right⟩ | ⟨_, _, _, left, right, stillAlike⟩
    · rw [left, right]
    · rw [left, right]
      simp only [ih stillAlike]

end Alike

structure Twin (w target : World G) : Prop where
  modelID : w.metadata.modelID = target.metadata.modelID
  modelVersion : w.metadata.modelVersion = target.metadata.modelVersion
  seed : w.metadata.seed = target.metadata.seed
  names : w.components.names = target.components.names
  columnTypes : ∀ id, (target.components.cols id).map Sigma.fst =
    (w.components.cols id).map Sigma.fst
  noFurther : ∀ id, (w.components.cols id).isSome → id < w.components.names.length
  resourceTypes : target.resources.types = w.resources.types
  payloadTypes : target.payloadTypes = w.payloadTypes

structure RoundTripping (w : World G) : Prop where
  components : ∀ id column, w.components.cols id = some column →
    ∀ value ∈ column.2.data, GoTypes.RoundTrips value
  resources : ∀ item ∈ w.resources.resources.entries, GoTypes.RoundTrips item.2
  resourceNames : w.resources.Unambiguous
  payloads : ∀ e ∈ w.events.heap, Restorable w.payloadTypes e.payload

variable {w target : World G}

theorem components_restored
    {snaps : List ComponentSnapshot} (sound : w.Sound) (twin : Twin w target)
    (roundTripping : w.RoundTripping) (took : w.components.snapshot = .ok snaps) :
    (target.components.restore snaps).2 = none ∧ ∀ id, AlikeColumns (w.components.cols id)
        ((target.components.restore snaps).1.cols id) := by
  have captures := snapshotFrom_eq_ok_iff.mp took
  have reg := target.components.registered
  rw [← twin.names] at reg
  have byNameEq : w.components.byName = target.components.byName :=
    w.components.registered.byName_eq reg
  have distinct : ((w.components.names.zipIdx.filter fun x =>
      (w.components.cols x.2).isSome).map Prod.snd).Nodup := by
    refine List.Nodup.sublist (filter_sublist.map _) ?_
    rw [zipIdx_map_snd]
    exact nodup_range'
  have named : ∀ x ∈ w.components.names.zipIdx.filter fun x =>
      (w.components.cols x.2).isSome,
      target.components.byName x.1 = some x.2 := by
    intro x mem
    rw [← byNameEq]
    exact w.components.byName_of_mem_zipIdx (mem_of_mem_filter mem)
  obtain ⟨noError, back, untouched⟩ := restoreFrom_of_captures captures named distinct
      (fun x _ => twin.columnTypes x.2) roundTripping.components
  refine ⟨noError, fun id => ?_⟩
  by_cases bound : (w.components.cols id).isSome
  · refine (back id ?_).alike (sound.columns id)
    have lt := twin.noFurther id bound
    refine mem_map.mpr ⟨(w.components.names[id], id), ?_, rfl⟩
    rw [mem_filter]
    refine ⟨mem_zipIdx_iff_getElem?.mpr ?_, bound⟩
    exact getElem?_eq_getElem lt
  · have ge : id ∉ (w.components.names.zipIdx.filter fun x =>
        (w.components.cols x.2).isSome).map Prod.snd := by
      intro mem
      obtain ⟨x, inFilter, rfl⟩ := mem_map.mp mem
      exact bound (mem_filter.mp inFilter).2
    have unbound : w.components.cols id = none := by simpa using bound
    have types := twin.columnTypes id
    rw [unbound, Option.map_none, Option.map_eq_none_iff] at types
    rw [unbound]
    have res : (target.components.restore snaps).1.cols id = none := (untouched id ge).trans types
    rw [res]
    exact .unbound

theorem alike_of_restore {hash : Snapshot → String} {order : MapOrder G.Any}
    {s : Snapshot} (sound : w.Sound) (indexSpace : w.entities.versions.length < 2 ^ 31)
    (twin : Twin w target) (roundTripping : w.RoundTripping) (parts : CapturedBy order w s)
    (checksum : s.checksum = hash { s with checksum := "" })
    (finite : ∀ time ∈ s.times, time.isFinite = true) :
    ∃ back, target.restore hash s = some (back, none) ∧
      Alike w back := by
  have es : EntityManager.restore s.entities = some w.entities := by
    rw [parts.entities]
    exact (sound.entities (by omega)).restore_snapshot
  have ok : target.accepts hash s = .ok w.metadata.mode := by
    refine accepts_eq_ok_iff.mpr ⟨?_, ?_, ?_, ?_, ?_⟩
    · exact Snapshot.validate_eq_ok parts.schemaVersion parts.engineVersion checksum finite
    · rw [parts.modelID, twin.modelID]
    · rw [parts.modelVersion, twin.modelVersion]
    · rw [parts.seed, twin.seed]
    · rw [parts.mode, modeFromString_toText]
  obtain ⟨componentsOk, columns⟩ := components_restored sound twin roundTripping parts.components
  obtain ⟨resourcesOk, resources⟩ := ResourceRegistry.restore_snapshot
    parts.resources twin.resourceTypes roundTripping.resourceNames roundTripping.resources
  have events : EventQueue.restore target.payloadTypes s.events = (w.events, none) := by
    rw [twin.payloadTypes]
    exact EventQueue.restore_snapshot parts.events
      (timed_of_captured parts finite) roundTripping.payloads
  refine ⟨_, restore_of_stages ok es componentsOk resourcesOk (by rw [events]), ?_⟩
  refine ⟨rfl, twin.names, columns, fun t => (resources t).symm, ?_, ?_, ?_, ?_⟩
  · simp only [overwrite, parts.tagNames]
    exact sound.tags.restore_snapshot.symm
  · simp only [overwrite, parts.tagSets]
    rfl
  · simp only [overwrite, events]
  · simp only [overwrite, parts.tick, parts.time]
    rfl

theorem restore_snapshot_transparent {hash : Snapshot → String}
    {sortSlice : SortSlice (Event G)} {order : MapOrder G.Any} {w target : World G} {s : Snapshot}
    (reachable : Reachable hash sortSlice w) (indexSpace : w.entities.versions.length < 2 ^ 31)
    (twin : Twin w target) (roundTripping : w.RoundTripping)
    (captured : w.snapshot hash order = .ok s) :
    ∃ restored, target.restore hash s = some (restored, none) ∧
      ∀ ops, replies sortSlice ops restored = replies sortSlice ops w := by
  obtain ⟨parts, _, checksum, finite⟩ := snapshot_eq_ok captured
  obtain ⟨restored, succeeded, alike⟩ := alike_of_restore reachable.sound
    indexSpace twin roundTripping parts checksum finite
  exact ⟨restored, succeeded, fun ops =>
    (alike.replies_eq sortSlice ops).symm⟩

theorem restore_snapshot_transparent_sample :
    ∃ s restored, (sampleWorld "a" (sampleSetup ++ sampleRun)).snapshot (fun _ => "")
        (keptOrder _) = .ok s ∧ (sampleWorld "b" sampleSetup).restore (fun _ => "") s =
        some (restored, none) ∧ ∀ ops, replies (fun _ events => events) ops restored =
        replies (fun _ events => events) ops (sampleWorld "a" (sampleSetup ++ sampleRun)) := by
  obtain ⟨s, took⟩ : ∃ s, (sampleWorld "a"
      (sampleSetup ++ sampleRun)).snapshot (fun _ => "") (keptOrder _) =
        .ok s := ⟨_, rfl⟩
  have ran : runAll (fun _ events => events) (sampleSetup ++ sampleRun)
      (.new (sampleMetadata "a")) = some (sampleWorld "a" (sampleSetup ++ sampleRun)) := rfl
  have reachable : Reachable (fun _ => "") (fun _ events => events)
      (sampleWorld "a" (sampleSetup ++ sampleRun)) :=
    (Reachable.new (sampleMetadata "a")).runAll ran
  have empty : (sampleWorld "b" sampleSetup).components.cols =
      update (fun _ => none) 0 (some ⟨.flag, .empty⟩) := rfl
  obtain ⟨col, filled⟩ : ∃ col, (sampleWorld "a" (sampleSetup ++ sampleRun)).components.cols =
        update (sampleWorld "b" sampleSetup).components.cols 0 (some ⟨.flag, col⟩) := ⟨_, rfl⟩
  have twin : Twin (sampleWorld "a" (sampleSetup ++ sampleRun)) (sampleWorld "b" sampleSetup) := by
    refine ⟨rfl, rfl, rfl, rfl, fun id => ?_, fun id bound => ?_, rfl, rfl⟩
    · by_cases first : id = 0
      · simp [filled, empty, first]
      · simp [filled, empty, update_of_ne first]
    · by_contra past
      have other : id ≠ 0 := by
        rintro rfl
        exact past (by decide)
      simp [filled, empty, update_of_ne other] at bound
  have roundTripping : (sampleWorld "a" (sampleSetup ++ sampleRun)).RoundTripping :=
    ⟨fun _ _ _ v _ => flagTypes_roundTrips v, fun item _ => flagTypes_roundTrips item.2, by
        intro t mem
        exact absurd mem (notMem_empty t), by
        intro e mem
        rw [mem_singleton.mp mem]
        trivial⟩
  obtain ⟨restored, ok, eq⟩ := restore_snapshot_transparent reachable
    (by decide) twin roundTripping took
  exact ⟨s, restored, took, ok, eq⟩

end World

end Simulator
