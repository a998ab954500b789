import Simulator.WorldRestore

/-!
# Restoring a world to its own earlier snapshot

`Restore` only touches the columns the snapshot names.
-/

namespace Simulator

open SparseIndex FirstFailure List Option ComponentStore Column AList ResourceRegistry

variable {G : GoTypes}

namespace World

structure Extends (before after : World G) : Prop where
  names : ∃ more, after.components.names = before.components.names ++ more
  types : ∀ id t, (before.components.cols id).map Sigma.fst = some t →
    (after.components.cols id).map Sigma.fst = some t

theorem Extends.refl (w : World G) : Extends w w :=
  ⟨⟨[], by simp⟩, fun _ _ known => known⟩

theorem Extends.trans {first second third : World G}
    (left : Extends first second) (right : Extends second third) : Extends first third := by
  obtain ⟨more, namesEq⟩ := left.names
  obtain ⟨rest, namesEq'⟩ := right.names
  refine ⟨⟨more ++ rest, by simp [namesEq', namesEq]⟩, fun id t known => ?_⟩
  exact right.types id t (left.types id t known)

variable {after w : World G}

theorem extends_of_components_eq {old : World G} (eq : after.components = old.components) :
    Extends old after := by
  refine ⟨⟨[], by simp [eq]⟩, fun id t known => ?_⟩
  rw [eq]
  exact known

theorem extends_bind {t : G.Ty} {id : ComponentID} {old : Column (G.Value t)}
    (found : w.components.columnOf t id = some old) (column : Column (G.Value t)) :
    Extends w
      { w with components := w.components.bind t id column } := by
  refine ⟨⟨[], by simp [ComponentStore.bind]⟩, fun other u known => ?_⟩
  by_cases same : other = id
  · subst same
    obtain ⟨⟨bound, held⟩, heldEq, typeEq⟩ := map_eq_some_iff.mp known
    cases typeEq
    by_cases sameType : bound = t
    · subst sameType
      simp
    · rw [columnOf_other heldEq sameType] at found
      cases found
  · simp only [cols_bind_of_ne _ _ _ same]
    exact known

variable {sortSlice : SortSlice (Event G)}

theorem extends_run {op : Operation G} {reply : Reply G}
    (ran : w.run sortSlice op = some (reply, after)) : Extends w after := by
  cases op with
  | create =>
    obtain ⟨_, _, _, rfl, rfl⟩ := create_of_run ran
    exact extends_of_components_eq rfl
  | registerComponent name =>
    cases ran
    cases known : w.components.byName name with
    | some id =>
      simp only [register_of_found known]
      exact .refl w
    | none =>
      simp only [register_of_fresh known]
      exact ⟨⟨[name], rfl⟩, fun _ _ known => known⟩
  | columnOf t id =>
    obtain ⟨column, found, rfl, rfl⟩ := columnOf_of_run ran
    exact extends_bind found column
  | column t id op =>
    obtain ⟨column, found, rfl, rfl⟩ := column_of_run ran
    have bound := extends_bind found (op.run column).2.1
    exact ⟨bound.names, bound.types⟩
  | _ =>
    cases ran
    exact extends_of_components_eq rfl

theorem extends_runAll {ops : List (Operation G)}
    (ran : runAll sortSlice ops w = some after) : Extends w after := by
  induction ops generalizing w with
  | nil =>
    cases ran
    exact .refl _
  | cons op ops ih =>
    simp only [runAll] at ran
    split at ran
    · cases ran
    · rename_i reply next step
      exact (extends_run step).trans (ih ran)

end World

namespace ComponentStore

def boundEntries (s : ComponentStore G) : List (String × ComponentID) :=
  s.names.zipIdx.filter fun entry => (s.cols entry.2).isSome

def OnlyCaptured (s : ComponentStore G) (snaps : List ComponentSnapshot) : Prop :=
  ∀ entry ∈ s.boundEntries, entry.1 ∈ snaps.map ComponentSnapshot.name

theorem snapshotJSON_rebuilt_iff {t : G.Ty} {col fresh : Column (G.Value t)}
    {es : List EntityID} {vs : RawMessage} (rebuilt : fresh.RebuiltFrom col)
    (captured : col.snapshotJSON G.marshal = .ok (es, vs)) :
    fresh.snapshotJSON G.marshal = .ok (es, vs) ↔ vs ≠ some (.array []) := by
  obtain ⟨rfl, doc, rfl, enc⟩ := snapshotJSON_eq_ok captured
  cases shape : col.data with
  | cons head tail =>
    have full : col.allocated = true := col.filled (by rw [shape]; simp)
    have freshFull : fresh.allocated = true := by
      rw [rebuilt.allocated_eq, shape]
      rfl
    have again : fresh.snapshotJSON G.marshal = .ok (col.dense, some doc) := by
      unfold snapshotJSON
      rw [rebuilt.dense_eq, rebuilt.data_eq, freshFull, ← full, enc]
      rfl
    rw [again]
    refine ⟨fun _ empty => ?_, fun _ => rfl⟩
    rw [full, shape] at enc
    unfold marshalSlice at enc
    rw [if_pos rfl, mapM_cons] at enc
    rw [some.inj empty] at enc
    cases first : G.marshal head with
    | error msg => rw [first] at enc; cases enc
    | ok one =>
      cases rest : tail.mapM G.marshal with
      | error msg | ok others => rw [first, rest] at enc; cases enc
  | nil =>
    have freshNil : fresh.snapshotJSON G.marshal = .ok (col.dense, some .null) := by
      unfold snapshotJSON
      rw [rebuilt.dense_eq, rebuilt.data_eq, rebuilt.allocated_eq, shape]
      rfl
    rw [freshNil]
    rw [shape] at enc
    cases emptied : col.allocated with
    | false | true =>
      rw [emptied] at enc
      cases enc
      simp

variable {entries : List (String × ComponentID)} {snaps : List ComponentSnapshot}

theorem names_of_captures {cols : ComponentID → Option (BoundColumn G)}
    (captures : List.Forall₂ (Captures cols) entries snaps) :
    snaps.map ComponentSnapshot.name = entries.map Prod.fst := by
  induction captures with
  | nil => rfl
  | cons first rest ih => rw [map_cons, map_cons, first.1, ih]

theorem captures_rebuilt_iff {source res : ComponentID → Option (BoundColumn G)}
    (captures : List.Forall₂ (Captures source) entries snaps) (rebuilt : ∀ x ∈ entries,
      RebuiltColumns (source x.2) (res x.2)) :
    List.Forall₂ (Captures res) entries snaps ↔ ∀ snap ∈ snaps, snap.values ≠ some (.array []) := by
  induction captures with
  | nil => simp
  | @cons x snap entries snaps first rest ih =>
    have one : Captures res x snap ↔ snap.values ≠ some (.array []) := by
      obtain ⟨nameEq, t, col, bound, captured⟩ := first
      have columns := rebuilt x (by simp)
      rw [bound] at columns
      generalize held : res x.2 = other at columns
      cases columns with
      | @bound _ _ fresh freshRebuilt =>
        rw [← snapshotJSON_rebuilt_iff freshRebuilt captured]
        constructor
        · rintro ⟨_, _, again, heldEq, enc⟩
          rw [held] at heldEq
          cases heldEq
          exact enc
        · intro enc
          exact ⟨nameEq, t, fresh, held, enc⟩
    rw [forall₂_cons, one, ih fun other mem => rebuilt other (by simp [mem])]
    simp

section InPlace

variable {source target : ComponentStore G} {more : List String} {snaps : List ComponentSnapshot}
  (namesEq : target.names = source.names ++ more)
  (types : ∀ id t, (source.cols id).map Sigma.fst = some t →
    (target.cols id).map Sigma.fst = some t) (captured : source.snapshot = .ok snaps)
include namesEq

theorem byName_extended {name : String} {id : ComponentID}
    (mem : (name, id) ∈ source.names.zipIdx) : target.byName name = some id := by
  apply (target.registered name id).mpr
  have held := mem_zipIdx_iff_getElem?.mp mem
  rw [namesEq, List.getElem?_append_left (List.getElem?_eq_some_iff.mp held).1]
  exact held

include types captured

theorem boundEntries_eq (only : target.OnlyCaptured snaps) :
    target.boundEntries = source.boundEntries := by
  have captures := snapshotFrom_eq_ok_iff.mp captured
  have known : ∀ x ∈ target.boundEntries, x ∈ source.boundEntries := by
    intro x mem
    have inNames := only x mem
    rw [names_of_captures captures] at inNames
    obtain ⟨other, inSource, nameEq⟩ := mem_map.mp inNames
    have early := byName_extended namesEq (mem_of_mem_filter inSource)
    have late := target.byName_of_mem_zipIdx (mem_of_mem_filter mem)
    rw [nameEq, late] at early
    have sameEntry : x = other := Prod.ext nameEq.symm (some.inj early)
    rw [sameEntry]
    exact inSource
  unfold boundEntries
  rw [namesEq, zipIdx_append, filter_append]
  have later : (more.zipIdx (0 + source.names.length)).filter
      (fun x => (target.cols x.2).isSome) = [] := by
    rw [filter_eq_nil_iff]
    intro x mem bound
    have inTarget : x ∈ target.boundEntries := by
      unfold boundEntries
      rw [namesEq, zipIdx_append, filter_append]
      exact mem_append_right _ (mem_filter.mpr ⟨mem, bound⟩)
    have inSource := mem_of_mem_filter (known x inTarget)
    have old := (mem_zipIdx' inSource).1
    have after := (mem_zipIdx mem).1
    omega
  rw [later, append_nil]
  apply filter_congr
  intro x mem
  have inTarget : x ∈ target.names.zipIdx := by
    rw [namesEq, zipIdx_append]
    exact mem_append_left _ mem
  rw [Bool.eq_iff_iff]
  constructor
  · intro bound
    exact (mem_filter.mp (known x (mem_filter.mpr ⟨inTarget, bound⟩))).2
  · intro bound
    obtain ⟨col, held⟩ := isSome_iff_exists.mp bound
    have kept := types x.2 col.1 (by rw [held]; rfl)
    obtain ⟨other, heldOther, _⟩ := map_eq_some_iff.mp kept
    rw [heldOther]
    rfl

theorem snapshot_restored_iff (roundTrips : ∀ id col, source.cols id = some col →
      ∀ v ∈ col.2.data, GoTypes.RoundTrips v) :
    (target.restore snaps).1.snapshot = .ok snaps ↔ target.OnlyCaptured snaps ∧
        ∀ snap ∈ snaps, snap.values ≠ some (.array []) := by
  have captures := snapshotFrom_eq_ok_iff.mp captured
  have sourceTypes : ∀ x ∈ source.boundEntries, (target.cols x.2).map Sigma.fst =
        (source.cols x.2).map Sigma.fst := by
    intro x mem
    obtain ⟨col, held⟩ := isSome_iff_exists.mp (mem_filter.mp mem).2
    rw [types x.2 col.1 (by rw [held]; rfl), held]
    rfl
  have distinct : (source.boundEntries.map Prod.snd).Nodup := by
    refine List.Nodup.sublist (filter_sublist.map _) ?_
    rw [zipIdx_map_snd]
    exact nodup_range'
  obtain ⟨_, rebuilt, untouched⟩ := restoreFrom_of_captures captures (fun x mem =>
      byName_extended namesEq (mem_of_mem_filter mem))
    distinct sourceTypes roundTrips
  have rebuiltEntries : ∀ x ∈ source.boundEntries, RebuiltColumns (source.cols x.2)
        ((target.restore snaps).1.cols x.2) := fun x mem => rebuilt x.2 (mem_map_of_mem mem)
  have sameBound : (target.restore snaps).1.boundEntries =
      target.boundEntries := by
    apply filter_congr
    intro x _
    by_cases named : x.2 ∈ source.boundEntries.map Prod.snd
    · obtain ⟨other, inSource, idEq⟩ := mem_map.mp named
      have columns := rebuiltEntries other inSource
      have typesEq := sourceTypes other inSource
      rw [idEq] at columns typesEq
      generalize (target.restore snaps).1.cols x.2 = res at columns ⊢
      generalize source.cols x.2 = old at columns typesEq
      cases columns with
      | bound _ =>
        obtain ⟨held, heldEq, _⟩ := map_eq_some_iff.mp typesEq
        rw [heldEq]
        rfl
    · have eq : (target.restore snaps).1.cols x.2 = target.cols x.2 := untouched x.2 named
      rw [eq]
  have again : (target.restore snaps).1.snapshot = .ok snaps ↔
      List.Forall₂ (Captures (target.restore snaps).1.cols)
        target.boundEntries snaps := by
    rw [← sameBound]
    exact snapshotFrom_eq_ok_iff
  rw [again]
  constructor
  · intro recaptured
    have only : target.OnlyCaptured snaps := by
      intro x mem
      rw [names_of_captures recaptured]
      exact mem_map_of_mem mem
    rw [boundEntries_eq namesEq types captured only] at recaptured
    exact ⟨only, (captures_rebuilt_iff captures rebuiltEntries).mp recaptured⟩
  · rintro ⟨only, filled⟩
    rw [boundEntries_eq namesEq types captured only]
    exact (captures_rebuilt_iff captures rebuiltEntries).mpr filled

end InPlace

end ComponentStore

namespace ResourceRegistry

instance : Std.Total (nameLe (G := G)) :=
  ⟨fun first second => le_total (G.typeName first.1) (G.typeName second.1)⟩

instance : IsTrans G.Any nameLe :=
  ⟨fun _ _ _ => le_trans⟩

variable {xs : List G.Any} {snaps : List ResourceSnapshot}

theorem names_of_snapshotOne
    (taken : List.Forall₂ (fun item sn => snapshotOne item = .ok sn) xs snaps) :
    snaps.map ResourceSnapshot.type = xs.map fun item => G.typeName item.1 := by
  induction taken with
  | nil => rfl
  | cons first rest ih =>
    obtain ⟨_, _, rfl⟩ := snapshotOne_eq_ok first
    rw [map_cons, map_cons, ih]

variable {r : ResourceRegistry G}

theorem names_of_restoreOne
    (back : List.Forall₂ (fun sn item => restoreOne r.types sn = .ok item) snaps xs) :
    snaps.map ResourceSnapshot.type = xs.map fun item => G.typeName item.1 := by
  induction back with
  | nil => rfl
  | cons first rest ih =>
    rw [map_cons, map_cons, ih, r.named _ _ (restoreOne_eq_ok first).1]

theorem entries_foldl_insert {stored : AList G.Value}
    (distinct : xs.NodupKeys) (fresh : ∀ item ∈ xs, item.1 ∉ stored) :
    (xs.foldl (fun stored item => stored.insert item.1 item.2) stored).entries =
      xs.reverse ++ stored.entries := by
  induction xs generalizing stored with
  | nil => rfl
  | cons item xs ih =>
    rw [nodupKeys_cons] at distinct
    rw [foldl_cons, ih distinct.2, reverse_cons, entries_insert_of_notMem (fresh item (by simp))]
    · simp
    · intro other mem inserted
      rcases (mem_insert _).mp inserted with eq | old
      · exact distinct.1 (eq ▸ mem_keys_of_mem mem)
      · exact fresh other (by simp [mem]) old

theorem pairwise_of_snapshot {order : MapOrder G.Any} (captured : r.snapshot order = .ok snaps) :
    snaps.Pairwise fun first second => first.type ≤ second.type := by
  have sorted := pairwise_insertionSort nameLe (order.visit r.resources.entries)
  have taken := mapM_eq_ok_iff.mp captured
  have namesEq := names_of_snapshotOne taken
  rw [← pairwise_map (f := ResourceSnapshot.type), namesEq, pairwise_map]
  exact sorted

def Reencodes (r : ResourceRegistry G) (snaps : List ResourceSnapshot) : Prop :=
  (snaps.map ResourceSnapshot.type).Nodup ∧ ∀ sn ∈ snaps, ∀ item, restoreOne r.types sn = .ok item →
      snapshotOne item = .ok sn

section InPlace

variable {r : ResourceRegistry G} {order : MapOrder G.Any} {snaps : List ResourceSnapshot}

theorem snapshot_restored (sorted : snaps.Pairwise fun first second => first.type ≤ second.type)
    (noError : (r.restore snaps).2 = none) (again : r.Reencodes snaps) :
    (r.restore snaps).1.snapshot order = .ok snaps := by
  simp only [restore, restoreFrom_eq_loaded] at noError
  have back := forall₂_loaded noError
  have namesEq := names_of_restoreOne back
  have distinctNames := again.1
  rw [namesEq] at distinctNames
  have distinct : (loaded (restoreOne r.types) snaps).NodupKeys := by
    refine List.Nodup.of_map G.typeName ?_
    rw [List.keys, List.map_map]
    exact distinctNames
  have entriesEq : (r.restore snaps).1.resources.entries =
      (loaded (restoreOne r.types) snaps).reverse := by
    simp only [restore, restoreFrom_eq_loaded]
    rw [entries_foldl_insert distinct (by simp)]
    simp
  have perm : ((order.visit (r.restore snaps).1.resources.entries).insertionSort
      nameLe).Perm (loaded (restoreOne r.types) snaps) := by
    refine (perm_insertionSort _ _).trans ((order.perm _).trans ?_)
    rw [entriesEq]
    exact reverse_perm _
  have itemsSorted : (loaded (restoreOne r.types) snaps).Pairwise nameLe := by
    have byName := sorted
    rw [← pairwise_map (f := ResourceSnapshot.type), namesEq, pairwise_map] at byName
    exact byName
  have sameItems : (order.visit (r.restore snaps).1.resources.entries).insertionSort nameLe =
        loaded (restoreOne r.types) snaps := by
    refine perm.eq_of_pairwise ?_ (pairwise_insertionSort _ _) itemsSorted
    intro first second inFirst inSecond le ge
    exact inj_on_of_nodup_map distinctNames (perm.mem_iff.mp inFirst) inSecond (le_antisymm le ge)
  unfold snapshot
  rw [sameItems, mapM_eq_ok_iff]
  have encodes := again.2
  clear again perm itemsSorted sameItems entriesEq distinct distinctNames namesEq noError sorted
  generalize loaded (restoreOne r.types) snaps = xs at back
  induction back with
  | nil => exact .nil
  | @cons sn item snaps xs first rest ih =>
    exact .cons (encodes sn (by simp) item first)
      (ih fun other mem => encodes other (by simp [mem]))

theorem exists_entry_of_restored (noError : (r.restore snaps).2 = none)
    {item : G.Any} (mem : item ∈ (r.restore snaps).1.resources.entries) :
    ∃ sn ∈ snaps, restoreOne r.types sn = .ok item := by
  simp only [restore, restoreFrom_eq_loaded] at noError mem
  obtain ⟨t, v⟩ := item
  have hit := mem_lookup_iff.mpr mem
  rw [lookup_foldl_insert, lookup_empty, or_none] at hit
  have inItems := mem_reverse.mp (of_mem_dlookup hit)
  exact exists_of_mem_right (forall₂_loaded noError) inItems

theorem reencodes_of_snapshot_restored (noError : (r.restore snaps).2 = none)
    (captured : (r.restore snaps).1.snapshot order = .ok snaps) : r.Reencodes snaps := by
  obtain ⟨xs, perm, taken⟩ := snapshot_eq_ok captured
  have origin : ∀ item ∈ xs, ∃ sn ∈ snaps, restoreOne r.types sn = .ok item := fun item mem =>
    exists_entry_of_restored noError (perm.mem_iff.mp mem)
  have known : ∀ item ∈ xs, r.types (G.typeName item.1) = some item.1 := by
    intro item mem
    obtain ⟨sn, _, back⟩ := origin item mem
    have hit := (restoreOne_eq_ok back).1
    rw [r.named _ _ hit]
    exact hit
  have distinctKeys : xs.NodupKeys :=
    (perm_nodupKeys perm).mpr (r.restore snaps).1.resources.nodupKeys
  have distinct : (snaps.map ResourceSnapshot.type).Nodup := by
    rw [names_of_snapshotOne taken]
    have injective : ∀ t ∈ xs.keys, ∀ u ∈ xs.keys, G.typeName t = G.typeName u → t = u := by
      intro t inFirst u inSecond nameEq
      obtain ⟨first, firstMem, rfl⟩ := mem_map.mp inFirst
      obtain ⟨second, secondMem, rfl⟩ := mem_map.mp inSecond
      have left := known first firstMem
      rw [nameEq, known second secondMem] at left
      exact (some.inj left).symm
    have mapped := distinctKeys.map_on injective
    rw [List.keys, List.map_map] at mapped
    exact mapped
  refine ⟨distinct, fun sn mem item back => ?_⟩
  obtain ⟨other, inItems, enc⟩ := exists_of_mem_right taken mem
  obtain ⟨source, inSnaps, restoredOther⟩ := origin other inItems
  have typeEq : source.type = sn.type := by
    obtain ⟨_, _, rfl⟩ := snapshotOne_eq_ok enc
    exact (r.named _ _ (restoreOne_eq_ok restoredOther).1).symm
  have sameEntry : source = sn := inj_on_of_nodup_map distinct inSnaps mem typeEq
  rw [sameEntry, back] at restoredOther
  cases restoredOther
  exact enc

theorem snapshot_restored_iff (sorted : snaps.Pairwise fun first second => first.type ≤ second.type)
    (noError : (r.restore snaps).2 = none) :
    (r.restore snaps).1.snapshot order = .ok snaps ↔ r.Reencodes snaps :=
  ⟨reencodes_of_snapshot_restored noError, snapshot_restored sorted noError⟩

end InPlace

end ResourceRegistry

namespace World

def PayloadsReencode (w : World G) (s : Snapshot) : Prop :=
  ∀ es ∈ s.events.events, ∀ payload, unmarshalPayload es.payload w.payloadTypes = .ok payload →
      marshalPayload payload w.payloadTypes = .ok es.payload

structure Undoable (w : World G) (s : Snapshot) : Prop where
  columns : w.components.OnlyCaptured s.components
  filled : ∀ snap ∈ s.components, snap.values ≠ some (.array [])
  resources : w.resources.Reencodes s.resources
  payloads : w.PayloadsReencode s

theorem capturedBy_overwrite_iff {hash : Snapshot → String}
    {order order' : MapOrder G.Any} {origin w : World G} {s : Snapshot}
    {mode : Mode} {entities : EntityManager} (captured : CapturedBy order origin s)
    (accepted : w.accepts hash s = .ok mode)
    (replaced : EntityManager.restore s.entities = some entities) :
    CapturedBy order' (({ w with entities := entities } : World G).overwrite s mode) s ↔
      (w.components.restore s.components).1.snapshot = .ok s.components ∧
      (w.resources.restore s.resources).1.snapshot order' = .ok s.resources ∧
      (EventQueue.restore w.payloadTypes s.events).1.snapshot w.payloadTypes = .ok s.events := by
  obtain ⟨_, modelID, modelVersion, seed, modeOk⟩ := accepts_eq_ok_iff.mp accepted
  have modeEq : mode = origin.metadata.mode := by
    rw [captured.mode, modeFromString_toText] at modeOk
    exact (Except.ok.inj modeOk).symm
  constructor
  · intro again
    exact ⟨again.components, again.resources, again.events⟩
  · rintro ⟨components, resources, events⟩
    exact ⟨captured.schemaVersion, captured.engineVersion, rfl, modelID,
      modelVersion, seed, by rw [captured.mode, ← modeEq]; rfl, rfl, rfl,
      (EntityManager.snapshot_of_restore replaced).symm, components,
      by simp only [overwrite, captured.tagNames]; rfl, rfl, resources, events⟩

theorem snapshot_restored_in_place_iff {hash : Snapshot → String}
    {sortSlice : SortSlice (Event G)} {order order' : MapOrder G.Any}
    {origin w after : World G} {s : Snapshot} {ops : List (Operation G)}
    (captured : origin.snapshot hash order = .ok s)
    (roundTrips : ∀ id column, origin.components.cols id = some column →
      ∀ value ∈ column.2.data, GoTypes.RoundTrips value)
    (later : runAll sortSlice ops origin = some w)
    (restored : w.restore hash s = some (after, none)) :
    after.snapshot hash order' = .ok s ↔ w.Undoable s := by
  obtain ⟨parts, noConfig, checksum, finite⟩ := snapshot_eq_ok captured
  obtain ⟨mode, entities, accepted, replaced, _, resourcesOk, eventsOk,
    rfl⟩ := restore_eq_success restored
  obtain ⟨⟨more, namesEq⟩, types⟩ := extends_runAll later
  have components := snapshot_restored_iff namesEq types parts.components roundTrips
  have resources : (w.resources.restore s.resources).1.snapshot order' =
      .ok s.resources ↔ w.resources.Reencodes s.resources := snapshot_restored_iff
      (pairwise_of_snapshot parts.resources) resourcesOk
  have events := EventQueue.snapshot_restored_iff parts.events
    (timed_of_captured parts finite) eventsOk
  have reduced : (({ w with entities := entities } : World G).overwrite
      s mode).snapshot hash order' = .ok s ↔ CapturedBy order' (({ w with entities := entities } :
          World G).overwrite s mode) s := ⟨fun again => (snapshot_eq_ok again).1,
      fun again => snapshot_of_captured again noConfig checksum finite⟩
  rw [reduced, capturedBy_overwrite_iff parts accepted replaced, components, resources, events]
  constructor
  · rintro ⟨⟨only, filled⟩, names, payloads⟩
    exact ⟨only, filled, names, payloads⟩
  · rintro ⟨only, filled, names, payloads⟩
    exact ⟨⟨only, filled⟩, names, payloads⟩

def sampleLater : List (Operation flagTypes) :=
  [.create, .column .flag 0 (.set ⟨1⟩ false), .registerTag "late", .pop, .advance]

theorem snapshot_restored_in_place_sample :
    ∃ s w after, (sampleWorld "a" (sampleSetup ++ sampleRun)).snapshot (fun _ => "")
        (keptOrder _) = .ok s ∧ runAll (fun _ events => events) sampleLater
        (sampleWorld "a" (sampleSetup ++ sampleRun)) = some w ∧
      w.restore (fun _ => "") s = some (after, none) ∧
      after.snapshot (fun _ => "") (keptOrder _) = .ok s := by
  obtain ⟨s, w, after, captured, later, back, comps, resources, payloads, bound⟩ : ∃ s w after,
      (sampleWorld "a" (sampleSetup ++ sampleRun)).snapshot (fun _ => "") (keptOrder _) = .ok s ∧
      runAll (fun _ events => events) sampleLater
        (sampleWorld "a" (sampleSetup ++ sampleRun)) = some w ∧
      w.restore (fun _ => "") s = some (after, none) ∧
      s.components = [⟨"flag", [⟨1⟩], some (.array [.bool true])⟩] ∧ s.resources = [] ∧
      s.events.events.map EventSnapshot.payload = [none] ∧
      w.components.boundEntries = [("flag", 0)] := ⟨_, _, _, rfl, rfl, rfl, rfl, rfl, rfl, rfl⟩
  refine ⟨s, w, after, captured, later, back, ?_⟩
  refine (snapshot_restored_in_place_iff captured
    (fun _ _ _ v _ => flagTypes_roundTrips v) later back).mpr ?_
  refine ⟨?_, ?_, ?_, ?_⟩
  · intro x mem
    rw [bound, mem_singleton] at mem
    simp [mem, comps]
  · simp [comps]
  · simp [ResourceRegistry.Reencodes, resources]
  · intro es mem payload dec
    have nil : es.payload = none := by
      have inPayloads := mem_map_of_mem (f := EventSnapshot.payload) mem
      rw [payloads] at inPayloads
      exact mem_singleton.mp inPayloads
    rw [nil] at dec ⊢
    cases dec
    rfl

def sampleLateColumn : List (Operation flagTypes) :=
  [.registerComponent "late", .columnOf .flag 1]

theorem restore_keeps_later_column :
    ∃ s w after, (sampleWorld "a" (sampleSetup ++ sampleRun)).snapshot (fun _ => "")
        (keptOrder _) = .ok s ∧ runAll (fun _ events => events) sampleLateColumn
        (sampleWorld "a" (sampleSetup ++ sampleRun)) = some w ∧
      w.restore (fun _ => "") s = some (after, none) ∧
      after.snapshot (fun _ => "") (keptOrder _) ≠ .ok s := by
  refine ⟨_, _, _, rfl, rfl, rfl, fun eq => ?_⟩
  have count := congrArg (fun taken => taken.toOption.map fun s => s.components.length) eq
  exact absurd count (by decide)

end World

end Simulator
