import Simulator.ComponentColumn
import Simulator.FirstFailure
import Simulator.NameTable

/-!
# The component store

Each identifier may be bound to one column, whose value type is fixed at the first use.
-/

namespace Simulator

open NameTable List Option Function Column

/-- `ComponentID`, the position of a name in registration order -/
abbrev ComponentID := Nat

abbrev BoundColumn (G : GoTypes) :=
  Σ t : G.Ty, Column (G.Value t)

structure ComponentStore (G : GoTypes) where
  names : List String
  byName : String → Option ComponentID
  cols : ComponentID → Option (BoundColumn G)
  registered : Registered names byName

@[ext]
structure ComponentSnapshot where
  name : String
  entities : List EntityID
  values : RawMessage

/-- The errors of `Snapshot` and `Restore`. -/
inductive ComponentError
  | snapshot (name detail : String)
  | unknown (name : String)
  | notRestorable (name : String)
  | restore (name : String) (cause : ColumnError)
deriving DecidableEq

def ComponentError.message : ComponentError → String
  | .snapshot name detail =>
    "simulation: snapshot component " ++ name.quote ++ ": " ++ detail
  | .unknown name =>
    "simulation: unknown component " ++ name.quote ++ " in snapshot"
  | .notRestorable name =>
    "simulation: component " ++ name.quote ++ " not restorable"
  | .restore name cause =>
    "simulation: restore component " ++ name.quote ++ ": " ++ cause.message

namespace ComponentStore

variable {G : GoTypes}

/-- `NewComponentStore` -/
def new : ComponentStore G where
  names := []
  byName := fun _ => none
  cols := fun _ => none
  registered := registered_numbering List.nodup_nil

def append (s : ComponentStore G) (name : String)
    (fresh : s.byName name = none) : ComponentStore G where
  names := s.names ++ [name]
  byName := Function.update s.byName name (some s.names.length)
  cols := s.cols
  registered := s.registered.append fresh

def register (s : ComponentStore G) (name : String) : ComponentID × ComponentStore G :=
  match found : s.byName name with
  | some id => (id, s)
  | none => (s.names.length, s.append name found)

def name (s : ComponentStore G) (id : ComponentID) : String :=
  s.names[id]?.getD ""

/-- `columnOf`: the column of `id`, empty if there is none yet.  `none` is
the panic on a column of another type. -/
def columnOf (s : ComponentStore G) (t : G.Ty) (id : ComponentID) : Option (Column (G.Value t)) :=
  match s.cols id with
  | none => some .empty
  | some ⟨bound, column⟩ =>
    if same : bound = t then some (same ▸ column) else none

/-- Bind `id` to a column. -/
def bind (s : ComponentStore G) (t : G.Ty) (id : ComponentID)
    (column : Column (G.Value t)) : ComponentStore G :=
  { s with cols := Function.update s.cols id (some ⟨t, column⟩) }

def entities (s : ComponentStore G) (id : ComponentID) : List EntityID :=
  match s.cols id with
  | none => []
  | some ⟨_, column⟩ => column.entityIDs

/-- The loop of `Snapshot` over the registered names. -/
def snapshotFrom (cols : ComponentID → Option (BoundColumn G)) :
    List (String × ComponentID) → Except ComponentError (List ComponentSnapshot)
  | [] => .ok []
  | (name, id) :: rest =>
    match cols id with
    | none => snapshotFrom cols rest
    | some ⟨_, column⟩ =>
      match column.snapshotJSON G.marshal with
      | .error detail => .error (.snapshot name detail)
      | .ok (entities, values) =>
        (⟨name, entities, values⟩ :: ·) <$> snapshotFrom cols rest

def snapshot (s : ComponentStore G) : Except ComponentError (List ComponentSnapshot) :=
  snapshotFrom s.cols s.names.zipIdx

/-- The body of the loop of `Restore`: the column to replace and its new
contents. -/
def restoreOne (byName : String → Option ComponentID) (cols : ComponentID → Option (BoundColumn G))
    (snap : ComponentSnapshot) : Except ComponentError (ComponentID × BoundColumn G) :=
  match byName snap.name with
  | none => .error (.unknown snap.name)
  | some id =>
    match cols id with
    | none => .error (.notRestorable snap.name)
    | some ⟨t, _⟩ =>
      match Column.restoreJSON (G.unmarshal t) snap.entities snap.values with
      | .error cause => .error (.restore snap.name cause)
      | .ok column => .ok (id, ⟨t, column⟩)

/-- The loop of `Restore`.  An error stops it with the columns already
replaced. -/
def restoreFrom (byName : String → Option ComponentID) :
    List ComponentSnapshot → (ComponentID → Option (BoundColumn G)) →
      (ComponentID → Option (BoundColumn G)) × Option ComponentError
  | [], cols => (cols, none)
  | snap :: rest, cols =>
    match restoreOne byName cols snap with
    | .error cause => (cols, some cause)
    | .ok (id, column) =>
      restoreFrom byName rest (Function.update cols id (some column))

def restore (s : ComponentStore G) (snaps : List ComponentSnapshot) :
    ComponentStore G × Option ComponentError :=
  let restored := restoreFrom s.byName snaps s.cols
  ({ s with cols := restored.1 }, restored.2)

variable {name : String} {id : ComponentID} {s : ComponentStore G}
  {cols : ComponentID → Option (BoundColumn G)} {snaps : List ComponentSnapshot}
  {byName : String → Option ComponentID} {snap : ComponentSnapshot}

theorem byName_of_mem_zipIdx (s : ComponentStore G) (mem : (name, id) ∈ s.names.zipIdx) :
    s.byName name = some id :=
  (s.registered name id).mpr (mem_zipIdx_iff_getElem?.mp mem)

theorem register_of_found (hit : s.byName name = some id) : s.register name = (id, s) := by
  unfold register
  split
  · rename_i other foundOther
    rw [hit] at foundOther
    cases foundOther
    rfl
  · rename_i missing
    rw [hit] at missing
    cases missing

theorem register_of_fresh (fresh : s.byName name = none) :
    s.register name = (s.names.length, s.append name fresh) := by
  unfold register
  split
  · rename_i other hit
    rw [fresh] at hit
    cases hit
  · rfl

variable {t : G.Ty} {entries : List (String × ComponentID)}
  {source target : ComponentID → Option (BoundColumn G)}

theorem columnOf_bound {col : Column (G.Value t)} (bound : s.cols id = some ⟨t, col⟩) :
    s.columnOf t id = some col := by
  simp [columnOf, bound]

theorem columnOf_unbound (unbound : s.cols id = none) (t : G.Ty) :
    s.columnOf t id = some .empty := by
  simp [columnOf, unbound]

theorem columnOf_other {bound : G.Ty} {col : Column (G.Value bound)}
    (held : s.cols id = some ⟨bound, col⟩) (ne : bound ≠ t) : s.columnOf t id = none := by
  simp [columnOf, held, ne]

theorem cols_bind_of_ne (s : ComponentStore G) (t : G.Ty)
    {other : ComponentID} (col : Column (G.Value t)) (ne : other ≠ id) :
    (s.bind t id col).cols other = s.cols other := by
  simp [bind, update_of_ne ne]

@[simp]
theorem cols_bind_self (s : ComponentStore G) (t : G.Ty) (id : ComponentID)
    (col : Column (G.Value t)) : (s.bind t id col).cols id = some ⟨t, col⟩ := by
  simp [bind]

def Captures (cols : ComponentID → Option (BoundColumn G))
    (entry : String × ComponentID) (snap : ComponentSnapshot) : Prop :=
  snap.name = entry.1 ∧ ∃ t column, cols entry.2 = some ⟨t, column⟩ ∧
    column.snapshotJSON G.marshal = .ok (snap.entities, snap.values)

theorem snapshotFrom_eq_ok_iff :
    snapshotFrom cols entries = .ok snaps ↔ List.Forall₂ (Captures cols)
        (entries.filter fun x => (cols x.2).isSome) snaps := by
  induction entries generalizing snaps with
  | nil =>
    cases snaps <;> simp [snapshotFrom]
  | cons x entries ih =>
    obtain ⟨name, id⟩ := x
    cases bound : cols id with
    | none => simp [snapshotFrom, bound, ih]
    | some held =>
      obtain ⟨t, col⟩ := held
      simp only [snapshotFrom, bound, filter_cons, isSome_some, if_true]
      cases took : col.snapshotJSON G.marshal with
      | error msg =>
        constructor
        · intro no
          cases no
        · intro all
          cases all with
          | cons first rest =>
            obtain ⟨_, _, other, hit, enc⟩ := first
            rw [bound] at hit
            cases hit
            rw [took] at enc
            cases enc
      | ok parts =>
        obtain ⟨es, vs⟩ := parts
        constructor
        · intro mapped
          cases rest : snapshotFrom cols entries with
          | error cause => rw [rest] at mapped; cases mapped
          | ok tail =>
            rw [rest] at mapped
            cases mapped
            exact .cons ⟨rfl, t, col, bound, took⟩ (ih.mp rest)
        · intro all
          cases all with
          | cons first rest =>
            obtain ⟨named, _, other, hit, enc⟩ := first
            rw [bound] at hit
            cases hit
            rw [took] at enc
            cases enc
            have nameEq : _ = name := named
            rw [ih.mpr rest, ← nameEq]
            rfl

theorem restoreOne_eq_ok {col : BoundColumn G}
    (back : restoreOne byName cols snap = .ok (id, col)) :
    byName snap.name = some id ∧ (∃ old, cols id = some ⟨col.1, old⟩) ∧
      restoreJSON (G.unmarshal col.1) snap.entities snap.values = .ok col.2 := by
  unfold restoreOne at back
  split at back
  · cases back
  · rename_i n hit
    split at back
    · cases back
    · rename_i t old bound
      split at back
      · cases back
      · rename_i fresh dec
        cases back
        exact ⟨hit, ⟨old, bound⟩, dec⟩

theorem restoreFrom_keeps {Good : BoundColumn G → Prop} (restoredGood : ∀ snap ∈ snaps, ∀ t col,
      restoreJSON (G.unmarshal t) snap.entities snap.values = .ok col → Good ⟨t, col⟩)
    (good : ∀ id col, cols id = some col → Good col) :
    ∀ id col, (restoreFrom byName snaps cols).1 id = some col →
      Good col := by
  induction snaps generalizing cols with
  | nil => exact good
  | cons snap rest ih =>
    unfold restoreFrom
    split
    · exact good
    · rename_i id col back
      apply ih fun other mem => restoredGood other (by simp [mem])
      intro other held hit
      by_cases eq : other = id
      · subst eq
        rw [update_self] at hit
        cases hit
        exact restoredGood snap (by simp) _ _ (restoreOne_eq_ok back).2.2
      · rw [update_of_ne eq] at hit
        exact good other held hit

theorem restoreOne_congr {first second : ComponentID → Option (BoundColumn G)}
    (sameTypes : ∀ id, (first id).map Sigma.fst = (second id).map Sigma.fst)
    (snap : ComponentSnapshot) : restoreOne byName first snap = restoreOne byName second snap := by
  unfold restoreOne
  cases byName snap.name with
  | none => rfl
  | some id =>
    have types := sameTypes id
    cases left : first id with
    | none =>
      rw [left, map_none, eq_comm, map_eq_none_iff] at types
      simp [left, types]
    | some col =>
      rw [left, eq_comm] at types
      obtain ⟨⟨t, other⟩, right, typeEq⟩ := map_eq_some_iff.mp types
      obtain ⟨u, old⟩ := col
      cases typeEq
      simp [left, right]

theorem restoreFrom_eq (byName : String → Option ComponentID) (snaps : List ComponentSnapshot)
    (cols : ComponentID → Option (BoundColumn G)) :
    restoreFrom byName snaps cols = ((FirstFailure.loaded (restoreOne byName cols) snaps).foldl
          FirstFailure.write cols, FirstFailure.failure (restoreOne byName cols) snaps) := by
  -- the types stay those of the columns the loop started with
  have general : ∀ cur : ComponentID → Option (BoundColumn G),
      (∀ id, (cur id).map Sigma.fst = (cols id).map Sigma.fst) → restoreFrom byName snaps cur =
        FirstFailure.process (restoreOne byName cols) FirstFailure.write
          snaps cur := by
    induction snaps with
    | nil => exact fun _ _ => rfl
    | cons snap rest ih =>
      intro cur sameTypes
      have oneEq : restoreOne byName cur snap =
          restoreOne byName cols snap := restoreOne_congr sameTypes snap
      cases out : restoreOne byName cols snap with
      | error cause =>
        rw [out] at oneEq
        simp [restoreFrom, FirstFailure.process, oneEq, out]
      | ok item =>
        rw [out] at oneEq
        simp only [restoreFrom, FirstFailure.process, oneEq, out]
        apply ih
        intro id
        by_cases eq : id = item.1
        · subst eq
          obtain ⟨_, ⟨old, held⟩, _⟩ := restoreOne_eq_ok out
          rw [update_self, held]
          rfl
        · rw [update_of_ne eq]
          exact sameTypes id
  rw [general cols fun _ => rfl, FirstFailure.process_eq]

theorem entities_of_snapshot (took : s.snapshot = .ok snaps) (mem : snap ∈ snaps) :
    ∃ id t col, s.cols id = some ⟨t, col⟩ ∧ snap.entities = col.dense := by
  have all := snapshotFrom_eq_ok_iff.mp took
  obtain ⟨x, _, _, t, col, bound, enc⟩ := exists_of_mem_right all mem
  exact ⟨x.2, t, col, bound, (snapshotJSON_eq_ok enc).1⟩

inductive AlikeColumns :
    Option (BoundColumn G) → Option (BoundColumn G) → Prop
  | unbound : AlikeColumns none none
  | bound {t : G.Ty} {first second : Column (G.Value t)} : Column.Alike first second →
        AlikeColumns (some ⟨t, first⟩) (some ⟨t, second⟩)

inductive RebuiltColumns :
    Option (BoundColumn G) → Option (BoundColumn G) → Prop
  | bound {t : G.Ty} {column fresh : Column (G.Value t)} : fresh.RebuiltFrom column →
        RebuiltColumns (some ⟨t, column⟩) (some ⟨t, fresh⟩)

theorem RebuiltColumns.alike {source res : Option (BoundColumn G)}
    (rebuilt : RebuiltColumns source res) (valid : ∀ col, source = some col → col.2.Consistent) :
    AlikeColumns source res := by
  cases rebuilt with
  | bound columns => exact .bound (columns.alike (valid _ rfl))

theorem restoreOne_of_captures {x : String × ComponentID}
    (captures : Captures source x snap) (named : byName x.1 = some x.2)
    (sameType : (target x.2).map Sigma.fst = (source x.2).map Sigma.fst)
    (roundTrips : ∀ col, source x.2 = some col → ∀ v ∈ col.2.data, GoTypes.RoundTrips v) :
    ∃ fresh, restoreOne byName target snap = .ok (x.2, fresh) ∧
      RebuiltColumns (source x.2) (some fresh) := by
  obtain ⟨nameEq, t, col, bound, took⟩ := captures
  rw [bound] at sameType
  obtain ⟨⟨_, old⟩, held, typeEq⟩ := map_eq_some_iff.mp sameType
  cases typeEq
  obtain ⟨fresh, back, rebuilt⟩ := restoreJSON_snapshotJSON took (roundTrips _ bound)
  refine ⟨⟨t, fresh⟩, ?_, ?_⟩
  · simp only [restoreOne, nameEq, named, held, back]
  · rw [bound]
    exact .bound rebuilt

theorem restoreFrom_of_captures (captures : List.Forall₂ (Captures source) entries snaps)
    (named : ∀ x ∈ entries, byName x.1 = some x.2) (distinct : (entries.map Prod.snd).Nodup)
    (sameTypes : ∀ x ∈ entries, (target x.2).map Sigma.fst = (source x.2).map Sigma.fst)
    (roundTrips : ∀ id col, source id = some col → ∀ v ∈ col.2.data, GoTypes.RoundTrips v) :
    (restoreFrom byName snaps target).2 = none ∧
      (∀ id ∈ entries.map Prod.snd, RebuiltColumns (source id)
        ((restoreFrom byName snaps target).1 id)) ∧ ∀ id ∉ entries.map Prod.snd,
        (restoreFrom byName snaps target).1 id = target id := by
  induction captures generalizing target with
  | nil => exact ⟨rfl, by simp, fun _ _ => rfl⟩
  | @cons x snap entries snaps first rest ih =>
    obtain ⟨fresh, back, rebuilt⟩ := restoreOne_of_captures first (named x (by simp))
        (sameTypes x (by simp)) (roundTrips x.2)
    rw [map_cons, nodup_cons] at distinct
    have sameTypesLater : ∀ other ∈ entries, (update target x.2 (some fresh) other.2).map
          Sigma.fst = (source other.2).map Sigma.fst := by
      intro other mem
      have ne : other.2 ≠ x.2 := by
        intro eq
        exact distinct.1 (eq ▸ mem_map_of_mem mem)
      rw [update_of_ne ne]
      exact sameTypes other (by simp [mem])
    obtain ⟨noError, rebuiltRest, otherwise⟩ :=
      ih (fun other mem => named other (by simp [mem])) distinct.2 sameTypesLater
    have unfolded : restoreFrom byName (snap :: snaps) target = restoreFrom byName snaps
          (update target x.2 (some fresh)) := by
      simp only [restoreFrom, back]
    rw [unfolded]
    refine ⟨noError, ?_, ?_⟩
    · intro id mem
      rcases mem_cons.mp mem with rfl | inRest
      · rw [otherwise x.2 distinct.1, update_self]
        exact rebuilt
      · exact rebuiltRest id inRest
    · intro id ge
      rw [map_cons, mem_cons, not_or] at ge
      rw [otherwise id ge.2, update_of_ne ge.1]

end ComponentStore

end Simulator
