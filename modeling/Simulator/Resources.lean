import Simulator.FirstFailure
import Simulator.GoValues

/-!
# Resources

One value for each concrete type, captured in any order of iteration over the map.
-/

namespace Simulator

open List AList

structure MapOrder (α : Type) where
  visit : List α → List α
  perm : ∀ entries, (visit entries).Perm entries

structure ResourceRegistry (G : GoTypes) where
  resources : AList G.Value
  types : String → Option G.Ty
  named : ∀ name t, types name = some t → G.typeName t = name
  tracked : ∀ t ∈ resources, (types (G.typeName t)).isSome

@[ext]
structure ResourceSnapshot where
  type : String
  value : RawMessage

/-- The errors of `snapshot` and `restore`. -/
inductive ResourceError
  | snapshot (name detail : String)
  | unknownType (name : String)
  | decode (name detail : String)
deriving DecidableEq

def ResourceError.message : ResourceError → String
  | .snapshot name detail =>
    "simulation: snapshot resource " ++ name.quote ++ ": " ++ detail
  | .unknownType name =>
    "simulation: snapshot contains unknown resource type " ++ name.quote
  | .decode name detail =>
    "simulation: decode resource " ++ name.quote ++ ": " ++ detail

namespace ResourceRegistry

variable {G : GoTypes}

/-- `NewResourceRegistry` -/
def new : ResourceRegistry G where
  resources := ∅
  types := fun _ => none
  named := by simp
  tracked := by simp

def setResource (r : ResourceRegistry G) (t : G.Ty) (v : G.Value t) :
    ResourceRegistry G where
  resources := r.resources.insert t v
  types := Function.update r.types (G.typeName t) (some t)
  named := by
    intro name other found
    by_cases same : name = G.typeName t
    · subst same
      rw [Function.update_self] at found
      rw [Option.some.inj found]
    · rw [Function.update_of_ne same] at found
      exact r.named name other found
  tracked := by
    intro other member
    by_cases same : G.typeName other = G.typeName t
    · rw [same, Function.update_self]
      rfl
    · rw [Function.update_of_ne same]
      rcases (AList.mem_insert _).mp member with rfl | old
      · exact absurd rfl same
      · exact r.tracked other old

def getResource (r : ResourceRegistry G) (t : G.Ty) : Option (G.Value t) :=
  r.resources.lookup t

/-- `GetOrCreateResource`, with the zero value of the type -/
def getOrCreateResource (r : ResourceRegistry G) (t : G.Ty)
    (zero : G.Value t) : G.Value t × ResourceRegistry G :=
  match r.getResource t with
  | some v => (v, r)
  | none => (zero, r.setResource t zero)

/-- The comparison `snapshot` sorts by. -/
def nameLe (first second : G.Any) : Prop :=
  G.typeName first.1 ≤ G.typeName second.1

instance : DecidableRel (nameLe (G := G)) :=
  fun first second =>
    inferInstanceAs (Decidable (G.typeName first.1 ≤ G.typeName second.1))

def snapshotOne (item : G.Any) : Except ResourceError ResourceSnapshot :=
  match G.marshal item.2 with
  | .error detail => .error (.snapshot (G.typeName item.1) detail)
  | .ok document => .ok ⟨G.typeName item.1, some document⟩

def snapshot (order : MapOrder G.Any) (r : ResourceRegistry G) :
    Except ResourceError (List ResourceSnapshot) :=
  ((order.visit r.resources.entries).insertionSort nameLe).mapM snapshotOne

def restoreOne (types : String → Option G.Ty) (sn : ResourceSnapshot) :
    Except ResourceError G.Any :=
  match types sn.type with
  | none => .error (.unknownType sn.type)
  | some t =>
    match G.unmarshalRaw t sn.value with
    | .error detail => .error (.decode sn.type detail)
    | .ok v => .ok ⟨t, v⟩

/-- The loop of `restore`.  An error stops it with the entries already
stored. -/
def restoreFrom (types : String → Option G.Ty) :
    List ResourceSnapshot → AList G.Value → AList G.Value × Option ResourceError
  | [], stored => (stored, none)
  | sn :: rest, stored =>
    match restoreOne types sn with
    | .error cause => (stored, some cause)
    | .ok item => restoreFrom types rest (stored.insert item.1 item.2)

theorem restoreFrom_eq_loaded (types : String → Option G.Ty)
    (snaps : List ResourceSnapshot) (stored : AList G.Value) :
    restoreFrom types snaps stored = ((FirstFailure.loaded (restoreOne types) snaps).foldl
          (fun stored item => stored.insert item.1 item.2) stored,
        FirstFailure.failure (restoreOne types) snaps) := by
  rw [← FirstFailure.process_eq]
  induction snaps generalizing stored with
  | nil => rfl
  | cons sn rest ih =>
    simp only [restoreFrom, FirstFailure.process]
    cases restoreOne types sn with
    | error cause => rfl
    | ok item => exact ih _

variable {types : String → Option G.Ty} {order : MapOrder G.Any} {r : ResourceRegistry G}
  {snaps : List ResourceSnapshot} {sn : ResourceSnapshot} {item : G.Any} {stored : AList G.Value}
  {target : ResourceRegistry G}

theorem restoreOne_eq_ok (back : restoreOne types sn = .ok item) :
    types sn.type = some item.1 ∧ G.unmarshalRaw item.1 sn.value = .ok item.2 := by
  unfold restoreOne at back
  split at back
  · cases back
  · rename_i t hit
    split at back
    · cases back
    · rename_i v dec
      cases back
      exact ⟨hit, dec⟩

theorem restoreFrom_keeps {Good : G.Ty → Prop} (known : ∀ name t, types name = some t → Good t)
    (snaps : List ResourceSnapshot) (good : ∀ t ∈ stored, Good t) :
    ∀ t ∈ (restoreFrom types snaps stored).1, Good t := by
  induction snaps generalizing stored with
  | nil => exact good
  | cons sn rest ih =>
    unfold restoreFrom
    split
    · exact good
    · rename_i item back
      apply ih
      intro t mem
      rcases (mem_insert _).mp mem with rfl | old
      · exact known _ _ (restoreOne_eq_ok back).1
      · exact good t old

theorem tracked_restoreFrom (named : ∀ name t, types name = some t → G.typeName t = name)
    (snaps : List ResourceSnapshot) (tracked : ∀ t ∈ stored, (types (G.typeName t)).isSome) :
    ∀ t ∈ (restoreFrom types snaps stored).1, (types (G.typeName t)).isSome := by
  apply restoreFrom_keeps _ snaps tracked
  intro name t hit
  rw [named _ _ hit, hit]
  rfl

def restore (r : ResourceRegistry G) (snaps : List ResourceSnapshot) :
    ResourceRegistry G × Option ResourceError :=
  ({ resources := (restoreFrom r.types snaps ∅).1
     types := r.types
     named := r.named
     tracked := tracked_restoreFrom r.named snaps (by simp) },
    (restoreFrom r.types snaps ∅).2)

def Unambiguous (r : ResourceRegistry G) : Prop :=
  ∀ t ∈ r.resources, r.types (G.typeName t) = some t

theorem snapshotOne_eq_ok (took : snapshotOne item = .ok sn) :
    ∃ doc, G.marshal item.2 = .ok doc ∧ sn = ⟨G.typeName item.1, some doc⟩ := by
  unfold snapshotOne at took
  split at took
  · cases took
  · rename_i doc enc
    cases took
    exact ⟨doc, enc, rfl⟩

theorem snapshot_eq_ok (took : r.snapshot order = .ok snaps) :
    ∃ xs, xs.Perm r.resources.entries ∧
      List.Forall₂ (fun item sn => snapshotOne item = .ok sn) xs snaps :=
  ⟨(order.visit r.resources.entries).insertionSort nameLe,
    (perm_insertionSort _ _).trans (order.perm _), mapM_eq_ok_iff.mp took⟩

theorem restoreFrom_eq {xs : List G.Any}
    (took : List.Forall₂ (fun item sn => snapshotOne item = .ok sn) xs snaps)
    (known : ∀ item ∈ xs, types (G.typeName item.1) = some item.1)
    (roundTrips : ∀ item ∈ xs, GoTypes.RoundTrips item.2) (stored : AList G.Value) :
    restoreFrom types snaps stored =
      (xs.foldl (fun stored item => stored.insert item.1 item.2) stored, none) := by
  induction took generalizing stored with
  | nil => rfl
  | cons first rest ih =>
    obtain ⟨doc, enc, rfl⟩ := snapshotOne_eq_ok first
    have hit := known _ (mem_cons_self ..)
    have dec := roundTrips _ (mem_cons_self ..) doc enc
    simp only [restoreFrom, restoreOne, hit, GoTypes.unmarshalRaw, dec, foldl_cons]
    exact ih (fun item mem => known item (by simp [mem]))
      (fun item mem => roundTrips item (by simp [mem])) _

theorem lookup_foldl_insert (xs : List G.Any) (stored : AList G.Value) (t : G.Ty) :
    (xs.foldl (fun stored item => stored.insert item.1 item.2) stored).lookup t =
      (xs.reverse.dlookup t).or (stored.lookup t) := by
  induction xs generalizing stored with
  | nil => rfl
  | cons item xs ih =>
    obtain ⟨u, x⟩ := item
    rw [foldl_cons, ih, reverse_cons, dlookup_append]
    by_cases eq : t = u
    · subst eq
      rw [lookup_insert]
      cases xs.reverse.dlookup t <;> simp
    · rw [lookup_insert_ne eq, dlookup_cons_ne _ ⟨u, x⟩ eq]
      cases xs.reverse.dlookup t <;> simp

theorem restore_of_known (took : r.snapshot order = .ok snaps)
    (known : ∀ t ∈ r.resources, target.types (G.typeName t) = some t)
    (roundTrips : ∀ item ∈ r.resources.entries, GoTypes.RoundTrips item.2) :
    (target.restore snaps).2 = none ∧
      ∀ t, (target.restore snaps).1.getResource t = r.getResource t := by
  obtain ⟨xs, perm, entries⟩ := snapshot_eq_ok took
  have all := restoreFrom_eq entries (fun item mem =>
      known item.1 (mem_keys_of_mem (perm.mem_iff.mp mem)))
    (fun item mem => roundTrips item (perm.mem_iff.mp mem)) ∅
  refine ⟨by simp only [restore, all], fun t => ?_⟩
  have sameEntries : xs.reverse.Perm r.resources.entries := xs.reverse_perm.trans perm
  have distinct : xs.reverse.NodupKeys := (perm_nodupKeys sameEntries).mpr r.resources.nodupKeys
  simp only [restore, getResource, all, lookup_foldl_insert, lookup_empty, Option.or_none]
  exact perm_dlookup t distinct sameEntries

theorem restore_snapshot (took : r.snapshot order = .ok snaps)
    (sameTypes : target.types = r.types) (unambiguous : r.Unambiguous)
    (roundTrips : ∀ item ∈ r.resources.entries, GoTypes.RoundTrips item.2) :
    (target.restore snaps).2 = none ∧
      ∀ t, (target.restore snaps).1.getResource t = r.getResource t := by
  refine restore_of_known took ?_ roundTrips
  intro t mem
  rw [sameTypes]
  exact unambiguous t mem

end ResourceRegistry

end Simulator
