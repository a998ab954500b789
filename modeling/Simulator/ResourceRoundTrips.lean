import Simulator.PayloadRoundTrips

/-!
# Resources in snapshots

A snapshot entry finds its type by name.
-/

namespace Simulator

open List Option Function

variable {G : GoTypes}

theorem mem_of_registeredTypes {reg : List G.Ty} {name : String}
    {t : G.Ty} (hit : registeredTypes reg name = some t) :
    t ∈ reg ∧ G.typeName t = name := by
  induction reg using reverseRecOn with
  | nil => cases hit
  | append_singleton reg last ih =>
    rw [registeredTypes, foldl_append, foldl_cons, foldl_nil] at hit
    by_cases eq : name = G.typeName last
    · subst eq
      rw [update_self, some.injEq] at hit
      subst hit
      exact ⟨by simp, rfl⟩
    · rw [update_of_ne eq] at hit
      obtain ⟨mem, named⟩ := ih hit
      exact ⟨mem_append_left _ mem, named⟩

namespace ResourceRegistry

/-- The registry a sequence of `SetResource` calls builds. -/
def settingAll (items : List G.Any) : ResourceRegistry G :=
  items.foldl (fun r item => r.setResource item.1 item.2) new

theorem types_settingAll (xs : List G.Any) :
    (settingAll xs).types = registeredTypes (xs.map Sigma.fst) := by
  have along : ∀ (xs : List G.Any) (r : ResourceRegistry G),
      (xs.foldl (fun r item => r.setResource item.1 item.2) r).types =
        (xs.map Sigma.fst).foldl (fun types t => update types (G.typeName t) (some t))
          r.types := by
    intro xs
    induction xs with
    | nil => exact fun r => rfl
    | cons item xs ih => exact fun r => ih (r.setResource item.1 item.2)
  exact along xs new

theorem exists_snapshot {order : MapOrder G.Any} {r : ResourceRegistry G}
    (encodes : ∀ item ∈ r.resources.entries, ∃ doc, G.marshal item.2 = .ok doc) :
    ∃ snaps, r.snapshot order = .ok snaps := by
  have all : ∀ xs : List G.Any, (∀ item ∈ xs, ∃ doc, G.marshal item.2 = .ok doc) →
      ∃ snaps, List.Forall₂ (fun item sn => snapshotOne item = .ok sn)
        xs snaps := by
    intro xs
    induction xs with
    | nil => exact fun _ => ⟨[], .nil⟩
    | cons item xs ih =>
      intro each
      obtain ⟨doc, enc⟩ := each item (by simp)
      obtain ⟨snaps, rest⟩ := ih fun other mem =>
        each other (by simp [mem])
      exact ⟨_ :: snaps, .cons (by rw [snapshotOne, enc]) rest⟩
  have perm : ((order.visit r.resources.entries).insertionSort nameLe).Perm
      r.resources.entries :=
    (perm_insertionSort _ _).trans (order.perm _)
  obtain ⟨snaps, took⟩ := all _ fun item mem =>
    encodes item (perm.mem_iff.mp mem)
  exact ⟨snaps, mapM_eq_ok_iff.mpr took⟩

theorem resources_restored_iff {order : MapOrder G.Any}
    {r : ResourceRegistry G} {items : List G.Any}
    (sameTypes : ∀ t, t ∈ items.map Sigma.fst ↔ t ∈ r.resources)
    (encodes : ∀ item ∈ r.resources.entries, ∃ document, G.marshal item.2 = .ok document)
    (roundTrips : ∀ item ∈ r.resources.entries, GoTypes.RoundTrips item.2) :
    ∃ snaps, r.snapshot order = .ok snaps ∧ ((((settingAll items).restore snaps).2 = none ∧
          ∀ t ∈ r.resources, ((settingAll items).restore snaps).1.getResource t = r.getResource t) ↔
        ∀ t ∈ r.resources, ∀ u ∈ r.resources, G.typeName t = G.typeName u → t = u) := by
  obtain ⟨snaps, took⟩ := exists_snapshot encodes
  refine ⟨snaps, took, ?_⟩
  constructor
  · rintro ⟨_, back⟩
    have known : ∀ t ∈ r.resources, (settingAll items).types (G.typeName t) = some t := by
      intro t mem
      have held : t ∈ ((settingAll items).restore snaps).1.resources := by
        rw [← AList.lookup_isSome]
        have stored := AList.lookup_isSome.mpr mem
        rwa [← show _ = r.resources.lookup t from back t mem] at stored
      have named : ∀ name t, (settingAll items).types name = some t →
          (settingAll items).types (G.typeName t) = some t := by
        intro name t hit
        rw [(settingAll items).named name t hit, hit]
      exact restoreFrom_keeps named snaps (by simp) t held
    intro t first u second sameName
    have both := (known t first).symm.trans ((congrArg _ sameName).trans (known u second))
    exact some.inj both
  · intro distinct
    have known : ∀ t ∈ r.resources, (settingAll items).types (G.typeName t) = some t := by
      intro t mem
      rw [types_settingAll]
      obtain ⟨u, hit⟩ := isSome_iff_exists.mp (registeredTypes_isSome ((sameTypes t).mpr mem))
      obtain ⟨among, sameName⟩ := mem_of_registeredTypes hit
      rw [hit, distinct u ((sameTypes u).mp among) t mem sameName]
    obtain ⟨succeeded, back⟩ := restore_of_known took known roundTrips
    exact ⟨succeeded, fun t _ => back t⟩

def inOrder (α : Type) : MapOrder α :=
  ⟨id, fun _ => .refl _⟩

theorem resources_restored_iff_flag :
    ∃ snaps, (settingAll (G := flagTypes) [⟨.flag, true⟩]).snapshot (inOrder _) = .ok snaps ∧
      ((settingAll (G := flagTypes) [⟨.flag, false⟩]).restore snaps).2 = none ∧
      ∀ t ∈ (settingAll (G := flagTypes) [⟨.flag, true⟩]).resources,
        ((settingAll (G := flagTypes) [⟨.flag, false⟩]).restore snaps).1.getResource t =
          (settingAll (G := flagTypes) [⟨.flag, true⟩]).getResource t := by
  have only : ∀ t, t ∈ (settingAll (G := flagTypes)
      [⟨.flag, true⟩]).resources ↔ t = FlagTy.flag := by
    intro t
    exact mem_singleton
  have sameTypes : ∀ t : FlagTy, t ∈ map Sigma.fst [(⟨.flag, false⟩ : flagTypes.Any)] ↔
        t ∈ (settingAll (G := flagTypes) [⟨.flag, true⟩]).resources :=
    fun t => mem_singleton.trans (only t).symm
  obtain ⟨snaps, took, back⟩ := resources_restored_iff sameTypes
    (fun ⟨t, v⟩ _ => by cases t <;> exact ⟨_, rfl⟩) (fun item _ => flagTypes_roundTrips item.2)
  refine ⟨snaps, took, back.mpr ?_⟩
  intro t first u second _
  rw [(only t).mp first, (only u).mp second]

end ResourceRegistry

inductive TwinTy
  | first
  | second
  | message
deriving DecidableEq

def twinTypes : GoTypes where
  Ty := TwinTy
  Value
    | .first => Bool
    | .second => Bool
    | .message => Json
  typeName
    | .first => "config.Settings"
    | .second => "config.Settings"
    | .message => "json.RawMessage"
  typeName_ne t := by cases t <;> decide
  marshal {t} value :=
    match t, value with
    | .first, flag => .ok (.bool flag)
    | .second, flag => .ok (.bool flag)
    | .message, document => .ok document
  unmarshal
    | .first, .bool flag => .ok flag
    | .second, .bool flag => .ok flag
    | .message, document => .ok document
    | _, _ => .error "json: cannot unmarshal into config.Settings"
  rawMessage := .message
  ofRaw document := document

theorem twin_resource_lost :
    ∃ snaps, (ResourceRegistry.settingAll (G := twinTypes)
          [⟨.first, true⟩, ⟨.second, false⟩]).snapshot (ResourceRegistry.inOrder _) = .ok snaps ∧
      (ResourceRegistry.settingAll (G := twinTypes)
          [⟨.first, true⟩, ⟨.second, false⟩]).getResource .first = some true ∧
      ((ResourceRegistry.settingAll (G := twinTypes)
          [⟨.first, true⟩, ⟨.second, false⟩]).restore snaps).2 = none ∧
      ((ResourceRegistry.settingAll (G := twinTypes)
          [⟨.first, true⟩, ⟨.second, false⟩]).restore snaps).1.getResource .first = none := by
  exact ⟨_, rfl, rfl, rfl, rfl⟩

end Simulator
