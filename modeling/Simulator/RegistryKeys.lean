import Simulator.ModelRegistry
import Simulator.QueueHistories

/-!
# The registry as a map

A registration with an `@` in its ID or version is also found under another pair.
-/

namespace Simulator

open BinaryHeap List Option AList

theorem append_cons_eq_iff {α : Type} {mark : α} {a b c d : List α}
    (notBefore : mark ∉ c) (notBehind : mark ∉ d) :
    a ++ mark :: b = c ++ mark :: d ↔ a = c ∧ b = d := by
  constructor
  · intro eq
    rcases append_eq_append_iff.mp eq with ⟨mid, first, second⟩ | ⟨mid, first, second⟩
    · cases mid with
      | nil =>
        rw [append_nil] at first
        rw [nil_append, cons.injEq] at second
        exact ⟨first.symm, second.2⟩
      | cons x mid =>
        rw [cons_append, cons.injEq] at second
        rw [← second.1] at first
        exact absurd (by simp [first]) notBefore
    · cases mid with
      | nil =>
        rw [append_nil] at first
        rw [nil_append, cons.injEq] at second
        exact ⟨first, second.2.symm⟩
      | cons x mid =>
        rw [cons_append, cons.injEq] at second
        exact absurd (by simp [second.2]) notBehind
  · rintro ⟨rfl, rfl⟩
    rfl

namespace Registry

variable {M : Type}

def Plain (text : String) : Prop :=
  '@' ∉ text.toList

instance (text : String) : Decidable (Plain text) :=
  inferInstanceAs (Decidable ('@' ∉ text.toList))

theorem toList_key (id ver : String) : (key id ver).toList = id.toList ++ '@' :: ver.toList := by
  simp [key]

theorem key_eq_iff {id ver first second : String}
    (plainID : Plain first) (plainVersion : Plain second) :
    key id ver = key first second ↔ id = first ∧ ver = second := by
  rw [← String.toList_inj, toList_key, toList_key,
    append_cons_eq_iff plainID plainVersion, String.toList_inj, String.toList_inj]

theorem exists_other_of_id {id : String} (marked : ¬ Plain id) (ver : String) :
    ∃ first second, first ≠ id ∧ key first second = key id ver := by
  obtain ⟨old, behind, split⟩ := append_of_mem (not_not.mp marked)
  refine ⟨String.ofList old, String.ofList (behind ++ '@' :: ver.toList), ?_, ?_⟩
  · intro eq
    have lengths := congrArg length (congrArg String.toList eq)
    rw [split] at lengths
    simp at lengths
  · rw [← String.toList_inj, toList_key, toList_key, split]
    simp

theorem exists_other_of_version {ver : String} (marked : ¬ Plain ver) (id : String) :
    ∃ first second, first ≠ id ∧ key first second = key id ver := by
  obtain ⟨old, behind, split⟩ := append_of_mem (not_not.mp marked)
  refine ⟨String.ofList (id.toList ++ '@' :: old), String.ofList behind, ?_, ?_⟩
  · intro eq
    have lengths := congrArg length (congrArg String.toList eq)
    simp at lengths
  · rw [← String.toList_inj, toList_key, toList_key, split]
    simp

/-- A call of `RegisterInfo` -/
structure Registration (M : Type) where
  info : ModelInfo
  factory : Option M

def Registration.entry (call : Registration M) : RegistryEntry M :=
  ⟨call.info, call.factory⟩

def pair (info : ModelInfo) : String × String :=
  (info.id, info.version)

def registerAll (calls : List (Registration M)) : Registry M :=
  calls.foldl (fun r call => r.registerInfo call.info call.factory) new

def lastCall (calls : List (Registration M)) (id version : String) : Option (Registration M) :=
  calls.reverse.find? fun call => pair call.info = (id, version)

theorem registerAll_append_singleton (calls : List (Registration M)) (call : Registration M) :
    registerAll (calls ++ [call]) = (registerAll calls).registerInfo call.info call.factory := by
  simp [registerAll]

theorem lastCall_append_singleton (calls : List (Registration M))
    (call : Registration M) (id ver : String) :
    lastCall (calls ++ [call]) id ver =
      if pair call.info = (id, ver) then some call
      else lastCall calls id ver := by
  unfold lastCall
  rw [reverse_append, reverse_singleton, singleton_append, find?_cons]
  split <;> simp_all

theorem registered_registerAll (calls : List (Registration M)) :
    Registered (registerAll calls) := by
  induction calls using reverseRecOn with
  | nil => exact .new
  | append_singleton calls call ih =>
    rw [registerAll_append_singleton]
    exact .register ih _ _

/-- No ID and no version of the registrations contains an `@`. -/
def AllPlain (calls : List (Registration M)) : Prop :=
  ∀ call ∈ calls, Plain call.info.id ∧ Plain call.info.version

instance (calls : List (Registration M)) : Decidable (AllPlain calls) :=
  inferInstanceAs (Decidable (∀ call ∈ calls, Plain call.info.id ∧ Plain call.info.version))

theorem lastCall_eq_some {calls : List (Registration M)}
    {id ver : String} {call : Registration M} (last : lastCall calls id ver = some call) :
    call ∈ calls ∧ call.info.id = id ∧ call.info.version = ver := by
  have listed := mem_of_find?_eq_some last
  have named := find?_some last
  simp only [pair, Prod.mk.injEq, decide_eq_true_eq] at named
  exact ⟨mem_reverse.mp listed, named⟩

theorem isSome_lastCall_iff {calls : List (Registration M)} {id ver : String} :
    (lastCall calls id ver).isSome = true ↔ (id, ver) ∈ calls.map fun call => pair call.info := by
  simp [lastCall, find?_isSome]

theorem getVersion_registerAll {calls : List (Registration M)}
    (plain : AllPlain calls) (id ver : String) : (registerAll calls).getVersion id ver =
      (lastCall calls id ver).map Registration.entry := by
  induction calls using reverseRecOn with
  | nil => rfl
  | append_singleton calls call ih =>
    have prior := ih fun c mem => plain c (by simp [mem])
    obtain ⟨plainID, plainVersion⟩ := plain call (by simp)
    rw [registerAll_append_singleton, lastCall_append_singleton, getVersion,
      entries_registerInfo, ← getVersion, prior]
    simp only [key_eq_iff plainID plainVersion, pair, Prod.mk.injEq,
      eq_comm (a := id), eq_comm (a := ver)]
    split <;> rfl

theorem latest_registerAll {calls : List (Registration M)} {id ver : String}
    (latest : (registerAll calls).latest.lookup id = some ver) :
    (id, ver) ∈ calls.map fun call => pair call.info := by
  induction calls using reverseRecOn with
  | nil => simp [registerAll, new] at latest
  | append_singleton calls call ih =>
    rw [registerAll_append_singleton] at latest
    rw [map_append, mem_append]
    rcases latest_registerInfo (registerAll calls) call.info call.factory
      id with ⟨rfl, -, replaced⟩ | ⟨-, kept⟩
    · rw [replaced, some.injEq] at latest
      exact .inr (by simp [pair, latest])
    · rw [kept] at latest
      exact .inl (ih latest)

theorem listBefore_iff (a b : ModelInfo) :
    listBefore a b = true ↔ toLex (pair a) < toLex (pair b) := by
  rw [Prod.Lex.toLex_lt_toLex]
  unfold listBefore pair
  split
  · rename_i other
    simp [other]
  · rename_i eq
    simp [not_not.mp eq]

theorem weakOrder_listBefore : WeakOrder listBefore fun _ => True where
  known_left := fun _ => trivial
  known_right := fun _ => trivial
  asymm := by
    intro a b old
    rw [listBefore_iff] at old
    rw [← Bool.not_eq_true, listBefore_iff]
    exact old.asymm
  not_less_trans := by
    intro a b c _ _ _ first second
    rw [← Bool.not_eq_true, listBefore_iff, not_lt] at first second ⊢
    exact second.trans first

section

variable {order : MapOrder ModelInfo} {sortSlice : (ModelInfo → ModelInfo → Bool) → List ModelInfo →
    List ModelInfo}

theorem perm_list (sorts : Sorts sortSlice) (r : Registry M) : (r.list order sortSlice).Perm
      (r.entries.entries.map fun x => x.2.info) :=
  ((sorts weakOrder_listBefore _ fun _ _ => trivial).1).trans (order.perm _)

theorem mem_list_iff (sorts : Sorts sortSlice) {r : Registry M}
    (reg : r.Registered) {info : ModelInfo} :
    info ∈ r.list order sortSlice ↔ ∃ x, r.getVersion info.id info.version = some x ∧
        x.info = info := by
  rw [(perm_list sorts r).mem_iff, List.mem_map]
  constructor
  · rintro ⟨⟨name, x⟩, listed, rfl⟩
    have hit : r.entries.lookup name = some x := mem_lookup_iff.mpr listed
    refine ⟨x, ?_, rfl⟩
    rw [getVersion, ← (reg.filed hit).1]
    exact hit
  · rintro ⟨x, hit, rfl⟩
    exact ⟨⟨_, x⟩, mem_lookup_iff.mp hit, rfl⟩

theorem nodup_list (sorts : Sorts sortSlice) {r : Registry M} (reg : r.Registered) :
    ((r.list order sortSlice).map pair).Nodup := by
  rw [((perm_list sorts r).map pair).nodup_iff, List.map_map]
  have keys : (r.entries.entries.map Sigma.fst).Nodup := r.entries.nodupKeys
  have filed : r.entries.entries.map Sigma.fst = (r.entries.entries.map fun x => pair x.2.info).map
        fun (id, ver) => key id ver := by
    rw [List.map_map]
    refine map_congr_left fun x listed => ?_
    exact (reg.filed (mem_lookup_iff.mpr listed)).1
  rw [filed] at keys
  exact List.Nodup.of_map _ keys

structure IsMap (calls : List (Registration M)) (order : MapOrder ModelInfo)
    (sortSlice : (ModelInfo → ModelInfo → Bool) → List ModelInfo → List ModelInfo) : Prop where
  getVersion : ∀ id version, (registerAll calls).getVersion id version =
    (lastCall calls id version).map Registration.entry
  get : ∀ id entry, (registerAll calls).get id = some entry → entry.info.id = id
  list : (((registerAll calls).list order sortSlice).map pair).Perm
    (calls.map fun call => pair call.info).dedup

theorem isMap_of_plain (sorts : Sorts sortSlice)
    {calls : List (Registration M)} (plain : AllPlain calls) :
    IsMap calls order sortSlice where
  getVersion := getVersion_registerAll plain
  get := by
    intro id x hit
    rw [get, map_eq_some_iff] at hit
    obtain ⟨ver, latest, rfl⟩ := hit
    obtain ⟨call, last⟩ := isSome_iff_exists.mp
      (isSome_lastCall_iff.mpr (latest_registerAll latest))
    rw [← Registry.getVersion, getVersion_registerAll plain, last]
    exact (lastCall_eq_some last).2.1
  list := by
    have reg := registered_registerAll calls
    rw [List.perm_ext_iff_of_nodup (nodup_list sorts reg) (List.nodup_dedup _)]
    rintro ⟨id, ver⟩
    rw [List.mem_dedup, ← isSome_lastCall_iff, List.mem_map]
    constructor
    · rintro ⟨info, listed, named⟩
      cases named
      obtain ⟨x, hit, -⟩ := (mem_list_iff sorts reg).mp listed
      rw [getVersion_registerAll plain] at hit
      have some := congrArg isSome hit
      rwa [isSome_map] at some
    · intro known
      obtain ⟨call, last⟩ := isSome_iff_exists.mp known
      obtain ⟨-, rfl, rfl⟩ := lastCall_eq_some last
      refine ⟨call.info, (mem_list_iff sorts reg).mpr ⟨call.entry, ?_, rfl⟩, rfl⟩
      rw [getVersion_registerAll plain, last]
      rfl

theorem exists_getVersion {calls : List (Registration M)}
    {call : Registration M} (mem : call ∈ calls) {id ver : String}
    (eq : key id ver = key call.info.id call.info.version) :
    ((registerAll calls).getVersion id ver).isSome = true := by
  induction calls using reverseRecOn with
  | nil => cases mem
  | append_singleton calls last ih =>
    rw [registerAll_append_singleton, Registry.getVersion, entries_registerInfo]
    split
    · rfl
    · rename_i other
      rcases mem_append.mp mem with prior | now
      · exact ih prior
      · cases mem_singleton.mp now
        exact absurd eq other

theorem eq_of_key_eq {calls : List (Registration M)}
    (asMap : ∀ id ver, (registerAll calls).getVersion id ver =
      (lastCall calls id ver).map Registration.entry)
    {call : Registration M} (mem : call ∈ calls) {id ver : String}
    (eq : key id ver = key call.info.id call.info.version) : id = call.info.id := by
  have hit := exists_getVersion mem eq
  rw [asMap, isSome_map] at hit
  obtain ⟨other, last⟩ := isSome_iff_exists.mp hit
  obtain ⟨own, ownLast⟩ := isSome_iff_exists.mp (isSome_lastCall_iff.mpr (mem_map_of_mem mem))
  -- Both pairs are answered from the one slot of their key.
  have first := asMap id ver
  have second := asMap call.info.id call.info.version
  rw [Registry.getVersion, eq] at first
  rw [Registry.getVersion, first, last, ownLast] at second
  have infos := congrArg (fun e => e.map (·.info.id)) second
  simp only [map_some, Registration.entry, some.injEq] at infos
  rw [← (lastCall_eq_some last).2.1, infos, (lastCall_eq_some ownLast).2.1]

theorem isMap_iff (sorts : Sorts sortSlice) (calls : List (Registration M)) :
    IsMap calls order sortSlice ↔ AllPlain calls := by
  constructor
  · intro asMap call mem
    constructor
    · by_contra marked
      obtain ⟨id, ver, other, eq⟩ := exists_other_of_id marked call.info.version
      exact other (eq_of_key_eq asMap.getVersion mem eq)
    · by_contra marked
      obtain ⟨id, ver, other, eq⟩ := exists_other_of_version marked call.info.id
      exact other (eq_of_key_eq asMap.getVersion mem eq)
  · exact isMap_of_plain sorts

end

def plainCall (id version : String) : Registration Unit :=
  ⟨⟨id, id, version, "", "tick"⟩, none⟩

theorem isMap_iff_counter :
    Sorts (BinaryHeap.sort (α := ModelInfo)) ∧
      IsMap [plainCall "counter" "1.0.0", plainCall "counter" "1.1.0", plainCall "queue" "0.1.0"]
        ⟨id, fun _ => .refl _⟩ BinaryHeap.sort :=
  ⟨sorts_sort, (isMap_iff sorts_sort _).mpr (by decide)⟩

theorem shared_key :
    let r := registerAll [plainCall "a" "b@1", plainCall "a@b" "1"]
    (r.getVersion "a" "b@1").map (fun e => pair e.info) = some ("a@b", "1") ∧
      (r.get "a").map (fun e => pair e.info) = some ("a@b", "1") ∧
      (r.list ⟨id, fun _ => .refl _⟩ BinaryHeap.sort).length = 1 := by
  decide

end Registry

end Simulator
