import Simulator.Resources

/-!
# The model registry

Entries are kept under the text `id@version`, and for each ID the version `Get` returns.
-/

namespace Simulator

open AList

/-- The fields of `persistence.ModelInfo` that a registration sets. -/
structure ModelInfo where
  id : String
  name : String
  version : String
  description : String
  mode : String
deriving DecidableEq

/-- `Entry`; the factory of a model makes a value of type `M`. -/
structure RegistryEntry (M : Type) where
  info : ModelInfo
  factory : Option M

/-- The zero value of `Entry` -/
def RegistryEntry.zero {M : Type} : RegistryEntry M :=
  ⟨⟨"", "", "", "", ""⟩, none⟩

/-- `strconv.Atoi`, on what `componentInt` leaves of a component. -/
def atoi (digits : List Char) : Option Nat :=
  if digits ≠ [] ∧ digits.all Char.isDigit then
    let value := digits.foldl (fun acc digit => acc * 10 + (digit.toNat - '0'.toNat)) 0
    if value < 2 ^ 63 then some value else none
  else none

def componentInt (parts : List (List Char)) (i : Nat) : Nat :=
  match parts[i]? with
  | none => 0
  | some part =>
    (atoi (part.takeWhile fun c => c ≠ '-' ∧ c ≠ '+')).getD 0

/-- The loop of `compareVersion` over the remaining positions. -/
def compareComponents (a b : List (List Char)) : List Nat → Int
  | [] => 0
  | i :: rest =>
    if componentInt a i < componentInt b i then -1
    else if componentInt b i < componentInt a i then 1
    else compareComponents a b rest

def compareVersion (a b : String) : Int :=
  let first := a.toList.splitOn '.'
  let second := b.toList.splitOn '.'
  compareComponents first second (List.range (max first.length second.length))

structure Registry (M : Type) where
  entries : AList fun _ : String => RegistryEntry M
  latest : AList fun _ : String => String

namespace Registry

variable {M : Type}

def new : Registry M :=
  ⟨∅, ∅⟩

def key (id version : String) : String :=
  id ++ "@" ++ version

def registerInfo (r : Registry M) (info : ModelInfo) (factory : Option M) :
    Registry M where
  entries := r.entries.insert (key info.id info.version) ⟨info, factory⟩
  latest :=
    match r.latest.lookup info.id with
    | none => r.latest.insert info.id info.version
    | some current =>
      if 0 ≤ compareVersion info.version current then
        r.latest.insert info.id info.version
      else r.latest

def get (r : Registry M) (id : String) : Option (RegistryEntry M) :=
  (r.latest.lookup id).map fun version =>
    (r.entries.lookup (key id version)).getD .zero

def getVersion (r : Registry M) (id version : String) : Option (RegistryEntry M) :=
  r.entries.lookup (key id version)

/-- The comparison of `List`; Go orders strings by their bytes, which is the
order of their characters. -/
def listBefore (a b : ModelInfo) : Bool :=
  if a.id ≠ b.id then a.id < b.id else a.version < b.version

/-- `List`, over the order in which the map is iterated and the sorting
function of the standard library -/
def list (r : Registry M) (order : MapOrder ModelInfo)
    (sortSlice : (ModelInfo → ModelInfo → Bool) → List ModelInfo →
      List ModelInfo) : List ModelInfo :=
  sortSlice listBefore (order.visit (r.entries.entries.map fun entry => entry.2.info))

inductive Registered : Registry M → Prop
  | new : Registered new
  | register {r : Registry M} (before : Registered r) (info : ModelInfo)
      (factory : Option M) : Registered (r.registerInfo info factory)

section

variable (r : Registry M) (info : ModelInfo) (factory : Option M)
include r info factory

theorem latest_registerInfo (id : String) : (id = info.id ∧ (∀ cur, r.latest.lookup id = some cur →
          0 ≤ compareVersion info.version cur) ∧
        (r.registerInfo info factory).latest.lookup id = some info.version) ∨
      ((id = info.id → ∃ cur, r.latest.lookup id = some cur ∧ compareVersion info.version cur < 0) ∧
        (r.registerInfo info factory).latest.lookup id = r.latest.lookup id) := by
  unfold registerInfo
  by_cases eq : id = info.id
  · subst eq
    cases known : r.latest.lookup info.id with
    | none => exact .inl ⟨rfl, nofun, lookup_insert _⟩
    | some cur =>
      by_cases notLower : 0 ≤ compareVersion info.version cur
      · refine .inl ⟨rfl, ?_, ?_⟩
        · rintro previous ⟨⟩
          exact notLower
        · simp only [notLower, if_true, lookup_insert]
      · refine .inr ⟨fun _ => ⟨cur, rfl, Int.not_le.mp notLower⟩, ?_⟩
        simp only [notLower, if_false, known]
  · refine .inr ⟨fun given => absurd given eq, ?_⟩
    split
    · exact lookup_insert_ne eq
    · split
      · exact lookup_insert_ne eq
      · rfl

theorem isSome_latest_registerInfo (id : String) (known : (r.latest.lookup id).isSome = true ∨ id = info.id) :
    ((r.registerInfo info factory).latest.lookup id).isSome = true := by
  rcases latest_registerInfo r info factory id with ⟨-, -, new⟩ | ⟨lower, kept⟩
  · rw [new]
    rfl
  · rw [kept]
    rcases known with known | eq
    · exact known
    · obtain ⟨cur, hit, -⟩ := lower eq
      rw [hit]
      rfl

theorem entries_registerInfo (name : String) : (r.registerInfo info factory).entries.lookup name =
      if name = key info.id info.version then some ⟨info, factory⟩
      else r.entries.lookup name := by
  by_cases eq : name = key info.id info.version
  · rw [if_pos eq, eq, registerInfo, lookup_insert]
  · rw [if_neg eq, registerInfo, lookup_insert_ne eq]

end

theorem Registered.filed {r : Registry M} (reg : r.Registered)
    {name : String} {x : RegistryEntry M} (hit : r.entries.lookup name = some x) :
    name = key x.info.id x.info.version ∧ (r.latest.lookup x.info.id).isSome = true := by
  induction reg with
  | new => simp [Registry.new] at hit
  | @register r old info factory ih =>
    rw [entries_registerInfo] at hit
    split at hit
    · rename_i eq
      cases hit
      exact ⟨eq, isSome_latest_registerInfo r info factory _ (.inr rfl)⟩
    · obtain ⟨filed, known⟩ := ih hit
      exact ⟨filed, isSome_latest_registerInfo r info factory _ (.inl known)⟩

theorem eq_empty_of_key_eq {id ver : String} (eq : key id ver = key id "") : ver = "" := by
  have lengths := congrArg String.length eq
  simp only [key, String.length_append] at lengths
  apply String.length_eq_zero_iff.mp
  simpa using lengths

end Registry

end Simulator
