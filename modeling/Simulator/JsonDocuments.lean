import Simulator.GoValues

/-!
# Documents in a column that reorders keys

How `encoding/json` writes and reads; a `Json.DocumentColumn` gives the fields of every
object back in an order of its own.
-/

namespace Simulator

open List Option

def parseDigits (digits : List Char) : Option Nat :=
  if digits ≠ [] ∧ digits.all Char.isDigit = true then
    some (Nat.ofDigitChars 10 digits 0)
  else
    none

/-- `strconv.ParseUint` in base ten, for numbers below `bound` -/
def parseUint (bound : Nat) (text : String) : Option Nat :=
  (parseDigits text.toList).filter fun n => n < bound

/-- `strconv.ParseInt` in base ten, on the text of a JSON number -/
def parseInt (text : String) : Option Int :=
  match text.toList with
  | '-' :: digits => (parseDigits digits).map fun n => -Int.ofNat n
  | digits => (parseDigits digits).map Int.ofNat

theorem parseDigits_toDigits (n : Nat) : parseDigits (Nat.toDigits 10 n) = some n := by
  have digits : (Nat.toDigits 10 n).all Char.isDigit = true := by
    rw [List.all_eq_true]
    intro c mem
    exact Nat.isDigit_of_mem_toDigits (by omega) (by omega) mem
  rw [parseDigits, if_pos ⟨Nat.toDigits_ne_nil, digits⟩, Nat.ofDigitChars_ten_toDigits]

@[simp]
theorem parseUint_repr {bound n : Nat} (below : n < bound) : parseUint bound n.repr = some n := by
  simp [parseUint, Nat.toList_repr, parseDigits_toDigits, below]

@[simp]
theorem parseInt_repr (i : Int) : parseInt i.repr = some i := by
  rw [Int.repr_eq_if]
  by_cases nonneg : 0 ≤ i
  · rw [if_pos nonneg, parseInt, Nat.toList_repr]
    split
    · rename_i digits spelled
      -- a digit is no minus sign
      have isDigit : '-'.isDigit = true :=
        Nat.isDigit_of_mem_toDigits (b := 10) (n := i.toNat) (by omega)
          (by omega) (by simp [spelled])
      exact absurd isDigit (by decide)
    · rw [parseDigits_toDigits]
      simp [Int.toNat_of_nonneg nonneg]
  · rw [if_neg nonneg]
    have spelled : ("-" ++ (-i).toNat.repr).toList = '-' :: Nat.toDigits 10 (-i).toNat := by
      simp [String.toList_append, Nat.toList_repr]
    rw [parseInt, spelled]
    simp only [parseDigits_toDigits, map_some, some.injEq]
    simp only [Int.ofNat_eq_natCast]
    omega

theorem lookup_eq_some_iff_mem {α β : Type} [DecidableEq α] {key : α}
    {value : β} {entries : List (α × β)} (nodup : (entries.map Prod.fst).Nodup) :
    entries.lookup key = some value ↔ (key, value) ∈ entries := by
  induction entries with
  | nil => simp
  | cons x rest ih =>
    obtain ⟨other, hit⟩ := x
    obtain ⟨apart, restNodup⟩ := nodup_cons.mp nodup
    by_cases eq : key = other
    · subst eq
      have absent : (key, value) ∉ rest := fun mem =>
        apart (mem_map.mpr ⟨_, mem, rfl⟩)
      simp [lookup, absent, eq_comm]
    · have differ : (key == other) = false := by simpa using eq
      simp [lookup, differ, eq, ih restNodup]

namespace Json

def ofInt (i : Int) : Json :=
  .number i.repr

def ofNat (n : Nat) : Json :=
  .number n.repr

def slice {α : Type} (write : α → Json) : List α → Json
  | [] => .null
  | element :: rest => .array (write element :: rest.map write)

def present (members : List (String × Option Json)) : List (String × Json) :=
  members.filterMap fun member => member.2.map (Prod.mk member.1)

def struct (members : List (String × Option Json)) : Json :=
  .object (present members)

def fieldNamed (name : String) (fields : List (String × Json)) : Option Json :=
  (fields.reverse.find? fun field =>
    PayloadEnvelope.namesField field.1 name).map Prod.snd

def readMember {α : Type} (fields : List (String × Json)) (name : String)
    (zero : α) (read : Json → Option α) : Option α :=
  match fieldNamed name fields with
  | none => some zero
  | some value => read value

/-- Decode a struct from its fields; `null` leaves it zero. -/
def readStruct {α : Type} (read : List (String × Json) → Option α) :
    Json → Option α
  | .null => read []
  | .object fields => read fields
  | _ => none

def readString : Json → Option String
  | .null => some ""
  | .string text => some text
  | _ => none

/-- Decode an `int`. -/
def readInt : Json → Option Int
  | .null => some 0
  | .number text => parseInt text
  | _ => none

def readUInt32 : Json → Option UInt32
  | .null => some 0
  | .number text => (parseUint UInt32.size text).map UInt32.ofNat
  | _ => none

def readUInt64 : Json → Option UInt64
  | .null => some 0
  | .number text => (parseUint UInt64.size text).map UInt64.ofNat
  | _ => none

def readSlice {α : Type} (read : Json → Option α) : Json → Option (List α)
  | .null => some []
  | .array elements => elements.mapM read
  | _ => none

/-- Decode into a `json.RawMessage`, which keeps the document. -/
def readRaw (document : Json) : Option RawMessage :=
  some (some document)

structure DocumentColumn where
  arrange : List (String × Json) → List (String × Json)
  perm : ∀ fields, (arrange fields).Perm fields

namespace DocumentColumn

variable (column : DocumentColumn)

mutual

def stored : Json → Json
  | .null => .null
  | .bool value => .bool value
  | .number text => .number text
  | .string text => .string text
  | .array elements => .array (storedElements elements)
  | .object fields => .object (column.arrange (storedFields fields))

def storedElements : List Json → List Json
  | [] => []
  | element :: rest => stored element :: storedElements rest

def storedFields : List (String × Json) → List (String × Json)
  | [] => []
  | (name, value) :: rest => (name, stored value) :: storedFields rest

end

theorem storedElements_eq_map (elements : List Json) :
    column.storedElements elements = elements.map column.stored := by
  induction elements with
  | nil => rfl
  | cons x rest ih => rw [storedElements, ih, map_cons]

theorem storedFields_eq_map (fields : List (String × Json)) :
    column.storedFields fields = fields.map fun field => (field.1, column.stored field.2) := by
  induction fields with
  | nil => rfl
  | cons field rest ih => rw [storedFields, ih, map_cons]

@[simp]
theorem stored_string (text : String) : column.stored (.string text) = .string text := by
  rw [stored]

@[simp]
theorem stored_number (text : String) : column.stored (.number text) = .number text := by
  rw [stored]

@[simp]
theorem stored_ofInt (i : Int) : column.stored (ofInt i) = ofInt i :=
  column.stored_number i.repr

@[simp]
theorem stored_ofNat (n : Nat) : column.stored (ofNat n) = ofNat n :=
  column.stored_number n.repr

@[simp]
theorem stored_array (elements : List Json) :
    column.stored (.array elements) = .array (elements.map column.stored) := by
  rw [stored, storedElements_eq_map]

@[simp]
theorem stored_slice {α : Type} (write : α → Json) (elements : List α) :
    column.stored (slice write elements) = slice (fun x => column.stored (write x)) elements := by
  cases elements with
  | nil => rfl
  | cons x rest => simp [slice]

end DocumentColumn

variable {α β : Type} {write : α → Json} {back : α → β} {elements : List α}

theorem mapM_eq_some_of_perm {γ : Type} {write : α → γ} {read : γ → Option β}
    {documents : List γ} (perm : documents.Perm (elements.map write))
    (reads : ∀ x ∈ elements, read (write x) = some (back x)) :
    ∃ results, documents.mapM read = some results ∧ results.Perm (elements.map back) := by
  have whole : (elements.map write).filterMap read = elements.map back := by
    rw [filterMap_map, ← filterMap_eq_map]
    exact filterMap_congr fun x mem => reads x mem
  have each : ∀ doc ∈ documents, ∃ res, read doc = some res := by
    intro doc mem
    obtain ⟨x, lt, rfl⟩ := mem_map.mp (perm.mem_iff.mp mem)
    exact ⟨_, reads x lt⟩
  refine ⟨documents.filterMap read, ?_, whole ▸ perm.filterMap read⟩
  clear perm
  induction documents with
  | nil => rfl
  | cons doc rest ih =>
    obtain ⟨res, hit⟩ := each doc (by simp)
    rw [mapM_cons, hit, ih fun other mem => each other (by simp [mem])]
    simp [hit]

variable {read : Json → Option β} {name : String} {value : Json}

section

variable (reads : ∀ element ∈ elements, read (write element) = some (back element))
include reads

theorem mapM_map_eq_some : (elements.map write).mapM read = some (elements.map back) := by
  rw [mapM_map]
  exact mapM_some_eq_map reads

theorem readSlice_slice :
    readSlice read (slice write elements) = some (elements.map back) := by
  cases elements with
  | nil => rfl
  | cons x rest => exact mapM_map_eq_some reads

end

theorem readSlice_slice_self {read : Json → Option α}
    (reads : ∀ x, read (write x) = some x) (elements : List α) :
    readSlice read (slice write elements) = some elements := by
  have whole : readSlice read (slice write elements) =
      some (elements.map id) := readSlice_slice fun x _ => reads x
  rw [whole, List.map_id]

@[simp]
theorem readString_string (text : String) : readString (.string text) = some text :=
  rfl

@[simp]
theorem readInt_ofInt (i : Int) : readInt (ofInt i) = some i :=
  parseInt_repr i

@[simp]
theorem readUInt32_ofNat (n : UInt32) : readUInt32 (ofNat n.toNat) = some n := by
  simp [readUInt32, ofNat, parseUint_repr n.toNat_lt_size]

@[simp]
theorem readUInt64_ofNat (n : UInt64) : readUInt64 (ofNat n.toNat) = some n := by
  simp [readUInt64, ofNat, parseUint_repr n.toNat_lt_size]

structure WellNamed (names : List String) : Prop where
  nodup : names.Nodup
  lower : ∀ name ∈ names, name.toList.map Char.toLower = name.toList

instance (names : List String) : Decidable (WellNamed names) :=
  decidable_of_iff (names.Nodup ∧ ∀ name ∈ names, name.toList.map Char.toLower = name.toList)
    ⟨fun ⟨nodup, lower⟩ => ⟨nodup, lower⟩, fun ⟨nodup, lower⟩ => ⟨nodup, lower⟩⟩

theorem WellNamed.of_subperm {names others : List String}
    (named : WellNamed names) (part : others.Subperm names) :
    WellNamed others where
  nodup := by
    obtain ⟨eq, perm, sublist⟩ := part
    exact perm.nodup_iff.mp (named.nodup.sublist sublist)
  lower name mem := named.lower name (part.subset mem)

theorem names_present_sublist (members : List (String × Option Json)) :
    ((present members).map Prod.fst).Sublist (members.map Prod.fst) := by
  induction members with
  | nil => exact .slnil
  | cons mem rest ih =>
    obtain ⟨name, value⟩ := mem
    cases value with
    | none => exact ih.cons name
    | some value => exact ih.cons_cons name

theorem fieldNamed_eq_some_iff {fields : List (String × Json)}
    (named : WellNamed (fields.map Prod.fst)) :
    fieldNamed name fields = some value ↔ (name, value) ∈ fields := by
  have names : ∀ field ∈ fields,
      PayloadEnvelope.namesField field.1 name = true ↔ field.1 = name := by
    intro field mem
    have lower := named.lower field.1 (mem_map_of_mem mem)
    simp [PayloadEnvelope.namesField, lower, String.toList_inj]
  constructor
  · intro hit
    obtain ⟨field, searched, rfl⟩ := map_eq_some_iff.mp hit
    have mem : field ∈ fields := by
      simpa using mem_of_find?_eq_some searched
    have matched := find?_some searched
    rwa [← (names field mem).mp matched]
  · intro mem
    cases searched : fields.reverse.find? fun field =>
        PayloadEnvelope.namesField field.1 name with
    | none =>
      have missed := find?_eq_none.mp searched (name, value) (by simpa using mem)
      exact absurd ((names _ mem).mpr rfl) missed
    | some field =>
      have lt : field ∈ fields := by
        simpa using mem_of_find?_eq_some searched
      have matched := find?_some searched
      have only := inj_on_of_nodup_map named.nodup lt mem ((names field lt).mp matched)
      simp [fieldNamed, searched, only]

theorem mem_present {members : List (String × Option Json)} :
    (name, value) ∈ present members ↔ (name, some value) ∈ members := by
  simp [present, mem_filterMap]

variable {column : DocumentColumn} {members : List (String × Option Json)}

theorem fieldNamed_stored (named : WellNamed (members.map Prod.fst)) (name : String) :
    fieldNamed name (column.arrange (column.storedFields (present members))) =
      (members.lookup name).join.map column.stored := by
  have perm := column.perm (column.storedFields (present members))
  have sameNames : (column.storedFields (present members)).map Prod.fst =
      (present members).map Prod.fst := by
    simp [DocumentColumn.storedFields_eq_map, Function.comp_def]
  have arranged := named.of_subperm <| (perm.map Prod.fst).subperm.trans
      (sameNames ▸ (names_present_sublist members).subperm)
  apply ext
  intro value
  rw [fieldNamed_eq_some_iff arranged, perm.mem_iff, DocumentColumn.storedFields_eq_map]
  simp only [List.mem_map, Prod.mk.injEq, map_eq_some_iff,
    join_eq_some_iff, lookup_eq_some_iff_mem named.nodup]
  constructor
  · rintro ⟨⟨other, wrote⟩, mem, rfl, rfl⟩
    exact ⟨wrote, mem_present.mp mem, rfl⟩
  · rintro ⟨wrote, mem, rfl⟩
    exact ⟨(name, wrote), mem_present.mpr mem, rfl, rfl⟩

theorem readMember_stored
    (named : WellNamed (members.map Prod.fst)) (name : String) (zero : α) (read : Json → Option α) :
    readMember (column.arrange (column.storedFields (present members))) name zero read =
      match (members.lookup name).join with
      | none => some zero
      | some value => read (column.stored value) := by
  rw [readMember, fieldNamed_stored named]
  cases (members.lookup name).join <;> rfl

theorem readStruct_stored (read : List (String × Json) → Option α) :
    readStruct read (column.stored (struct members)) =
      read (column.arrange (column.storedFields (present members))) :=
  rfl

end Json

end Simulator
