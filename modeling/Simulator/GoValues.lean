import Mathlib

/-!
# Floating-point times, JSON documents and dynamically typed values

A `float64` is its bit pattern.  `GoTypes` stands for the types of a model with their
JSON codecs, and a value carries its type.
-/

namespace Simulator

open List

structure Float64 where
  bits : UInt64
deriving DecidableEq, Repr

namespace Float64

def magnitude (x : Float64) : Nat :=
  x.bits.toNat % 2 ^ 63

def infinite : Nat :=
  2047 * 2 ^ 52

def isNaN (x : Float64) : Bool :=
  infinite < x.magnitude

def isFinite (x : Float64) : Bool :=
  x.magnitude < infinite

def rank (x : Float64) : Int :=
  if 2 ^ 63 ≤ x.bits.toNat then -x.magnitude else x.magnitude

/-- `x < y` -/
def less (x y : Float64) : Bool :=
  !x.isNaN && !y.isNaN && x.rank < y.rank

/-- `x == y` -/
def equal (x y : Float64) : Bool :=
  !x.isNaN && !y.isNaN && x.rank == y.rank

def zero : Float64 :=
  ⟨0⟩

theorem not_isNaN_of_isFinite {x : Float64} (finite : x.isFinite = true) : x.isNaN = false := by
  simp only [isFinite, isNaN, decide_eq_true_eq, decide_eq_false_iff_not] at finite ⊢
  omega

def unsupportedText (x : Float64) : String :=
  if x.isNaN then "NaN"
  else if 2 ^ 63 ≤ x.bits.toNat then "-Inf"
  else "+Inf"

end Float64

inductive Json
  | null
  | bool (value : Bool)
  | number (text : String)
  | string (text : String)
  | array (elements : List Json)
  | object (fields : List (String × Json))
deriving Repr

/-- `json.RawMessage`; `none` is an empty message. -/
abbrev RawMessage := Option Json

def unexpectedEnd : String :=
  "unexpected end of JSON input"

/-- `json.Marshal` of a slice: `null` for a nil slice, an array otherwise. -/
def marshalSlice {α : Type} (marshal : α → Except String Json)
    (allocated : Bool) (elements : List α) : Except String Json :=
  if allocated then Json.array <$> elements.mapM marshal else pure .null

/-- `json.Unmarshal` into a slice. -/
def unmarshalSlice {α : Type} (unmarshal : Json → Except String α) :
    RawMessage → Except String (List α)
  | none => throw unexpectedEnd
  | some .null => pure []
  | some (.array elements) => elements.mapM unmarshal
  | some _ => throw "json: cannot unmarshal value into Go value of slice type"

structure PayloadEnvelope where
  type : String
  data : RawMessage

namespace PayloadEnvelope

def marshal (env : PayloadEnvelope) : Json :=
  .object [("__t", .string env.type), ("data", env.data.getD .null)]

def namesField (name field : String) : Bool :=
  name.toList.map Char.toLower = field.toList

/-- Decode one field of an object into an envelope.  `null` leaves a string
alone and any other type is an error. -/
def decodeField (env : PayloadEnvelope) (field : String × Json) : Option PayloadEnvelope :=
  if namesField field.1 "__t" then
    match field.2 with
    | .string text => some { env with type := text }
    | .null => some env
    | _ => none
  else if namesField field.1 "data" then
    some { env with data := some field.2 }
  else
    some env

/-- `json.Unmarshal` into an envelope; `none` is a decoding error. -/
def unmarshal : Json → Option PayloadEnvelope
  | .null => some ⟨"", none⟩
  | .object fields => fields.foldlM decodeField ⟨"", none⟩
  | _ => none

theorem unmarshal_marshal (name : String) (data : Json) :
    unmarshal (marshal ⟨name, some data⟩) = some ⟨name, some data⟩ := by
  have typeField : namesField "__t" "__t" = true := by decide
  have dataField : namesField "data" "data" = true := by decide
  have differ : namesField "data" "__t" = false := by decide
  simp [marshal, unmarshal, decodeField, typeField, dataField, differ]

end PayloadEnvelope

variable {α β : Type} {xs : List α} {ys : List β}

theorem mapM_eq_ok_iff {ε : Type} {f : α → Except ε β} :
    xs.mapM f = .ok ys ↔ List.Forall₂ (fun x y => f x = .ok y) xs ys := by
  induction xs generalizing ys with
  | nil => cases ys <;> simp [pure, Except.pure]
  | cons x xs ih =>
    rw [List.mapM_cons]
    cases first : f x with
    | error msg =>
      cases ys <;> simp [bind, Except.bind, first]
    | ok y =>
      cases rest : xs.mapM f with
      | error msg =>
        cases ys <;> simp [bind, Except.bind, ← ih, rest]
      | ok tail =>
        cases ys <;> simp [bind, Except.bind, pure, Except.pure, ← ih, rest, first]

theorem mapM_some_eq_map {f : α → Option β} {g : α → β} (agree : ∀ x ∈ xs, f x = some (g x)) :
    xs.mapM f = some (xs.map g) := by
  induction xs with
  | nil => rfl
  | cons x xs ih =>
    rw [mapM_cons, agree x mem_cons_self, ih fun y mem => agree y (mem_cons_of_mem _ mem)]
    rfl

theorem exists_of_mem_right {R : α → β → Prop}
    (related : List.Forall₂ R xs ys) {y : β} (mem : y ∈ ys) : ∃ x ∈ xs, R x y := by
  induction related with
  | nil => cases mem
  | cons first rest ih =>
    rcases mem_cons.mp mem with rfl | inRest
    · exact ⟨_, by simp, first⟩
    · obtain ⟨x, lt, holds⟩ := ih inRest
      exact ⟨x, by simp [lt], holds⟩

/-- The types a model uses, with `reflect.Type.String` and the JSON codec of
each.  `rawMessage` is the type of undecoded payloads. -/
structure GoTypes where
  Ty : Type
  [decidableTy : DecidableEq Ty]
  Value : Ty → Type
  typeName : Ty → String
  typeName_ne : ∀ t, typeName t ≠ ""
  marshal : {t : Ty} → Value t → Except String Json
  unmarshal : (t : Ty) → Json → Except String (Value t)
  rawMessage : Ty
  ofRaw : Json → Value rawMessage

namespace GoTypes

variable (G : GoTypes)

instance : DecidableEq G.Ty :=
  G.decidableTy

/-- A value of some type, as stored in an `any`. -/
abbrev Any :=
  Σ t : G.Ty, G.Value t

/-- `json.Unmarshal` into a fresh value of type `t`. -/
def unmarshalRaw (t : G.Ty) : RawMessage → Except String (G.Value t)
  | none => throw unexpectedEnd
  | some document => G.unmarshal t document

variable {G}

def RoundTrips {t : G.Ty} (value : G.Value t) : Prop :=
  ∀ document, G.marshal value = .ok document → G.unmarshal t document = .ok value

def Reencodes (t : G.Ty) (document : Json) : Prop :=
  ∀ value, G.unmarshal t document = .ok value → G.marshal value = .ok document

variable {t : G.Ty} {values : List (G.Value t)}

theorem mapM_unmarshal {documents : List Json} (roundTrips : ∀ v ∈ values, RoundTrips v)
    (enc : values.mapM G.marshal = .ok documents) :
    documents.mapM (G.unmarshal t) = .ok values := by
  rw [mapM_eq_ok_iff] at enc ⊢
  induction enc with
  | nil => exact .nil
  | cons first rest ih =>
    exact .cons (roundTrips _ (by simp) _ first) (ih fun v mem => roundTrips v (by simp [mem]))

theorem unmarshalSlice_marshalSlice {allocated : Bool}
    {doc : Json} (filled : values ≠ [] → allocated = true) (roundTrips : ∀ v ∈ values, RoundTrips v)
    (enc : marshalSlice G.marshal allocated values = .ok doc) :
    unmarshalSlice (G.unmarshal t) (some doc) = .ok values := by
  cases allocated with
  | false =>
    have empty : values = [] := by
      by_contra nonempty
      cases filled nonempty
    cases enc
    rw [empty]
    rfl
  | true =>
    simp only [marshalSlice, if_true] at enc
    cases all : values.mapM G.marshal with
    | error msg => rw [all] at enc; cases enc
    | ok documents =>
      rw [all] at enc
      cases enc
      exact mapM_unmarshal roundTrips all

end GoTypes

inductive FlagTy
  | flag
  | message
deriving DecidableEq

def flagTypes : GoTypes where
  Ty := FlagTy
  Value
    | .flag => Bool
    | .message => Json
  typeName
    | .flag => "model.Flag"
    | .message => "json.RawMessage"
  typeName_ne t := by cases t <;> decide
  marshal {t} value :=
    match t, value with
    | .flag, flag => .ok (.bool flag)
    | .message, document => .ok document
  unmarshal
    | .flag, .bool flag => .ok flag
    | .flag, _ => .error "json: cannot unmarshal into model.Flag"
    | .message, document => .ok document
  rawMessage := .message
  ofRaw document := document

theorem flagTypes_roundTrips {t : FlagTy} (v : flagTypes.Value t) :
    GoTypes.RoundTrips v := by
  intro doc enc
  cases t with
  | flag | message => cases enc; rfl

end Simulator
