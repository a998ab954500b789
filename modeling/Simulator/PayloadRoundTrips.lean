import Simulator.World

/-!
# Payloads of events in snapshots

The reader takes every object with a text under `__t` for an envelope.
-/

namespace Simulator

open List

variable {G : GoTypes}

/-- The types a sequence of `RegisterPayloadType` calls leaves behind, by
name. -/
def registeredTypes (registered : List G.Ty) : String → Option G.Ty :=
  registered.foldl (fun types t => Function.update types (G.typeName t) (some t)) fun _ => none

theorem registeredTypes_isSome {reg : List G.Ty} {t : G.Ty} (mem : t ∈ reg) :
    (registeredTypes reg (G.typeName t)).isSome = true := by
  induction reg using reverseRecOn with
  | nil => cases mem
  | append_singleton reg last ih =>
    rw [registeredTypes, foldl_append]
    by_cases eq : G.typeName t = G.typeName last
    · simp [eq]
    · have older : t ∈ reg := by
        rcases mem_append.mp mem with old | new
        · exact old
        · exact absurd (congrArg G.typeName (mem_singleton.mp new)) eq
      rw [foldl_cons, foldl_nil, Function.update_of_ne eq]
      exact ih older

/-- `json.RawMessage` keeps a document and decodes every one to itself. -/
structure GoTypes.LawfulRaw (G : GoTypes) : Prop where
  keeps : Function.Injective G.ofRaw
  decodes : ∀ document, G.unmarshal G.rawMessage document = .ok (G.ofRaw document)

namespace PayloadEnvelope

def Enveloped (document : Json) : Prop :=
  ∃ env, unmarshal document = some env ∧ env.type ≠ ""

variable {env : PayloadEnvelope} {data : Json}

theorem data_of_decodeField {next : PayloadEnvelope}
    {field : String × Json} (dec : decodeField env field = some next) :
    next.data = env.data ∨ next.data = some field.2 := by
  unfold decodeField at dec
  split at dec
  · split at dec
    · cases dec
      exact .inl rfl
    · cases dec
      exact .inl rfl
    · cases dec
  · split at dec
    · cases dec
      exact .inr rfl
    · cases dec
      exact .inl rfl

theorem data_of_foldlM {fields : List (String × Json)} {last : PayloadEnvelope}
    (read : fields.foldlM decodeField env = some last) (hit : last.data = some data) :
    env.data = some data ∨ ∃ name, (name, data) ∈ fields := by
  induction fields generalizing env with
  | nil =>
    cases read
    exact .inl hit
  | cons field fields ih =>
    rw [foldlM_cons] at read
    obtain ⟨next, dec, rest⟩ := Option.bind_eq_some_iff.mp read
    rcases ih rest with held | ⟨name, mem⟩
    · rcases data_of_decodeField dec with kept | taken
      · exact .inl (kept.symm.trans held)
      · cases taken.symm.trans held
        exact .inr ⟨field.1, mem_cons_self⟩
    · exact .inr ⟨name, mem_cons_of_mem _ mem⟩

theorem sizeOf_data_lt {document : Json}
    (read : unmarshal document = some env) (found : env.data = some data) :
    sizeOf data < sizeOf document := by
  cases document with
  | null =>
    cases read
    cases found
  | object fields =>
    rcases data_of_foldlM read found with held | ⟨name, member⟩
    · cases held
    · have inside := sizeOf_lt_of_mem member
      simp only [Prod.mk.sizeOf_spec, Json.object.sizeOf_spec] at inside ⊢
      omega
  | bool value | number text | string text | array elements => cases read

end PayloadEnvelope

def Recognised (registered : List G.Ty) (t : G.Ty) (document : Json) : Prop :=
  if t ∈ registered then registeredTypes registered (G.typeName t) = some t
  else
    match registeredTypes registered (G.typeName t) with
    | none => ¬ PayloadEnvelope.Enveloped document
    | some other => other = G.rawMessage

def restoredPayload (registered : List G.Ty) (t : G.Ty) (value : G.Value t)
    (document : Json) : G.Any :=
  if t ∈ registered then ⟨t, value⟩ else ⟨G.rawMessage, G.ofRaw document⟩

section Reading

variable {types : String → Option G.Ty} {t other : G.Ty} {value : G.Value t} {document : Json}

theorem unmarshalPayload_of_taken (enc : G.marshal value = .ok document)
    (taken : types (G.typeName t) = some other) :
    ∃ raw, marshalPayload (some ⟨t, value⟩) types = .ok raw ∧ unmarshalPayload raw types =
        match G.unmarshal other document with
        | .error msg => .error (.decode (G.typeName t) msg)
        | .ok hit => .ok (some ⟨other, hit⟩) := by
  refine ⟨some (PayloadEnvelope.marshal ⟨G.typeName t, some document⟩), ?_, ?_⟩
  · simp [marshalPayload, enc, taken, bind, Except.bind, pure, Except.pure]
  · simp only [unmarshalPayload, PayloadEnvelope.unmarshal_marshal,
      G.typeName_ne t, if_false, decodeEnvelope, taken, GoTypes.unmarshalRaw]
    cases G.unmarshal other document <;> rfl

theorem marshalPayload_of_free (enc : G.marshal value = .ok document)
    (free : types (G.typeName t) = none) :
    marshalPayload (some ⟨t, value⟩) types = .ok (some document) := by
  simp [marshalPayload, enc, free, bind, Except.bind, pure, Except.pure]

theorem unmarshalPayload_raw_iff (lawful : G.LawfulRaw) :
    unmarshalPayload (some document) types = .ok (some ⟨G.rawMessage, G.ofRaw document⟩) ↔
      ¬ PayloadEnvelope.Enveloped document := by
  constructor
  · rintro read ⟨env, dec, named⟩
    simp only [unmarshalPayload, dec, if_neg named, decodeEnvelope] at read
    split at read
    · cases read
    · rename_i hit known
      split at read
      · cases read
      · rename_i content unmarshalled
        -- the data inside would have to be the whole document
        simp only [Functor.map, Except.map, Except.ok.injEq, Option.some.injEq] at read
        obtain ⟨rfl, sameValue⟩ := Sigma.mk.inj read
        cases eq_of_heq sameValue
        cases inner : env.data with
        | none =>
          rw [inner] at unmarshalled
          cases unmarshalled
        | some data =>
          rw [inner] at unmarshalled
          have kept : G.ofRaw data = G.ofRaw document := by
            have decodes := lawful.decodes data
            rw [GoTypes.unmarshalRaw] at unmarshalled
            rw [decodes] at unmarshalled
            exact Except.ok.inj unmarshalled
          have smaller := PayloadEnvelope.sizeOf_data_lt dec inner
          rw [lawful.keeps kept] at smaller
          exact Nat.lt_irrefl _ smaller
  · intro plain
    cases dec : PayloadEnvelope.unmarshal document with
    | none => simp [unmarshalPayload, dec]
    | some env =>
      have unnamed : env.type = "" := by
        by_contra named
        exact plain ⟨env, dec, named⟩
      simp [unmarshalPayload, dec, unnamed]

end Reading

theorem payload_restored_iff (lawful : G.LawfulRaw) (registered : List G.Ty) :
    (∃ raw, marshalPayload (G := G) none (registeredTypes registered) = .ok raw ∧
      unmarshalPayload raw (registeredTypes registered) = .ok none) ∧
    ∀ (t : G.Ty) (value : G.Value t) (document : Json), G.marshal value = .ok document →
      (t ∈ registered → GoTypes.RoundTrips value) →
      ((∃ raw, marshalPayload (some ⟨t, value⟩) (registeredTypes registered) = .ok raw ∧
        unmarshalPayload raw (registeredTypes registered) =
          .ok (some (restoredPayload registered t value document))) ↔
        Recognised registered t document) := by
  refine ⟨⟨none, rfl, rfl⟩, ?_⟩
  intro t value document enc roundTrips
  by_cases mem : t ∈ registered
  · rw [restoredPayload, if_pos mem, Recognised, if_pos mem]
    obtain ⟨other, taken⟩ := Option.isSome_iff_exists.mp (registeredTypes_isSome mem)
    obtain ⟨raw, wrote, read⟩ := unmarshalPayload_of_taken enc taken
    constructor
    · rintro ⟨again, rewritten, back⟩
      cases wrote.symm.trans rewritten
      rw [read] at back
      split at back
      · cases back
      · cases back
        exact taken
    · intro known
      cases taken.symm.trans known
      refine ⟨raw, wrote, ?_⟩
      rw [read, roundTrips mem document enc]
  · rw [restoredPayload, if_neg mem, Recognised, if_neg mem]
    cases taken : registeredTypes registered (G.typeName t) with
    | none =>
      have wrote := marshalPayload_of_free enc taken
      simp [wrote, unmarshalPayload_raw_iff lawful]
    | some other =>
      obtain ⟨raw, wrote, read⟩ := unmarshalPayload_of_taken enc taken
      constructor
      · rintro ⟨again, rewritten, back⟩
        cases wrote.symm.trans rewritten
        rw [read] at back
        split at back
        · cases back
        · cases back
          rfl
      · rintro rfl
        refine ⟨raw, wrote, ?_⟩
        rw [read, lawful.decodes]

theorem flagTypes_lawfulRaw : flagTypes.LawfulRaw where
  keeps _ _ eq := eq
  decodes _ := rfl

theorem payload_restored_iff_flag :
    flagTypes.LawfulRaw ∧
    ∃ raw, marshalPayload (G := flagTypes) (some ⟨.flag, true⟩)
        (registeredTypes (G := flagTypes) [.flag]) = .ok raw ∧
      unmarshalPayload raw (registeredTypes (G := flagTypes) [.flag]) =
        .ok (some (restoredPayload (G := flagTypes) [.flag] .flag true (.bool true))) := by
  refine ⟨flagTypes_lawfulRaw, ?_⟩
  exact ((payload_restored_iff flagTypes_lawfulRaw [.flag]).2 .flag true
    (.bool true) rfl fun _ => flagTypes_roundTrips _).mpr rfl

theorem tagged_payload_misread :
    marshalPayload (G := flagTypes) (some ⟨.message, .object [("__t", .string "order")]⟩)
        (registeredTypes []) = .ok (some (.object [("__t", .string "order")])) ∧
    unmarshalPayload (some (.object [("__t", .string "order")]))
        (registeredTypes (G := flagTypes) []) = .error (.notRegistered "order") := by
  exact ⟨rfl, rfl⟩

end Simulator
