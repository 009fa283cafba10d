import Rsb.EventCollections.MalformedMaps

/-!
What becomes of wire data that nobody has written.

The converters of a process in one place, with what each of them owes to a wire and what
the wire has to be like for that.
-/

namespace Rsb.Payloads

open Library Transport.Socket EventCollections

variable {δ : Type}

/-- The converters whose wire data has a form. -/
inductive PayloadConverter
  | uint32 | uint64 | int32 | int64 | float | double | bool | eventId | eventsByScopeMap

/-- The converters get the names of their data types from `rsc::runtime::typeName` and
their messages from protobuf. Of the messages for maps `mapConverter` has what is read,
and `mapAccepted` is what `ParseFromString` returns. -/
structure Environment (δ : Type) where
  dataType : PayloadConverter → Bytes
  eventIdMessage : ProtocolBuffer Protocol.EventId
  mapConverter : EventsByScopeMapConverter δ
  mapAccepted : Bytes → Bool
  readings : ℕ → ℕ → Readings
  again : ℕ → ℕ → Readings

namespace Environment

/-- The converter throws, or returns something that comes back; and it throws if the wire
has not the size of a value, or protobuf refuses it. -/
def Lawful (env : Environment δ) (wire : Bytes) : PayloadConverter → Prop
  | .uint32 => let c := uint32Converter (env.dataType .uint32)
      Sound c c (bytes "uint32") wire (wire.length ≠ 4)
  | .uint64 => let c := uint64Converter (env.dataType .uint64)
      Sound c c (bytes "uint64") wire (wire.length ≠ 8)
  | .int32 => let c := int32Converter (env.dataType .int32)
      Sound c c (bytes "int32") wire (wire.length ≠ 4)
  | .int64 => let c := int64Converter (env.dataType .int64)
      Sound c c (bytes "int64") wire (wire.length ≠ 8)
  | .float => let c := floatConverter (env.dataType .float)
      Sound c c (bytes "float") wire (wire.length ≠ 4)
  | .double => let c := doubleConverter (env.dataType .double)
      Sound c c (bytes "double") wire (wire.length ≠ 8)
  | .bool => let c := boolConverter (env.dataType .bool)
      Sound c c (bytes "bool") wire (wire.length ≠ 1)
  | .eventId => let c := eventIdConverter env.eventIdMessage (env.dataType .eventId)
      Sound c c env.eventIdMessage.wireSchema wire ((env.eventIdMessage.parseFromString wire).1 = false)
  | .eventsByScopeMap => Sound (env.mapConverter.toConverter env.readings)
      (env.mapConverter.toConverter env.again) EventsByScopeMapConverter.wireSchema wire
      (env.mapAccepted wire = false)

/-- What the converters rely on. Only the one for `bool` looks at all of its wire. -/
def WellFormed (env : Environment δ) (wire : Bytes) : PayloadConverter → Prop
  | .uint32 | .int32 | .float => wire.length = 4
  | .uint64 | .int64 | .double => wire.length = 8
  | .bool => True
  | .eventId => (env.eventIdMessage.parseFromString wire).1 = true ∧
      16 ≤ (env.eventIdMessage.parseFromString wire).2.senderId.length
  | .eventsByScopeMap => env.mapConverter.WellFormed (env.mapAccepted wire)
      (env.mapConverter.protobuf.parseFromString wire)

/-- Protobuf reads what it has written for the value of a wire, and the clock is past its
epoch. -/
def ReadsBack (env : Environment δ) (wire : Bytes) : PayloadConverter → Prop
  | .eventId => ∀ id, toEventId (env.eventIdMessage.parseFromString wire).2 = .ok id →
      env.eventIdMessage.parseFromString (env.eventIdMessage.serializeToString (ofEventId id)) =
        (true, ofEventId id)
  | .eventsByScopeMap => (∀ i j, (env.readings i j).Running) ∧ (∀ i j, (env.again i j).Running) ∧
      ∀ dataMap sets, env.mapConverter.fromScopeSets env.readings 0
          (env.mapConverter.protobuf.parseFromString wire) .empty = .ok dataMap →
        env.mapConverter.toScopeSets dataMap.entries = .ok sets →
          env.mapConverter.protobuf.RoundTrips sets
  | _ => True

/-- The converters do what they owe to a wire if and only if it is well formed. -/
theorem lawful_iff (env : Environment δ) {wire : Bytes} {k : PayloadConverter}
    (h : env.ReadsBack wire k) : env.Lawful wire k ↔ env.WellFormed wire k := by
  cases k with
  | uint32 => exact (integer_fixedSize ⟨4, false⟩ _ _).sound_iff wire
  | uint64 => exact (integer_fixedSize ⟨8, false⟩ _ _).sound_iff wire
  | int32 => exact (integer_fixedSize ⟨4, true⟩ _ _).sound_iff wire
  | int64 => exact (integer_fixedSize ⟨8, true⟩ _ _).sound_iff wire
  | float => exact (floatingPoint_fixedSize 4 _ _).sound_iff wire
  | double => exact (floatingPoint_fixedSize 8 _ _).sound_iff wire
  | bool => exact iff_of_true (bool_sound _ wire) trivial
  | eventId => exact eventId_sound_iff env.eventIdMessage _ wire h
  | eventsByScopeMap =>
      exact EventsByScopeMapConverter.map_sound_iff h.1 h.2.1 wire (env.mapAccepted wire) h.2.2

end Environment

/-! ### An id, a map, and five bytes for four -/

/-- An id as it is on the wire. -/
def sampleIdWire : Bytes := 10 :: 16 :: (List.replicate 16 34 ++ [16, 7])

def sampleMapWire : Bytes := EventsByScopeMapConverter.sampleWire 2 3 4

/-- Protobuf as it is on these two wires. -/
def sampleEnvironment : Environment Bytes where
  dataType
    | .uint32 => bytes "unsigned int"
    | .uint64 => bytes "unsigned long"
    | .int32 => bytes "int"
    | .int64 => bytes "long"
    | .float => bytes "float"
    | .double => bytes "double"
    | .bool => bytes "bool"
    | .eventId => bytes "rsb::EventId"
    | .eventsByScopeMap => (EventsByScopeMapConverter.sampleConverter [] []).dataType
  eventIdMessage := {
    typeName := bytes "rsb::protocol::EventId"
    serializeToString _ := sampleIdWire
    parseFromString b :=
      if b = sampleIdWire then (true, ⟨List.replicate 16 34, 7⟩) else (false, ⟨[], 0⟩) }
  mapConverter := EventsByScopeMapConverter.sampleConverter
    [⟨bytes "/b/", [EventsByScopeMapConverter.sampleNotification 2 3 4]⟩] sampleMapWire
  mapAccepted b := b == sampleMapWire
  readings := EventsByScopeMapConverter.sampleReadings
  again := EventsByScopeMapConverter.sampleReadings

theorem wellFormed_sampleMapWire :
    sampleEnvironment.WellFormed sampleMapWire .eventsByScopeMap := by
  have hparse : sampleEnvironment.mapConverter.protobuf.parseFromString sampleMapWire =
      [⟨bytes "/b/", [EventsByScopeMapConverter.sampleNotification 2 3 4]⟩] := rfl
  refine .inr ⟨beq_self_eq_true _, ?_, ?_⟩
  · rw [hparse]
    refine List.forall_mem_singleton.mpr ⟨⟨_, Scope.parse_toString
      (.ofComponents [bytes "b"] (by decide))⟩, List.forall_mem_singleton.mpr ⟨⟨_, rfl⟩, ?_⟩⟩
    exact ⟨by decide, fun c hc => absurd hc List.not_mem_nil, _,
      Scope.parse_toString (.ofComponents [bytes "b"] (by decide))⟩
  · rw [hparse]
    refine List.forall_mem_singleton.mpr (List.forall_mem_singleton.mpr fun data hdata => ?_)
    obtain rfl := Except.ok.inj hdata
    exact ⟨stringConverter, utf8String, bytes "hi", stringConverter, rfl, rfl, rfl, rfl⟩

theorem lawful_iff_sample :
    sampleEnvironment.Lawful sampleIdWire .eventId ∧
      sampleEnvironment.Lawful sampleMapWire .eventsByScopeMap := by
  refine ⟨(sampleEnvironment.lawful_iff ?_).mpr ⟨rfl, by decide⟩,
    (sampleEnvironment.lawful_iff ?_).mpr wellFormed_sampleMapWire⟩
  · intro id hid
    obtain rfl := Except.ok.inj hid
    rfl
  · refine ⟨EventsByScopeMapConverter.running_sampleReadings,
      EventsByScopeMapConverter.running_sampleReadings, ?_⟩
    intro dataMap sets hfrom hto
    obtain rfl := Except.ok.inj hfrom
    obtain rfl := Except.ok.inj hto
    rfl

/-- Four of five bytes are read. -/
theorem not_lawful_uint32 :
    (uint32Converter (bytes "unsigned int")).deserialize (bytes "uint32") [1, 2, 3, 4, 5] =
        .ok (bytes "unsigned int", some 0x04030201) ∧
      ¬sampleEnvironment.Lawful [1, 2, 3, 4, 5] .uint32 := by
  refine ⟨rfl, fun hlawful => ?_⟩
  have hlength := ((integer_fixedSize ⟨4, false⟩ _ _).sound_iff [1, 2, 3, 4, 5]).mp hlawful
  simp at hlength

end Rsb.Payloads
