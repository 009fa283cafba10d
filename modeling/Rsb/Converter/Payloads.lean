import Rsb.EventCollections.EventsByScopeMapConverter
import Rsb.Transport.Socket.ReceiveLoop

/-!
Converters for numbers and for ids of events (`IntegerConverter.h`,
`FloatingPointConverter.h`, `BoolConverter.cpp`, `ProtocolBufferConverter.h`,
`EventIdConverter.cpp`).

Wire data may come from anybody. Assertions are compiled out here, so that the integer
and floating point converters do not check how long it is; and what protobuf says about
it is not looked at. Only the converter for `bool` throws what its documentation
promises.
-/

namespace Rsb.Payloads

open Library Transport.Socket
open EventCollections (typeNameToWireSchema)

variable {δ : Type}

/-- A wire is malformed and the converter throws, or it returns something that is
written so that the same can be read `again`. -/
def Sound (c again : Converter δ) (wireSchema wire : Bytes) (malformed : Prop) : Prop :=
  match c.deserialize wireSchema wire with
  | .error fault => ∃ e, fault = .thrown e
  | .ok data => ¬malformed ∧ ∃ wireSchema' wire', c.serialize data = .ok (wireSchema', wire') ∧
      again.deserialize wireSchema' wire' = .ok data

/-! ### Wires of a fixed size -/

/-- `wire[i]`, which is a null character at the end of the string. -/
def charAt (wire : Bytes) (i : ℕ) : Except Fault UInt8 :=
  if i = wire.length then .ok 0
  else match wire[i]? with
    | some c => .ok c
    | none => .error .readPastEnd

theorem charAt_of_lt {wire : Bytes} {i : ℕ} (h : i < wire.length) :
    charAt wire i = .ok (wire.getD i 0) := by
  rw [charAt, if_neg h.ne, List.getD_eq_getElem?_getD, List.getElem?_eq_getElem h]
  rfl

theorem charAt_eq_error {wire : Bytes} {i : ℕ} {fault : Fault}
    (h : charAt wire i = .error fault) : fault = .readPastEnd := by
  simp only [charAt] at h
  split_ifs at h
  split at h
  · cases h
  · exact (Except.error.inj h).symm

/-- A loop over the bytes that keeps a value. -/
def loop {α : Type} (wire : Bytes) (start : α) (round : α → ℕ → UInt8 → α) : ℕ → Except Fault α
  | 0 => .ok start
  | n + 1 => do
      let number ← loop wire start round n
      let c ← charAt wire n
      return round number n c

theorem loop_eq_error {α : Type} {wire : Bytes} {start : α} {round : α → ℕ → UInt8 → α} {n : ℕ}
    {fault : Fault} (h : loop wire start round n = .error fault) : fault = .readPastEnd := by
  induction n with
  | zero => cases h
  | succ n ih =>
      rcases bind_eq_error_iff.mp h with hfirst | ⟨number, -, hlast⟩
      · exact ih hfirst
      · rcases bind_eq_error_iff.mp hlast with hchar | ⟨c, -, hreturn⟩
        · exact charAt_eq_error hchar
        · cases hreturn

/-- A converter that reads `size` bytes whatever it is given, and nothing else. -/
structure FixedSize (c : Converter δ) (wireSchema : Bytes) (size : ℕ) : Prop where
  reads : ∀ wire, size ≤ wire.length → ∃ data, c.deserialize wireSchema wire = .ok data ∧
    ∃ wire', c.serialize data = .ok (wireSchema, wire') ∧ c.deserialize wireSchema wire' = .ok data
  faults : ∀ wire fault, c.deserialize wireSchema wire = .error fault → fault = .readPastEnd

theorem FixedSize.sound_iff {c : Converter δ} {wireSchema : Bytes} {size : ℕ}
    (h : FixedSize c wireSchema size) (wire : Bytes) :
    Sound c c wireSchema wire (wire.length ≠ size) ↔ wire.length = size := by
  constructor
  · intro hsound
    rw [Sound] at hsound
    split at hsound
    · next fault hfault =>
        obtain ⟨e, he⟩ := hsound
        cases (h.faults wire fault hfault).symm.trans he
    · exact not_not.mp hsound.1
  · intro hlength
    obtain ⟨data, hread, wire', hwrite, hagain⟩ := h.reads wire hlength.ge
    rw [Sound, hread]
    exact ⟨not_not.mpr hlength, wireSchema, wire', hwrite, hagain⟩

/-! ### Integers -/

/-- The template argument of `IntegerConverter`. -/
structure IntegerType where
  size : ℕ
  signed : Bool

namespace IntegerType

variable (T : IntegerType)

abbrev Value := BitVec (8 * T.size)

variable {T}

/-- `number >> n`. -/
def shiftRight (number : T.Value) (n : ℕ) : T.Value :=
  if T.signed then number.sshiftRight n else number >>> n

/-- `(unsigned char) (*number >> (i * 8ull))`. -/
def byte (number : T.Value) (i : ℕ) : UInt8 := ⟨(shiftRight number (i * 8)).setWidth 8⟩

/-- `*number |= ((T) ((unsigned char) wire[i]) << (i * 8ull))`. -/
def addByte (number : T.Value) (i : ℕ) (c : UInt8) : T.Value :=
  number ||| (c.toBitVec.setWidth (8 * T.size) <<< (i * 8))

end IntegerType

def integerConverter (T : IntegerType) (dataType wireSchema : Bytes) : Converter T.Value where
  serialize data := do
    let number ← deref data.2
    return (wireSchema, (List.range T.size).map (IntegerType.byte number))
  deserialize _ wire := do
    let number ← loop wire 0 IntegerType.addByte T.size
    return (dataType, some number)

def uint32Converter (dataType : Bytes) := integerConverter ⟨4, false⟩ dataType (bytes "uint32")

def uint64Converter (dataType : Bytes) := integerConverter ⟨8, false⟩ dataType (bytes "uint64")

def int32Converter (dataType : Bytes) := integerConverter ⟨4, true⟩ dataType (bytes "int32")

def int64Converter (dataType : Bytes) := integerConverter ⟨8, true⟩ dataType (bytes "int64")

theorem getLsbD_shiftRight {T : IntegerType} (number : T.Value) {n k : ℕ}
    (h : n + k < 8 * T.size) :
    (IntegerType.shiftRight number n).getLsbD k = number.getLsbD (n + k) := by
  have hk : ¬ 8 * T.size ≤ k := by omega
  rw [IntegerType.shiftRight]
  split_ifs
  · rw [BitVec.getLsbD_sshiftRight, if_pos h, decide_eq_false hk, Bool.not_false, Bool.true_and]
  · rw [BitVec.getLsbD_ushiftRight]

theorem getLsbD_byte {T : IntegerType} (number : T.Value) {i k : ℕ} (hi : i < T.size)
    (hk : k < 8) : (IntegerType.byte number i).toBitVec.getLsbD k = number.getLsbD (8 * i + k) := by
  have hindex : i * 8 + k = 8 * i + k := by omega
  rw [IntegerType.byte, BitVec.getLsbD_setWidth, decide_eq_true hk, Bool.true_and,
    getLsbD_shiftRight number (by omega), hindex]

/-- The bits after `n` rounds. -/
theorem loop_addByte {T : IntegerType} {wire : Bytes} {n : ℕ} (hn : n ≤ wire.length) :
    ∃ number : T.Value, loop wire 0 IntegerType.addByte n = .ok number ∧
      ∀ j, j < 8 * T.size → number.getLsbD j =
        (decide (j < 8 * n) && (wire.getD (j / 8) 0).toBitVec.getLsbD (j % 8)) := by
  induction n with
  | zero => exact ⟨0, rfl, fun j _ => by simp⟩
  | succ n ih =>
      obtain ⟨number, hloop, hbits⟩ := ih (Nat.le_of_succ_le hn)
      refine ⟨IntegerType.addByte number n (wire.getD n 0), ?_, fun j hj => ?_⟩
      · rw [loop, hloop, charAt_of_lt hn]
        rfl
      · rw [IntegerType.addByte, BitVec.getLsbD_or, hbits j hj, BitVec.getLsbD_shiftLeft,
          BitVec.getLsbD_setWidth]
        rcases lt_trichotomy (j / 8) n with hbefore | rfl | hafter
        · have h₁ : j < 8 * n := by omega
          have h₂ : j < n * 8 := by omega
          have h₃ : j < 8 * (n + 1) := by omega
          simp [h₁, h₂, h₃]
        · have h₁ : ¬ j < 8 * (j / 8) := by omega
          have h₂ : ¬ j < j / 8 * 8 := by omega
          have h₃ : j < 8 * (j / 8 + 1) := by omega
          have h₄ : j - j / 8 * 8 = j % 8 := by omega
          have h₅ : j % 8 < 8 * T.size := by omega
          simp [h₁, h₂, h₃, h₄, h₅, hj]
        · have h₁ : ¬ j < 8 * n := by omega
          have h₂ : ¬ j < 8 * (n + 1) := by omega
          have h₃ : (wire.getD n 0).toBitVec.getLsbD (j - n * 8) = false :=
            BitVec.getLsbD_of_ge _ _ (by omega)
          simp only [h₁, h₂, h₃, decide_false, Bool.false_and, Bool.and_false, Bool.or_false]

/-- Reading the bytes of a number gives the number. -/
theorem loop_byte {T : IntegerType} (number : T.Value) :
    loop ((List.range T.size).map (IntegerType.byte number)) 0 IntegerType.addByte T.size =
      .ok number := by
  have hlength : ((List.range T.size).map (IntegerType.byte number)).length = T.size := by simp
  obtain ⟨number', hnumber', hbits⟩ := loop_addByte (T := T) hlength.ge
  rw [hnumber']
  congr 1
  apply BitVec.eq_of_getLsbD_eq
  intro j hj
  have hi : j / 8 < T.size := by omega
  have hk : j % 8 < 8 := Nat.mod_lt _ (by decide)
  have hindex : 8 * (j / 8) + j % 8 = j := by omega
  rw [hbits j hj, List.getD_eq_getElem?_getD, List.getElem?_map, List.getElem?_range hi]
  simp only [Option.map_some, Option.getD_some, getLsbD_byte number hi hk, hindex, hj,
    decide_true, Bool.true_and]

/-- Reading what is written for a number, whatever the wire it comes from. -/
theorem integer_fixedSize (T : IntegerType) (dataType wireSchema : Bytes) :
    FixedSize (integerConverter T dataType wireSchema) wireSchema T.size where
  reads wire hwire := by
    obtain ⟨number, hnumber, -⟩ := loop_addByte (T := T) hwire
    refine ⟨(dataType, some number), ?_, _, rfl, ?_⟩
    · simp only [integerConverter, hnumber]
      rfl
    · simp only [integerConverter, loop_byte]
      rfl
  faults wire fault hfault := by
    rcases bind_eq_error_iff.mp hfault with hloop | ⟨number, -, hreturn⟩
    · exact loop_eq_error hloop
    · cases hreturn

/-! ### Floating point numbers -/

/-- A number is the bytes of its representation. -/
abbrev FloatingPoint (size : ℕ) := Vector UInt8 size

def floatingPointConverter (size : ℕ) (dataType wireSchema : Bytes) :
    Converter (FloatingPoint size) where
  serialize data := do
    let number ← deref data.2
    return (wireSchema, number.toList)
  deserialize _ wire := do
    let number ← loop wire (Vector.replicate size 0) Vector.setIfInBounds size
    return (dataType, some number)

def floatConverter (dataType : Bytes) := floatingPointConverter 4 dataType (bytes "float")

def doubleConverter (dataType : Bytes) := floatingPointConverter 8 dataType (bytes "double")

/-- The bytes after `n` rounds. -/
theorem loop_setIfInBounds (size : ℕ) {wire : Bytes} {n : ℕ} (hn : n ≤ wire.length) :
    ∃ number : FloatingPoint size,
      loop wire (Vector.replicate size 0) Vector.setIfInBounds n = .ok number ∧
        ∀ j (hj : j < size), j < n → number[j] = wire.getD j 0 := by
  induction n with
  | zero => exact ⟨_, rfl, fun j _ hj => absurd hj (Nat.not_lt_zero j)⟩
  | succ n ih =>
      obtain ⟨number, hloop, hbytes⟩ := ih (Nat.le_of_succ_le hn)
      refine ⟨number.setIfInBounds n (wire.getD n 0), ?_, fun j hj hlt => ?_⟩
      · rw [loop, hloop, charAt_of_lt hn]
        rfl
      · rw [Vector.getElem_setIfInBounds]
        split_ifs with heq
        · rw [heq]
        · exact hbytes j hj (by omega)

theorem floatingPoint_fixedSize (size : ℕ) (dataType wireSchema : Bytes) :
    FixedSize (floatingPointConverter size dataType wireSchema) wireSchema size where
  reads wire hwire := by
    obtain ⟨number, hnumber, -⟩ := loop_setIfInBounds size hwire
    have hlength : size ≤ number.toList.length := by simp
    obtain ⟨number', hnumber', hbytes⟩ := loop_setIfInBounds size hlength
    obtain rfl : number' = number := by
      apply Vector.ext
      intro j hj
      rw [hbytes j hj hj]
      simp [List.getD_eq_getElem?_getD, hj]
    refine ⟨(dataType, some number'), ?_, _, rfl, ?_⟩
    · simp only [floatingPointConverter, hnumber]
      rfl
    · simp only [floatingPointConverter, hnumber']
      rfl
  faults wire fault hfault := by
    rcases bind_eq_error_iff.mp hfault with hloop | ⟨number, -, hreturn⟩
    · exact loop_eq_error hloop
    · cases hreturn

/-! ### Truth values -/

def boolConverter (dataType : Bytes) : Converter Bool where
  serialize data := do
    let s ← deref data.2
    return (bytes "bool", [if s then 1 else 0])
  deserialize _ wire :=
    if wire.length = 1 ∧ wire.head? = some 0 then .ok (dataType, some false)
    else if wire.length = 1 ∧ wire.head? = some 1 then .ok (dataType, some true)
    else .error (.thrown ⟨.runtimeError, bytes "Invalid encoding for bool."⟩)

/-- The converter throws for everything that it does not write. -/
theorem bool_sound (dataType wire : Bytes) :
    Sound (boolConverter dataType) (boolConverter dataType) (bytes "bool") wire
      (wire.length ≠ 1) := by
  simp only [Sound, boolConverter]
  split
  · next fault hfault =>
      split_ifs at hfault
      exact ⟨_, (Except.error.inj hfault).symm⟩
  · next data hdata =>
      split_ifs at hdata with h₀ h₁
      · obtain rfl := Except.ok.inj hdata
        exact ⟨not_not.mpr h₀.1, _, _, rfl, rfl⟩
      · obtain rfl := Except.ok.inj hdata
        exact ⟨not_not.mpr h₁.1, _, _, rfl, rfl⟩

/-! ### Ids of events -/

/-- The generated functions of a message type. `ParseFromString` returns whether it
succeeded; when it did not, the message holds what it had read. -/
structure ProtocolBuffer (M : Type) where
  typeName : Bytes
  serializeToString : M → Bytes
  parseFromString : Bytes → Bool × M

def ProtocolBuffer.wireSchema {M : Type} (p : ProtocolBuffer M) : Bytes :=
  typeNameToWireSchema p.typeName

def protocolBufferConverter {M : Type} (p : ProtocolBuffer M) : Converter M where
  serialize data := do
    let s ← deref data.2
    return (p.wireSchema, p.serializeToString s)
  -- what `ParseFromString` returns is dropped
  deserialize _ wire := .ok (p.typeName, some (p.parseFromString wire).2)

def eventIdConverter (p : ProtocolBuffer Protocol.EventId) (dataType : Bytes) :
    Converter EventId where
  serialize data :=
    if data.1 ≠ dataType then
      .error (.thrown ⟨.other, bytes "Called with unsupported data type " ++ data.1⟩)
    else do
      let eventId ← deref data.2
      (protocolBufferConverter p).serialize (p.typeName, some (ofEventId eventId))
  deserialize wireSchema wire := do
    let protocolId ← (protocolBufferConverter p).deserialize wireSchema wire
    let id ← toEventId (← deref protocolId.2)
    return (dataType, some id)

theorem toEventId_eq_error {e : Protocol.EventId} {fault : Fault}
    (h : toEventId e = .error fault) : fault = .readPastEnd := by
  rw [toEventId, UUID.ofBuffer] at h
  split_ifs at h <;> cases h
  rfl

theorem toEventIds_eq_error {es : List Protocol.EventId} {fault : Fault}
    (h : toEventIds es = .error fault) : fault = .readPastEnd := by
  induction es with
  | nil => cases h
  | cons e es ih =>
      rcases bind_eq_error_iff.mp h with hfirst | ⟨id, -, hrest⟩
      · exact toEventId_eq_error hfirst
      · rcases bind_eq_error_iff.mp hrest with hids | ⟨ids, -, hreturn⟩
        · exact ih hids
        · cases hreturn

theorem toEventId_ofEventId (id : EventId) : toEventId (ofEventId id) = .ok id := by
  rw [toEventId, ofEventId, UUID.ofBuffer_data]
  rfl

/-- The id that is returned is the one of the message, be it complete or not. -/
theorem eventId_deserialize (p : ProtocolBuffer Protocol.EventId) (dataType wireSchema wire : Bytes) :
    (eventIdConverter p dataType).deserialize wireSchema wire =
      (toEventId (p.parseFromString wire).2).map fun id => (dataType, some id) := by
  simp only [eventIdConverter, protocolBufferConverter, deref_some, bind, Except.bind]
  cases toEventId (p.parseFromString wire).2 <;> rfl

/-- The converter does what it should for messages that protobuf accepts and whose
sender has the bytes of a `UUID`, and for no others. -/
theorem eventId_sound_iff (p : ProtocolBuffer Protocol.EventId) (dataType wire : Bytes)
    (hagain : ∀ id, toEventId (p.parseFromString wire).2 = .ok id →
      p.parseFromString (p.serializeToString (ofEventId id)) = (true, ofEventId id)) :
    Sound (eventIdConverter p dataType) (eventIdConverter p dataType) p.wireSchema wire
        ((p.parseFromString wire).1 = false) ↔
      (p.parseFromString wire).1 = true ∧ 16 ≤ (p.parseFromString wire).2.senderId.length := by
  rw [← toEventId_ok_iff]
  simp only [Sound, eventId_deserialize]
  cases hid : toEventId (p.parseFromString wire).2 with
  | error fault =>
      simp [toEventId_eq_error hid, Except.map]
  | ok id =>
      have hwrite : (eventIdConverter p dataType).serialize (dataType, some id) =
          .ok (p.wireSchema, p.serializeToString (ofEventId id)) := by
        simp [eventIdConverter, protocolBufferConverter]
        rfl
      have hread := eventId_deserialize p dataType p.wireSchema (p.serializeToString (ofEventId id))
      rw [hagain id hid, toEventId_ofEventId] at hread
      constructor
      · rintro ⟨haccepted, -⟩
        exact ⟨by simpa using haccepted, id, rfl⟩
      · rintro ⟨haccepted, -⟩
        exact ⟨by simpa using haccepted, _, _, hwrite, hread⟩

end Rsb.Payloads
