import Rsb.Event

/-!
Converters and their selection (`Converter.h`, `UnambiguousConverterMap.h`,
`PredicateConverterList.h`).

The wire type of the socket transport is a string. A converter is given by its
two functions; both may throw. The two ways to select one differ in what they
do when there is none: the map throws, the list returns a null pointer.
-/

namespace Rsb

open Library

variable {δ : Type}

/-- `Converter<string>`. `serialize` returns the wire schema and the wire data. -/
structure Converter (δ : Type) where
  serialize : AnnotatedData δ → Except Fault (Bytes × Bytes)
  deserialize (wireSchema wire : Bytes) : Except Fault (AnnotatedData δ)

/-- Reading back what was written yields the same data and data type. -/
def Converter.Undoes (c : Converter δ) : Prop :=
  ∀ d wireSchema wire, c.serialize d = .ok (wireSchema, wire) → c.deserialize wireSchema wire = .ok d

/-- `rsc::runtime::typeName<std::string>()`. -/
def stringType : Bytes := bytes "std::string"

/-- `StringConverter::WIRE_SCHEMA`. -/
def utf8String : Bytes := bytes "utf-8-string"

/-- `StringConverter`, for events whose data is a string. -/
def stringConverter : Converter Bytes where
  serialize data :=
    if data.1 = stringType then
      match data.2 with
      | none => .error .nullPointer
      | some s => .ok (utf8String, s)
    else .error .assertion
  deserialize wireSchema wire :=
    if wireSchema = utf8String then .ok (stringType, some wire) else .error .assertion

theorem stringConverter_undoes : stringConverter.Undoes := by
  rintro ⟨type, content⟩ wireSchema wire h
  by_cases htype : type = stringType
  · subst htype
    cases content with
    | none => simp [stringConverter] at h
    | some s =>
        obtain ⟨rfl, rfl⟩ : utf8String = wireSchema ∧ s = wire := by
          simpa [stringConverter] using h
        simp [stringConverter]
  · simp [stringConverter, htype] at h

/-- The implementations of `ConverterSelectionStrategy<string>`. -/
inductive ConverterSelectionStrategy (δ : Type)
  /-- `UnambiguousConverterMap`, with what the stream operator prints for it. -/
  | unambiguousMap (converters : SortedMap Bytes (Converter δ)) (printed : Bytes)
  /-- `PredicateConverterList`. -/
  | predicateList (converters : List ((Bytes → Bool) × Converter δ))

/-- The text of the exception the map throws. -/
def noConverter (key printed : Bytes) : Bytes :=
  bytes "No converter for wire-schema or data-type `" ++ key ++
    bytes "'.\nAvailable converters: " ++ printed

/-- `getConverter`: a pointer to the converter for a wire schema or data type. -/
def ConverterSelectionStrategy.getConverter (s : ConverterSelectionStrategy δ) (key : Bytes) :
    Except Fault (Option (Converter δ)) :=
  match s with
  | .unambiguousMap converters printed =>
      match converters.find? key with
      | none => .error (.thrown ⟨.noSuchObject, noConverter key printed⟩)
      | some c => .ok (some c)
  | .predicateList converters => .ok ((converters.find? (fun p => p.1 key)).map (·.2))

/-- `p->` and `*p` for a pointer. -/
def deref {α : Type} : Option α → Except Fault α
  | none => .error .nullPointer
  | some a => .ok a

@[simp] theorem deref_some {α : Type} (a : α) : deref (some a) = .ok a := rfl

theorem deref_eq_ok_iff {α : Type} {p : Option α} {a : α} : deref p = .ok a ↔ p = some a := by
  cases p <;> simp [deref]

end Rsb
