import Rsb.Converter.Payloads
import Rsb.Converter.Repository
import Rsb.Transport.Socket.RoundTrip

/-!
The converters that every process has (`converters.cpp`, `ByteArrayConverter.cpp`,
`VoidConverter.cpp`, `ScopeConverter.cpp`).

The first factory of a process registers them, together with whatever plugins and programs
register. Objects are passed to converters behind pointers to `void`. What one process writes
for a value of a default type is read by any other process as this value, whatever else the
two have registered; only byte arrays are never written.
-/

namespace Rsb.DefaultConverters

open Library Transport.Socket Payloads

variable {α γ δ : Type}

/-- `boost::static_pointer_cast` between pointers to `α` and to `void`, where `δ` are all the
objects of a program. What a cast makes of an object that is no `α` is left open. -/
structure PointerCast (α δ : Type) where
  upcast : α → δ
  downcast : δ → α
  downcast_upcast : ∀ a, downcast (upcast a) = a

/-- A converter as it is called, with its casts. -/
def erase (cast : PointerCast α δ) (c : Converter α) : Converter δ where
  serialize data := c.serialize (data.1, data.2.map cast.downcast)
  deserialize wireSchema wire := do
    let data ← c.deserialize wireSchema wire
    return (data.1, data.2.map cast.upcast)

/-- The data is written, with this wire schema, and what is written is read as the data. -/
def Carries (c : Converter δ) (data : AnnotatedData δ) (wireSchema : Bytes) : Prop :=
  ∃ wire, c.serialize data = .ok (wireSchema, wire) ∧ c.deserialize wireSchema wire = .ok data

theorem Carries.erase {c : Converter α} {dataType wireSchema : Bytes} {value : Option α}
    (h : Carries c (dataType, value) wireSchema) (cast : PointerCast α δ) :
    Carries (erase cast c) (dataType, value.map cast.upcast) wireSchema := by
  obtain ⟨wire, hwrite, hread⟩ := h
  have hvalue : (value.map cast.upcast).map cast.downcast = value := by
    simp [Function.comp_def, cast.downcast_upcast]
  refine ⟨wire, ?_, ?_⟩
  · simp only [DefaultConverters.erase, hvalue, hwrite]
  · simp only [DefaultConverters.erase, hread]
    rfl

/-! ### The converters -/

/-- `ByteArrayConverter`. Its wire schema looks like a pattern, but is looked up like any
other. -/
def byteArrayConverter : Converter Bytes where
  serialize _ := .error (.thrown ⟨.runtimeError,
    bytes "This converter should only be used for *de*serialization."⟩)
  deserialize _ wire := .ok (bytes "bytearray", some wire)

def voidConverter (dataType : Bytes) : Converter Unit where
  serialize _ := .ok (bytes "void", [])
  deserialize _ _ := .ok (dataType, none)

/-- Assertions are compiled out. -/
def scopeConverter (dataType : Bytes) : Converter Scope where
  serialize data := do
    let scope ← deref data.2
    return (bytes "scope", scope.toString)
  deserialize _ wire := do
    let scope ← Scope.parse wire
    return (dataType, some scope)

/-- In the order in which they are registered. -/
inductive DefaultConverter
  | bool | byteArray | eventId | string | uint64 | int64 | float | double | void | scope
  deriving DecidableEq

namespace DefaultConverter

def all : List DefaultConverter :=
  [bool, byteArray, eventId, string, uint64, int64, float, double, void, scope]

theorem mem_all (k : DefaultConverter) : k ∈ all := by
  cases k <;> decide

/-- The type to which the converter casts its pointers. That for `void` uses none. -/
def Value : DefaultConverter → Type
  | .bool => Bool
  | .byteArray | .string => Bytes
  | .eventId => EventId
  | .uint64 => IntegerType.Value ⟨8, false⟩
  | .int64 => IntegerType.Value ⟨8, true⟩
  | .float => FloatingPoint 4
  | .double => FloatingPoint 8
  | .void => Unit
  | .scope => Scope

end DefaultConverter

/-- What the converters get from elsewhere: the names of types from `rsc::runtime::typeName`,
the message for ids from protobuf, and the casts. -/
structure Environment (δ : Type) where
  typeName : DefaultConverter → Bytes
  eventIdMessage : ProtocolBuffer Protocol.EventId
  cast (k : DefaultConverter) : PointerCast k.Value δ

namespace Environment

variable (env : Environment δ)

def dataType : DefaultConverter → Bytes
  | .byteArray => bytes "bytearray"
  | .string => stringType
  | k => env.typeName k

def wireSchema : DefaultConverter → Bytes
  | .bool => bytes "bool"
  | .byteArray => bytes ".*"
  | .eventId => env.eventIdMessage.wireSchema
  | .string => utf8String
  | .uint64 => bytes "uint64"
  | .int64 => bytes "int64"
  | .float => bytes "float"
  | .double => bytes "double"
  | .void => bytes "void"
  | .scope => bytes "scope"

def typedConverter : (k : DefaultConverter) → Converter k.Value
  | .bool => boolConverter (env.dataType .bool)
  | .byteArray => byteArrayConverter
  | .eventId => eventIdConverter env.eventIdMessage (env.dataType .eventId)
  | .string => stringConverter
  | .uint64 => uint64Converter (env.dataType .uint64)
  | .int64 => int64Converter (env.dataType .int64)
  | .float => floatConverter (env.dataType .float)
  | .double => doubleConverter (env.dataType .double)
  | .void => voidConverter (env.dataType .void)
  | .scope => scopeConverter (env.dataType .scope)

def converter (k : DefaultConverter) : Converter δ := erase (env.cast k) (env.typedConverter k)

def signature (k : DefaultConverter) : Bytes ×ₗ Bytes := toLex (env.wireSchema k, env.dataType k)

/-- The data that the converter is for. Protobuf has to read the id that it wrote. -/
def Sendable : (k : DefaultConverter) → Option k.Value → Prop
  | .byteArray, _ => False
  | .void, value => value = none
  | .eventId, value => ∃ id, value = some id ∧
      env.eventIdMessage.parseFromString (env.eventIdMessage.serializeToString (ofEventId id)) =
        (true, ofEventId id)
  | _, value => ∃ v, value = some v

end Environment

/-! ### What they write can be read -/

theorem carries_integer (T : IntegerType) (dataType wireSchema : Bytes) (number : T.Value) :
    Carries (integerConverter T dataType wireSchema) (dataType, some number) wireSchema := by
  refine ⟨_, rfl, ?_⟩
  simp only [integerConverter, loop_byte]
  rfl

theorem carries_floatingPoint (size : ℕ) (dataType wireSchema : Bytes)
    (number : FloatingPoint size) :
    Carries (floatingPointConverter size dataType wireSchema) (dataType, some number)
      wireSchema := by
  have hlength : size ≤ number.toList.length := by simp
  obtain ⟨read, hread, hbytes⟩ := loop_setIfInBounds size hlength
  have hsame : read = number := by
    apply Vector.ext
    intro i hi
    rw [hbytes i hi hi]
    simp [List.getD_eq_getElem?_getD, hi]
  refine ⟨_, rfl, ?_⟩
  simp only [floatingPointConverter, hread, hsame]
  rfl

theorem carries_bool (dataType : Bytes) (b : Bool) :
    Carries (boolConverter dataType) (dataType, some b) (bytes "bool") := by
  cases b with
  | true => exact ⟨[1], rfl, rfl⟩
  | false => exact ⟨[0], rfl, rfl⟩

theorem carries_eventId (p : ProtocolBuffer Protocol.EventId) (dataType : Bytes) (id : EventId)
    (hid : p.parseFromString (p.serializeToString (ofEventId id)) = (true, ofEventId id)) :
    Carries (eventIdConverter p dataType) (dataType, some id) p.wireSchema := by
  refine ⟨p.serializeToString (ofEventId id), ?_, ?_⟩
  · simp only [eventIdConverter, ne_eq, not_true_eq_false, if_false]
    rfl
  · rw [eventId_deserialize, hid, toEventId_ofEventId]
    rfl

theorem carries_string (s : Bytes) : Carries stringConverter (stringType, some s) utf8String :=
  ⟨s, rfl, rfl⟩

theorem carries_scope (dataType : Bytes) (scope : Scope) :
    Carries (scopeConverter dataType) (dataType, some scope) (bytes "scope") := by
  refine ⟨_, rfl, ?_⟩
  simp only [scopeConverter, Scope.parse_toString]
  rfl

theorem Environment.carries (env : Environment δ) {k : DefaultConverter}
    {value : Option k.Value} (h : env.Sendable k value) :
    Carries (env.converter k) (env.dataType k, value.map (env.cast k).upcast)
      (env.wireSchema k) := by
  apply Carries.erase
  cases k with
  | byteArray => exact absurd h id
  | bool =>
      obtain ⟨b, rfl⟩ := h
      exact carries_bool _ b
  | eventId =>
      obtain ⟨id, rfl, hid⟩ := h
      exact carries_eventId _ _ id hid
  | string =>
      obtain ⟨s, rfl⟩ := h
      exact carries_string s
  | uint64 =>
      obtain ⟨number, rfl⟩ := h
      exact carries_integer ⟨8, false⟩ _ _ number
  | int64 =>
      obtain ⟨number, rfl⟩ := h
      exact carries_integer ⟨8, true⟩ _ _ number
  | float =>
      obtain ⟨number, rfl⟩ := h
      exact carries_floatingPoint 4 _ _ number
  | double =>
      obtain ⟨number, rfl⟩ := h
      exact carries_floatingPoint 8 _ _ number
  | void =>
      obtain rfl := h
      exact ⟨[], rfl, rfl⟩
  | scope =>
      obtain ⟨scope, rfl⟩ := h
      exact carries_scope _ scope

/-! ### Registration -/

/-- Statements that register one converter each. The first exception ends them. -/
def registerEach (r : Repository γ) :
    List ((Bytes ×ₗ Bytes) × γ) → Except Fault Unit × Repository γ
  | [] => (.ok (), r)
  | it :: rest =>
      match r.registerConverter (ofLex it.1).1 (ofLex it.1).2 it.2 false with
      | .error fault => (.error fault, r)
      | .ok r => registerEach r rest

theorem registerConverter_free {r : Repository γ} {signature : Bytes ×ₗ Bytes} {replace : Bool}
    (h : r.converters.find? signature = none) (converter : γ) :
    r.registerConverter (ofLex signature).1 (ofLex signature).2 converter replace =
      .ok ⟨r.converters.insert signature converter⟩ :=
  if_neg fun hrefused => hrefused.1 h

theorem registerConverter_taken {r : Repository γ} {signature : Bytes ×ₗ Bytes}
    (h : r.converters.find? signature ≠ none) (converter : γ) :
    r.registerConverter (ofLex signature).1 (ofLex signature).2 converter false =
      .error (Repository.registrationRefused signature) :=
  if_pos ⟨h, rfl⟩

/-- What is registered stays what it is. -/
theorem registerEach_keeps {r : Repository γ} (l : List ((Bytes ×ₗ Bytes) × γ))
    {signature : Bytes ×ₗ Bytes} {converter : γ}
    (h : r.converters.find? signature = some converter) :
    (registerEach r l).2.converters.find? signature = some converter := by
  induction l generalizing r with
  | nil => exact h
  | cons it l ih =>
      by_cases hfree : r.converters.find? it.1 = none
      · rw [registerEach, registerConverter_free hfree]
        apply ih
        rw [SortedMap.find?_insert, if_neg]
        · exact h
        · rintro rfl
          rw [h] at hfree
          cases hfree
      · rw [registerEach, registerConverter_taken hfree]
        exact h

/-- The statements return if no signature is taken. -/
theorem registerEach_free {r : Repository γ} {l : List ((Bytes ×ₗ Bytes) × γ)}
    (hnodup : (l.map Prod.fst).Nodup) (hfree : ∀ it ∈ l, r.converters.find? it.1 = none) :
    (registerEach r l).1 = .ok () ∧
      ∀ it ∈ l, (registerEach r l).2.converters.find? it.1 = some it.2 := by
  induction l generalizing r with
  | nil => exact ⟨rfl, by simp⟩
  | cons it l ih =>
      obtain ⟨hnew, hnodup⟩ := List.nodup_cons.mp hnodup
      obtain ⟨hfirst, hrest⟩ := List.forall_mem_cons.mp hfree
      have hstored : (r.converters.insert it.1 it.2).find? it.1 = some it.2 := by
        rw [SortedMap.find?_insert, if_pos rfl]
      have hfree' : ∀ other ∈ l, (r.converters.insert it.1 it.2).find? other.1 = none := by
        intro other hother
        rw [SortedMap.find?_insert, if_neg]
        · exact hrest other hother
        · intro heq
          exact hnew (heq ▸ List.mem_map_of_mem hother)
      obtain ⟨hreturns, hregistered⟩ := ih (r := ⟨r.converters.insert it.1 it.2⟩) hnodup hfree'
      rw [registerEach, registerConverter_free hfirst]
      exact ⟨hreturns, List.forall_mem_cons.mpr ⟨registerEach_keeps l hstored, hregistered⟩⟩

/-- Nothing else is registered. -/
theorem registerEach_only {r : Repository γ} {l : List ((Bytes ×ₗ Bytes) × γ)}
    {signature : Bytes ×ₗ Bytes} (h : signature ∉ l.map Prod.fst) :
    (registerEach r l).2.converters.find? signature = r.converters.find? signature := by
  induction l generalizing r with
  | nil => rfl
  | cons it l ih =>
      rw [List.map_cons, List.mem_cons, not_or] at h
      by_cases hfree : r.converters.find? it.1 = none
      · rw [registerEach, registerConverter_free hfree]
        exact (ih h.2).trans ((SortedMap.find?_insert _ _ _ _).trans (if_neg h.1))
      · rw [registerEach, registerConverter_taken hfree]

/-- They throw if one is. -/
theorem registerEach_taken {r : Repository γ} {l : List ((Bytes ×ₗ Bytes) × γ)}
    {it : (Bytes ×ₗ Bytes) × γ} (hit : it ∈ l) (htaken : r.converters.find? it.1 ≠ none) :
    ∃ what, (registerEach r l).1 = .error (invalidArgument what) := by
  induction l generalizing r with
  | nil => cases hit
  | cons first l ih =>
      by_cases hfree : r.converters.find? first.1 = none
      · rw [registerEach, registerConverter_free hfree]
        rcases List.mem_cons.mp hit with rfl | hit
        · exact absurd hfree htaken
        · apply ih hit
          rw [SortedMap.find?_insert]
          split_ifs
          · exact Option.some_ne_none _
          · exact htaken
      · rw [registerEach, registerConverter_taken hfree]
        exact ⟨_, rfl⟩

/-- The variable `registered` of `converters.cpp` and the repository for strings. -/
structure Process (δ : Type) where
  registered : Bool
  repository : Repository (Converter δ)

/-- What programs and plugins call. Each call is made under a mutex or by one thread. -/
inductive Call (δ : Type)
  | registerDefaultConverters
  | registerConverter (wireSchema dataType : Bytes) (converter : Converter δ) (replace : Bool)
  | clear

namespace Environment

variable (env : Environment δ)

def defaultConverters : List ((Bytes ×ₗ Bytes) × Converter δ) :=
  DefaultConverter.all.map fun k => (env.signature k, env.converter k)

def registerDefaultConverters (p : Process δ) : Except Fault Unit × Process δ :=
  if !p.registered then
    match registerEach p.repository env.defaultConverters with
    | (.error fault, r) => (.error fault, ⟨p.registered, r⟩)
    | (.ok (), r) => (.ok (), ⟨true, r⟩)
  else (.ok (), p)

def call (p : Process δ) : Call δ → Except Fault Unit × Process δ
  | .registerDefaultConverters => env.registerDefaultConverters p
  | .registerConverter wireSchema dataType converter replace =>
      match p.repository.registerConverter wireSchema dataType converter replace with
      | .error fault => (.error fault, p)
      | .ok r => (.ok (), { p with repository := r })
  | .clear => (.ok (), { p with repository := .new })

/-- Callers may go on after an exception. -/
def run (p : Process δ) (calls : List (Call δ)) : Process δ :=
  calls.foldl (fun p c => (env.call p c).2) p

/-- The process before `main`. -/
def start : Process δ := ⟨false, .new⟩

/-- No signature of a default converter is taken. -/
def Free (p : Process δ) : Prop :=
  ∀ k, p.repository.converters.find? (env.signature k) = none

def HasDefaults (p : Process δ) : Prop :=
  ∀ k, p.repository.converters.find? (env.signature k) = some (env.converter k)

/-- The call takes no default converter away. -/
def Spares : Call δ → Prop
  | .registerDefaultConverters => True
  | .registerConverter wireSchema dataType _ replace =>
      replace = false ∨ ∀ k, env.signature k ≠ toLex (wireSchema, dataType)
  | .clear => False

variable {env}

theorem run_append (p : Process δ) (calls calls' : List (Call δ)) :
    env.run p (calls ++ calls') = env.run (env.run p calls) calls' :=
  List.foldl_append

theorem run_concat (p : Process δ) (calls : List (Call δ)) (c : Call δ) :
    env.run p (calls ++ [c]) = (env.call (env.run p calls) c).2 :=
  run_append p calls [c]

theorem nodup_defaultConverters (hdistinct : Function.Injective env.dataType) :
    (env.defaultConverters.map Prod.fst).Nodup := by
  have hsignature : Function.Injective env.signature := fun k k' h =>
    hdistinct (Prod.mk.inj (toLex.injective h)).2
  rw [defaultConverters, List.map_map]
  exact List.Nodup.map hsignature (by decide)

theorem mem_defaultConverters (k : DefaultConverter) :
    (env.signature k, env.converter k) ∈ env.defaultConverters :=
  List.mem_map_of_mem (DefaultConverter.mem_all k)

theorem registerDefaultConverters_free (hdistinct : Function.Injective env.dataType)
    {p : Process δ} (hregistered : p.registered = false) (hfree : env.Free p) :
    ∃ r, (registerEach p.repository env.defaultConverters).2 = r ∧
      env.registerDefaultConverters p = (.ok (), ⟨true, r⟩) ∧ env.HasDefaults ⟨true, r⟩ := by
  have hfree' : ∀ it ∈ env.defaultConverters, p.repository.converters.find? it.1 = none := by
    intro it hit
    obtain ⟨k, -, rfl⟩ := List.mem_map.mp hit
    exact hfree k
  obtain ⟨hreturns, hstored⟩ := registerEach_free (nodup_defaultConverters hdistinct) hfree'
  refine ⟨_, rfl, ?_, fun k => ?_⟩
  · rw [registerDefaultConverters, hregistered]
    generalize registerEach p.repository env.defaultConverters = outcome at hreturns
    obtain ⟨result, r⟩ := outcome
    obtain rfl : result = .ok () := hreturns
    rfl
  · exact hstored _ (mem_defaultConverters k)

theorem registerDefaultConverters_taken {p : Process δ} (hregistered : p.registered = false)
    (htaken : ¬ env.Free p) :
    ∃ what r, env.registerDefaultConverters p = (.error (invalidArgument what), ⟨false, r⟩) ∧
      ¬ env.Free ⟨false, r⟩ := by
  obtain ⟨k, hk⟩ := not_forall.mp htaken
  have hmem : (env.signature k, env.converter k) ∈ env.defaultConverters := mem_defaultConverters k
  obtain ⟨what, hthrows⟩ := registerEach_taken hmem hk
  obtain ⟨converter, hconverter⟩ := Option.ne_none_iff_exists'.mp hk
  have hkept := registerEach_keeps env.defaultConverters hconverter
  refine ⟨what, (registerEach p.repository env.defaultConverters).2, ?_, fun hfree => ?_⟩
  · rw [registerDefaultConverters, hregistered]
    generalize registerEach p.repository env.defaultConverters = outcome at hthrows
    obtain ⟨result, r⟩ := outcome
    obtain rfl : result = .error (invalidArgument what) := hthrows
    rfl
  · rw [hfree k] at hkept
    cases hkept

theorem registerDefaultConverters_registered {p : Process δ} (h : p.registered = true) :
    env.registerDefaultConverters p = (.ok (), p) := by
  rw [registerDefaultConverters, h]
  rfl

theorem registerDefaultConverters_returns_iff (hdistinct : Function.Injective env.dataType)
    {p : Process δ} :
    (env.registerDefaultConverters p).1 = .ok () ↔ p.registered = true ∨ env.Free p := by
  cases hregistered : p.registered with
  | true => simp [registerDefaultConverters_registered hregistered]
  | false =>
      by_cases hfree : env.Free p
      · obtain ⟨r, -, hr, -⟩ := registerDefaultConverters_free hdistinct hregistered hfree
        simp [hr, hfree]
      · obtain ⟨what, r, hr, -⟩ := registerDefaultConverters_taken hregistered hfree
        simp [hr, hfree]

/-- What another call does to the repository. -/
theorem call_registered (hdistinct : Function.Injective env.dataType) (p : Process δ)
    (c : Call δ) :
    (env.call p c).2.registered = true ↔
      p.registered = true ∨ c = .registerDefaultConverters ∧ env.Free p := by
  cases c with
  | clear => simp [call]
  | registerConverter wireSchema dataType converter replace =>
      simp only [call]
      split <;> simp
  | registerDefaultConverters =>
      simp only [call, true_and]
      cases hregistered : p.registered with
      | true => simp [registerDefaultConverters_registered hregistered, hregistered]
      | false =>
          by_cases hfree : env.Free p
          · obtain ⟨r, -, hr, -⟩ := registerDefaultConverters_free hdistinct hregistered hfree
            simp [hr, hfree]
          · obtain ⟨what, r, hr, -⟩ := registerDefaultConverters_taken hregistered hfree
            simp [hr, hfree]

/-- The converters are registered once some call has found all the signatures free. -/
theorem run_registered (hdistinct : Function.Injective env.dataType) (calls : List (Call δ)) :
    (env.run start calls).registered = true ↔
      ∃ before after, calls = before ++ .registerDefaultConverters :: after ∧
        env.Free (env.run start before) := by
  induction calls using List.reverseRecOn with
  | nil => simp [run, start]
  | append_singleton calls c ih =>
      rw [run_concat, call_registered hdistinct, ih]
      constructor
      · rintro (⟨before, after, rfl, hfree⟩ | ⟨rfl, hfree⟩)
        · exact ⟨before, after ++ [c], by simp, hfree⟩
        · exact ⟨calls, [], rfl, hfree⟩
      · rintro ⟨before, after, hsplit, hfree⟩
        rcases List.eq_nil_or_concat' after with rfl | ⟨after, c', rfl⟩
        · obtain ⟨rfl, rfl⟩ := List.append_singleton_inj.mp hsplit
          exact .inr ⟨rfl, hfree⟩
        · rw [← List.cons_append, ← List.append_assoc] at hsplit
          obtain ⟨rfl, -⟩ := List.append_singleton_inj.mp hsplit
          exact .inl ⟨before, after, rfl, hfree⟩

/-- Where the converters could not be registered, they cannot be registered later. -/
theorem call_taken {p : Process δ} (hregistered : p.registered = false)
    (htaken : ¬ env.Free p) {c : Call δ} (hc : c ≠ .clear) :
    (env.call p c).2.registered = false ∧ ¬ env.Free (env.call p c).2 := by
  cases c with
  | clear => exact absurd rfl hc
  | registerDefaultConverters =>
      obtain ⟨what, r, hr, htaken'⟩ := registerDefaultConverters_taken hregistered htaken
      rw [call, hr]
      exact ⟨rfl, htaken'⟩
  | registerConverter wireSchema dataType converter replace =>
      simp only [call]
      split
      · exact ⟨hregistered, htaken⟩
      · next r hr =>
          refine ⟨hregistered, fun hfree => htaken fun k => ?_⟩
          rw [Repository.registerConverter] at hr
          split_ifs at hr
          obtain rfl := Except.ok.inj hr
          have hk : SortedMap.find? _ (env.signature k) = none := hfree k
          rw [SortedMap.find?_insert] at hk
          split_ifs at hk
          exact hk

theorem run_taken {p : Process δ} (hregistered : p.registered = false) (htaken : ¬ env.Free p)
    {calls : List (Call δ)} (hcalls : .clear ∉ calls) :
    (env.run p calls).registered = false ∧ ¬ env.Free (env.run p calls) := by
  induction calls generalizing p with
  | nil => exact ⟨hregistered, htaken⟩
  | cons c calls ih =>
      obtain ⟨hc, hcalls⟩ := not_or.mp (mt List.mem_cons.mpr hcalls)
      obtain ⟨hregistered', htaken'⟩ := call_taken hregistered htaken (Ne.symm hc)
      exact ih hregistered' htaken' hcalls

/-- A process can register its default converters exactly if one of its calls finds their
signatures free. A call that does not throws, and so do all later ones. -/
theorem registration_blocked (hdistinct : Function.Injective env.dataType)
    (calls : List (Call δ)) :
    ((env.registerDefaultConverters (env.run start calls)).1 = .ok () ↔
      ∃ before after, calls ++ [.registerDefaultConverters] =
          before ++ .registerDefaultConverters :: after ∧ env.Free (env.run start before)) ∧
      ∀ fault, (env.registerDefaultConverters (env.run start calls)).1 = .error fault →
        (∃ what, fault = invalidArgument what) ∧
        ∀ later, .clear ∉ later → ∃ what,
          (env.registerDefaultConverters
            (env.run start (calls ++ .registerDefaultConverters :: later))).1 =
              .error (invalidArgument what) := by
  constructor
  · rw [← run_registered hdistinct, run_concat, call_registered hdistinct,
      registerDefaultConverters_returns_iff hdistinct]
    simp only [true_and]
  · intro fault hthrows
    have hnot : ¬ (env.registerDefaultConverters (env.run start calls)).1 = .ok () := by
      rw [hthrows]
      exact nofun
    rw [registerDefaultConverters_returns_iff hdistinct] at hnot
    obtain ⟨hregistered, htaken⟩ := not_or.mp hnot
    rw [Bool.not_eq_true] at hregistered
    obtain ⟨what, r, hr, -⟩ := registerDefaultConverters_taken hregistered htaken
    rw [hr] at hthrows
    refine ⟨⟨what, (Except.error.inj hthrows).symm⟩, fun later hlater => ?_⟩
    have hcalls : Call.clear ∉ Call.registerDefaultConverters :: later := by
      simp [hlater]
    obtain ⟨hregistered', htaken'⟩ := run_taken hregistered htaken hcalls
    obtain ⟨what', r', hr', -⟩ := registerDefaultConverters_taken hregistered' htaken'
    rw [run_append, hr']
    exact ⟨what', rfl⟩

/-! ### What the processes have then -/

theorem call_hasDefaults {p : Process δ} (hregistered : p.registered = true)
    (h : env.HasDefaults p) {c : Call δ} (hc : env.Spares c) :
    (env.call p c).2.registered = true ∧ env.HasDefaults (env.call p c).2 := by
  cases c with
  | clear => exact absurd hc id
  | registerDefaultConverters =>
      rw [call, registerDefaultConverters_registered hregistered]
      exact ⟨hregistered, h⟩
  | registerConverter wireSchema dataType converter replace =>
      simp only [call]
      split
      · exact ⟨hregistered, h⟩
      · next r hr =>
          refine ⟨hregistered, fun k => ?_⟩
          rw [Repository.registerConverter] at hr
          split_ifs at hr with hrefused
          obtain rfl := Except.ok.inj hr
          have hother : env.signature k ≠ toLex (wireSchema, dataType) := by
            rcases hc with rfl | hother
            · intro heq
              rw [← heq, h k] at hrefused
              exact hrefused ⟨Option.some_ne_none _, rfl⟩
            · exact hother k
          exact (SortedMap.find?_insert _ _ _ _).trans ((if_neg hother).trans (h k))

theorem run_hasDefaults {p : Process δ} (hregistered : p.registered = true)
    (h : env.HasDefaults p) {calls : List (Call δ)} (hcalls : ∀ c ∈ calls, env.Spares c) :
    env.HasDefaults (env.run p calls) := by
  induction calls generalizing p with
  | nil => exact h
  | cons c calls ih =>
      obtain ⟨hc, hcalls⟩ := List.forall_mem_cons.mp hcalls
      obtain ⟨hregistered', h'⟩ := call_hasDefaults hregistered h hc
      exact ih hregistered' h' hcalls

/-- The default converters were registered, and no call has taken them away again. -/
def Provides (env : Environment δ) (calls : List (Call δ)) : Prop :=
  ∃ before after, calls = before ++ .registerDefaultConverters :: after ∧
    (env.run start before).registered = false ∧ env.Free (env.run start before) ∧
    ∀ c ∈ after, env.Spares c

theorem Provides.hasDefaults (hdistinct : Function.Injective env.dataType)
    {calls : List (Call δ)} (h : env.Provides calls) : env.HasDefaults (env.run start calls) := by
  obtain ⟨before, after, rfl, hregistered, hfree, hafter⟩ := h
  obtain ⟨r, -, hr, hdefaults⟩ := registerDefaultConverters_free hdistinct hregistered hfree
  have hcall : (env.call (env.run start before) .registerDefaultConverters).2 = ⟨true, r⟩ := by
    rw [call, hr]
  rw [run_append]
  change env.HasDefaults
    (env.run (env.call (env.run start before) .registerDefaultConverters).2 after)
  rw [hcall]
  exact run_hasDefaults rfl hdefaults hafter

/-- A converter that is selected is the one for its data type and its wire schema. -/
theorem find?_converter {p : Process δ} (h : env.HasDefaults p) {direction : ConverterDirection}
    {ambiguous : Bytes → Bytes → Bytes} {selection : SortedMap Bytes Bytes}
    {m : UnambiguousConverterMap (Converter δ)}
    (hm : p.repository.getConverters direction ambiguous selection = .ok m)
    {k : DefaultConverter}
    (hselected : Repository.Accepts direction selection (env.signature k)) :
    m.find? (direction.key (env.signature k)) = some (env.converter k) :=
  (Repository.find?_getConverters hm).mpr ⟨env.signature k, h k, rfl, hselected⟩

/-- What a process sends of a default type arrives at any other one as it is, however many
converters the two have besides. Byte arrays cannot be sent. -/
theorem default_data_arrives (hdistinct : Function.Injective env.dataType)
    {calls calls' : List (Call δ)} (hsender : env.Provides calls)
    (hreceiver : env.Provides calls') {wireType : Bytes} {printed : SortedSet Bytes → Bytes}
    {selection selection' : SortedMap Bytes Bytes}
    {out inn : UnambiguousConverterMap (Converter δ)}
    (hout : (env.run start calls).repository.getConvertersForSerialization wireType printed
      selection = .ok out)
    (hinn : (env.run start calls').repository.getConvertersForDeserialization wireType printed
      selection' = .ok inn)
    {k : DefaultConverter}
    (hselected : Repository.Accepts .serialization selection (env.signature k))
    (hselected' : Repository.Accepts .deserialization selection' (env.signature k))
    {event : Event δ} (htype : event.type = env.dataType k) (now : UInt64) (active : Bool)
    (printedOut printedIn : Bytes) :
    (∀ value, env.Sendable k value → event.content = value.map (env.cast k).upcast →
      ∃ busEvent, OutConnector.handle ⟨.unambiguousMap out printedOut, active⟩ now event =
          .ok (event.modifyMetaData (·.setSendTime now 0), busEvent) ∧
        ∀ (now' : UInt64) (arrived : Event Bytes), arrived.content = busEvent.content →
          arrived.metaData.getUserInfo wireSchemaKey =
            busEvent.metaData.getUserInfo wireSchemaKey →
          ConnectorBase.deserialize ⟨.unambiguousMap inn printedIn, true⟩ now' arrived =
            .ok (((arrived.modifyMetaData (·.setReceiveTime now' 0)).setData
              event.content).setType event.type)) ∧
      (k = .byteArray → ∃ what,
        OutConnector.handle ⟨.unambiguousMap out printedOut, active⟩ now event =
          .error (.thrown ⟨.runtimeError, what⟩)) := by
  have hwriter : (ConverterSelectionStrategy.unambiguousMap out printedOut).getConverter
      event.type = .ok (some (env.converter k)) := by
    have hfind := find?_converter (hsender.hasDefaults hdistinct) hout hselected
    rw [htype]
    simp only [ConverterSelectionStrategy.getConverter]
    rw [show out.find? (env.dataType k) = _ from hfind]
  have hreader : (ConverterSelectionStrategy.unambiguousMap inn printedIn).getConverter
      (env.wireSchema k) = .ok (some (env.converter k)) := by
    have hfind := find?_converter (hreceiver.hasDefaults hdistinct) hinn hselected'
    simp only [ConverterSelectionStrategy.getConverter]
    rw [show inn.find? (env.wireSchema k) = _ from hfind]
  constructor
  · intro value hsendable hcontent
    obtain ⟨wire, hwrite, hread⟩ := env.carries hsendable
    rw [← hcontent, ← htype] at hwrite hread
    refine ⟨_, OutConnector.handle_eq hwriter hwrite, fun now' arrived harrived hschema => ?_⟩
    have hschema' := hschema.trans (MetaData.getUserInfo_setUserInfo _ _ _)
    exact (ConnectorBase.deserialize_ok_iff _ now' hschema' harrived).mpr
      ⟨rfl, env.converter k, _, hreader, hread, rfl⟩
  · rintro rfl
    refine ⟨bytes "This converter should only be used for *de*serialization.", ?_⟩
    have htype' : (event.modifyMetaData (·.setSendTime now 0)).type = event.type := rfl
    rw [OutConnector.handle]
    simp only [htype', hwriter]
    rfl

/-- Without other converters no selection is needed. -/
theorem exists_getConverters (hdistinct : Function.Injective env.dataType)
    (hschemas : Function.Injective env.wireSchema) (direction : ConverterDirection)
    (ambiguous : Bytes → Bytes → Bytes) :
    ∃ m, (env.run start [.registerDefaultConverters]).repository.getConverters direction
      ambiguous .empty = .ok m := by
  have hfree : env.Free start := fun _ => rfl
  obtain ⟨r, heach, hr, -⟩ := registerDefaultConverters_free hdistinct rfl hfree
  have hrun : env.run start [.registerDefaultConverters] = ⟨true, r⟩ := by
    rw [run, List.foldl_cons, List.foldl_nil, call, hr]
  have honly : ∀ p, r.converters.find? p ≠ none → ∃ k, env.signature k = p := by
    intro p hp
    by_contra hnot
    refine hp (heach ▸ registerEach_only fun hmem => ?_)
    rw [defaultConverters, List.map_map] at hmem
    obtain ⟨k, -, rfl⟩ := List.mem_map.mp hmem
    exact hnot ⟨k, rfl⟩
  rw [hrun, Repository.exists_getConverters_eq_ok_iff]
  rintro ⟨p, q, hne, hkey, -, hp, hq⟩
  obtain ⟨k, rfl⟩ := honly p hp
  obtain ⟨k', rfl⟩ := honly q hq
  apply hne
  cases direction with
  | serialization => rw [hdistinct hkey]
  | deserialization => rw [hschemas hkey]

end Environment

/-! ### A scope, and a plugin that comes first -/

def sampleIdMessage : ProtocolBuffer Protocol.EventId where
  typeName := bytes "rsb::protocol::EventId"
  serializeToString _ := 10 :: 16 :: (List.replicate 16 34 ++ [16, 7])
  parseFromString _ := (true, ⟨List.replicate 16 34, 7⟩)

def DefaultConverter.someValue : (k : DefaultConverter) → k.Value
  | .bool => false
  | .byteArray | .string => []
  | .eventId => ⟨⟨List.replicate 16 34, rfl⟩, 7⟩
  | .uint64 | .int64 => 0#_
  | .float => Vector.replicate 4 0
  | .double => Vector.replicate 8 0
  | .void => ()
  | .scope => .root

/-- Objects that know which of the types they have. -/
def sampleCast (k : DefaultConverter) : PointerCast k.Value (Sigma DefaultConverter.Value) where
  upcast v := ⟨k, v⟩
  downcast o := if h : o.1 = k then h ▸ o.2 else k.someValue
  downcast_upcast _ := by simp

def sampleEnvironment : Environment (Sigma DefaultConverter.Value) where
  typeName
    | .bool => bytes "bool"
    | .eventId => bytes "rsb::EventId"
    | .uint64 => bytes "unsigned long"
    | .int64 => bytes "long"
    | .float => bytes "float"
    | .double => bytes "double"
    | .void => bytes "void"
    | .scope => bytes "rsb::Scope"
    | .byteArray | .string => []
  eventIdMessage := sampleIdMessage
  cast := sampleCast

theorem injective_of_nodup {f : DefaultConverter → Bytes}
    (h : (DefaultConverter.all.map f).Nodup) : Function.Injective f := fun k k' heq =>
  List.inj_on_of_nodup_map h k.mem_all k'.mem_all heq

theorem sampleEnvironment_dataType : Function.Injective sampleEnvironment.dataType :=
  injective_of_nodup (by decide)

theorem sampleEnvironment_wireSchema : Function.Injective sampleEnvironment.wireSchema :=
  injective_of_nodup (by decide)

def sampleEvent : Event (Sigma DefaultConverter.Value) :=
  let event : Event (Sigma DefaultConverter.Value) := .new 1
  (event.setType (bytes "rsb::Scope")).setData (some ⟨.scope, .root⟩)

theorem default_data_arrives_scope :
    let r := (sampleEnvironment.run Environment.start [.registerDefaultConverters]).repository
    ∃ out inn sent busEvent received,
      r.getConvertersForSerialization (bytes "std::string") (fun _ => []) .empty = .ok out ∧
      r.getConvertersForDeserialization (bytes "std::string") (fun _ => []) .empty = .ok inn ∧
      OutConnector.handle ⟨.unambiguousMap out [], true⟩ 5 sampleEvent = .ok (sent, busEvent) ∧
      ConnectorBase.deserialize ⟨.unambiguousMap inn [], true⟩ 6 busEvent = .ok received ∧
      received.type = bytes "rsb::Scope" ∧ received.content = some ⟨.scope, .root⟩ := by
  intro r
  obtain ⟨out, hout⟩ : ∃ out, r.getConvertersForSerialization (bytes "std::string")
      (fun _ => []) .empty = .ok out :=
    Environment.exists_getConverters sampleEnvironment_dataType sampleEnvironment_wireSchema _ _
  obtain ⟨inn, hinn⟩ : ∃ inn, r.getConvertersForDeserialization (bytes "std::string")
      (fun _ => []) .empty = .ok inn :=
    Environment.exists_getConverters sampleEnvironment_dataType sampleEnvironment_wireSchema _ _
  have hprovides : sampleEnvironment.Provides [.registerDefaultConverters] :=
    ⟨[], [], rfl, rfl, fun _ => rfl, by simp⟩
  have hselected : ∀ direction, Repository.Accepts direction .empty
      (sampleEnvironment.signature .scope) := fun _ => Repository.accepts_of_none rfl
  have hsendable : sampleEnvironment.Sendable .scope (some Scope.root) := ⟨Scope.root, rfl⟩
  have htype : sampleEvent.type = sampleEnvironment.dataType .scope := rfl
  have hcontent : sampleEvent.content =
      (some Scope.root).map (sampleEnvironment.cast .scope).upcast := rfl
  obtain ⟨busEvent, hsent, hreceived⟩ :=
    (Environment.default_data_arrives sampleEnvironment_dataType hprovides hprovides hout hinn
      (hselected _) (hselected _) htype 5 true [] []).1 _ hsendable hcontent
  exact ⟨out, inn, _, busEvent, _, hout, hinn, hsent, hreceived 6 busEvent rfl rfl, rfl, rfl⟩

/-- A plugin has registered a converter for `bool` of its own. -/
theorem registration_blocked_bool :
    let own := sampleEnvironment.converter .bool
    let first : List (Call _) := [.registerConverter (bytes "bool") (bytes "bool") own false]
    let calls := first ++ [.registerDefaultConverters, .registerDefaultConverters]
    ∃ what, (sampleEnvironment.registerDefaultConverters
      (sampleEnvironment.run Environment.start calls)).1 = .error (invalidArgument what) := by
  intro own first calls
  have htaken : (sampleEnvironment.registerDefaultConverters
      (sampleEnvironment.run Environment.start first)).1 =
        .error (Repository.registrationRefused (sampleEnvironment.signature .bool)) := rfl
  have hblocked := Environment.registration_blocked sampleEnvironment_dataType first
  exact (hblocked.2 _ htaken).2 [.registerDefaultConverters] (by simp)

end Rsb.DefaultConverters
