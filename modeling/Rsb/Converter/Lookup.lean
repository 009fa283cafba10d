import Rsb.Converter.Repository
import Rsb.Transport.Socket.Connectors

/-!
Lookup of converters by pointers (`ConverterSelectionStrategy.h`,
`UnambiguousConverterMap.h`, `PredicateConverterList.h`, `ConverterSelectingConnector.h`).

The interface says that a search without success throws, and the connectors use what they
get without a test. The map throws; it may have been given a null pointer, though, since
`addConverter` takes any. The list returns a null pointer when no predicate matches.
-/

namespace Rsb

open Library Transport.Socket

variable {γ δ : Type}

/-- The implementations of `ConverterSelectionStrategy<string>`, where `γ` are the converters
and the pointers of a list point to one. -/
inductive Selection (γ : Type)
  | unambiguousMap (converters : UnambiguousConverterMap (Option γ)) (printed : Bytes)
  | predicateList (converters : List ((Bytes → Bool) × γ))

namespace Selection

/-- The loop of `PredicateConverterList::getConverter`. -/
def firstMatch (key : Bytes) : List ((Bytes → Bool) × γ) → Option γ
  | [] => none
  | it :: rest => if it.1 key then some it.2 else firstMatch key rest

/-- `getConverter`. -/
def getConverter (converters : Selection γ) (key : Bytes) : Except Fault (Option γ) :=
  match converters with
  | .unambiguousMap converters printed =>
      match converters.find? key with
      | none => .error (.thrown ⟨.noSuchObject, noConverter key printed⟩)
      | some it => .ok it
  | .predicateList converters => .ok (firstMatch key converters)

/-- `c` is in the strategy for `key`; in a list, no predicate in front of its own matches. -/
def Registered (converters : Selection γ) (key : Bytes) (c : γ) : Prop :=
  match converters with
  | .unambiguousMap converters _ => converters.find? key = some (some c)
  | .predicateList converters => ∃ front p rest, converters = front ++ (p, c) :: rest ∧
      p key = true ∧ ∀ q ∈ front, q.1 key = false

/-- `ConverterSelectingConnector::getConverter` returns a converter that is registered for the
key or throws `NoSuchObject`, and its result can be used as it is. -/
structure LooksUp (converters : Selection γ) (key : Bytes) : Prop where
  returned : ∀ p, converters.getConverter key = .ok p → ∃ c, p = some c ∧
    converters.Registered key c
  threw : ∀ fault, converters.getConverter key = .error fault →
    ∃ what, fault = .thrown ⟨.noSuchObject, what⟩
  valid : (converters.getConverter key >>= deref) ≠ .error .nullPointer

/-- The map has no null pointer for the key; some predicate of the list matches it. -/
def Serves (converters : Selection γ) (key : Bytes) : Prop :=
  match converters with
  | .unambiguousMap converters _ => converters.find? key ≠ some none
  | .predicateList converters => ∃ it ∈ converters, it.1 key = true

theorem firstMatch_eq_find? (key : Bytes) (l : List ((Bytes → Bool) × γ)) :
    firstMatch key l = (l.find? (fun it => it.1 key)).map (·.2) := by
  induction l with
  | nil => rfl
  | cons it rest ih =>
      cases hit : it.1 key with
      | true => simp [firstMatch, hit]
      | false => simp [firstMatch, hit, ih]

theorem firstMatch_eq_some_iff {key : Bytes} {l : List ((Bytes → Bool) × γ)} {c : γ} :
    firstMatch key l = some c ↔ ∃ front p rest, l = front ++ (p, c) :: rest ∧
      p key = true ∧ ∀ q ∈ front, q.1 key = false := by
  rw [firstMatch_eq_find?, Option.map_eq_some_iff]
  constructor
  · rintro ⟨⟨p, c⟩, hfind, rfl⟩
    obtain ⟨hp, front, rest, hsplit, hfront⟩ := List.find?_eq_some_iff_append.mp hfind
    exact ⟨front, p, rest, hsplit, hp, fun q hq => by simpa using hfront q hq⟩
  · rintro ⟨front, p, rest, hsplit, hp, hfront⟩
    refine ⟨(p, c), List.find?_eq_some_iff_append.mpr ⟨hp, front, rest, hsplit, ?_⟩, rfl⟩
    intro q hq
    simp [hfront q hq]

theorem firstMatch_eq_none_iff {key : Bytes} {l : List ((Bytes → Bool) × γ)} :
    firstMatch key l = none ↔ ¬ ∃ it ∈ l, it.1 key = true := by
  rw [firstMatch_eq_find?, Option.map_eq_none_iff, List.find?_eq_none]
  simp only [not_exists, not_and]

/-- A pointer that is returned and is not null is one for the key. -/
theorem registered_iff {converters : Selection γ} {key : Bytes} {c : γ} :
    converters.getConverter key = .ok (some c) ↔ converters.Registered key c := by
  cases converters with
  | unambiguousMap converters printed =>
      simp only [getConverter, Registered]
      cases converters.find? key with
      | none => simp
      | some it => simp
  | predicateList converters =>
      simp only [getConverter, Registered, Except.ok.injEq, firstMatch_eq_some_iff]

theorem getConverter_eq_error {converters : Selection γ} {key : Bytes} {fault : Fault}
    (h : converters.getConverter key = .error fault) :
    ∃ what, fault = .thrown ⟨.noSuchObject, what⟩ := by
  cases converters with
  | unambiguousMap converters printed =>
      simp only [getConverter] at h
      split at h
      · exact ⟨_, (Except.error.inj h).symm⟩
      · cases h
  | predicateList converters => cases h

theorem getConverter_eq_null_iff {converters : Selection γ} {key : Bytes} :
    converters.getConverter key = .ok none ↔ ¬ converters.Serves key := by
  cases converters with
  | unambiguousMap converters printed =>
      simp only [getConverter, Serves, not_not]
      cases converters.find? key with
      | none => simp
      | some it => simp
  | predicateList converters =>
      simp only [getConverter, Serves, Except.ok.injEq, firstMatch_eq_none_iff]

/-- Using the result dereferences a null pointer just where the strategy returns one. -/
theorem deref_getConverter_iff {converters : Selection γ} {key : Bytes} :
    (converters.getConverter key >>= deref) = .error .nullPointer ↔
      converters.getConverter key = .ok none := by
  cases h : converters.getConverter key with
  | error fault =>
      obtain ⟨what, rfl⟩ := getConverter_eq_error h
      simp [bind, Except.bind]
  | ok p =>
      cases p with
      | none => simp [bind, Except.bind, deref]
      | some c => simp [bind, Except.bind, deref]

theorem LooksUp.serves {converters : Selection γ} {key : Bytes} (h : converters.LooksUp key) :
    converters.Serves key := by
  by_contra hserves
  exact h.valid (deref_getConverter_iff.mpr (getConverter_eq_null_iff.mpr hserves))

theorem Serves.looksUp {converters : Selection γ} {key : Bytes} (h : converters.Serves key) :
    converters.LooksUp key := by
  have hnull : converters.getConverter key ≠ .ok none := fun hp =>
    getConverter_eq_null_iff.mp hp h
  refine ⟨fun p hp => ?_, fun _ => getConverter_eq_error, fun hderef =>
    hnull (deref_getConverter_iff.mp hderef)⟩
  cases p with
  | none => exact absurd hp hnull
  | some c => exact ⟨c, rfl, registered_iff.mp hp⟩

end Selection

/-- The pointers of a strategy of which none is null. -/
def ConverterSelectionStrategy.selection :
    ConverterSelectionStrategy δ → Selection (Converter δ)
  | .unambiguousMap converters printed =>
      .unambiguousMap (converters.mapValues fun _ c => some c) printed
  | .predicateList converters => .predicateList converters

theorem ConverterSelectionStrategy.selection_getConverter (s : ConverterSelectionStrategy δ)
    (key : Bytes) : s.selection.getConverter key = s.getConverter key := by
  cases s with
  | unambiguousMap converters printed =>
      simp only [selection, Selection.getConverter, getConverter, SortedMap.find?_mapValues]
      cases converters.find? key with
      | none => rfl
      | some c => rfl
  | predicateList converters =>
      simp only [selection, Selection.getConverter, getConverter, Selection.firstMatch_eq_find?]

/-- An event with a wire schema that nothing matches makes a connector use a null pointer. -/
theorem Transport.Socket.ConnectorBase.deserialize_of_not_serves {c : ConnectorBase δ}
    {now : UInt64}
    {busEvent : Event Bytes} {wireSchema wireData : Bytes} (hactive : c.active = true)
    (hschema : busEvent.metaData.getUserInfo wireSchemaKey = .ok wireSchema)
    (hcontent : busEvent.content = some wireData)
    (hserves : ¬ c.converters.selection.Serves wireSchema) :
    c.deserialize now busEvent = .error .nullPointer := by
  have hschema' : (busEvent.metaData.setReceiveTime now 0).getUserInfo wireSchemaKey =
      .ok wireSchema := hschema
  have hnull := Selection.getConverter_eq_null_iff.mpr hserves
  rw [ConverterSelectionStrategy.selection_getConverter] at hnull
  simp only [ConnectorBase.deserialize, hactive, Event.modifyMetaData, hschema', hcontent]
  simp [bind, Except.bind, hnull, deref]

/-- A lookup keeps what the interface promises for the keys that the strategy serves. -/
theorem Selection.looksUp_iff_serves (converters : Selection γ) (key : Bytes) :
    converters.LooksUp key ↔ converters.Serves key :=
  ⟨LooksUp.serves, Serves.looksUp⟩

/-- A list for strings only, and an event of some peer with the wire schema `bool`. -/
theorem lookup_dereferences_null :
    let converters := [((· == utf8String), stringConverter)]
    let busEvent : Event Bytes :=
      ⟨none, .root, some [1], [], [], .empty,
        (MetaData.new 0).setUserInfo wireSchemaKey (bytes "bool")⟩
    ¬ (Selection.predicateList converters).LooksUp (bytes "bool") ∧
      InPushConnector.handle ⟨⟨.predicateList converters, true⟩, []⟩ 0 busEvent =
        .error .nullPointer := by
  intro converters busEvent
  have hserves : ¬ (Selection.predicateList converters).Serves (bytes "bool") := by
    rintro ⟨it, hit, hmatch⟩
    obtain rfl := List.mem_singleton.mp hit
    revert hmatch
    decide
  refine ⟨mt Selection.LooksUp.serves hserves, ?_⟩
  have hschema : busEvent.metaData.getUserInfo wireSchemaKey = .ok (bytes "bool") :=
    MetaData.getUserInfo_setUserInfo _ _ _
  have hnull : ConnectorBase.deserialize ⟨.predicateList converters, true⟩ 0 busEvent =
      .error .nullPointer := ConnectorBase.deserialize_of_not_serves rfl hschema rfl hserves
  rw [InPushConnector.handle, hnull]
  rfl

end Rsb
