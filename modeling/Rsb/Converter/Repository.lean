import Rsb.Converter
import Rsb.Converter.SelectionMap

/-!
The converters of a process (`Repository.h`, `UnambiguousConverterMap.h`).

The repository has one converter for each pair of a wire schema and a data type. A
connector needs one for each data type, or one for each wire schema. Where there are
several, the selection of its transport has to say which. Converters are pointers, and
equality of values of type `γ` stands for their identity.
-/

namespace Rsb

open Library

variable {γ : Type}

/-- `UnambiguousConverterMap`, by its only field. -/
abbrev UnambiguousConverterMap (γ : Type) := SortedMap Bytes γ

namespace UnambiguousConverterMap

def alreadyStored (key : Bytes) : Bytes :=
  bytes "A converter is already stored for the key `" ++ key ++ bytes "'"

def addConverter (converters : UnambiguousConverterMap γ) (key : Bytes) (converter : γ) :
    Except Fault (UnambiguousConverterMap γ) :=
  if converters.find? key ≠ none then .error (invalidArgument (alreadyStored key))
  else .ok (converters.insert key converter)

theorem addConverter_eq (converters : UnambiguousConverterMap γ) (key : Bytes) (converter : γ) :
    converters.addConverter key converter =
      SortedMap.insertNew (fun key _ _ => invalidArgument (alreadyStored key)) converters
        (key, converter) := by
  simp only [addConverter, SortedMap.insertNew]
  cases converters.find? key with
  | none => rfl
  | some old => rfl

end UnambiguousConverterMap

structure Repository (γ : Type) where
  converters : SortedMap (Bytes ×ₗ Bytes) γ

namespace Repository

/-- `Repository()`. -/
def new : Repository γ := ⟨.empty⟩

def alreadyRegistered (wireSchema dataType : Bytes) : Bytes :=
  bytes "There already is a converter for wire-schema `" ++ wireSchema ++
    bytes "' and data-type `" ++ dataType ++ bytes "'"

/-- The wire schema and the data type are those that the converter says it has. -/
def registerConverter (r : Repository γ) (wireSchema dataType : Bytes) (converter : γ)
    (replace : Bool) : Except Fault (Repository γ) :=
  if r.converters.find? (toLex (wireSchema, dataType)) ≠ none ∧ replace = false then
    .error (invalidArgument (alreadyRegistered wireSchema dataType))
  else .ok ⟨r.converters.insert (toLex (wireSchema, dataType)) converter⟩

def registrationRefused (signature : Bytes ×ₗ Bytes) : Fault :=
  invalidArgument (alreadyRegistered (ofLex signature).1 (ofLex signature).2)

/-- The set in the text of an exception: what the converters for a key leave to choose. -/
def candidates (r : Repository γ) (direction : ConverterDirection) (key : Bytes) :
    SortedSet Bytes :=
  .ofElems ((r.converters.keys.filter fun signature => direction.key signature = key).map
    direction.choice)

/-- The body of the loops. Only converters whose key is not mentioned in the selection
may be ambiguous. -/
def consider (direction : ConverterDirection) (ambiguous : Bytes → Bytes → Bytes)
    (selection : SortedMap Bytes Bytes) (result : UnambiguousConverterMap γ)
    (it : (Bytes ×ₗ Bytes) × γ) : Except Fault (UnambiguousConverterMap γ) :=
  match selection.find? (direction.key it.1) with
  | none =>
      match result.addConverter (direction.key it.1) it.2 with
      | .error (.thrown ⟨.invalidArgument, what⟩) =>
          .error (.thrown ⟨.runtimeError, ambiguous (direction.key it.1) what⟩)
      | added => added
  | some chosen =>
      if direction.choice it.1 = chosen then result.addConverter (direction.key it.1) it.2
      else .ok result

def getConverters (r : Repository γ) (direction : ConverterDirection)
    (ambiguous : Bytes → Bytes → Bytes) (selection : SortedMap Bytes Bytes) :
    Except Fault (UnambiguousConverterMap γ) :=
  r.converters.entries.foldlM (consider direction ambiguous selection) .empty

section

variable (wireType : Bytes) (printed : SortedSet Bytes → Bytes) (r : Repository γ)

/-- `wireType` is the name of the template parameter, `printed` the stream operator of
sets. -/
def getConvertersForSerialization (selection : SortedMap Bytes Bytes) :
    Except Fault (UnambiguousConverterMap γ) :=
  r.getConverters .serialization
    (fun dataType what =>
      let wireSchemas := printed (r.candidates .serialization dataType)
      bytes "Ambiguous converter set for wire-type `" ++ wireType ++ bytes "' and data-type `" ++
        dataType ++ bytes "': candidate wire-schemas are " ++ wireSchemas ++
        bytes "; hint: add a configuration option `transport.<name>.converter.cpp.<one of " ++
        wireSchemas ++ bytes "> = " ++ dataType ++ bytes "' to resolve the ambiguity (" ++ what ++
        bytes ").")
    selection

def getConvertersForDeserialization (selection : SortedMap Bytes Bytes) :
    Except Fault (UnambiguousConverterMap γ) :=
  r.getConverters .deserialization
    (fun wireSchema what =>
      let dataTypes := printed (r.candidates .deserialization wireSchema)
      bytes "Ambiguous converter set for wire-type `" ++ wireType ++
        bytes "' and wire-schema `" ++ wireSchema ++ bytes "': candidate data-types are " ++
        dataTypes ++ bytes "; hint: add a configuration option `transport.<name>.converter.cpp.\"" ++
        wireSchema ++ bytes "\" = <one of " ++ dataTypes ++
        bytes ">' to resolve the ambiguity (" ++ what ++ bytes ").")
    selection

end

/-! ### The loops -/

/-- The selection leaves the converter of this signature in. -/
def Accepts (direction : ConverterDirection) (selection : SortedMap Bytes Bytes)
    (signature : Bytes ×ₗ Bytes) : Prop :=
  ∀ chosen, selection.find? (direction.key signature) = some chosen →
    direction.choice signature = chosen

instance (direction : ConverterDirection) (selection : SortedMap Bytes Bytes)
    (signature : Bytes ×ₗ Bytes) : Decidable (Accepts direction selection signature) :=
  decidable_of_iff
    (∀ chosen ∈ selection.find? (direction.key signature), direction.choice signature = chosen)
    Iff.rfl

/-- The converters that are added, each under its key. -/
def considered (r : Repository γ) (direction : ConverterDirection)
    (selection : SortedMap Bytes Bytes) : List (Bytes × γ) :=
  (r.converters.entries.filter fun it => Accepts direction selection it.1).map fun it =>
    (direction.key it.1, it.2)

/-- The exception for a key that has a converter already. -/
def refusal (ambiguous : Bytes → Bytes → Bytes) (selection : SortedMap Bytes Bytes)
    (key : Bytes) : Fault :=
  match selection.find? key with
  | none => .thrown ⟨.runtimeError, ambiguous key (UnambiguousConverterMap.alreadyStored key)⟩
  | some _ => invalidArgument (UnambiguousConverterMap.alreadyStored key)

section

variable {r : Repository γ} {direction : ConverterDirection} {ambiguous : Bytes → Bytes → Bytes}
  {selection : SortedMap Bytes Bytes}

theorem accepts_of_none {signature : Bytes ×ₗ Bytes}
    (h : selection.find? (direction.key signature) = none) :
    Accepts direction selection signature := by
  intro chosen hchosen
  rw [h] at hchosen
  cases hchosen

theorem accepts_iff_of_some {signature : Bytes ×ₗ Bytes} {chosen : Bytes}
    (h : selection.find? (direction.key signature) = some chosen) :
    Accepts direction selection signature ↔ direction.choice signature = chosen := by
  simp [Accepts, h]

theorem consider_eq (result : UnambiguousConverterMap γ) (it : (Bytes ×ₗ Bytes) × γ) :
    consider direction ambiguous selection result it =
      if Accepts direction selection it.1 then
        SortedMap.insertNew (fun key _ _ => refusal ambiguous selection key) result
          (direction.key it.1, it.2)
      else .ok result := by
  rw [consider, UnambiguousConverterMap.addConverter_eq]
  cases hfind : selection.find? (direction.key it.1) with
  | none =>
      rw [if_pos (accepts_of_none hfind)]
      simp only [SortedMap.insertNew, refusal, hfind]
      cases result.find? (direction.key it.1) with
      | none => rfl
      | some old => rfl
  | some chosen =>
      simp only [accepts_iff_of_some hfind, SortedMap.insertNew, refusal, hfind]

theorem getConverters_eq :
    r.getConverters direction ambiguous selection =
      SortedMap.fill (fun key _ _ => refusal ambiguous selection key)
        (r.considered direction selection) := by
  rw [SortedMap.fill, considered, List.foldlM_map, List.foldlM_filter, getConverters]
  congr 1
  ext result it
  rw [consider_eq]
  simp only [decide_eq_true_eq]
  rfl

theorem mem_considered {key : Bytes} {converter : γ} :
    (key, converter) ∈ r.considered direction selection ↔
      ∃ signature, r.converters.find? signature = some converter ∧
        direction.key signature = key ∧ Accepts direction selection signature := by
  simp only [considered, List.mem_map, List.mem_filter, decide_eq_true_eq,
    SortedMap.find?_eq_some_iff]
  constructor
  · rintro ⟨⟨signature, c⟩, ⟨hmem, haccepts⟩, heq⟩
    obtain ⟨rfl, rfl⟩ := Prod.mk.inj heq
    exact ⟨signature, hmem, rfl, haccepts⟩
  · rintro ⟨signature, hmem, rfl, haccepts⟩
    exact ⟨(signature, converter), ⟨hmem, haccepts⟩, rfl⟩

/-- Of the converters for a key that the selection mentions at most one is left. -/
theorem eq_of_accepts {p q : Bytes ×ₗ Bytes} (hp : Accepts direction selection p)
    (hq : Accepts direction selection q) (hkey : direction.key p = direction.key q)
    (hmentioned : selection.find? (direction.key p) ≠ none) : p = q := by
  obtain ⟨chosen, hchosen⟩ := Option.ne_none_iff_exists'.mp hmentioned
  have hother : selection.find? (direction.key q) = some chosen := hkey ▸ hchosen
  exact ConverterDirection.eq_of_key_of_choice hkey ((hp chosen hchosen).trans (hq chosen hother).symm)

/-- Some key that the selection does not mention has several converters. -/
def Ambiguous (r : Repository γ) (direction : ConverterDirection)
    (selection : SortedMap Bytes Bytes) : Prop :=
  ∃ p q, p ≠ q ∧ direction.key p = direction.key q ∧ selection.find? (direction.key p) = none ∧
    r.converters.find? p ≠ none ∧ r.converters.find? q ≠ none

theorem nodup_considered_iff :
    ((r.considered direction selection).map Prod.fst).Nodup ↔ ¬ r.Ambiguous direction selection := by
  rw [considered, List.map_map, List.nodup_map_iff_inj_on (r.converters.nodup_entries.filter _)]
  simp only [List.mem_filter, decide_eq_true_eq, Function.comp_apply]
  constructor
  · rintro hinj ⟨p, q, hne, hkey, hfree, hp, hq⟩
    obtain ⟨c, hc⟩ := Option.ne_none_iff_exists'.mp hp
    obtain ⟨c', hc'⟩ := Option.ne_none_iff_exists'.mp hq
    have heq := hinj (p, c) ⟨SortedMap.find?_eq_some_iff.mp hc, accepts_of_none hfree⟩
      (q, c') ⟨SortedMap.find?_eq_some_iff.mp hc', accepts_of_none (hkey ▸ hfree)⟩ hkey
    exact hne (Prod.mk.inj heq).1
  · rintro hnot ⟨p, c⟩ ⟨hp, hacceptsP⟩ ⟨q, c'⟩ ⟨hq, hacceptsQ⟩ hkey
    rw [← SortedMap.find?_eq_some_iff] at hp hq
    have hpq : p = q := by
      by_contra hne
      by_cases hfree : selection.find? (direction.key p) = none
      · exact hnot ⟨p, q, hne, hkey, hfree, by simp [hp], by simp [hq]⟩
      · exact hne (eq_of_accepts hacceptsP hacceptsQ hkey hfree)
    subst hpq
    rw [hp] at hq
    rw [Option.some.inj hq]

theorem pairwise_considered :
    (r.considered direction selection).Pairwise fun a b =>
      a.1 = b.1 → selection.find? a.1 = none := by
  rw [considered, List.pairwise_map, List.pairwise_filter]
  refine r.converters.sorted.imp fun {a b} hlt ha hb hkey => ?_
  by_contra hmentioned
  have heq := eq_of_accepts (of_decide_eq_true ha) (of_decide_eq_true hb) hkey hmentioned
  exact absurd hlt (heq ▸ lt_irrefl _)

/-- The loops fail exactly if there is an ambiguity that the selection does not resolve,
and this is what the exception says. -/
theorem exists_getConverters_eq_ok_iff :
    (∃ m, r.getConverters direction ambiguous selection = .ok m) ↔
      ¬ r.Ambiguous direction selection := by
  rw [getConverters_eq, SortedMap.exists_fill_eq_ok_iff, nodup_considered_iff]

theorem getConverters_eq_error {f : Fault}
    (h : r.getConverters direction ambiguous selection = .error f) :
    ∃ what, f = .thrown ⟨.runtimeError, what⟩ := by
  rw [getConverters_eq] at h
  obtain ⟨key, -, -, hfree, rfl⟩ :=
    SortedMap.fill_eq_error (P := fun key => selection.find? key = none) h pairwise_considered
  exact ⟨_, by rw [refusal, hfree]⟩

theorem find?_getConverters {m : UnambiguousConverterMap γ}
    (h : r.getConverters direction ambiguous selection = .ok m) {key : Bytes} {converter : γ} :
    m.find? key = some converter ↔
      ∃ signature, r.converters.find? signature = some converter ∧
        direction.key signature = key ∧ Accepts direction selection signature := by
  rw [getConverters_eq] at h
  rw [SortedMap.holds_of_fill h, mem_considered]

end

/-! ### Selections of a transport -/

/-- What the converters for a direction are, if the selection does not contradict itself:
for a key that it mentions the one that it says, and otherwise the only one there is. -/
structure Meets (r : Repository γ) (S : ConverterNames) (direction : ConverterDirection)
    (outcome : Except Fault (UnambiguousConverterMap γ)) : Prop where
  throws_iff : (∃ f, outcome = .error f) ↔
    ∃ key, (∀ p ∈ S, direction.key p ≠ key) ∧
      ∃ p q, p ≠ q ∧ direction.key p = key ∧ direction.key q = key ∧
        r.converters.find? p ≠ none ∧ r.converters.find? q ≠ none
  throws : ∀ f, outcome = .error f → ∃ what, f = .thrown ⟨.runtimeError, what⟩
  selected : ∀ m, outcome = .ok m → ∀ p ∈ S, m.find? (direction.key p) = r.converters.find? p
  unselected : ∀ m, outcome = .ok m → ∀ key, (∀ p ∈ S, direction.key p ≠ key) →
    ∀ converter, m.find? key = some converter ↔
      ∃ p, direction.key p = key ∧ r.converters.find? p = some converter

section

variable {r : Repository γ} {S : ConverterNames} {direction : ConverterDirection}
  {ambiguous : Bytes → Bytes → Bytes} {selection : SortedMap Bytes Bytes}

theorem find?_eq_none_iff_of_mapsAll (h : S.MapsAll direction selection) {key : Bytes} :
    selection.find? key = none ↔ ∀ p ∈ S, direction.key p ≠ key := by
  rw [Option.eq_none_iff_forall_ne_some]
  constructor
  · rintro hnone p hp rfl
    exact hnone _ ((h _ _).mpr ⟨p, hp, rfl, rfl⟩)
  · rintro hnot v hv
    obtain ⟨p, hp, hkey, -⟩ := (h _ _).mp hv
    exact hnot p hp hkey

theorem meets_getConverters (h : S.MapsAll direction selection) :
    r.Meets S direction (r.getConverters direction ambiguous selection) where
  throws_iff := by
    rw [exists_eq_error_iff, exists_getConverters_eq_ok_iff, not_not, Ambiguous]
    simp only [find?_eq_none_iff_of_mapsAll h]
    constructor
    · rintro ⟨p, q, hne, hkey, hfree, hp, hq⟩
      exact ⟨direction.key p, hfree, p, q, hne, rfl, hkey.symm, hp, hq⟩
    · rintro ⟨_, hfree, p, q, hne, rfl, hkey, hp, hq⟩
      exact ⟨p, q, hne, hkey.symm, hfree, hp, hq⟩
  throws _ hf := getConverters_eq_error hf
  selected m hm p hp := by
    ext converter
    rw [find?_getConverters hm]
    have hchosen : selection.find? (direction.key p) = some (direction.choice p) :=
      (h _ _).mpr ⟨p, hp, rfl, rfl⟩
    constructor
    · rintro ⟨q, hq, hkey, haccepts⟩
      have hchoice := (accepts_iff_of_some (hkey ▸ hchosen)).mp haccepts
      rw [← ConverterDirection.eq_of_key_of_choice hkey hchoice]
      exact hq
    · intro hp
      exact ⟨p, hp, rfl, (accepts_iff_of_some hchosen).mpr rfl⟩
  unselected m hm key hfree converter := by
    rw [find?_getConverters hm]
    rw [← find?_eq_none_iff_of_mapsAll h] at hfree
    constructor
    · rintro ⟨p, hp, hkey, -⟩
      exact ⟨p, hkey, hp⟩
    · rintro ⟨p, rfl, hp⟩
      exact ⟨p, hp, rfl, accepts_of_none hfree⟩

/-- Both directions choose the same converter for a pair of the selection. -/
theorem Meets.agree {forSerialization forDeserialization : UnambiguousConverterMap γ}
    (hser : r.Meets S .serialization (.ok forSerialization))
    (hdes : r.Meets S .deserialization (.ok forDeserialization))
    {wireSchema dataType : Bytes} {converter : γ} (hmem : toLex (wireSchema, dataType) ∈ S)
    (hfind : r.converters.find? (toLex (wireSchema, dataType)) = some converter) :
    forSerialization.find? dataType = some converter ∧
      forDeserialization.find? wireSchema = some converter := by
  rw [← hfind]
  exact ⟨hser.selected _ rfl _ hmem, hdes.selected _ rfl _ hmem⟩

theorem exists_mapsAll (S : ConverterNames) {direction : ConverterDirection}
    (h : ¬ S.Contradictory direction) :
    ∃ selection, S.converterSelectionToMap direction = .ok selection ∧
      S.MapsAll direction selection := by
  cases direction with
  | serialization => exact (ConverterNames.resolves_serialization S).2 h
  | deserialization => exact ((ConverterNames.resolves_deserialization_iff S).mpr h).2 h

/-- Without contradictions the selection decides, and both directions agree on the
converter of a selected pair. -/
theorem selection_decides (wireType : Bytes) (printed : SortedSet Bytes → Bytes)
    (r : Repository γ) {S : ConverterNames} (hserialize : ¬ S.Contradictory .serialization)
    (hdeserialize : ¬ S.Contradictory .deserialization) :
    ∃ wireSchemas dataTypes,
      S.converterSelectionToMap .serialization = .ok wireSchemas ∧
      S.converterSelectionToMap .deserialization = .ok dataTypes ∧
      r.Meets S .serialization (r.getConvertersForSerialization wireType printed wireSchemas) ∧
      r.Meets S .deserialization (r.getConvertersForDeserialization wireType printed dataTypes) ∧
      ∀ forSerialization forDeserialization,
        r.getConvertersForSerialization wireType printed wireSchemas = .ok forSerialization →
        r.getConvertersForDeserialization wireType printed dataTypes = .ok forDeserialization →
        ∀ wireSchema dataType converter, toLex (wireSchema, dataType) ∈ S →
          r.converters.find? (toLex (wireSchema, dataType)) = some converter →
          forSerialization.find? dataType = some converter ∧
            forDeserialization.find? wireSchema = some converter := by
  obtain ⟨wireSchemas, hwireSchemas, hmapsWireSchemas⟩ := exists_mapsAll S hserialize
  obtain ⟨dataTypes, hdataTypes, hmapsDataTypes⟩ := exists_mapsAll S hdeserialize
  have hser : r.Meets S .serialization
      (r.getConvertersForSerialization wireType printed wireSchemas) :=
    meets_getConverters hmapsWireSchemas
  have hdes : r.Meets S .deserialization
      (r.getConvertersForDeserialization wireType printed dataTypes) :=
    meets_getConverters hmapsDataTypes
  refine ⟨wireSchemas, dataTypes, hwireSchemas, hdataTypes, hser, hdes, ?_⟩
  intro forSerialization forDeserialization hokSer hokDes wireSchema dataType converter hmem hfind
  rw [hokSer] at hser
  rw [hokDes] at hdes
  exact hser.agree hdes hmem hfind

end

/-- Two converters for images, which are told apart by the data type. -/
def sampleRepository : Repository ℕ :=
  ⟨.ofList [(toLex (bytes "image", bytes "IplImage"), 0), (toLex (bytes "image", bytes "Mat"), 1),
    (toLex (utf8String, stringType), 2)]⟩

def sampleSelection : ConverterNames := .ofElems [toLex (bytes "image", bytes "Mat")]

theorem not_contradictory_sampleSelection (direction : ConverterDirection) :
    ¬ sampleSelection.Contradictory direction := by
  rintro ⟨p, hp, q, hq, hne, -⟩
  rw [sampleSelection, SortedSet.mem_ofElems, List.mem_singleton] at hp hq
  exact hne (hp.trans hq.symm)

theorem selection_decides_image :
    ∃ wireSchemas dataTypes forSerialization forDeserialization,
      sampleSelection.converterSelectionToMap .serialization = .ok wireSchemas ∧
      sampleSelection.converterSelectionToMap .deserialization = .ok dataTypes ∧
      sampleRepository.getConvertersForSerialization stringType (fun names => names.keys.flatten)
        wireSchemas = .ok forSerialization ∧
      sampleRepository.getConvertersForDeserialization stringType (fun names => names.keys.flatten)
        dataTypes = .ok forDeserialization ∧
      forSerialization.find? (bytes "Mat") = some 1 ∧
      forDeserialization.find? (bytes "image") = some 1 := by
  obtain ⟨wireSchemas, dataTypes, hwireSchemas, hdataTypes, -, -, hagree⟩ :=
    selection_decides stringType (fun names => names.keys.flatten) sampleRepository
      (not_contradictory_sampleSelection _) (not_contradictory_sampleSelection _)
  obtain rfl := Except.ok.inj hwireSchemas
  obtain rfl := Except.ok.inj hdataTypes
  refine ⟨_, _, _, _, rfl, rfl, rfl, rfl, ?_⟩
  exact hagree _ _ rfl rfl (bytes "image") (bytes "Mat") 1 (by decide) rfl

-- without the selection, images cannot be deserialized
example : ∃ what, sampleRepository.getConvertersForDeserialization stringType
    (fun names => names.keys.flatten) .empty = .error (.thrown ⟨.runtimeError, what⟩) :=
  ⟨_, rfl⟩

end Repository

end Rsb
