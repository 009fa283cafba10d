import Rsb.ParticipantConfig
import Rsb.Library.Unambiguous

/-!
Selections of converters as maps (`converterSelectionToMap` in `Factory.cpp`).

A transport is configured with pairs of a wire schema and a data type. To serialize, the
wire schema of a data type is looked up, and to deserialize the data type of a wire
schema. Two pairs that contradict each other are refused in the first case. In the
second one the pair that comes last in the set replaces the others.
-/

namespace Rsb

open Library

/-- `ParticipantConfig::Transport::ConverterNames`. -/
abbrev ConverterNames := SortedSet (Bytes ×ₗ Bytes)

inductive ConverterDirection
  | serialization | deserialization
  deriving DecidableEq

/-- What is looked up in the map for a direction. -/
def ConverterDirection.key : ConverterDirection → Bytes ×ₗ Bytes → Bytes
  | .serialization, it => (ofLex it).2
  | .deserialization, it => (ofLex it).1

/-- What is found there. -/
def ConverterDirection.choice : ConverterDirection → Bytes ×ₗ Bytes → Bytes
  | .serialization, it => (ofLex it).1
  | .deserialization, it => (ofLex it).2

theorem ConverterDirection.eq_of_key_of_choice {direction : ConverterDirection} {p q : Bytes ×ₗ Bytes}
    (hkey : direction.key p = direction.key q) (hchoice : direction.choice p = direction.choice q) :
    p = q := by
  cases direction with
  | serialization => exact Prod.ext hchoice hkey
  | deserialization => exact Prod.ext hkey hchoice

def multipleWireSchemas (dataType other wireSchema : Bytes) : Bytes :=
  bytes "Multiple wire-schemas (" ++ wireSchema ++ bytes ", " ++ other ++
    bytes ") selected for data-type " ++ dataType ++
    bytes ".\nProbably you wrote the lines transport.<name>.cpp." ++ wireSchema ++
    bytes " = " ++ dataType ++ bytes " and transport.<name>.cpp." ++ other ++ bytes " = " ++
    dataType ++ bytes " in your rsb config. One of these should be deleted."

namespace ConverterNames

/-- The body of the loop. -/
def select (direction : ConverterDirection) (result : SortedMap Bytes Bytes)
    (it : Bytes ×ₗ Bytes) : Except Fault (SortedMap Bytes Bytes) :=
  match direction with
  | .deserialization => .ok (result.insert (ofLex it).1 (ofLex it).2)
  | .serialization =>
      match result.find? (ofLex it).2 with
      | some other =>
          .error (invalidArgument (multipleWireSchemas (ofLex it).2 other (ofLex it).1))
      | none => .ok (result.insert (ofLex it).2 (ofLex it).1)

def converterSelectionToMap (container : ConverterNames) (direction : ConverterDirection) :
    Except Fault (SortedMap Bytes Bytes) :=
  container.keys.foldlM (select direction) .empty

/-- Two different pairs agree in what is looked up. -/
def Contradictory (S : ConverterNames) (direction : ConverterDirection) : Prop :=
  ∃ p ∈ S, ∃ q ∈ S, p ≠ q ∧ direction.key p = direction.key q

/-- The map has the pairs of the selection. -/
def MapsAll (S : ConverterNames) (direction : ConverterDirection) (m : SortedMap Bytes Bytes) :
    Prop :=
  ∀ k v, m.find? k = some v ↔ ∃ p ∈ S, direction.key p = k ∧ direction.choice p = v

/-- A selection that contradicts itself is refused, and any other one becomes a map. -/
def Resolves (S : ConverterNames) (direction : ConverterDirection) : Prop :=
  ((∃ what, S.converterSelectionToMap direction = .error (invalidArgument what)) ↔
    S.Contradictory direction) ∧
  (¬ S.Contradictory direction →
    ∃ m, S.converterSelectionToMap direction = .ok m ∧ S.MapsAll direction m)

/-- The pairs in the order of the set, as entries of the map of a direction. -/
def pairs (S : ConverterNames) (direction : ConverterDirection) : List (Bytes × Bytes) :=
  S.keys.map fun it => (direction.key it, direction.choice it)

variable {S : ConverterNames} {direction : ConverterDirection}

theorem mem_pairs {k v : Bytes} :
    (k, v) ∈ S.pairs direction ↔ ∃ p ∈ S, direction.key p = k ∧ direction.choice p = v := by
  simp [pairs]

theorem mapsAll_iff_holds {m : SortedMap Bytes Bytes} :
    S.MapsAll direction m ↔ m.Holds (S.pairs direction) := by
  simp only [MapsAll, SortedMap.Holds, mem_pairs]

theorem nodup_pairs_iff :
    ((S.pairs direction).map Prod.fst).Nodup ↔ ¬ S.Contradictory direction := by
  rw [pairs, List.map_map, List.nodup_map_iff_inj_on (SortedMap.nodup_keys S)]
  simp only [Function.comp_apply, SortedSet.mem_keys, Contradictory]
  constructor
  · rintro hinj ⟨p, hp, q, hq, hne, hkey⟩
    exact hne (hinj p hp q hq hkey)
  · intro hnot p hp q hq hkey
    by_contra hne
    exact hnot ⟨p, hp, q, hq, hne, hkey⟩

/-! ### Serialization -/

theorem select_serialization (result : SortedMap Bytes Bytes) (it : Bytes ×ₗ Bytes) :
    select .serialization result it =
      SortedMap.insertNew (fun k old v => invalidArgument (multipleWireSchemas k old v)) result
        (ConverterDirection.serialization.key it, ConverterDirection.serialization.choice it) := by
  simp only [select, SortedMap.insertNew, ConverterDirection.key, ConverterDirection.choice]
  cases result.find? (ofLex it).2 <;> rfl

theorem converterSelectionToMap_serialization (S : ConverterNames) :
    S.converterSelectionToMap .serialization =
      SortedMap.fill (fun k old v => invalidArgument (multipleWireSchemas k old v))
        (S.pairs .serialization) := by
  rw [converterSelectionToMap, funext₂ select_serialization, SortedMap.fill, pairs,
    List.foldlM_map]

theorem resolves_serialization (S : ConverterNames) : S.Resolves .serialization := by
  rw [Resolves, converterSelectionToMap_serialization]
  rcases SortedMap.fill_cases (fun k old v => invalidArgument (multipleWireSchemas k old v))
    (S.pairs .serialization) with
    ⟨hnodup, m, hm, hholds⟩ | ⟨before, k, old, v, after, hsplit, hold, herror⟩
  · rw [hm]
    have hnot := nodup_pairs_iff.mp hnodup
    refine ⟨iff_of_false (fun ⟨what, h⟩ => by cases h) hnot, fun _ => ⟨m, rfl, ?_⟩⟩
    exact mapsAll_iff_holds.mpr hholds
  · rw [herror]
    have hcontradictory : S.Contradictory .serialization := by
      rw [← not_not (a := S.Contradictory .serialization), ← nodup_pairs_iff, hsplit]
      exact SortedMap.not_nodup_of_collision hold
    exact ⟨iff_of_true ⟨_, rfl⟩ hcontradictory, fun hnot => absurd hcontradictory hnot⟩

/-! ### Deserialization -/

theorem converterSelectionToMap_deserialization (S : ConverterNames) :
    S.converterSelectionToMap .deserialization = .ok (.ofList (S.pairs .deserialization)) := by
  rw [SortedMap.ofList, pairs, List.foldl_map]
  exact List.foldlM_pure

theorem resolves_deserialization_iff (S : ConverterNames) :
    S.Resolves .deserialization ↔ ¬ S.Contradictory .deserialization := by
  rw [Resolves, converterSelectionToMap_deserialization]
  constructor
  · rintro ⟨hthrows, -⟩ hcontradictory
    obtain ⟨what, h⟩ := hthrows.mpr hcontradictory
    cases h
  · intro hnot
    refine ⟨iff_of_false (fun ⟨what, h⟩ => by cases h) hnot, fun _ => ⟨_, rfl, ?_⟩⟩
    exact mapsAll_iff_holds.mpr (SortedMap.holds_ofList (nodup_pairs_iff.mpr hnot))

theorem sorted_pairs (S : ConverterNames) :
    (S.pairs .deserialization).Pairwise fun a b => toLex a < toLex b := by
  rw [pairs]
  exact List.Pairwise.map _ (fun _ _ h => h) (List.Pairwise.map _ (fun _ _ h => h) S.sorted)

/-- Of the data types of a wire schema the greatest one is chosen. -/
theorem find?_deserialization {m : SortedMap Bytes Bytes}
    (h : S.converterSelectionToMap .deserialization = .ok m) (wireSchema dataType : Bytes) :
    m.find? wireSchema = some dataType ↔
      toLex (wireSchema, dataType) ∈ S ∧
        ∀ other, toLex (wireSchema, other) ∈ S → other ≤ dataType := by
  have hmem : ∀ {d : Bytes}, (wireSchema, d) ∈ S.pairs .deserialization ↔ toLex (wireSchema, d) ∈ S := by
    intro d
    rw [mem_pairs]
    constructor
    · rintro ⟨p, hp, rfl, rfl⟩
      exact hp
    · intro hp
      exact ⟨_, hp, rfl, rfl⟩
  rw [converterSelectionToMap_deserialization] at h
  obtain rfl := Except.ok.inj h
  rw [SortedMap.find?_ofList_eq_some_iff]
  have hsorted := sorted_pairs S
  constructor
  · rintro ⟨before, after, hsplit, hafter⟩
    rw [hsplit] at hsorted
    refine ⟨hmem.mp (by simp [hsplit]), fun other hother => ?_⟩
    rw [← hmem, hsplit, List.mem_append, List.mem_cons] at hother
    rcases hother with hbefore | heq | hother
    · have hlt := (List.pairwise_append.mp hsorted).2.2 _ hbefore _ List.mem_cons_self
      rcases Prod.Lex.toLex_lt_toLex.mp hlt with hschema | ⟨-, hother⟩
      · exact absurd hschema (lt_irrefl _)
      · exact hother.le
    · exact (Prod.mk.inj heq).2.le
    · exact absurd (List.mem_map_of_mem hother) hafter
  · rintro ⟨hp, hgreatest⟩
    obtain ⟨before, after, hsplit⟩ := List.append_of_mem (hmem.mpr hp)
    rw [hsplit] at hsorted
    refine ⟨before, after, hsplit, fun hafter => ?_⟩
    obtain ⟨⟨_, other⟩, hother, rfl⟩ := List.mem_map.mp hafter
    have hlt := (List.pairwise_cons.mp (List.pairwise_append.mp hsorted).2.1).1 _ hother
    rcases Prod.Lex.toLex_lt_toLex.mp hlt with hschema | ⟨-, hless⟩
    · exact lt_irrefl _ hschema
    · have hmemOther := hmem.mp (hsplit ▸ List.mem_append_right before (List.mem_cons_of_mem _ hother))
      exact absurd (hgreatest other hmemOther) (not_le.mpr hless)

/-! ### Both directions -/

/-- Contradictions for serialization are always refused, those for deserialization
never. -/
theorem resolves_both_iff (S : ConverterNames) :
    S.Resolves .serialization ∧ S.Resolves .deserialization ↔ ¬ S.Contradictory .deserialization := by
  rw [resolves_deserialization_iff]
  exact and_iff_right (resolves_serialization S)

/-- A wire schema with two data types, as two options select it. -/
theorem contradiction_kept :
    ∃ c t, ParticipantConfig.sampleConfig.handleOptions ParticipantConfig.sampleEnvironment
        [(ParticipantConfig.selectionKey (bytes "socket") (bytes "image"), bytes "IplImage"),
          (ParticipantConfig.selectionKey (bytes "socket") (bytes "image"), bytes "Mat")] = .ok c ∧
      c.transports.find? (bytes "socket") = some t ∧
      (converterSelectionToMap t.converters .deserialization).map (·.entries) =
        .ok [(bytes "image", bytes "Mat")] ∧
      ¬ (Resolves t.converters .serialization ∧ Resolves t.converters .deserialization) := by
  refine ⟨_, _, rfl, rfl, rfl, ?_⟩
  rintro ⟨-, hthrows, -⟩
  obtain ⟨what, hwhat⟩ := hthrows.mpr ⟨toLex (bytes "image", bytes "IplImage"), by decide,
    toLex (bytes "image", bytes "Mat"), by decide, by decide, rfl⟩
  rw [converterSelectionToMap_deserialization] at hwhat
  cases hwhat

end ConverterNames

end Rsb
