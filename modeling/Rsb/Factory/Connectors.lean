import Rsb.Converter.Repository
import Rsb.Factory
import Rsb.Library.Traversal

/-!
The connectors of a participant (`Factory.cpp`).

For every enabled transport of its configuration, a participant gets one connector. The
connectors of remote transports are given converters: those that the repository has, as far as
the selection of the transport leaves them in. What is wrong with a transport is reported with
its name and the direction.
-/

namespace Rsb.Factory

open Library ParticipantConfig Transport

variable {π γ : Type} [Properties π] {χ : Direction → Type}

/-- The options that a constructor gets. `converters` is what is put under that name; there may
be an entry of the user instead. -/
structure ConnectorOptions (π γ : Type) where
  options : π
  converters : Option (UnambiguousConverterMap γ)

/-- What the factory works with. `createInst` stands for the constructors of the connectors. -/
structure Context (π γ : Type) (χ : Direction → Type) where
  env : Environment
  transports : Transports
  repository : Repository γ
  wireType : Bytes
  printed : SortedSet Bytes → Bytes
  createInst (d : Direction) : Bytes → ConnectorOptions π γ → Except Fault (χ d)

variable (ctx : Context π γ χ)

/-- The converters that the repository has for a direction. -/
def selectConverters (direction : ConverterDirection) (selection : SortedMap Bytes Bytes) :
    Except Fault (UnambiguousConverterMap γ) :=
  match direction with
  | .serialization =>
      ctx.repository.getConvertersForSerialization ctx.wireType ctx.printed selection
  | .deserialization =>
      ctx.repository.getConvertersForDeserialization ctx.wireType ctx.printed selection

def prepareConnectorOptions (config : Transport π) (direction : ConverterDirection) :
    Except Fault (ConnectorOptions π γ) := do
  let remote ← ctx.transports.isRemote config.name
  if remote && (Properties.find? config.options (bytes "converters")).isNone then
    let selection ← ConverterNames.converterSelectionToMap config.converters direction
    let converters ← selectConverters ctx direction selection
    return ⟨config.options, some converters⟩
  else return ⟨config.options, none⟩

/-- Out connectors serialize. -/
def converterDirection : Direction → ConverterDirection
  | .out => .serialization
  | .inPush | .inPull => .deserialization

def directionText : Direction → Bytes
  | .inPush => bytes "in-push"
  | .inPull => bytes "in-pull"
  | .out => bytes "out"

/-- What the catch clause makes of an exception. -/
def configuringFailed (d : Direction) (name : Bytes) : Fault → Fault
  | .thrown e => .thrown ⟨.runtimeError, bytes "Error configuring connector `" ++ name ++
      bytes "', " ++ directionText d ++ bytes ": " ++ e.what⟩
  | fault => fault

/-- The body of the loops. -/
def createConnector (d : Direction) (config : Transport π) : Except Fault (χ d) :=
  (do
    let options ← prepareConnectorOptions ctx config (converterDirection d)
    ctx.createInst d config.name options).mapError (configuringFailed d config.name)

def createConnectors (d : Direction) (config : ParticipantConfig π) :
    Except Fault (List (χ d)) := do
  let configured ← config.getTransports ctx.env.toEnvironment false
  (configured.entries.map Prod.snd).mapM (createConnector ctx d)

def createInPullConnectors (config : ParticipantConfig π) : Except Fault (List (χ .inPull)) :=
  createConnectors ctx .inPull config

def createInPushConnectors (config : ParticipantConfig π) : Except Fault (List (χ .inPush)) :=
  createConnectors ctx .inPush config

def createOutConnectors (config : ParticipantConfig π) : Except Fault (List (χ .out)) :=
  createConnectors ctx .out config

/-! ### Selections -/

/-- A key that the selection does not mention has several converters. -/
def Undecided (r : Repository γ) (S : ConverterNames) (direction : ConverterDirection) : Prop :=
  ∃ p q, p ≠ q ∧ direction.key p = direction.key q ∧ (∀ s ∈ S, direction.key s ≠ direction.key p) ∧
    r.converters.find? p ≠ none ∧ r.converters.find? q ≠ none

section

variable {S : ConverterNames} {direction : ConverterDirection} {selection : SortedMap Bytes Bytes}

theorem not_contradictory_of_eq_ok
    (h : S.converterSelectionToMap .serialization = .ok selection) :
    ¬ S.Contradictory .serialization := by
  intro hcontradictory
  obtain ⟨what, hwhat⟩ := (ConverterNames.resolves_serialization S).1.mpr hcontradictory
  rw [h] at hwhat
  cases hwhat

theorem mapsAll_of_serialization
    (h : S.converterSelectionToMap .serialization = .ok selection) :
    S.MapsAll .serialization selection := by
  obtain ⟨m, hm, hmaps⟩ :=
    (ConverterNames.resolves_serialization S).2 (not_contradictory_of_eq_ok h)
  rw [h] at hm
  rwa [Except.ok.inj hm]

/-- The selection has nothing for a key exactly if no pair mentions it. -/
theorem find?_selection_eq_none_iff (h : S.converterSelectionToMap direction = .ok selection)
    (key : Bytes) : selection.find? key = none ↔ ∀ s ∈ S, direction.key s ≠ key := by
  cases direction with
  | serialization => exact Repository.find?_eq_none_iff_of_mapsAll (mapsAll_of_serialization h)
  | deserialization =>
      rw [ConverterNames.converterSelectionToMap_deserialization] at h
      obtain rfl := Except.ok.inj h
      rw [SortedMap.find?_ofList_eq_none_iff, ConverterNames.pairs, List.map_map, List.mem_map]
      simp

theorem ambiguous_iff_undecided (h : S.converterSelectionToMap direction = .ok selection)
    (r : Repository γ) : r.Ambiguous direction selection ↔ Undecided r S direction := by
  simp only [Repository.Ambiguous, Undecided, find?_selection_eq_none_iff h]

theorem exists_converterSelectionToMap_iff (S : ConverterNames) (direction : ConverterDirection) :
    (∃ selection, S.converterSelectionToMap direction = .ok selection) ↔
      ¬ (direction = .serialization ∧ S.Contradictory .serialization) := by
  cases direction with
  | serialization =>
      rw [and_iff_right rfl]
      constructor
      · rintro ⟨selection, h⟩
        exact not_contradictory_of_eq_ok h
      · intro hnot
        obtain ⟨m, hm, -⟩ := (ConverterNames.resolves_serialization S).2 hnot
        exact ⟨m, hm⟩
  | deserialization =>
      rw [ConverterNames.converterSelectionToMap_deserialization]
      simp

end

omit [Properties π] in
theorem exists_selectConverters_iff (direction : ConverterDirection)
    (selection : SortedMap Bytes Bytes) :
    (∃ m, selectConverters ctx direction selection = .ok m) ↔
      ¬ ctx.repository.Ambiguous direction selection := by
  cases direction with
  | serialization => exact Repository.exists_getConverters_eq_ok_iff
  | deserialization => exact Repository.exists_getConverters_eq_ok_iff

/-! ### Options of a connector -/

/-- The transport is known and its connectors agree about whether it is remote; and where the
factory chooses the converters of a remote one, it can do so. -/
def Prepared (config : Transport π) (direction : ConverterDirection) : Prop :=
  ∃ remote, ctx.transports.isRemote config.name = .ok remote ∧
    (remote = true → Properties.find? config.options (bytes "converters") = none →
      ¬ (direction = .serialization ∧
        ConverterNames.Contradictory config.converters .serialization) ∧
      ¬ Undecided ctx.repository config.converters direction)

variable {ctx}

theorem prepareConnectorOptions_of_chosen {config : Transport π} {direction : ConverterDirection}
    (hremote : ctx.transports.isRemote config.name = .ok true)
    (hfree : Properties.find? config.options (bytes "converters") = none)
    {o : ConnectorOptions π γ} :
    prepareConnectorOptions ctx config direction = .ok o ↔
      ∃ selection converters,
        ConverterNames.converterSelectionToMap config.converters direction = .ok selection ∧
        selectConverters ctx direction selection = .ok converters ∧
        o = ⟨config.options, some converters⟩ := by
  rw [prepareConnectorOptions, hremote]
  change (if (true && (Properties.find? config.options (bytes "converters")).isNone) = true then _
    else _) = _ ↔ _
  rw [hfree]
  simp only [Option.isNone_none, Bool.and_true, if_true, bind_eq_ok_iff, exists_and_left]
  refine exists_congr fun selection => and_congr_right fun _ => exists_congr fun converters =>
    and_congr_right fun _ => ?_
  exact ⟨fun h => (Except.ok.inj h).symm, fun h => h ▸ rfl⟩

theorem prepareConnectorOptions_of_given {config : Transport π} {direction : ConverterDirection}
    {remote : Bool} (hremote : ctx.transports.isRemote config.name = .ok remote)
    (hgiven : ¬ (remote = true ∧
      Properties.find? config.options (bytes "converters") = none)) :
    prepareConnectorOptions ctx config direction = .ok ⟨config.options, none⟩ := by
  rw [prepareConnectorOptions, hremote]
  exact if_neg (by simpa using hgiven)

/-- Just what a transport needs for its options to be prepared. -/
theorem exists_prepareConnectorOptions_iff {config : Transport π}
    {direction : ConverterDirection} :
    (∃ o, prepareConnectorOptions ctx config direction = .ok o) ↔
      Prepared ctx config direction := by
  cases hremote : ctx.transports.isRemote config.name with
  | error fault =>
      simp [prepareConnectorOptions, Prepared, hremote, bind, Except.bind]
  | ok remote =>
      by_cases hchosen :
          remote = true ∧ Properties.find? config.options (bytes "converters") = none
      · obtain ⟨rfl, hfree⟩ := hchosen
        have hprepared : Prepared ctx config direction ↔
            ¬ (direction = .serialization ∧
              ConverterNames.Contradictory config.converters .serialization) ∧
            ¬ Undecided ctx.repository config.converters direction := by
          simp [Prepared, hremote, hfree]
        rw [hprepared, ← exists_converterSelectionToMap_iff]
        simp only [prepareConnectorOptions_of_chosen hremote hfree]
        constructor
        · rintro ⟨o, selection, converters, hselection, hconverters, -⟩
          refine ⟨⟨selection, hselection⟩, ?_⟩
          rw [← ambiguous_iff_undecided hselection, ← exists_selectConverters_iff]
          exact ⟨converters, hconverters⟩
        · rintro ⟨⟨selection, hselection⟩, hdecided⟩
          rw [← ambiguous_iff_undecided hselection, ← exists_selectConverters_iff] at hdecided
          obtain ⟨converters, hconverters⟩ := hdecided
          exact ⟨_, selection, converters, hselection, hconverters, rfl⟩
      · refine iff_of_true ⟨_, prepareConnectorOptions_of_given hremote hchosen⟩ ?_
        exact ⟨remote, hremote, fun hr hfree => absurd ⟨hr, hfree⟩ hchosen⟩

/-! ### All connectors of a participant -/

/-- The options of the transport can be prepared, and the constructor takes them. -/
def Creatable (ctx : Context π γ χ) (d : Direction) (config : Transport π) : Prop :=
  Prepared ctx config (converterDirection d) ∧
    ∀ o, prepareConnectorOptions ctx config (converterDirection d) = .ok o →
      ∃ connector, ctx.createInst d config.name o = .ok connector

theorem createConnector_eq_ok_iff {d : Direction} {config : Transport π} {connector : χ d} :
    createConnector ctx d config = .ok connector ↔
      ∃ o, prepareConnectorOptions ctx config (converterDirection d) = .ok o ∧
        ctx.createInst d config.name o = .ok connector := by
  rw [createConnector, ← bind_eq_ok_iff]
  cases prepareConnectorOptions ctx config (converterDirection d) >>= ctx.createInst d config.name <;>
    simp [Except.mapError]

theorem exists_createConnector_iff {d : Direction} {config : Transport π} :
    (∃ connector, createConnector ctx d config = .ok connector) ↔ Creatable ctx d config := by
  simp only [createConnector_eq_ok_iff, Creatable, ← exists_prepareConnectorOptions_iff]
  constructor
  · rintro ⟨connector, o, ho, hconnector⟩
    refine ⟨⟨o, ho⟩, fun o' ho' => ?_⟩
    rw [ho] at ho'
    rw [← Except.ok.inj ho']
    exact ⟨connector, hconnector⟩
  · rintro ⟨⟨o, ho⟩, hall⟩
    obtain ⟨connector, hconnector⟩ := hall o ho
    exact ⟨connector, o, ho, hconnector⟩

theorem createConnector_eq_error {d : Direction} {config : Transport π} {e : Exception}
    (h : createConnector ctx d config = .error (.thrown e)) :
    ∃ what, e = ⟨.runtimeError, bytes "Error configuring connector `" ++ config.name ++
      bytes "', " ++ directionText d ++ bytes ": " ++ what⟩ := by
  rw [createConnector] at h
  generalize hx : (prepareConnectorOptions ctx config (converterDirection d) >>=
    ctx.createInst d config.name) = x at h
  cases x with
  | ok connector => cases h
  | error fault =>
      have hfault : configuringFailed d config.name fault = .thrown e := Except.error.inj h
      cases fault with
      | thrown e' => exact ⟨e'.what, (Fault.thrown.inj hfault).symm⟩
      | assertion | readPastEnd | writePastEnd | nullPointer => cases hfault

/-- A participant gets one connector for each enabled transport, in the order of the names,
exactly if each of them can be created; otherwise the first that cannot is named. -/
theorem connectors_created (ctx : Context π γ χ) (d : Direction) {config : ParticipantConfig π}
    {ts : SortedMap Bytes (Transport π)}
    (hts : config.getTransports ctx.env.toEnvironment false = .ok ts) :
    ((∃ connectors, createConnectors ctx d config = .ok connectors) ↔
      ∀ name t, ts.find? name = some t → Creatable ctx d t) ∧
    (∀ connectors, createConnectors ctx d config = .ok connectors →
      List.Forall₂ (fun t connector =>
        ∃ o, prepareConnectorOptions ctx t (converterDirection d) = .ok o ∧
          ctx.createInst d t.name o = .ok connector) (ts.entries.map Prod.snd) connectors) ∧
    ∀ e, createConnectors ctx d config = .error (.thrown e) →
      ∃ name t, ts.find? name = some t ∧ ¬ Creatable ctx d t ∧
        (∀ name' t', ts.find? name' = some t' → name' < name → Creatable ctx d t') ∧
        ∃ what, e = ⟨.runtimeError, bytes "Error configuring connector `" ++ t.name ++
          bytes "', " ++ directionText d ++ bytes ": " ++ what⟩ := by
  have hcreate : createConnectors ctx d config =
      (ts.entries.map Prod.snd).mapM (createConnector ctx d) := by
    rw [createConnectors, hts]
    rfl
  rw [hcreate]
  refine ⟨?_, fun connectors hconnectors => ?_, fun e he => ?_⟩
  · rw [exists_mapM_iff]
    simp only [exists_createConnector_iff, List.mem_map, ← SortedMap.find?_eq_some_iff,
      Prod.exists, exists_eq_right, forall_exists_index]
    exact forall_comm
  · exact (mapM_eq_ok_iff.mp hconnectors).imp fun t connector h => createConnector_eq_ok_iff.mp h
  · obtain ⟨before, t, after, hsplit, hbefore, ht⟩ := mapM_eq_error he
    obtain ⟨front, rest, hentries, rfl, hrest⟩ := List.map_eq_append_iff.mp hsplit
    obtain ⟨⟨name, t'⟩, back, rfl, rfl, -⟩ := List.map_eq_cons_iff.mp hrest
    have hsorted := ts.sorted
    rw [hentries] at hsorted
    refine ⟨name, t', ?_, ?_, fun name' t'' h'' hlt => ?_, createConnector_eq_error ht⟩
    · rw [SortedMap.find?_eq_some_iff, hentries]
      exact List.mem_append_right front List.mem_cons_self
    · rw [← exists_createConnector_iff]
      rintro ⟨connector, hconnector⟩
      rw [ht] at hconnector
      cases hconnector
    · -- whatever comes before it in the order of the names has been created
      rw [SortedMap.find?_eq_some_iff, hentries, List.mem_append, List.mem_cons] at h''
      rcases h'' with hfront | heq | hback
      · exact exists_createConnector_iff.mp (hbefore t'' (List.mem_map_of_mem hfront))
      · rw [(Prod.mk.inj heq).1] at hlt
        exact absurd hlt (lt_irrefl _)
      · have hless := (List.pairwise_cons.mp (List.pairwise_append.mp hsorted).2.1).1 _ hback
        exact absurd hlt hless.le.not_gt

/-- A socket transport that is told which converter to use for images. -/
def sampleConfig : ParticipantConfig (SortedMap Bytes Bytes) :=
  { ParticipantConfig.new with
    transports := .ofList [(bytes "socket",
      ⟨bytes "socket", Repository.sampleSelection, SortedMap.empty⟩)] }

/-- The constructors return the converters that they are given. -/
def sampleContext : Context (SortedMap Bytes Bytes) ℕ fun _ => Option (SortedMap Bytes ℕ) where
  env := sampleEnvironment
  transports := sampleTransports
  repository := Repository.sampleRepository
  wireType := stringType
  printed names := names.keys.flatten
  createInst _ _ o := .ok o.converters

theorem connectors_created_image :
    ∃ connectors, createInPushConnectors sampleContext sampleConfig = .ok connectors ∧
      connectors.length = 1 := by
  obtain ⟨ts, hts, hsize⟩ : ∃ ts, sampleConfig.getTransports
      sampleContext.env.toEnvironment false = .ok ts ∧ ts.entries.length = 1 := ⟨_, rfl, rfl⟩
  obtain ⟨connectors, hconnectors⟩ :
      ∃ connectors, createConnectors sampleContext .inPush sampleConfig = .ok connectors :=
    ⟨_, rfl⟩
  have hcreated := (connectors_created sampleContext .inPush hts).2.1 connectors hconnectors
  refine ⟨connectors, hconnectors, ?_⟩
  rw [← hcreated.length_eq, List.length_map, hsize]

/-! ### Both directions -/

/-- Converters are registered one after the other, each under the wire schema and the data type
that it has, and perhaps in place of another one. -/
def registerConverters (signature : γ → Bytes ×ₗ Bytes) (l : List (γ × Bool)) :
    Except Fault (Repository γ) :=
  l.foldlM (fun r it =>
    r.registerConverter (ofLex (signature it.1)).1 (ofLex (signature it.1)).2 it.1 it.2) .new

def Signed (signature : γ → Bytes ×ₗ Bytes) (r : Repository γ) : Prop :=
  ∀ p converter, r.converters.find? p = some converter → signature converter = p

theorem Signed.registerConverter {signature : γ → Bytes ×ₗ Bytes} {r r' : Repository γ}
    (h : Signed signature r) {converter : γ} {replace : Bool}
    (hregister : r.registerConverter (ofLex (signature converter)).1
      (ofLex (signature converter)).2 converter replace = .ok r') : Signed signature r' := by
  rw [Repository.registerConverter] at hregister
  split_ifs at hregister
  obtain rfl := Except.ok.inj hregister
  intro p other hother
  rw [SortedMap.find?_insert] at hother
  split_ifs at hother with hp
  · rw [← Option.some.inj hother, hp]
    rfl
  · exact h p other hother

theorem signed_registerConverters {signature : γ → Bytes ×ₗ Bytes} {l : List (γ × Bool)}
    {r : Repository γ} (h : registerConverters signature l = .ok r) : Signed signature r := by
  have hrun : ∀ (l : List (γ × Bool)) (start : Repository γ), Signed signature start →
      l.foldlM (fun r it => r.registerConverter (ofLex (signature it.1)).1
        (ofLex (signature it.1)).2 it.1 it.2) start = .ok r → Signed signature r := by
    intro l
    induction l with
    | nil =>
        intro start hstart h
        rwa [← Except.ok.inj h]
    | cons it l ih =>
        intro start hstart h
        rw [List.foldlM_cons] at h
        obtain ⟨next, hnext, h⟩ := bind_eq_ok_iff.mp h
        exact ih next (hstart.registerConverter hnext) h
  refine hrun l .new (fun p converter hfind => ?_) h
  cases hfind

theorem exists_selection_of_prepared {config : Transport π} {direction : ConverterDirection}
    {o : π} {converters : UnambiguousConverterMap γ}
    (h : prepareConnectorOptions ctx config direction = .ok ⟨o, some converters⟩) :
    ∃ selection, ConverterNames.converterSelectionToMap config.converters direction =
        .ok selection ∧ selectConverters ctx direction selection = .ok converters := by
  obtain ⟨remote, hremote, -⟩ := exists_prepareConnectorOptions_iff.mp ⟨_, h⟩
  by_cases hchosen : remote = true ∧ Properties.find? config.options (bytes "converters") = none
  · obtain ⟨rfl, hfree⟩ := hchosen
    obtain ⟨selection, chosen, hselection, hchosen, heq⟩ :=
      (prepareConnectorOptions_of_chosen hremote hfree).mp h
    rw [Option.some.inj (ConnectorOptions.mk.inj heq).2]
    exact ⟨selection, hselection, hchosen⟩
  · rw [prepareConnectorOptions_of_given hremote hchosen] at h
    cases Except.ok.inj h

omit [Properties π] in
theorem find?_selectConverters {direction : ConverterDirection}
    {selection : SortedMap Bytes Bytes} {converters : UnambiguousConverterMap γ}
    (h : selectConverters ctx direction selection = .ok converters) {key : Bytes}
    {converter : γ} :
    converters.find? key = some converter ↔
      ∃ p, ctx.repository.converters.find? p = some converter ∧ direction.key p = key ∧
        Repository.Accepts direction selection p := by
  cases direction with
  | serialization => exact Repository.find?_getConverters h
  | deserialization => exact Repository.find?_getConverters h

/-- Which converters are left in for a wire schema. -/
theorem accepts_deserialization_iff {S : ConverterNames} {selection : SortedMap Bytes Bytes}
    (h : S.converterSelectionToMap .deserialization = .ok selection)
    {wireSchema dataType : Bytes} :
    Repository.Accepts .deserialization selection (toLex (wireSchema, dataType)) ↔
      (∀ other, toLex (wireSchema, other) ∉ S) ∨
        toLex (wireSchema, dataType) ∈ S ∧
          ∀ other, toLex (wireSchema, other) ∈ S → other ≤ dataType := by
  constructor
  · intro haccepts
    cases hchosen : selection.find? wireSchema with
    | none =>
        refine .inl fun other hother => ?_
        exact (find?_selection_eq_none_iff h wireSchema).mp hchosen _ hother rfl
    | some chosen =>
        obtain rfl : dataType = chosen := haccepts chosen hchosen
        exact .inr ((ConverterNames.find?_deserialization h wireSchema dataType).mp hchosen)
  · rintro (hfree | ⟨hmem, hgreatest⟩) chosen hchosen
    · have hother := (ConverterNames.find?_deserialization h wireSchema chosen).mp hchosen
      exact absurd hother.1 (hfree chosen)
    · have hother := (ConverterNames.find?_deserialization h wireSchema chosen).mp hchosen
      exact le_antisymm (hother.2 dataType hmem) (hgreatest chosen hother.1)

/-- What an out connector writes with a converter, an in connector with the same configuration
reads with the same one just if the selection does not mention the wire schema, or the data type
of the converter is the greatest one that it has for the wire schema. Otherwise the greatest one
decides how it is read. -/
theorem directions_agree {signature : γ → Bytes ×ₗ Bytes} {l : List (γ × Bool)}
    (hregistered : registerConverters signature l = .ok ctx.repository) {config : Transport π}
    {o i : π} {forSerialization forDeserialization : UnambiguousConverterMap γ}
    (hout : prepareConnectorOptions ctx config .serialization =
      .ok ⟨o, some forSerialization⟩)
    (hin : prepareConnectorOptions ctx config .deserialization =
      .ok ⟨i, some forDeserialization⟩)
    {dataType : Bytes} {converter : γ}
    (hfind : forSerialization.find? dataType = some converter) :
    ∃ wireSchema, signature converter = toLex (wireSchema, dataType) ∧
      (forDeserialization.find? wireSchema = some converter ↔
        (∀ other, toLex (wireSchema, other) ∉ config.converters) ∨
          toLex (wireSchema, dataType) ∈ config.converters ∧
            ∀ other, toLex (wireSchema, other) ∈ config.converters → other ≤ dataType) ∧
      ∀ greatest, toLex (wireSchema, greatest) ∈ config.converters →
        (∀ other, toLex (wireSchema, other) ∈ config.converters → other ≤ greatest) →
        forDeserialization.find? wireSchema =
          ctx.repository.converters.find? (toLex (wireSchema, greatest)) := by
  have hsigned := signed_registerConverters hregistered
  obtain ⟨_, -, hforSerialization⟩ := exists_selection_of_prepared hout
  obtain ⟨selection, hselection, hforDeserialization⟩ := exists_selection_of_prepared hin
  obtain ⟨p, hp, rfl, -⟩ := (find?_selectConverters hforSerialization).mp hfind
  have hsignature := hsigned p converter hp
  refine ⟨(ofLex p).1, hsignature, ?_, fun greatest hmem hgreatest => ?_⟩
  · have hdecides : Repository.Accepts .deserialization selection p ↔ _ :=
      accepts_deserialization_iff hselection
    rw [find?_selectConverters hforDeserialization]
    refine Iff.trans ?_ hdecides
    constructor
    · rintro ⟨q, hq, -, haccepts⟩
      rw [← hsigned q converter hq, hsignature] at haccepts
      exact haccepts
    · exact fun haccepts => ⟨p, hp, rfl, haccepts⟩
  · ext other
    rw [find?_selectConverters hforDeserialization]
    have haccepts := (accepts_deserialization_iff hselection).mpr (.inr ⟨hmem, hgreatest⟩)
    have hchosen :=
      (ConverterNames.find?_deserialization hselection _ greatest).mpr ⟨hmem, hgreatest⟩
    constructor
    · rintro ⟨q, hq, hkey, hacceptsQ⟩
      have hq' : q = toLex ((ofLex p).1, greatest) :=
        Repository.eq_of_accepts hacceptsQ haccepts hkey (by
          rw [hkey, hchosen]
          exact Option.some_ne_none greatest)
      rwa [← hq']
    · exact fun hq => ⟨_, hq, rfl, haccepts⟩

def sampleSignature : ℕ → Bytes ×ₗ Bytes
  | 0 => toLex (bytes "image", bytes "IplImage")
  | 1 => toLex (bytes "image", bytes "Mat")
  | _ => toLex (utf8String, stringType)

/-- Both data types of one wire schema are selected. -/
def imageTransport : Transport (SortedMap Bytes Bytes) :=
  ⟨bytes "socket",
    .ofElems [toLex (bytes "image", bytes "IplImage"), toLex (bytes "image", bytes "Mat")],
    SortedMap.empty⟩

/-- An image that is written as the one type is read as the other. -/
theorem directions_agree_image :
    ∃ o i forSerialization forDeserialization,
      prepareConnectorOptions sampleContext imageTransport .serialization =
        .ok ⟨o, some forSerialization⟩ ∧
      prepareConnectorOptions sampleContext imageTransport .deserialization =
        .ok ⟨i, some forDeserialization⟩ ∧
      forSerialization.find? (bytes "IplImage") = some 0 ∧
      forDeserialization.find? (bytes "image") = some 1 := by
  obtain ⟨o, i, forSerialization, forDeserialization, hout, hin, hfind⟩ :
      ∃ o i forSerialization forDeserialization,
        prepareConnectorOptions sampleContext imageTransport .serialization =
          .ok ⟨o, some forSerialization⟩ ∧
        prepareConnectorOptions sampleContext imageTransport .deserialization =
          .ok ⟨i, some forDeserialization⟩ ∧
        forSerialization.find? (bytes "IplImage") = some 0 := ⟨_, _, _, _, rfl, rfl, rfl⟩
  have hregistered : registerConverters sampleSignature [(0, false), (1, false), (2, false)] =
      .ok sampleContext.repository := rfl
  obtain ⟨wireSchema, hsignature, -, hgreatest⟩ := directions_agree hregistered hout hin hfind
  obtain rfl : bytes "image" = wireSchema := congrArg (fun p => (ofLex p).1) hsignature
  refine ⟨o, i, forSerialization, forDeserialization, hout, hin, hfind, ?_⟩
  refine (hgreatest (bytes "Mat") (by decide) fun other hother => ?_).trans rfl
  have hmem : toLex (bytes "image", other) ∈
      [toLex (bytes "image", bytes "IplImage"), toLex (bytes "image", bytes "Mat")] :=
    SortedSet.mem_ofElems.mp hother
  rcases List.mem_cons.mp hmem with heq | hrest
  · rw [(Prod.mk.inj heq).2]
    decide
  · exact (Prod.mk.inj (List.mem_singleton.mp hrest)).2.le

end Rsb.Factory
