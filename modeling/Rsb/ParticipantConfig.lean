import Rsb.Prelude
import Rsb.Library.Settings
import Rsb.Library.SortedMap
import Mathlib.Data.Prod.Lex

/-!
Options of participants (`ParticipantConfig.cpp`, `QualityOfServiceSpec.h`).

Configuration sources hand their options to `handleOption` one after the other. An
option has a key of several components, the first of which says what it is about.
Most options replace what an earlier one has set; converter selections of a
transport go into a set of pairs.
-/

namespace Rsb

open Library

/-- `rsc::runtime::Properties` with strings as values. A value that is set again
under a key replaces the one before. -/
class Properties (π : Type) where
  empty : π
  find? : π → Bytes → Option Bytes
  set : π → Bytes → Bytes → π
  find?_empty (key : Bytes) : find? empty key = none
  find?_set (p : π) (key value key' : Bytes) :
    find? (set p key value) key' = if key' = key then some value else find? p key'
  ext {p p' : π} (h : ∀ key, find? p key = find? p' key) : p = p'

instance sortedMapProperties : Properties (SortedMap Bytes Bytes) where
  empty := SortedMap.empty
  find? := SortedMap.find?
  set := SortedMap.insert
  find?_empty := SortedMap.find?_empty
  find?_set p key value key' := by
    rw [SortedMap.find?_insert]
    congr
  ext := SortedMap.ext_find?

inductive QualityOfServiceSpec.Ordering
  | unordered | ordered
  deriving DecidableEq

inductive QualityOfServiceSpec.Reliability
  | unreliable | reliable
  deriving DecidableEq

@[ext]
structure QualityOfServiceSpec where
  ordering : QualityOfServiceSpec.Ordering
  reliability : QualityOfServiceSpec.Reliability
  deriving DecidableEq

namespace ParticipantConfig

abbrev Key := List Bytes

/-- What handling an option takes from outside: how a key is printed in the text of
an exception, and `lexical_cast<bool>`. -/
structure Environment where
  printed : Key → Bytes
  lexicalCast : Bytes → Except Fault Bool

/-- `key[i]`. -/
def component (key : Key) (i : ℕ) : Except Fault Bytes :=
  match key[i]? with
  | none => .error .readPastEnd
  | some name => .ok name

/-! ### Values -/

def reliabilityOf (value : Bytes) : Option QualityOfServiceSpec.Reliability :=
  if value = bytes "UNRELIABLE" then some .unreliable
  else if value = bytes "RELIABLE" then some .reliable
  else none

def orderingOf (value : Bytes) : Option QualityOfServiceSpec.Ordering :=
  if value = bytes "UNORDERED" then some .unordered
  else if value = bytes "ORDERED" then some .ordered
  else none

/-- What happens to an exception of a handler or a filter. -/
inductive ErrorStrategy
  | log | print | exit
  deriving DecidableEq

def errorStrategyOf (value : Bytes) : Option ErrorStrategy :=
  if value = bytes "LOG" then some .log
  else if value = bytes "PRINT" then some .print
  else if value = bytes "EXIT" then some .exit
  else none

def ErrorStrategy.text : ErrorStrategy → Bytes
  | .log => bytes "LOG"
  | .print => bytes "PRINT"
  | .exit => bytes "EXIT"

theorem eq_text_of_errorStrategyOf {value : Bytes} {strategy : ErrorStrategy}
    (h : errorStrategyOf value = some strategy) : value = strategy.text := by
  unfold errorStrategyOf at h
  split_ifs at h with hlog hprint hexit
  · obtain rfl := Option.some.inj h
    exact hlog
  · obtain rfl := Option.some.inj h
    exact hprint
  · obtain rfl := Option.some.inj h
    exact hexit

/-- The value of an option that names one of several alternatives. -/
def valueOf {α : Type} (env : Environment) (alternative : Bytes → Option α) (key : Key)
    (value : Bytes) : Except Fault α :=
  match alternative value with
  | none => .error (invalidArgument (bytes "The value `" ++ value ++
      bytes "' is invalid for the key `" ++ env.printed key ++ bytes "'."))
  | some a => .ok a

theorem valueOf_eq_ok_iff {α : Type} {env : Environment} {alternative : Bytes → Option α}
    {key : Key} {value : Bytes} {a : α} :
    valueOf env alternative key value = .ok a ↔ alternative value = some a := by
  rw [valueOf]
  cases alternative value <;> simp

/-! ### Transports and event processing strategies -/

variable {π : Type} [Properties π]

/-- `converters` holds pairs of a wire schema and a data type. -/
structure Transport (π : Type) where
  name : Bytes
  converters : SortedSet (Bytes ×ₗ Bytes)
  options : π

namespace Transport

/-- The constructor, with `enabled` left at its default. -/
def new (name : Bytes) : Except Fault (Transport π) :=
  if name = [] then
    .error (invalidArgument (bytes "The name of a transport configuration cannot be empty."))
  else .ok ⟨name, .empty, Properties.empty⟩

/-- `this->converters.insert(make_pair(wireSchema, dataType))`. -/
def insertConverter (t : Transport π) (wireSchema dataType : Bytes) : Transport π :=
  { t with converters := t.converters.add (toLex (wireSchema, dataType)) }

def setOption (t : Transport π) (name value : Bytes) : Transport π :=
  { t with options := Properties.set t.options name value }

def handleOption (env : Environment) (t : Transport π) (key : Key) (value : Bytes) :
    Except Fault (Transport π) :=
  if 2 ≤ key.length ∧ key[0]? = some (bytes "converter") ∧ key[1]? = some (bytes "cpp") then
    if key.length ≠ 3 then
      .error (invalidArgument (bytes "Option key `" ++ env.printed key ++
        bytes "' has invalid number of components; converter-related keys for transports has to have three components"))
    else do
      let wireSchema ← component key 2
      return t.insertConverter wireSchema value
  else if 2 ≤ key.length ∧ key[0]? = some (bytes "converter") then
    -- converters for other languages
    .ok t
  else if key.length ≠ 1 then
    .error (invalidArgument (bytes "Key `" ++ env.printed key ++
      bytes "' has invalid number of components; transport option keys have to have one component."))
  else do
    let name ← component key 0
    return t.setOption name value

/-- The key of a converter selection has three components, the keys of the options of
a transport have one. -/
theorem handleOption_eq_ok {env : Environment} {t t' : Transport π} {first value : Bytes}
    {rest : Key} (h : t.handleOption env (first :: rest) value = .ok t') :
    (∃ wireSchema, first = bytes "converter" ∧ rest = [bytes "cpp", wireSchema] ∧
      t' = t.insertConverter wireSchema value) ∨
    (∃ language rest', first = bytes "converter" ∧ rest = language :: rest' ∧
      language ≠ bytes "cpp" ∧ t' = t) ∨
    (rest = [] ∧ t' = t.setOption first value) := by
  rw [handleOption] at h
  cases rest with
  | nil =>
      rw [if_neg (by simp), if_neg (by simp), if_neg (by simp)] at h
      exact .inr (.inr ⟨rfl, (Except.ok.inj h).symm⟩)
  | cons second rest =>
      by_cases hfirst : first = bytes "converter"
      · subst hfirst
        by_cases hsecond : second = bytes "cpp"
        · subst hsecond
          rw [if_pos (by simp)] at h
          split at h
          · cases h
          · next hlen =>
              obtain ⟨wireSchema, rfl⟩ : ∃ wireSchema, rest = [wireSchema] :=
                List.length_eq_one_iff.mp (by simpa using hlen)
              exact .inl ⟨wireSchema, rfl, rfl, (Except.ok.inj h).symm⟩
        · rw [if_neg (by simp [hsecond]), if_pos (by simp)] at h
          exact .inr (.inl ⟨second, rest, rfl, rfl, hsecond, (Except.ok.inj h).symm⟩)
      · rw [if_neg (by simp [hfirst]), if_neg (by simp [hfirst]), if_pos (by simp)] at h
        cases h

end Transport

@[ext]
structure EventProcessingStrategy (π : Type) where
  name : Bytes
  options : π

namespace EventProcessingStrategy

def setName (s : EventProcessingStrategy π) (name : Bytes) : EventProcessingStrategy π :=
  { s with name := name }

def setOption (s : EventProcessingStrategy π) (name value : Bytes) : EventProcessingStrategy π :=
  { s with options := Properties.set s.options name value }

def handleOption (env : Environment) (s : EventProcessingStrategy π) (key : Key)
    (value : Bytes) : Except Fault (EventProcessingStrategy π) :=
  if key.length ≠ 1 then
    .error (invalidArgument (bytes "Key `" ++ env.printed key ++
      bytes "' has invalid number of components; transport option keys have to have one component."))
  else do
    let name ← component key 0
    return s.setOption name value

/-- What `ParticipantConfig::handleOption` does with the strategy it has found. -/
def configure (env : Environment) (s : EventProcessingStrategy π) (key : Key) (value : Bytes) :
    Except Fault (EventProcessingStrategy π) :=
  if key.length = 2 then .ok (s.setName value) else s.handleOption env (key.drop 2) value

/-- A key that configures a strategy names the strategy or one of its options. -/
theorem configure_eq_ok {env : Environment} {s s' : EventProcessingStrategy π}
    {first second value : Bytes} {rest : Key}
    (h : s.configure env (first :: second :: rest) value = .ok s') :
    rest = [] ∧ s' = s.setName value ∨ ∃ name, rest = [name] ∧ s' = s.setOption name value := by
  rw [configure] at h
  split at h
  · next hlen =>
      have hrest : rest = [] := by simpa using hlen
      exact .inl ⟨hrest, (Except.ok.inj h).symm⟩
  · rw [handleOption] at h
    split at h
    · cases h
    · next hlen =>
        obtain ⟨name, rfl⟩ : ∃ name, rest = [name] :=
          List.length_eq_one_iff.mp (by simpa using hlen)
        exact .inr ⟨name, rfl, (Except.ok.inj h).symm⟩

end EventProcessingStrategy

end ParticipantConfig

/-! ### The configuration of a participant -/

open ParticipantConfig

@[ext]
structure ParticipantConfig (π : Type) where
  qosSpec : QualityOfServiceSpec
  errorStrategy : ErrorStrategy
  transports : SortedMap Bytes (Transport π)
  eventReceivingStrategy : EventProcessingStrategy π
  eventSendingStrategy : EventProcessingStrategy π
  introspection : Bool
  options : π

namespace ParticipantConfig

variable {π : Type} [Properties π]

/-- `ParticipantConfig::ParticipantConfig()`. -/
def new : ParticipantConfig π where
  qosSpec := ⟨.unordered, .reliable⟩
  errorStrategy := .log
  transports := .empty
  eventReceivingStrategy := ⟨bytes "parallel", Properties.empty⟩
  eventSendingStrategy := ⟨bytes "direct", Properties.empty⟩
  introspection := true
  options := Properties.empty

def handleQualityOfService (env : Environment) (c : ParticipantConfig π) (key : Key)
    (value : Bytes) : Except Fault (ParticipantConfig π) :=
  if key.length ≠ 2 then
    .error (invalidArgument (bytes "Option key `" ++ env.printed key ++
      bytes "' has invalid number of components; options related to quality of service have to have two components."))
  else do
    let second ← component key 1
    if second = bytes "reliability" then
      let reliability ← valueOf env reliabilityOf key value
      return { c with qosSpec := { c.qosSpec with reliability := reliability } }
    else if second = bytes "ordering" then
      let ordering ← valueOf env orderingOf key value
      return { c with qosSpec := { c.qosSpec with ordering := ordering } }
    else return c

/-- The size of the key is not looked at. -/
def handleErrorHandling (env : Environment) (c : ParticipantConfig π) (key : Key)
    (value : Bytes) : Except Fault (ParticipantConfig π) := do
  let second ← component key 1
  if second = bytes "onhandlererror" then
    let errorStrategy ← valueOf env errorStrategyOf key value
    return { c with errorStrategy := errorStrategy }
  else return c

def handleEventProcessing (env : Environment) (c : ParticipantConfig π) (key : Key)
    (value : Bytes) : Except Fault (ParticipantConfig π) := do
  let second ← component key 1
  if second = bytes "receivingstrategy" then
    let strategy ← c.eventReceivingStrategy.configure env key value
    return { c with eventReceivingStrategy := strategy }
  else if second = bytes "sendingstrategy" then
    let strategy ← c.eventSendingStrategy.configure env key value
    return { c with eventSendingStrategy := strategy }
  else
    let first ← component key 0
    .error (invalidArgument (bytes "`" ++ second ++ bytes "' is not a valid sub-key of `" ++
      first ++ bytes "'."))

def handleIntrospection (env : Environment) (c : ParticipantConfig π) (key : Key)
    (value : Bytes) : Except Fault (ParticipantConfig π) :=
  if key.length = 2 ∧ key[1]? = some (bytes "enabled") then do
    let enabled ← env.lexicalCast value
    return { c with introspection := enabled }
  else .ok c

/-- The transport of this name, added if there is none. -/
def findTransport (c : ParticipantConfig π) (name : Bytes) : Except Fault (Transport π) :=
  match c.transports.find? name with
  | none => Transport.new name
  | some transport => .ok transport

def handleTransport (env : Environment) (c : ParticipantConfig π) (key : Key)
    (value : Bytes) : Except Fault (ParticipantConfig π) :=
  if key.length < 3 then
    .error (invalidArgument (bytes "Option key `" ++ env.printed key ++
      bytes "' has invalid number of components; transport-related keys have to have at least three components."))
  else do
    let name ← component key 1
    let transport ← c.findTransport name
    let transport ← transport.handleOption env (key.drop 2) value
    return { c with transports := c.transports.insert name transport }

def handleOption (env : Environment) (c : ParticipantConfig π) (key : Key) (value : Bytes) :
    Except Fault (ParticipantConfig π) := do
  let first ← component key 0
  if first = bytes "qualityofservice" then c.handleQualityOfService env key value
  else if first = bytes "errorhandling" then c.handleErrorHandling env key value
  else if first = bytes "eventprocessing" then c.handleEventProcessing env key value
  else if first = bytes "introspection" then c.handleIntrospection env key value
  else if first = bytes "transport" then c.handleTransport env key value
  else if key.length = 1 then
    return { c with options := Properties.set c.options first value }
  else return c

/-- All options of the configuration sources, in the order in which they are provided. -/
def handleOptions (env : Environment) (c : ParticipantConfig π) (options : List (Key × Bytes)) :
    Except Fault (ParticipantConfig π) :=
  applySettings (handleOption env) c options

/-! ### What an option does -/

/-- The first components that are not names of global options. -/
def reserved : List Bytes :=
  [bytes "qualityofservice", bytes "errorhandling", bytes "eventprocessing",
    bytes "introspection", bytes "transport"]

/-- What handling an accepted option does, by the shape of its key. -/
inductive Handled (env : Environment) (c : ParticipantConfig π) :
    Key → Bytes → ParticipantConfig π → Prop
  | reliability {value : Bytes} {r : QualityOfServiceSpec.Reliability}
      (h : reliabilityOf value = some r) :
      Handled env c [bytes "qualityofservice", bytes "reliability"] value
        { c with qosSpec := { c.qosSpec with reliability := r } }
  | ordering {value : Bytes} {o : QualityOfServiceSpec.Ordering} (h : orderingOf value = some o) :
      Handled env c [bytes "qualityofservice", bytes "ordering"] value
        { c with qosSpec := { c.qosSpec with ordering := o } }
  | otherQuality {second value : Bytes} (hreliability : second ≠ bytes "reliability")
      (hordering : second ≠ bytes "ordering") :
      Handled env c [bytes "qualityofservice", second] value c
  | handlerError {rest : Key} {value : Bytes} {strategy : ErrorStrategy}
      (h : errorStrategyOf value = some strategy) :
      Handled env c (bytes "errorhandling" :: bytes "onhandlererror" :: rest) value
        { c with errorStrategy := strategy }
  | otherError {second : Bytes} {rest : Key} {value : Bytes}
      (h : second ≠ bytes "onhandlererror") :
      Handled env c (bytes "errorhandling" :: second :: rest) value c
  | receivingStrategy {rest : Key} {value : Bytes} {strategy : EventProcessingStrategy π}
      (h : c.eventReceivingStrategy.configure env
        (bytes "eventprocessing" :: bytes "receivingstrategy" :: rest) value = .ok strategy) :
      Handled env c (bytes "eventprocessing" :: bytes "receivingstrategy" :: rest) value
        { c with eventReceivingStrategy := strategy }
  | sendingStrategy {rest : Key} {value : Bytes} {strategy : EventProcessingStrategy π}
      (h : c.eventSendingStrategy.configure env
        (bytes "eventprocessing" :: bytes "sendingstrategy" :: rest) value = .ok strategy) :
      Handled env c (bytes "eventprocessing" :: bytes "sendingstrategy" :: rest) value
        { c with eventSendingStrategy := strategy }
  | introspection {value : Bytes} {enabled : Bool} (h : env.lexicalCast value = .ok enabled) :
      Handled env c [bytes "introspection", bytes "enabled"] value
        { c with introspection := enabled }
  | otherIntrospection {rest : Key} {value : Bytes} (h : rest ≠ [bytes "enabled"]) :
      Handled env c (bytes "introspection" :: rest) value c
  | transport {name value : Bytes} {subKey : Key} {t t' : Transport π}
      (ht : c.findTransport name = .ok t) (ht' : t.handleOption env subKey value = .ok t') :
      Handled env c (bytes "transport" :: name :: subKey) value
        { c with transports := c.transports.insert name t' }
  | option {name value : Bytes} (h : name ∉ reserved) :
      Handled env c [name] value { c with options := Properties.set c.options name value }
  | other {name : Bytes} {rest : Key} {value : Bytes} (h : name ∉ reserved) (hrest : rest ≠ []) :
      Handled env c (name :: rest) value c

section

variable {env : Environment} {c c' : ParticipantConfig π} {value : Bytes}

theorem handled_qualityOfService {rest : Key}
    (h : c.handleQualityOfService env (bytes "qualityofservice" :: rest) value = .ok c') :
    Handled env c (bytes "qualityofservice" :: rest) value c' := by
  rw [handleQualityOfService] at h
  split at h
  · cases h
  · next hlen =>
      obtain ⟨second, rfl⟩ : ∃ second, rest = [second] := List.length_eq_one_iff.mp (by simpa using hlen)
      obtain ⟨second', hsecond, h⟩ := bind_eq_ok_iff.mp h
      obtain rfl : second = second' := Except.ok.inj hsecond
      by_cases hreliability : second = bytes "reliability"
      · rw [if_pos hreliability] at h
        obtain ⟨r, hr, h⟩ := bind_eq_ok_iff.mp h
        obtain rfl := Except.ok.inj h
        subst hreliability
        exact .reliability (valueOf_eq_ok_iff.mp hr)
      · rw [if_neg hreliability] at h
        by_cases hordering : second = bytes "ordering"
        · rw [if_pos hordering] at h
          obtain ⟨o, ho, h⟩ := bind_eq_ok_iff.mp h
          obtain rfl := Except.ok.inj h
          subst hordering
          exact .ordering (valueOf_eq_ok_iff.mp ho)
        · rw [if_neg hordering] at h
          obtain rfl := Except.ok.inj h
          exact .otherQuality hreliability hordering

theorem handled_errorHandling {rest : Key}
    (h : c.handleErrorHandling env (bytes "errorhandling" :: rest) value = .ok c') :
    Handled env c (bytes "errorhandling" :: rest) value c' := by
  rw [handleErrorHandling] at h
  obtain ⟨second, hsecond, h⟩ := bind_eq_ok_iff.mp h
  cases rest with
  | nil => cases hsecond
  | cons second' rest =>
      obtain rfl : second' = second := Except.ok.inj hsecond
      by_cases herror : second' = bytes "onhandlererror"
      · rw [if_pos herror] at h
        obtain ⟨strategy, hstrategy, h⟩ := bind_eq_ok_iff.mp h
        obtain rfl := Except.ok.inj h
        subst herror
        exact .handlerError (valueOf_eq_ok_iff.mp hstrategy)
      · rw [if_neg herror] at h
        obtain rfl := Except.ok.inj h
        exact .otherError herror

theorem handled_eventProcessing {rest : Key}
    (h : c.handleEventProcessing env (bytes "eventprocessing" :: rest) value = .ok c') :
    Handled env c (bytes "eventprocessing" :: rest) value c' := by
  rw [handleEventProcessing] at h
  obtain ⟨second, hsecond, h⟩ := bind_eq_ok_iff.mp h
  cases rest with
  | nil => cases hsecond
  | cons second' rest =>
      obtain rfl : second' = second := Except.ok.inj hsecond
      by_cases hreceiving : second' = bytes "receivingstrategy"
      · rw [if_pos hreceiving] at h
        obtain ⟨s, hs, h⟩ := bind_eq_ok_iff.mp h
        obtain rfl := Except.ok.inj h
        subst hreceiving
        exact .receivingStrategy hs
      · rw [if_neg hreceiving] at h
        by_cases hsending : second' = bytes "sendingstrategy"
        · rw [if_pos hsending] at h
          obtain ⟨s, hs, h⟩ := bind_eq_ok_iff.mp h
          obtain rfl := Except.ok.inj h
          subst hsending
          exact .sendingStrategy hs
        · rw [if_neg hsending] at h
          obtain ⟨first, -, h⟩ := bind_eq_ok_iff.mp h
          cases h

theorem handled_introspection {rest : Key}
    (h : c.handleIntrospection env (bytes "introspection" :: rest) value = .ok c') :
    Handled env c (bytes "introspection" :: rest) value c' := by
  rw [handleIntrospection] at h
  by_cases hrest : rest = [bytes "enabled"]
  · subst hrest
    rw [if_pos ⟨rfl, rfl⟩] at h
    obtain ⟨enabled, henabled, h⟩ := bind_eq_ok_iff.mp h
    obtain rfl := Except.ok.inj h
    exact .introspection henabled
  · have hkey : ¬((bytes "introspection" :: rest).length = 2 ∧
        (bytes "introspection" :: rest)[1]? = some (bytes "enabled")) := by
      rintro ⟨hlen, hsecond⟩
      obtain ⟨second, rfl⟩ : ∃ second, rest = [second] :=
        List.length_eq_one_iff.mp (by simpa using hlen)
      exact hrest (congrArg (· :: []) (Option.some.inj hsecond))
    rw [if_neg hkey] at h
    obtain rfl := Except.ok.inj h
    exact .otherIntrospection hrest

theorem handled_transport {rest : Key}
    (h : c.handleTransport env (bytes "transport" :: rest) value = .ok c') :
    Handled env c (bytes "transport" :: rest) value c' := by
  rw [handleTransport] at h
  split at h
  · cases h
  · obtain ⟨name, hname, h⟩ := bind_eq_ok_iff.mp h
    obtain ⟨t, ht, h⟩ := bind_eq_ok_iff.mp h
    obtain ⟨t', ht', h⟩ := bind_eq_ok_iff.mp h
    obtain rfl := Except.ok.inj h
    cases rest with
    | nil => cases hname
    | cons name' subKey =>
        obtain rfl : name' = name := Except.ok.inj hname
        exact .transport ht ht'

/-- An option that is accepted does one of the things listed. -/
theorem handled_of_handleOption {key : Key} (h : c.handleOption env key value = .ok c') :
    Handled env c key value c' := by
  rw [handleOption] at h
  obtain ⟨first, hfirst, hrun⟩ := bind_eq_ok_iff.mp h
  cases key with
  | nil => cases hfirst
  | cons first' rest =>
      obtain rfl : first' = first := Except.ok.inj hfirst
      split at hrun
      · next heq => exact heq ▸ handled_qualityOfService (heq ▸ hrun)
      split at hrun
      · next heq => exact heq ▸ handled_errorHandling (heq ▸ hrun)
      split at hrun
      · next heq => exact heq ▸ handled_eventProcessing (heq ▸ hrun)
      split at hrun
      · next heq => exact heq ▸ handled_introspection (heq ▸ hrun)
      split at hrun
      · next heq => exact heq ▸ handled_transport (heq ▸ hrun)
      have hreserved : first' ∉ reserved := by simp [reserved, *]
      split at hrun
      · next hlen =>
          obtain rfl : rest = [] := by simpa using hlen
          obtain rfl := Except.ok.inj hrun
          exact .option hreserved
      · next hlen =>
          have hrest : rest ≠ [] := by
            rintro rfl
            exact hlen rfl
          obtain rfl := Except.ok.inj hrun
          exact .other hreserved hrest

end

/-! ### What each part depends on -/

section

variable {env : Environment}

theorem overwrites_reliability : Overwrites (handleOption (π := π) env)
    (fun key => key = [bytes "qualityofservice", bytes "reliability"]) reliabilityOf
    (·.qosSpec.reliability) := by
  intro c key value c' h
  replace h := handled_of_handleOption h
  cases h with
  | reliability hr => simpa using hr
  | _ => simp_all +decide [reserved]

theorem overwrites_ordering : Overwrites (handleOption (π := π) env)
    (fun key => key = [bytes "qualityofservice", bytes "ordering"]) orderingOf
    (·.qosSpec.ordering) := by
  intro c key value c' h
  replace h := handled_of_handleOption h
  cases h with
  | ordering ho => simpa using ho
  | _ => simp_all +decide [reserved]

/-- Longer keys set the error strategy as well. -/
theorem overwrites_errorStrategy : Overwrites (handleOption (π := π) env)
    (fun key => key.take 2 = [bytes "errorhandling", bytes "onhandlererror"]) errorStrategyOf
    (·.errorStrategy) := by
  intro c key value c' h
  replace h := handled_of_handleOption h
  cases h with
  | handlerError hstrategy => simpa using hstrategy
  | _ => simp_all +decide [reserved]

theorem overwrites_introspection : Overwrites (handleOption (π := π) env)
    (fun key => key = [bytes "introspection", bytes "enabled"])
    (fun value => (env.lexicalCast value).toOption) (·.introspection) := by
  intro c key value c' h
  replace h := handled_of_handleOption h
  cases h with
  | introspection henabled => simp [henabled, Except.toOption]
  | _ => simp_all +decide [reserved]

theorem overwrites_option (name : Bytes) : Overwrites (handleOption (π := π) env)
    (fun key => key = [name] ∧ name ∉ reserved) (fun value => some (some value))
    (fun c => Properties.find? c.options name) := by
  intro c key value c' h
  replace h := handled_of_handleOption h
  cases h with
  | @option name' _ hname =>
      have hfind := Properties.find?_set c.options name' value name
      by_cases heq : name = name'
      · subst heq
        simpa [hname] using hfind.symm
      · simpa [heq, Ne.symm heq] using hfind
  | _ => simp_all +decide [reserved]

/-- `get` is the strategy that the options below `sub` configure. -/
def Configures (env : Environment) (sub : Bytes)
    (get : ParticipantConfig π → EventProcessingStrategy π) : Prop :=
  ∀ c key value c', handleOption env c key value = .ok c' →
    (∃ rest, key = bytes "eventprocessing" :: sub :: rest ∧
      (get c).configure env key value = .ok (get c')) ∨
    (key.take 2 ≠ [bytes "eventprocessing", sub] ∧ get c' = get c)

theorem configures_receivingStrategy :
    Configures (π := π) env (bytes "receivingstrategy") (·.eventReceivingStrategy) := by
  intro c key value c' h
  replace h := handled_of_handleOption h
  cases h with
  | receivingStrategy hstrategy => exact .inl ⟨_, rfl, hstrategy⟩
  | _ => exact .inr (by simp_all +decide [reserved])

theorem configures_sendingStrategy :
    Configures (π := π) env (bytes "sendingstrategy") (·.eventSendingStrategy) := by
  intro c key value c' h
  replace h := handled_of_handleOption h
  cases h with
  | sendingStrategy hstrategy => exact .inl ⟨_, rfl, hstrategy⟩
  | _ => exact .inr (by simp_all +decide [reserved])

theorem Configures.overwrites_name {sub : Bytes}
    {get : ParticipantConfig π → EventProcessingStrategy π} (h : Configures env sub get) :
    Overwrites (handleOption env) (fun key => key = [bytes "eventprocessing", sub]) some
      (fun c => (get c).name) := by
  intro c key value c' hstep
  rcases h c key value c' hstep with ⟨rest, rfl, hconf⟩ | ⟨hkey, hget⟩
  · rcases EventProcessingStrategy.configure_eq_ok hconf with ⟨rfl, hset⟩ | ⟨name, rfl, hset⟩
    · simp [hset, EventProcessingStrategy.setName]
    · simp [hset, EventProcessingStrategy.setOption]
  · have hne : key ≠ [bytes "eventprocessing", sub] := by
      rintro rfl
      exact hkey rfl
    simp [hne, hget]

theorem Configures.overwrites_option {sub : Bytes}
    {get : ParticipantConfig π → EventProcessingStrategy π} (h : Configures env sub get)
    (option : Bytes) :
    Overwrites (handleOption env) (fun key => key = [bytes "eventprocessing", sub, option])
      (fun value => some (some value)) (fun c => Properties.find? (get c).options option) := by
  intro c key value c' hstep
  rcases h c key value c' hstep with ⟨rest, rfl, hconf⟩ | ⟨hkey, hget⟩
  · rcases EventProcessingStrategy.configure_eq_ok hconf with ⟨rfl, hset⟩ | ⟨name, rfl, hset⟩
    · simp [hset, EventProcessingStrategy.setName]
    · have hfind := Properties.find?_set (get c).options name value option
      by_cases hname : option = name
      · subst hname
        simpa [hset, EventProcessingStrategy.setOption] using hfind.symm
      · simpa [hset, EventProcessingStrategy.setOption, hname, Ne.symm hname] using hfind
  · have hne : key ≠ [bytes "eventprocessing", sub, option] := by
      rintro rfl
      exact hkey rfl
    simp [hne, hget]

theorem findTransport_eq_ok {c : ParticipantConfig π} {name : Bytes} {t : Transport π}
    (h : c.findTransport name = .ok t) :
    c.transports.find? name = some t ∨
      c.transports.find? name = none ∧ t = ⟨name, .empty, Properties.empty⟩ := by
  rw [findTransport] at h
  cases hfind : c.transports.find? name with
  | some t' =>
      rw [hfind] at h
      exact .inl (congrArg some (Except.ok.inj h))
  | none =>
      rw [hfind] at h
      have hnew : Transport.new name = .ok t := h
      rw [Transport.new] at hnew
      split_ifs at hnew
      exact .inr ⟨rfl, (Except.ok.inj hnew).symm⟩

/-- Only options below its name reach a transport. -/
theorem find?_transports_handleOption {c c' : ParticipantConfig π} {key : Key} {value : Bytes}
    (h : c.handleOption env key value = .ok c') (name : Bytes) :
    (∃ first rest t t', key = bytes "transport" :: name :: first :: rest ∧
      c.findTransport name = .ok t ∧ t.handleOption env (first :: rest) value = .ok t' ∧
      c'.transports.find? name = some t') ∨
    (key.take 2 ≠ [bytes "transport", name] ∧
      c'.transports.find? name = c.transports.find? name) := by
  replace h := handled_of_handleOption h
  cases h with
  | @transport name' _ subKey t t' ht ht' =>
      by_cases heq : name = name'
      · subst heq
        cases subKey with
        | nil => cases ht'
        | cons first rest => exact .inl ⟨first, rest, t, t', rfl, ht, ht', by simp⟩
      · refine .inr ⟨by simp [Ne.symm heq], ?_⟩
        rw [SortedMap.find?_insert, if_neg heq]
  | _ => exact .inr (by simp_all +decide [reserved])

def transportName (name : Bytes) (c : ParticipantConfig π) : Option Bytes :=
  (c.transports.find? name).map (·.name)

def transportOption (name option : Bytes) (c : ParticipantConfig π) : Option Bytes :=
  (c.transports.find? name).bind fun t => Properties.find? t.options option

/-- The transport selects the converter of a wire schema and a data type. -/
def Selects (name wireSchema dataType : Bytes) (c : ParticipantConfig π) : Prop :=
  ∃ t, c.transports.find? name = some t ∧ toLex (wireSchema, dataType) ∈ t.converters

theorem initializes_transportName (name : Bytes) : Initializes (handleOption (π := π) env)
    (fun key => key.take 2 = [bytes "transport", name]) name (transportName name) := by
  intro c key value c' h
  rcases find?_transports_handleOption h name with
    ⟨first, rest, t, t', rfl, ht, ht', hfind⟩ | ⟨hkey, hfind⟩
  · have hname : t'.name = t.name := by
      rcases Transport.handleOption_eq_ok ht' with ⟨_, rfl, rfl, rfl⟩ | ⟨_, _, rfl, rfl, _, rfl⟩ |
        ⟨rfl, rfl⟩ <;> rfl
    rcases findTransport_eq_ok ht with hold | ⟨hold, rfl⟩
    · simp [transportName, hfind, hold, hname]
    · simp [transportName, hfind, hold, hname]
  · simp [transportName, hfind, hkey]

theorem overwrites_transportOption (name option : Bytes) :
    Overwrites (handleOption (π := π) env)
      (fun key => key = [bytes "transport", name, option]) (fun value => some (some value))
      (transportOption name option) := by
  intro c key value c' h
  rcases find?_transports_handleOption h name with
    ⟨first, rest, t, t', rfl, ht, ht', hfind⟩ | ⟨hkey, hfind⟩
  · have hold : transportOption name option c = Properties.find? t.options option := by
      rcases findTransport_eq_ok ht with hold | ⟨hold, rfl⟩
      · simp [transportOption, hold]
      · simp [transportOption, hold, Properties.find?_empty]
    rcases Transport.handleOption_eq_ok ht' with ⟨_, rfl, rfl, rfl⟩ | ⟨_, _, rfl, rfl, _, rfl⟩ |
      ⟨rfl, rfl⟩
    · simp [transportOption, hfind, ← hold, Transport.insertConverter]
    · simp [transportOption, hfind, ← hold]
    · have hset := Properties.find?_set t.options first value option
      by_cases hname : option = first
      · subst hname
        simpa [transportOption, hfind, Transport.setOption] using hset.symm
      · simpa [transportOption, hfind, Transport.setOption, ← hold, hname, Ne.symm hname] using hset
  · have hne : key ≠ [bytes "transport", name, option] := by
      rintro rfl
      exact hkey rfl
    simp [transportOption, hfind, hne]

/-- Converter selections are never replaced. -/
theorem accumulates_selects (name wireSchema dataType : Bytes) :
    Accumulates (handleOption (π := π) env)
      (fun key value =>
        key = [bytes "transport", name, bytes "converter", bytes "cpp", wireSchema] ∧
          value = dataType)
      (Selects name wireSchema dataType) := by
  intro c key value c' h
  rcases find?_transports_handleOption h name with
    ⟨first, rest, t, t', rfl, ht, ht', hfind⟩ | ⟨hkey, hfind⟩
  · have hold : Selects name wireSchema dataType c ↔
        toLex (wireSchema, dataType) ∈ t.converters := by
      rcases findTransport_eq_ok ht with hold | ⟨hold, rfl⟩
      · simp [Selects, hold]
      · simp [Selects, hold]
    have hnew : Selects name wireSchema dataType c' ↔
        toLex (wireSchema, dataType) ∈ t'.converters := by
      simp [Selects, hfind]
    rw [hold, hnew]
    rcases Transport.handleOption_eq_ok ht' with ⟨wireSchema', rfl, rfl, rfl⟩ |
      ⟨language, rest', rfl, rfl, hlanguage, rfl⟩ | ⟨rfl, rfl⟩
    · rw [Transport.insertConverter, SortedSet.mem_add, or_comm]
      simp [eq_comm]
    · simp [hlanguage]
    · simp [Transport.setOption]
  · have hne : key ≠ [bytes "transport", name, bytes "converter", bytes "cpp", wireSchema] := by
      rintro rfl
      exact hkey rfl
    simp [Selects, hfind, hne]

end

/-! ### Later options and earlier ones -/

theorem transports_ext {c₁ c₂ : ParticipantConfig π}
    (hname : ∀ name, transportName name c₁ = transportName name c₂)
    (hoption : ∀ name option, transportOption name option c₁ = transportOption name option c₂)
    (hselects : ∀ name wireSchema dataType,
      Selects name wireSchema dataType c₁ ↔ Selects name wireSchema dataType c₂) :
    c₁.transports = c₂.transports := by
  apply SortedMap.ext_find?
  intro name
  have hname := hname name
  have hoption := hoption name
  have hselects := hselects name
  simp only [transportName, transportOption, Selects] at hname hoption hselects
  cases h₁ : c₁.transports.find? name with
  | none =>
      rw [h₁] at hname
      exact (Option.map_eq_none_iff.mp hname.symm).symm
  | some t₁ =>
      cases h₂ : c₂.transports.find? name with
      | none => simp [h₁, h₂] at hname
      | some t₂ =>
          have hconverters : t₁.converters = t₂.converters :=
            SortedSet.ext_mem fun pair => by
              simpa [h₁, h₂] using hselects (ofLex pair).1 (ofLex pair).2
          have hoptions : t₁.options = t₂.options :=
            Properties.ext fun option => by simpa [h₁, h₂] using hoption option
          have hnames : t₁.name = t₂.name := by simpa [h₁, h₂] using hname
          cases t₁
          cases t₂
          simp_all

def selectionKey (name wireSchema : Bytes) : Key :=
  [bytes "transport", name, bytes "converter", bytes "cpp", wireSchema]

/-- The converter is selected already, or by one of the options. -/
def Selected (c : ParticipantConfig π) (options : List (Key × Bytes))
    (name wireSchema dataType : Bytes) : Prop :=
  Selects name wireSchema dataType c ∨ (selectionKey name wireSchema, dataType) ∈ options

/-- The value of the last option whose key begins with `errorhandling.onhandlererror`. -/
def lastHandlerError (options : List (Key × Bytes)) : Option Bytes :=
  lastWhere (fun key => key.take 2 = [bytes "errorhandling", bytes "onhandlererror"]) options

theorem selects_handleOptions {env : Environment} {c c' : ParticipantConfig π}
    {options : List (Key × Bytes)} (h : c.handleOptions env options = .ok c')
    (name wireSchema dataType : Bytes) :
    Selects name wireSchema dataType c' ↔ Selected c options name wireSchema dataType := by
  rw [(accumulates_selects name wireSchema dataType).run h, Selected]
  refine or_congr_right ⟨?_, fun hmem => ⟨_, hmem, rfl, rfl⟩⟩
  rintro ⟨⟨key, value⟩, hmem, rfl, rfl⟩
  exact hmem

theorem errorStrategyOf_injective (value value' : Bytes) (strategy : ErrorStrategy)
    (h : errorStrategyOf value = some strategy) (h' : errorStrategyOf value' = some strategy) :
    value = value' :=
  (eq_text_of_errorStrategyOf h).trans (eq_text_of_errorStrategyOf h').symm

/-- Two accepted sequences of options with the same last value for every key lead to
the same configuration exactly if they select the same converters, earlier selections
included, and the last of the keys that set the error strategy has the same value. -/
theorem handleOptions_eq_iff (env : Environment) (c : ParticipantConfig π)
    {options₁ options₂ : List (Key × Bytes)} {c₁ c₂ : ParticipantConfig π}
    (h₁ : c.handleOptions env options₁ = .ok c₁) (h₂ : c.handleOptions env options₂ = .ok c₂)
    (hlast : ∀ key, lastValue key options₁ = lastValue key options₂) :
    c₁ = c₂ ↔
      (∀ name wireSchema dataType, Selected c options₁ name wireSchema dataType ↔
        Selected c options₂ name wireSchema dataType) ∧
      lastHandlerError options₁ = lastHandlerError options₂ := by
  have hsome := isSome_lastWhere_congr hlast
  have herror : c₁.errorStrategy = c₂.errorStrategy ↔
      lastHandlerError options₁ = lastHandlerError options₂ :=
    overwrites_errorStrategy.read_eq_iff h₁ h₂ errorStrategyOf_injective (hsome _)
  have hselects : (∀ name wireSchema dataType,
      Selects name wireSchema dataType c₁ ↔ Selects name wireSchema dataType c₂) ↔
      ∀ name wireSchema dataType, Selected c options₁ name wireSchema dataType ↔
        Selected c options₂ name wireSchema dataType := by
    simp only [selects_handleOptions h₁, selects_handleOptions h₂]
  rw [← herror, ← hselects]
  constructor
  · rintro rfl
    exact ⟨fun _ _ _ => Iff.rfl, rfl⟩
  · rintro ⟨hconverters, hstrategy⟩
    have hreliability : c₁.qosSpec.reliability = c₂.qosSpec.reliability :=
      overwrites_reliability.read_eq h₁ h₂ (hlast _)
    have hordering : c₁.qosSpec.ordering = c₂.qosSpec.ordering :=
      overwrites_ordering.read_eq h₁ h₂ (hlast _)
    have hintrospection : c₁.introspection = c₂.introspection :=
      overwrites_introspection.read_eq h₁ h₂ (hlast _)
    have htransports : c₁.transports = c₂.transports :=
      transports_ext (fun name => (initializes_transportName name).read_eq h₁ h₂ (hsome _))
        (fun name option => (overwrites_transportOption name option).read_eq h₁ h₂ (hlast _))
        hconverters
    have hstrategies : ∀ {sub : Bytes} {get : ParticipantConfig π → EventProcessingStrategy π},
        Configures env sub get → get c₁ = get c₂ := by
      intro sub get h
      have hname : (get c₁).name = (get c₂).name := h.overwrites_name.read_eq h₁ h₂ (hlast _)
      have hoptions : (get c₁).options = (get c₂).options := Properties.ext fun option =>
        (h.overwrites_option option).read_eq h₁ h₂ (hlast _)
      exact EventProcessingStrategy.ext hname hoptions
    have hoptions : c₁.options = c₂.options := by
      refine Properties.ext fun name => (overwrites_option name).read_eq h₁ h₂ ?_
      exact lastWhere_congr (fun key hkey => (of_decide_eq_true hkey).1) (hlast [name])
    have hqos : c₁.qosSpec = c₂.qosSpec := QualityOfServiceSpec.ext hordering hreliability
    exact ParticipantConfig.ext hqos hstrategy htransports
      (hstrategies configures_receivingStrategy) (hstrategies configures_sendingStrategy)
      hintrospection hoptions

/-- `lexical_cast<bool>` reads `0` and `1`. -/
def sampleEnvironment : Environment where
  printed key := key.flatten
  lexicalCast value :=
    if value = bytes "1" then .ok true
    else if value = bytes "0" then .ok false
    else .error (.thrown ⟨.other,
      bytes "bad lexical cast: source type value could not be interpreted as target"⟩)

def sampleConfig : ParticipantConfig (SortedMap Bytes Bytes) := new

/-- A key that is given twice in one sequence and once in the other. -/
theorem lastValue_twice (key key' : Key) (value value' : Bytes) :
    lastValue key [(key', value), (key', value')] = lastValue key [(key', value')] := by
  by_cases h : key' = key
  · simp [lastValue, lastWhere, h]
  · simp [lastValue, lastWhere, h]

theorem handleOptions_eq_host :
    sampleConfig.handleOptions sampleEnvironment
        [([bytes "transport", bytes "socket", bytes "host"], bytes "localhost"),
          ([bytes "transport", bytes "socket", bytes "host"], bytes "remote")] =
      sampleConfig.handleOptions sampleEnvironment
        [([bytes "transport", bytes "socket", bytes "host"], bytes "remote")] := by
  obtain ⟨c₁, h₁⟩ : ∃ c₁, sampleConfig.handleOptions sampleEnvironment
      [([bytes "transport", bytes "socket", bytes "host"], bytes "localhost"),
        ([bytes "transport", bytes "socket", bytes "host"], bytes "remote")] = .ok c₁ := ⟨_, rfl⟩
  obtain ⟨c₂, h₂⟩ : ∃ c₂, sampleConfig.handleOptions sampleEnvironment
      [([bytes "transport", bytes "socket", bytes "host"], bytes "remote")] = .ok c₂ := ⟨_, rfl⟩
  have hiff := handleOptions_eq_iff sampleEnvironment sampleConfig h₁ h₂
    fun key => lastValue_twice key _ _ _
  rw [h₁, h₂]
  refine congrArg Except.ok (hiff.mpr ⟨fun name wireSchema dataType => ?_, rfl⟩)
  simp [Selected, selectionKey]

/-- An earlier selection for the same wire schema stays. -/
theorem not_replaced_converter :
    ∃ c₁ c₂,
      sampleConfig.handleOptions sampleEnvironment
        [(selectionKey (bytes "socket") (bytes "image"), bytes "IplImage"),
          (selectionKey (bytes "socket") (bytes "image"), bytes "Mat")] = .ok c₁ ∧
      sampleConfig.handleOptions sampleEnvironment
        [(selectionKey (bytes "socket") (bytes "image"), bytes "Mat")] = .ok c₂ ∧
      (∀ key, lastValue key [(selectionKey (bytes "socket") (bytes "image"), bytes "IplImage"),
          (selectionKey (bytes "socket") (bytes "image"), bytes "Mat")] =
        lastValue key [(selectionKey (bytes "socket") (bytes "image"), bytes "Mat")]) ∧
      Selects (bytes "socket") (bytes "image") (bytes "IplImage") c₁ ∧
      ¬Selects (bytes "socket") (bytes "image") (bytes "IplImage") c₂ ∧ c₁ ≠ c₂ := by
  obtain ⟨c₁, h₁⟩ : ∃ c₁, sampleConfig.handleOptions sampleEnvironment
      [(selectionKey (bytes "socket") (bytes "image"), bytes "IplImage"),
        (selectionKey (bytes "socket") (bytes "image"), bytes "Mat")] = .ok c₁ := ⟨_, rfl⟩
  obtain ⟨c₂, h₂⟩ : ∃ c₂, sampleConfig.handleOptions sampleEnvironment
      [(selectionKey (bytes "socket") (bytes "image"), bytes "Mat")] = .ok c₂ := ⟨_, rfl⟩
  have hselects : Selects (bytes "socket") (bytes "image") (bytes "IplImage") c₁ :=
    (selects_handleOptions h₁ _ _ _).mpr (.inr List.mem_cons_self)
  have hnot : ¬Selects (bytes "socket") (bytes "image") (bytes "IplImage") c₂ := by
    rw [selects_handleOptions h₂]
    rintro (⟨t, ht, -⟩ | hmem)
    · cases ht
    · exact absurd hmem (by decide)
  refine ⟨c₁, c₂, h₁, h₂, fun key => lastValue_twice key _ _ _, hselects, hnot, ?_⟩
  rintro rfl
  exact hnot hselects

-- a longer key stands for the same setting, so the order of different keys matters
example :
    (sampleConfig.handleOptions sampleEnvironment
      [([bytes "errorhandling", bytes "onhandlererror"], bytes "EXIT"),
        ([bytes "errorhandling", bytes "onhandlererror", bytes "x"], bytes "PRINT")]).map
        (·.errorStrategy) = .ok .print ∧
      (sampleConfig.handleOptions sampleEnvironment
        [([bytes "errorhandling", bytes "onhandlererror", bytes "x"], bytes "PRINT"),
          ([bytes "errorhandling", bytes "onhandlererror"], bytes "EXIT")]).map
        (·.errorStrategy) = .ok .exit :=
  ⟨rfl, rfl⟩

end ParticipantConfig

end Rsb
