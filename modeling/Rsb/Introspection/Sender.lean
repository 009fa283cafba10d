import Rsb.Converter
import Rsb.Informer
import Rsb.Library.InPlace
import Rsb.Scope.Grammar

/-!
Publishing information about participants (`IntrospectionSender.cpp`, `Model.h`).

The sender keeps a list of the participants of its process and tells others about them
with events on scopes made from their ids. It says hello for a participant when it is
added and when somebody asks, and bye when it is removed. The scopes are parsed at run
time, from what `rsc::misc::UUID` prints for an id.

The connectors of the informer are not part of the model: `published` is what has been
handed to them.
-/

namespace Rsb.Introspection

open Library

/-! ### Scopes (`Types.cpp`) -/

def INTROSPECTION_SCOPE : Scope :=
  Scope.ofComponents [bytes "__rsb", bytes "introspection"] (by decide)

def INTROSPECTION_PARTICIPANTS_SCOPE : Scope :=
  INTROSPECTION_SCOPE.concat (Scope.ofComponents [bytes "participants"] (by decide))

def INTROSPECTION_HOSTS_SCOPE : Scope :=
  INTROSPECTION_SCOPE.concat (Scope.ofComponents [bytes "hosts"] (by decide))

/-! ### Messages -/

namespace Protocol

structure Process where
  id : Bytes
  programName : Bytes
  commandlineArguments : List Bytes
  startTime : UInt64
  executingUser : Option Bytes
  rsbVersion : Bytes
  displayName : Option Bytes
  deriving DecidableEq

structure Host where
  id : Option Bytes
  hostname : Bytes
  machineType : Option Bytes
  machineVersion : Option Bytes
  softwareType : Option Bytes
  softwareVersion : Option Bytes
  deriving DecidableEq

/-- A participant, its process and its host. -/
structure Hello where
  kind : Bytes
  id : Bytes
  parent : Option Bytes
  scope : Bytes
  transport : List Bytes
  process : Process
  host : Host
  deriving DecidableEq

structure Bye where
  id : Bytes
  deriving DecidableEq

end Protocol

open Protocol

/-- What the data of an event points to, as far as the sender is concerned. -/
inductive Data
  | string (s : Bytes)
  | hello (hello : Hello)
  | bye (bye : Bye)
  | other
  deriving DecidableEq

/-- `rsc::runtime::typeName<void>()`. -/
def voidType : Bytes := bytes "void"

def helloType : Bytes := bytes "rsb::protocol::introspection::Hello"

def byeType : Bytes := bytes "rsb::protocol::introspection::Bye"

/-- What the sender uses of its surroundings. An id is printed with hexadecimal digits
and dashes; reading one throws unless the string has the form of an id. -/
structure Environment where
  getIdAsString : UUID → Bytes
  parseId : Bytes → Except Exception UUID
  print : Printer Data
  now : UInt64
  legal : ∀ id, Scope.LegalComponent (getIdAsString id)

/-! ### The sender -/

structure ParticipantInfo where
  kind : Bytes
  id : UUID
  parentId : UUID
  scope : Scope
  type : Bytes
  transportURLs : SortedSet Bytes

/-- The start time is in microseconds since `UNIX_EPOCH`. -/
structure ProcessInfo where
  pid : UInt32
  programName : Bytes
  arguments : List Bytes
  startTime : ℤ
  rsbVersion : Bytes
  executingUser : Bytes

structure HostInfo where
  id : Bytes
  hostname : Bytes
  machineType : Bytes
  machineVersion : Bytes
  softwareType : Bytes
  softwareVersion : Bytes

/-- `rsc::misc::UUID(false)`. -/
def nilId : UUID := ⟨List.replicate 16 0, by decide⟩

structure IntrospectionSender where
  processDisplayName : Option Bytes
  participants : List ParticipantInfo
  process : ProcessInfo
  host : HostInfo
  informerId : UUID
  currentSequenceNumber : UInt32
  published : List (Event Data)

namespace IntrospectionSender

/-- The informer the constructor creates. -/
def informer (s : IntrospectionSender) : Informer :=
  ⟨s.informerId, INTROSPECTION_PARTICIPANTS_SCOPE, [], s.currentSequenceNumber⟩

def unlessEmpty (s : Bytes) : Option Bytes := if s = [] then none else some s

/-- The message `sendHello` composes. -/
def hello (s : IntrospectionSender) (participant : ParticipantInfo) : Hello where
  kind := participant.kind
  id := participant.id.data
  parent := if participant.parentId = nilId then none else some participant.parentId.data
  scope := participant.scope.toString
  transport := participant.transportURLs.keys
  process := {
    id := decimal s.process.pid.toNat
    programName := s.process.programName
    commandlineArguments := s.process.arguments
    startTime := UInt64.ofInt s.process.startTime
    executingUser := unlessEmpty s.process.executingUser
    rsbVersion := s.process.rsbVersion
    displayName := s.processDisplayName }
  host := {
    id := unlessEmpty s.host.id
    hostname := s.host.hostname
    machineType := unlessEmpty s.host.machineType
    machineVersion := unlessEmpty s.host.machineVersion
    softwareType := unlessEmpty s.host.softwareType
    softwareVersion := unlessEmpty s.host.softwareVersion }

def bye (participant : ParticipantInfo) : Bye := ⟨participant.id.data⟩

section

variable (env : Environment)

/-- `informer->publish(event)`. -/
def publish (event : Event Data) : InPlace Fault IntrospectionSender Unit := do
  let s ← get
  let (informer, event) ← ofExcept (s.informer.checkedPublish env.print event)
  set { s with
    currentSequenceNumber := informer.currentSequenceNumber
    published := s.published ++ [event] }

def sendHello (participant : ParticipantInfo) (query : Option (Event Data)) :
    InPlace Fault IntrospectionSender Unit := do
  let s ← get
  let child ← ofExcept (Scope.parse (bytes "/" ++ env.getIdAsString participant.id))
  let event := (((Event.new env.now : Event Data).setScope (s.informer.scope.concat child)).setData
    (some (.hello (s.hello participant)))).setType helloType
  match query with
  | none => publish env event
  | some query => do
      let id ← ofExcept query.getId
      publish env (event.addCause id)

def sendBye (participant : ParticipantInfo) : InPlace Fault IntrospectionSender Unit := do
  let s ← get
  let child ← ofExcept (Scope.parse (bytes "/" ++ env.getIdAsString participant.id))
  publish env ((((Event.new env.now : Event Data).setScope (s.informer.scope.concat child)).setData
    (some (.bye (bye participant)))).setType byeType)

/-- The argument is the information made from the participant and its parent. -/
def addParticipant (info : ParticipantInfo) : InPlace Fault IntrospectionSender Unit := do
  modify fun s => { s with participants := s.participants ++ [info] }
  sendHello env info none

/-- Whether there are participants left. Of those with the id, the first one goes. -/
def removeParticipant (id : UUID) : InPlace Fault IntrospectionSender Bool := do
  let s ← get
  match s.participants.find? (fun p => p.id = id) with
  | none => pure ()
  | some participant =>
      sendBye env participant
      modify fun s => { s with participants := s.participants.eraseP (fun p => p.id = id) }
  let s ← get
  return !s.participants.isEmpty

end

/-! ### What is published -/

/-- The sender after its informer has taken an event. -/
def emit (s : IntrospectionSender) (event : Event Data) : IntrospectionSender :=
  { s with
    currentSequenceNumber := s.currentSequenceNumber + 1
    published := s.published ++ [event.setId s.informerId s.currentSequenceNumber] }

@[simp] theorem emit_participants (s : IntrospectionSender) (event : Event Data) :
    (s.emit event).participants = s.participants := rfl

@[simp] theorem emit_published (s : IntrospectionSender) (event : Event Data) :
    (s.emit event).published =
      s.published ++ [event.setId s.informerId s.currentSequenceNumber] := rfl

@[simp] theorem emit_hello (s : IntrospectionSender) (event : Event Data)
    (participant : ParticipantInfo) : (s.emit event).hello participant = s.hello participant := rfl

variable {env : Environment}

/-- The scope of the messages about a participant. -/
def idScope (env : Environment) (id : UUID) : Scope :=
  INTROSPECTION_PARTICIPANTS_SCOPE.concat (Scope.ofComponents [env.getIdAsString id] (by
    simpa using env.legal id))

theorem components_idScope (id : UUID) :
    (idScope env id).getComponents =
      INTROSPECTION_PARTICIPANTS_SCOPE.getComponents ++ [env.getIdAsString id] := rfl

theorem isSubScopeOf_idScope (id : UUID) :
    (idScope env id).isSubScopeOf INTROSPECTION_PARTICIPANTS_SCOPE = true := by
  rw [Scope.isSubScopeOf_eq, Scope.isSuperScopeOf_iff]
  refine ⟨List.prefix_append _ _, fun heq => ?_⟩
  have hcomponents := congrArg Scope.getComponents heq
  rw [components_idScope] at hcomponents
  simp at hcomponents

/-- The informer takes everything that has a type and is about a participant. -/
theorem run_publish (env : Environment) {event : Event Data} (htype : event.type ≠ [])
    {id : UUID} (hscope : event.scope = idScope env id) (s : IntrospectionSender) :
    (publish env event).run s = .ok () (s.emit event) := by
  have haccepted : s.informer.checkedPublish env.print event =
      .ok (s.informer.uncheckedPublish event) := by
    have hsub : event.scope.isSubScopeOf s.informer.scope = true :=
      hscope ▸ isSubScopeOf_idScope id
    simp [Informer.checkedPublish, htype, hsub, show s.informer.type = [] from rfl]
  simp only [publish, EStateM.run_bind, EStateM.run_get, haccepted]
  rfl

theorem helloType_ne_nil : helloType ≠ [] := by decide

theorem byeType_ne_nil : byeType ≠ [] := by decide

theorem parse_id (env : Environment) (id : UUID) :
    ∃ child, Scope.parse (bytes "/" ++ env.getIdAsString id) = .ok child ∧
      INTROSPECTION_PARTICIPANTS_SCOPE.concat child = idScope env id := by
  obtain ⟨child, hparse, hchild⟩ := Scope.parse_legal (env.legal id)
  exact ⟨child, hparse, congrArg _ (Scope.ext_components hchild)⟩

/-- The event in which the sender says hello, to those who have asked in `causes`. -/
def helloEvent (env : Environment) (s : IntrospectionSender) (participant : ParticipantInfo)
    (causes : SortedSet EventId) : Event Data :=
  { (Event.new env.now : Event Data) with
    scope := idScope env participant.id
    content := some (.hello (s.hello participant))
    type := helloType
    causes := causes }

def byeEvent (env : Environment) (participant : ParticipantInfo) : Event Data :=
  { (Event.new env.now : Event Data) with
    scope := idScope env participant.id
    content := some (.bye (bye participant))
    type := byeType }

theorem run_sendHello_unsolicited (participant : ParticipantInfo) (s : IntrospectionSender) :
    (sendHello env participant none).run s =
      .ok () (s.emit (helloEvent env s participant .empty)) := by
  obtain ⟨child, hparse, hscope⟩ := parse_id env participant.id
  have hpublish : (publish env (helloEvent env s participant .empty)).run s = _ :=
    run_publish env helloType_ne_nil rfl s
  rw [← hpublish]
  simp only [sendHello, EStateM.run_bind, EStateM.run_get, hparse, helloEvent, ← hscope]
  rfl

theorem run_sendHello {query : Event Data} {id : EventId} (hid : query.getId = .ok id)
    (participant : ParticipantInfo) (s : IntrospectionSender) :
    (sendHello env participant (some query)).run s =
      .ok () (s.emit (helloEvent env s participant (SortedSet.add .empty id))) := by
  obtain ⟨child, hparse, hscope⟩ := parse_id env participant.id
  have hpublish :
      (publish env (helloEvent env s participant (SortedSet.add .empty id))).run s = _ :=
    run_publish env helloType_ne_nil rfl s
  rw [← hpublish]
  simp only [sendHello, EStateM.run_bind, EStateM.run_get, hparse, hid, helloEvent, ← hscope]
  rfl

/-- A query without an id is not answered. -/
theorem run_sendHello_error {query : Event Data} {f : Fault} (hid : query.getId = .error f)
    (participant : ParticipantInfo) (s : IntrospectionSender) :
    (sendHello env participant (some query)).run s = .error f s := by
  obtain ⟨child, hparse, -⟩ := parse_id env participant.id
  simp only [sendHello, EStateM.run_bind, EStateM.run_get, hparse, hid]
  rfl

theorem run_sendBye (participant : ParticipantInfo) (s : IntrospectionSender) :
    (sendBye env participant).run s = .ok () (s.emit (byeEvent env participant)) := by
  obtain ⟨child, hparse, hscope⟩ := parse_id env participant.id
  have hpublish : (publish env (byeEvent env participant)).run s = _ :=
    run_publish env byeType_ne_nil rfl s
  rw [← hpublish]
  simp only [sendBye, EStateM.run_bind, EStateM.run_get, hparse, byeEvent, ← hscope]
  rfl

theorem run_addParticipant (info : ParticipantInfo) (s : IntrospectionSender) :
    (addParticipant env info).run s =
      .ok () ({ s with participants := s.participants ++ [info] }.emit
        (helloEvent env s info .empty)) := by
  rw [addParticipant, EStateM.run_bind, EStateM.run_modify]
  exact run_sendHello_unsolicited info _

theorem run_removeParticipant (id : UUID) (s : IntrospectionSender) :
    (removeParticipant env id).run s =
      match s.participants.find? (fun p => p.id = id) with
      | none => .ok (!s.participants.isEmpty) s
      | some info =>
          .ok (!(s.participants.eraseP (fun p => p.id = id)).isEmpty)
            { s.emit (byeEvent env info) with
              participants := s.participants.eraseP (fun p => p.id = id) } := by
  simp only [removeParticipant, EStateM.run_bind, EStateM.run_get]
  cases s.participants.find? (fun p => p.id = id) with
  | none => rfl
  | some info =>
      simp only [EStateM.run_bind, run_sendBye]
      rfl

end IntrospectionSender

/-! ### Ids in their usual form -/

def hexDigit (n : ℕ) : UInt8 := UInt8.ofNat (if n < 10 then 48 + n else 87 + n)

def hex (s : Bytes) : Bytes :=
  s.flatMap fun b => [hexDigit (b.toNat / 16), hexDigit (b.toNat % 16)]

/-- The usual form of an id: five groups of hexadecimal digits. -/
def canonical (id : UUID) : Bytes :=
  hex (id.data.take 4) ++ bytes "-" ++ hex ((id.data.drop 4).take 2) ++ bytes "-" ++
    hex ((id.data.drop 6).take 2) ++ bytes "-" ++ hex ((id.data.drop 8).take 2) ++ bytes "-" ++
    hex (id.data.drop 10)

def digitValue (c : UInt8) : Option UInt8 :=
  if 48 ≤ c ∧ c ≤ 57 then some (c - 48)
  else if 97 ≤ c ∧ c ≤ 102 then some (c - 87)
  else if 65 ≤ c ∧ c ≤ 70 then some (c - 55)
  else none

def unhex : Bytes → Option Bytes
  | [] => some []
  | [_] => none
  | a :: b :: s => do
      let high ← digitValue a
      let low ← digitValue b
      let rest ← unhex s
      return (16 * high + low) :: rest

def parseCanonical (s : Bytes) : Except Exception UUID :=
  match unhex (s.filter (· ≠ 45)) with
  | none => .error ⟨.runtimeError, bytes "invalid uuid string"⟩
  | some data =>
      if h : data.length = 16 then .ok ⟨data, h⟩
      else .error ⟨.runtimeError, bytes "invalid uuid string"⟩

theorem isComponentChar_hexDigit : ∀ n < 16, Scope.isComponentChar (hexDigit n) = true := by
  decide

theorem isComponentChar_hex {s : Bytes} : ∀ c ∈ hex s, Scope.isComponentChar c = true := by
  intro c hc
  obtain ⟨b, -, hc⟩ := List.mem_flatMap.mp hc
  have hb : b.toNat < 256 := b.toNat_lt
  rcases List.mem_pair.mp hc with rfl | rfl
  · exact isComponentChar_hexDigit _ (by omega)
  · exact isComponentChar_hexDigit _ (by omega)

theorem legal_canonical (id : UUID) : Scope.LegalComponent (canonical id) := by
  have hdash : ∀ c ∈ bytes "-", Scope.isComponentChar c = true := by
    intro c hc
    obtain rfl : c = 45 := by simpa [bytes] using hc
    decide
  constructor
  · simp [canonical, bytes]
  · intro c hc
    simp only [canonical, List.mem_append, or_assoc] at hc
    rcases hc with h | h | h | h | h | h | h | h | h
    all_goals first | exact isComponentChar_hex c h | exact hdash c h

def sampleEnvironment : Environment where
  getIdAsString := canonical
  parseId := parseCanonical
  print := ⟨fun _ => [], fun _ => []⟩
  now := 1
  legal := legal_canonical

example : parseCanonical (canonical nilId) = .ok nilId := by
  rfl

end Rsb.Introspection
