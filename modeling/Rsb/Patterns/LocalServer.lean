import Rsb.Converter
import Rsb.Informer
import Rsb.Scope.StringCache

/-!
Servers and their methods (`LocalServer.cpp`, `LocalServer.h`).

A method of a server listens on its own scope, filters the requests, runs its
callback and publishes the reply on the same scope. A callback with a request type is only
run for requests of that type.

Exceptions are reported to the client with the name of their class, which the
parameter `typeName` supplies, and a string as payload, made by `ofString`.
-/

namespace Rsb.Patterns

open Library

variable {δ : Type}

structure MethodFilter where
  method : Bytes
  invert : Bool

def MethodFilter.match (f : MethodFilter) (event : Event δ) : Bool :=
  let result := f.method == event.method
  if f.invert then !result else result

/-! ### Callbacks -/

/-- How a callback ends when it does not return. -/
inductive Escape
  | fault (f : Fault)
  /-- An object that is not derived from `std::exception` was thrown. -/
  | foreign

/-- `EventCallback`, `AnyReplyTypeCallback`, and `Callback` or `FunctionCallback`
with their specializations for `void`. The latter two derive from `CallbackBase`
and have a request type. Data is passed as it is in the event. An `EventCallback` gets the
event itself, and `leaves` it as another one. -/
inductive Callback (δ : Type)
  | event (call : Bytes → Event δ → Except Escape (Option (Event δ)))
      (leaves : Bytes → Event δ → Event δ)
  | anyReplyType (requestType : Bytes)
      (call : Bytes → Option δ → Except Escape (AnnotatedData δ))
  | typed (requestType replyType : Bytes) (call : Bytes → Option δ → Except Escape (Option δ))

namespace Callback

/-- `getRequestType`, if the dynamic cast to `CallbackBase` succeeds. -/
def getRequestType : Callback δ → Option Bytes
  | event _ _ => none
  | anyReplyType requestType _ | typed requestType _ _ => some requestType

def intlCall (now : UInt64) (methodName : Bytes) (request : Event δ) :
    Callback δ → Except Escape (Option (Event δ))
  | event call _ => call methodName request
  | anyReplyType _ call =>
      (call methodName request.content).map fun result =>
        some (((Event.new now : Event δ).setType result.1).setData result.2)
  | typed _ replyType call =>
      (call methodName request.content).map fun result =>
        some (((Event.new now : Event δ).setType replyType).setData result)

/-- The request after the call. -/
def left (methodName : Bytes) (request : Event δ) : Callback δ → Event δ
  | event _ leaves => leaves methodName request
  | anyReplyType _ _ | typed _ _ _ => request

def KeepsId (c : Callback δ) : Prop :=
  ∀ methodName request, (c.left methodName request).id = request.id

end Callback

/-! ### Methods -/

structure LocalMethod (δ : Type) where
  scope : Scope
  name : Bytes
  callback : Callback δ
  informerId : UUID
  currentSequenceNumber : UInt32

namespace LocalMethod

/-- `makeInformer`: on the scope of the method, for all types. -/
def getInformer (m : LocalMethod δ) : Informer :=
  ⟨m.informerId, m.scope, [], m.currentSequenceNumber⟩

/-- What publishing comes to besides the checks of an informer. -/
structure Informing (δ : Type) where
  /-- `getInformer`, which makes the informer of a method when there is none. -/
  make : LocalMethod δ → Except Fault Unit
  /-- The connectors of the informer, when they are handed a reply. -/
  send : LocalMethod δ → Event δ → Except Fault Unit

/-- Nothing goes wrong. -/
def Informing.works : Informing δ := ⟨fun _ => .ok (), fun _ _ => .ok ()⟩

/-- The filter `makeListener` adds. -/
def filter : MethodFilter := ⟨bytes "REQUEST", false⟩

/-- The type check at the beginning of `handle`. -/
def Accepts (m : LocalMethod δ) (event : Event δ) : Prop :=
  ∀ requestType, m.callback.getRequestType = some requestType → event.type = requestType

instance (m : LocalMethod δ) (event : Event δ) : Decidable (m.Accepts event) :=
  inferInstanceAs (Decidable (∀ requestType ∈ m.callback.getRequestType, _))

def errorKey : Bytes := bytes "rsb:error?"

section

variable (typeName : Exception → Bytes) (ofString : Bytes → δ) (print : Printer δ)
  (informing : Informing δ) (now : UInt64)

/-- The event that reports an exception to the client. -/
def errorReply (e : Exception) : Event δ :=
  (((Event.new now : Event δ).setType stringType).setData
    (some (ofString (typeName e ++ bytes ": " ++ e.what)))).modifyMetaData
      fun metaData => metaData.setUserInfo errorKey []

/-- The `try` block with its handler. -/
def reply (m : LocalMethod δ) (event : Event δ) : Except Escape (Event δ) :=
  match m.callback.intlCall now m.name event with
  | .ok (some reply) => .ok reply
  -- `assert(reply)` ends the process
  | .ok none => .error (.fault .assertion)
  | .error (.fault (.thrown e)) => .ok (errorReply typeName ofString now e)
  | .error escape => .error escape

/-- What follows the type check. -/
def answer (m : LocalMethod δ) (event : Event δ) : Except Escape (Informer × Event δ) := do
  let reply ← m.reply typeName ofString now event
  -- from here on exceptions are not caught
  (informing.make m).mapError Escape.fault
  let reply := (reply.setScope m.getInformer.scope).setMethod (bytes "REPLY")
  let id ← (m.callback.left m.name event).getId.mapError Escape.fault
  let published ← (m.getInformer.checkedPublish print (reply.addCause id)).mapError Escape.fault
  (informing.send m published.2).mapError Escape.fault
  return published

/-- A call of `handle`: whether the callback was executed, and how the call
ended; when it returned, the event it published, if it did. -/
structure Execution (δ : Type) where
  called : Bool
  outcome : Except Escape (Option (Informer × Event δ))

def Execution.published (x : Execution δ) : Option (Event δ) :=
  match x.outcome with
  | .ok (some (_, event)) => some event
  | _ => none

def handle (m : LocalMethod δ) (event : Event δ) : Execution δ :=
  if m.Accepts event then ⟨true, (m.answer typeName ofString print informing now event).map some⟩
  else ⟨false, .ok none⟩

end

end LocalMethod

structure LocalServer (δ : Type) where
  scope : Scope
  methods : SortedMap Bytes (LocalMethod δ)

/-- `createLocalMethod`; the name of a method is the last component of its scope. -/
def createLocalMethod (scope : Scope) (callback : Callback δ) (informerId : UUID) :
    Except Fault (LocalMethod δ) :=
  match scope.getComponents.getLast? with
  | none => .error .readPastEnd
  | some name => .ok ⟨scope, name, callback, informerId, 0⟩

def LocalServer.registerMethod (s : LocalServer δ) (name : Bytes) (callback : Callback δ)
    (informerId : UUID) : Except Fault (LocalServer δ) :=
  match s.methods.find? name with
  | some _ => .error (.thrown ⟨.methodExists, bytes "Method '" ++ name ++
      bytes "' already exists for server '" ++ s.scope.toString ++ bytes "'"⟩)
  | none => do
      let child ← Scope.parse (bytes "/" ++ name)
      let scope ← s.scope.concatObject child
      let method ← createLocalMethod scope callback informerId
      return { s with methods := s.methods.insert name method }

namespace LocalMethod

/-! ### What a method publishes -/

/-- A reply of the method to the request with the given id. -/
def IsReply (m : LocalMethod δ) (id : EventId) (p : Event δ) : Prop :=
  p.method = bytes "REPLY" ∧ p.scope = m.scope ∧ id ∈ p.causes

/-- The reply to the request with the given id, as it is handed to the connectors. -/
def sent (m : LocalMethod δ) (id : EventId) (reply : Event δ) : Event δ :=
  (m.getInformer.uncheckedPublish
    (((reply.setScope m.scope).setMethod (bytes "REPLY")).addCause id)).2

section

variable (typeName : Exception → Bytes) (ofString : Bytes → δ) (informing : Informing δ)
  (now : UInt64)

/-- The callback returns an event with a type, or throws a `std::exception`. -/
def Answers (m : LocalMethod δ) (event : Event δ) : Prop :=
  (∃ reply, m.callback.intlCall now m.name event = .ok (some reply) ∧ reply.type ≠ []) ∨
    ∃ e, m.callback.intlCall now m.name event = .error (.fault (.thrown e))

/-- The informer of the method can be made, and its connectors take the reply. -/
def Conveys (m : LocalMethod δ) (id : EventId) (event : Event δ) : Prop :=
  informing.make m = .ok () ∧ ∀ reply, m.reply typeName ofString now event = .ok reply →
    informing.send m (m.sent id reply) = .ok ()

end

section

variable {typeName : Exception → Bytes} {ofString : Bytes → δ} {print : Printer δ}
  {informing : Informing δ} {now : UInt64}

theorem exists_reply_iff {m : LocalMethod δ} {event : Event δ} :
    (∃ reply, m.reply typeName ofString now event = .ok reply ∧ reply.type ≠ []) ↔
      m.Answers now event := by
  rw [LocalMethod.reply, Answers]
  cases hcall : m.callback.intlCall now m.name event with
  | ok result =>
      cases result with
      | none => simp
      | some reply => simp
  | error escape =>
      cases escape with
      | fault f =>
          cases f with
          | thrown e =>
              have htype : (errorReply typeName ofString now e).type = stringType := rfl
              have hne : stringType ≠ [] := by decide
              simp [htype, hne]
          | assertion | readPastEnd | writePastEnd | nullPointer => simp
      | foreign => simp

theorem mapError_eq_ok_iff {ε ε' α : Type} {f : ε → ε'} {x : Except ε α} {a : α} :
    x.mapError f = .ok a ↔ x = .ok a := by
  cases x <;> simp [Except.mapError]

theorem answer_eq_ok_iff {m : LocalMethod δ} {event : Event δ} {id : EventId}
    (hid : (m.callback.left m.name event).id = some id) {r : Informer × Event δ} :
    m.answer typeName ofString print informing now event = .ok r ↔
      ∃ reply, m.reply typeName ofString now event = .ok reply ∧ informing.make m = .ok () ∧
        reply.type ≠ [] ∧
        m.getInformer.uncheckedPublish
          (((reply.setScope m.scope).setMethod (bytes "REPLY")).addCause id) = r ∧
        informing.send m r.2 = .ok () := by
  have hgetId : (m.callback.left m.name event).getId.mapError Escape.fault = .ok id := by
    rw [Event.getId, hid]
    rfl
  have hchecked (reply : Event δ) :
      m.getInformer.checkedPublish print
          (((reply.setScope m.scope).setMethod (bytes "REPLY")).addCause id) = .ok r ↔
        reply.type ≠ [] ∧ m.getInformer.uncheckedPublish
          (((reply.setScope m.scope).setMethod (bytes "REPLY")).addCause id) = r :=
    Informer.checkedPublish_eq_ok_iff rfl rfl
  rw [answer, bind_eq_ok_iff]
  refine exists_congr fun reply => and_congr_right fun _ => ?_
  simp only [bind_eq_ok_iff, mapError_eq_ok_iff, hgetId, Except.ok.injEq, exists_eq_left',
    pure, Except.pure]
  constructor
  · rintro ⟨_, hmake, published, hpublish, _, hsend, rfl⟩
    obtain ⟨htype, hsent⟩ := (hchecked reply).mp hpublish
    exact ⟨hmake, htype, hsent, hsend⟩
  · rintro ⟨hmake, htype, hsent, hsend⟩
    exact ⟨(), hmake, r, (hchecked reply).mpr ⟨htype, hsent⟩, (), hsend, rfl⟩

/-- Only events that have an id in the end are answered. -/
theorem exists_id_of_answer {m : LocalMethod δ} {event : Event δ} {r : Informer × Event δ}
    (h : m.answer typeName ofString print informing now event = .ok r) :
    ∃ id, (m.callback.left m.name event).id = some id := by
  rw [answer, bind_eq_ok_iff] at h
  obtain ⟨reply, -, h⟩ := h
  obtain ⟨_, -, h⟩ := bind_eq_ok_iff.mp h
  obtain ⟨id, hid, -⟩ := bind_eq_ok_iff.mp h
  rw [mapError_eq_ok_iff, Event.getId] at hid
  cases hleft : (m.callback.left m.name event).id with
  | none => simp [hleft] at hid
  | some id => exact ⟨id, rfl⟩

theorem published_eq_some_iff {m : LocalMethod δ} {event : Event δ} {id : EventId}
    (hid : (m.callback.left m.name event).id = some id) {p : Event δ} :
    (m.handle typeName ofString print informing now event).published = some p ↔
      m.Accepts event ∧ ∃ reply, m.reply typeName ofString now event = .ok reply ∧
        informing.make m = .ok () ∧ reply.type ≠ [] ∧ m.sent id reply = p ∧
        informing.send m p = .ok () := by
  by_cases haccepts : m.Accepts event
  · rw [handle, if_pos haccepts, and_iff_right haccepts]
    have hpublished : (⟨true, (m.answer typeName ofString print informing now event).map some⟩ :
        Execution δ).published = some p ↔
          ∃ i, m.answer typeName ofString print informing now event = .ok (i, p) := by
      cases m.answer typeName ofString print informing now event with
      | error escape => simp [Execution.published, Except.map]
      | ok r => simp [Execution.published, Except.map, Prod.ext_iff]
    rw [hpublished]
    simp only [answer_eq_ok_iff hid]
    constructor
    · rintro ⟨i, reply, hreply, hmake, htype, hpublish, hsend⟩
      exact ⟨reply, hreply, hmake, htype, congrArg Prod.snd hpublish, hsend⟩
    · rintro ⟨reply, hreply, hmake, htype, rfl, hsend⟩
      exact ⟨_, reply, hreply, hmake, htype, rfl, hsend⟩
  · simp [handle, haccepts, Execution.published]

/-- A method publishes if it takes up the request, its callback ends with something to be
sent, and that can be sent. -/
theorem published_isSome_iff {m : LocalMethod δ} {event : Event δ} {id : EventId}
    (hid : (m.callback.left m.name event).id = some id) :
    (m.handle typeName ofString print informing now event).published.isSome = true ↔
      m.Accepts event ∧ m.Answers now event ∧
        m.Conveys typeName ofString informing now id event := by
  have hanswers : (∃ reply, m.reply typeName ofString now event = .ok reply ∧ reply.type ≠ []) ↔
      m.Answers now event := exists_reply_iff
  rw [Option.isSome_iff_exists, ← hanswers]
  constructor
  · rintro ⟨p, hp⟩
    obtain ⟨haccepts, reply, hreply, hmake, htype, rfl, hsend⟩ := (published_eq_some_iff hid).mp hp
    refine ⟨haccepts, ⟨reply, hreply, htype⟩, hmake, fun reply' hreply' => ?_⟩
    obtain rfl := Except.ok.inj (hreply.symm.trans hreply')
    exact hsend
  · rintro ⟨haccepts, ⟨reply, hreply, htype⟩, hmake, hsend⟩
    exact ⟨_, (published_eq_some_iff hid).mpr
      ⟨haccepts, reply, hreply, hmake, htype, rfl, hsend reply hreply⟩⟩

theorem isReply_of_published {m : LocalMethod δ} {event : Event δ} {id : EventId}
    (hid : (m.callback.left m.name event).id = some id) {p : Event δ}
    (hp : (m.handle typeName ofString print informing now event).published = some p) :
    m.IsReply id p ∧ ∀ e, m.callback.intlCall now m.name event = .error (.fault (.thrown e)) →
      p.metaData.hasUserInfo errorKey = true := by
  obtain ⟨-, reply, hreply, -, -, rfl, -⟩ := (published_eq_some_iff hid).mp hp
  refine ⟨⟨rfl, rfl, ?_⟩, fun e hcall => ?_⟩
  · simp [sent, Informer.uncheckedPublish, Informer.nextSequenceNumber, Event.setId, Event.addCause]
  · simp only [LocalMethod.reply, hcall, Except.ok.injEq] at hreply
    subst hreply
    simp [sent, Informer.uncheckedPublish, Informer.nextSequenceNumber, Event.setId,
      Event.addCause, Event.setMethod, Event.setScope, errorReply, Event.modifyMetaData,
      MetaData.setUserInfo, MetaData.hasUserInfo]

end

end LocalMethod

end Rsb.Patterns
