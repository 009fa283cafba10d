import Rsb.Introspection.Announcements
import Rsb.Library.NestedCalls
import Rsb.Scope.Hierarchy

/-!
The observer of the introspection plugin (`Plugin.cpp`).

The observer makes a sender when the first participant worth announcing is created, and
resets it when the last of them is gone, in both cases under its mutex. The sender has
participants of its own, so that the observer is called again while it makes or resets
one. Those participants lie below the introspection scope, and the observer returns
before it comes to the mutex.

Signals may come from several threads. Publishing, and making the participants of the
sender, is assumed to succeed.
-/

namespace Rsb.Introspection

open Library

/-! ### The participants of the sender -/

/-- A participant below the introspection scope. -/
abbrev Internal := { p : Participant // p.scope.isSubScopeOf INTROSPECTION_SCOPE = true }

theorem Internal.ignored (m : Internal) : m.val.ignored = true := by
  simp [Participant.ignored, m.property]

/-- What the sender is made from. `hostScope` is the scope with the ids of the host and
the process as components. -/
structure Setup where
  env : Environment
  processDisplayName : Option Bytes
  process : ProcessInfo
  host : HostInfo
  hostScope : Scope
  listenerURLs : SortedSet Bytes
  informerURLs : SortedSet Bytes
  introspectionEnabled : Bool

/-- The ids of new participants. -/
structure MemberIds where
  listener : UUID
  informer : UUID
  server : UUID
  method : UUID
  methodListener : UUID

/-- The participants that live as long as the sender. The informer of the method `echo`
is made for the first request. -/
structure Members where
  listener : Internal
  informer : Internal
  server : Internal
  method : Internal
  methodListener : Internal
  methodInformer : Option Internal

theorem isSubScopeOf_participants :
    INTROSPECTION_PARTICIPANTS_SCOPE.isSubScopeOf INTROSPECTION_SCOPE = true := by
  decide

/-- Whatever is concatenated to the scope for hosts stays below the introspection scope. -/
theorem isSubScopeOf_hosts (child : Scope) :
    (INTROSPECTION_HOSTS_SCOPE.concat child).isSubScopeOf INTROSPECTION_SCOPE = true := by
  rw [Scope.isSubScopeOf_eq, Scope.isSuperScopeOf_iff, INTROSPECTION_HOSTS_SCOPE, Scope.concat_assoc]
  refine ⟨List.prefix_append _ _, fun heq => ?_⟩
  have hlength := congrArg (fun s : Scope => s.getComponents.length) heq
  simp [Scope.getComponents, Scope.concat, Scope.ofComponents, INTROSPECTION_SCOPE] at hlength

namespace Setup

variable (setup : Setup)

def participant (kind : Bytes) (id : UUID) (scope : Scope) (transportURLs : SortedSet Bytes)
    (h : scope.isSubScopeOf INTROSPECTION_SCOPE = true) : Internal :=
  ⟨⟨kind, id, scope, transportURLs, setup.introspectionEnabled⟩, h⟩

def echoChild : Scope := setup.hostScope.concat (Scope.ofComponents [bytes "echo"] (by decide))

/-- The members the constructor of the sender makes. -/
def members (ids : MemberIds) : Members where
  listener := setup.participant (bytes "listener") ids.listener INTROSPECTION_PARTICIPANTS_SCOPE
    setup.listenerURLs isSubScopeOf_participants
  informer := setup.participant (bytes "informer") ids.informer INTROSPECTION_PARTICIPANTS_SCOPE
    setup.informerURLs isSubScopeOf_participants
  server := setup.participant (bytes "local-server") ids.server
    (INTROSPECTION_HOSTS_SCOPE.concat setup.hostScope) .empty (isSubScopeOf_hosts _)
  method := setup.participant (bytes "local-method") ids.method
    (INTROSPECTION_HOSTS_SCOPE.concat setup.echoChild) .empty (isSubScopeOf_hosts _)
  methodListener := setup.participant (bytes "listener") ids.methodListener
    (INTROSPECTION_HOSTS_SCOPE.concat setup.echoChild) setup.listenerURLs (isSubScopeOf_hosts _)
  methodInformer := none

def methodInformer (id : UUID) : Internal :=
  setup.participant (bytes "informer") id (INTROSPECTION_HOSTS_SCOPE.concat setup.echoChild)
    setup.informerURLs (isSubScopeOf_hosts _)

/-- `new IntrospectionSender(..)`. -/
def sender (ids : MemberIds) : IntrospectionSender where
  processDisplayName := setup.processDisplayName
  participants := []
  process := setup.process
  host := setup.host
  informerId := ids.informer
  currentSequenceNumber := 0
  published := []

end Setup

namespace Members

/-- In the order of their creation, with their parents. -/
def created (m : Members) : List (Internal × Option Participant) :=
  [(m.listener, none), (m.informer, none), (m.server, none), (m.method, some m.server),
    (m.methodListener, some m.method)]

/-- The order in which the destructor of the sender gets rid of them. -/
def destroyed (m : Members) : List Internal :=
  m.methodListener :: m.methodInformer.toList ++ [m.method, m.server, m.informer, m.listener]

end Members

/-! ### The observer -/

inductive Mutex
  | senderMutex
  deriving DecidableEq

/-- The observer, with the signals it has handled and the events published by senders
it has reset. -/
structure Observer where
  sender : Option (IntrospectionSender × Members)
  past : List (Event Data)
  log : List Signal

/-- Where a call is. `outside` is code that creates and destroys participants. -/
inductive Frame
  | outside
  /-- At the beginning of `handleParticipantCreated`, and before its lock. -/
  | created (p : Participant) (parent : Option Participant)
  | creating (p : Participant) (parent : Option Participant)
  /-- In the constructor of the sender, which has yet to make `remaining`. -/
  | making (p : Participant) (parent : Option Participant) (ids : MemberIds)
      (remaining : List (Internal × Option Participant))
  /-- At the beginning of `handleParticipantDestroyed`, and before its lock. -/
  | destroyed (p : Participant)
  | destroying (p : Participant)
  /-- In `sender.reset()`, which has yet to destroy `remaining`. -/
  | resetting (remaining : List Internal)

namespace Frame

def holds : Frame → List Mutex
  | making .. | resetting _ => [.senderMutex]
  | _ => []

def wants : Frame → Option Mutex
  | creating .. | destroying _ => some .senderMutex
  | _ => none

end Frame

/-- What a thread does next. `run` goes on with a call; its argument is used when a
sender is made. `echo` is the first request to the method of the sender. -/
inductive Action
  | created (p : Participant) (parent : Option Participant)
  | destroyed (p : Participant)
  | echo (id : UUID)
  | run (ids : MemberIds)

namespace Observer

variable (setup : Setup)

def record (d : Observer) (signal : Signal) : Observer := { d with log := d.log ++ [signal] }

/-- `sender->addParticipant(participant, parent)`. -/
def add (d : Observer) (s : IntrospectionSender) (m : Members) (p : Participant)
    (parent : Option Participant) : Option Observer :=
  match (IntrospectionSender.addParticipant setup.env (p.info parent)).run s with
  | .ok _ s => some { d.record (.created p parent) with sender := some (s, m) }
  | .error _ _ => none

def next (d : Observer) : Frame → Action → Option (Effect Frame Observer)
  | .outside, .created p parent => some (.call .outside (.created p parent) d)
  | .outside, .destroyed p => some (.call .outside (.destroyed p) d)
  | .outside, .echo id =>
      match d.sender with
      | none => none
      | some (s, m) =>
          -- `getInformer` of the method makes the informer when there is none
          if m.methodInformer.isSome then none
          else
            let informer := setup.methodInformer id
            some (.call .outside (.created informer (some m.method))
              { d with sender := some (s, { m with methodInformer := some informer }) })
  | .created p parent, .run _ =>
      if p.ignored then some (.ret (d.record (.created p parent)))
      else some (.goto (.creating p parent) d)
  | .creating p parent, .run ids =>
      match d.sender with
      | none => some (.goto (.making p parent ids (setup.members ids).created) d)
      | some (s, m) => (d.add setup s m p parent).map .ret
  | .making p parent ids ((member, memberParent) :: remaining), .run _ =>
      some (.call (.making p parent ids remaining) (.created member memberParent) d)
  | .making p parent ids [], .run _ =>
      (d.add setup (setup.sender ids) (setup.members ids) p parent).map .ret
  | .destroyed p, .run _ =>
      if p.ignored then some (.ret (d.record (.destroyed p))) else some (.goto (.destroying p) d)
  | .destroying p, .run _ =>
      match d.sender with
      | none => some (.ret (d.record (.destroyed p)))
      | some (s, m) =>
          match (IntrospectionSender.removeParticipant setup.env p.id).run s with
          | .ok true s => some (.ret { d.record (.destroyed p) with sender := some (s, m) })
          -- the pointer is null before the sender is destroyed
          | .ok false s =>
              some (.goto (.resetting m.destroyed)
                { d.record (.destroyed p) with sender := none, past := d.past ++ s.published })
          | .error _ _ => none
  | .resetting (member :: remaining), .run _ =>
      some (.call (.resetting remaining) (.destroyed member) d)
  | .resetting [], .run _ => some (.ret d)
  | _, _ => none

/-- The observer under its mutex. -/
def program : Nested Frame Observer Action Mutex where
  next := next setup
  holds := Frame.holds
  wants := Frame.wants

/-- At the start there is no sender, and no thread is in the observer. -/
def initial (T : Type) : Nested.State Frame Observer Mutex T where
  stack _ := [.outside]
  data := ⟨none, [], []⟩
  owner _ := none

end Observer

end Rsb.Introspection
