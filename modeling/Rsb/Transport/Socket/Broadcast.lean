import Rsb.Library.Locks
import Rsb.Transport.Socket.Framing

/-!
What the threads of a process write to the connections of its buses (`BusImpl::handle`,
`BusServerImpl::handleIncoming`, `BusConnection::sendEvent`).

A connection is not thread-safe: `sendEvent` fills the two send buffers of the connection
before it takes the mutex, and writes them in pieces afterwards. Messages come out whole
because whoever calls `sendEvent` holds the lock of the bus. The same lock puts the messages
of a bus in one order, which is the order on all of its connections.

A thread is at a point of one of the functions. Locks that callers of `removeConnection` and
`shutdown` may hold besides only rule out some of the interleavings.
-/

namespace Rsb.Transport.Socket.Broadcast

open Library Library.Program

variable {B C T δ : Type}

inductive Lock (B C : Type)
  | connectionLock (b : B)
  | mutex (c : C)
  deriving DecidableEq

structure Data (B C : Type) where
  connections : B → List C
  activeShutdown : C → Bool
  messageSendBuffer : C → Bytes
  lengthSendBuffer : C → Bytes
  /-- What has been written to the sockets. -/
  written : C → Bytes
  /-- The messages of the buses in the order in which they took the lock, with the
  connections they came from. -/
  dispatched : B → List (Option C × Bytes)
  /-- How many of them there were when a connection was added. -/
  added : C → Option ℕ

/-- How far `sendEvent` has got: the buffers are filled, the mutex is taken, and `n` bytes of
a buffer are written. -/
inductive Stage
  | serialize | encodeLength | lock | locked
  | writeLength (n : ℕ)
  | writeMessage (n : ℕ)
  deriving DecidableEq

inductive Point (B C : Type)
  | idle
  /-- Before the lock of the connections. -/
  | handle (b : B) (origin : Option C) (message : Bytes)
  /-- The loop over the connections still to be sent to. -/
  | deliver (b : B) (message : Bytes) (todo failing : List C)
  | sendEvent (b : B) (message : Bytes) (c : C) (todo failing : List C) (stage : Stage)
  | removeFailing (b : B) (failing : List C)
  | addConnection (c : C)
  | removeConnection (c : C)
  | shutdown (c : C)
  deriving DecidableEq

inductive Action (B C : Type)
  /-- A thread enters one of the functions; the message is what the event is serialized to. -/
  | callHandle (b : B) (origin : Option C) (message : Bytes)
  | callAddConnection (c : C)
  | callRemoveConnection (c : C)
  | callShutdown (c : C)
  /-- The thread goes on, or the socket takes some more bytes, or an exception is thrown. -/
  | go
  | transfer (k : ℕ)
  | throws

variable [DecidableEq B] [DecidableEq C] [DecidableEq T] (busOf : C → B)

namespace Data

def targets (d : Data B C) (b : B) (origin : Option C) : List C :=
  (d.connections b).filter fun c => some c ≠ origin

def dispatch (d : Data B C) (b : B) (origin : Option C) (message : Bytes) : Data B C :=
  { d with
    dispatched := Function.update d.dispatched b (d.dispatched b ++ [(origin, message)]) }

def addConnection (d : Data B C) (c : C) : Data B C :=
  { d with
    connections :=
      Function.update d.connections (busOf c) (d.connections (busOf c) ++ [c])
    added := Function.update d.added c (some (d.dispatched (busOf c)).length) }

def removeConnection (d : Data B C) (b : B) (c : C) : Data B C :=
  { d with
    connections := Function.update d.connections b ((d.connections b).filter fun c' => c' ≠ c) }

def write (d : Data B C) (c : C) (data : Bytes) : Data B C :=
  { d with written := Function.update d.written c (d.written c ++ data) }

end Data

def next (d : Data B C) : Point B C → Action B C → Option (Point B C × Data B C)
  | .idle, .callHandle b origin message => some (.handle b origin message, d)
  | .idle, .callAddConnection c => some (.addConnection c, d)
  | .idle, .callRemoveConnection c => some (.removeConnection c, d)
  | .idle, .callShutdown c => some (.shutdown c, d)
  | .handle b origin message, .go =>
      some (.deliver b message (d.targets b origin) [], d.dispatch b origin message)
  -- there is no wire schema
  | .handle _ _ _, .throws => some (.idle, d)
  | .deliver b _ [] failing, .go => some (.removeFailing b failing, d)
  | .deliver b m (c :: todo) failing, .go => some (.sendEvent b m c todo failing .serialize, d)
  | .sendEvent b m c todo failing .serialize, .go =>
      some (.sendEvent b m c todo failing .encodeLength,
        { d with messageSendBuffer := Function.update d.messageSendBuffer c m })
  | .sendEvent b m c todo failing .serialize, .throws =>
      some (.deliver b m todo (failing ++ [c]), d)
  | .sendEvent b m c todo failing .encodeLength, .go =>
      some (.sendEvent b m c todo failing .lock,
        { d with
          lengthSendBuffer := Function.update d.lengthSendBuffer c
            (Socket.encodeLength (UInt32.ofNat (d.messageSendBuffer c).length)) })
  | .sendEvent b m c todo failing .lock, .go =>
      some (.sendEvent b m c todo failing .locked, d)
  | .sendEvent b m c todo failing .locked, .go =>
      if d.activeShutdown c then some (.deliver b m todo failing, d)
      else some (.sendEvent b m c todo failing (.writeLength 0), d)
  | .sendEvent b m c todo failing (.writeLength n), .transfer k =>
      some (.sendEvent b m c todo failing (.writeLength (n + k)),
        d.write c (((d.lengthSendBuffer c).drop n).take k))
  | .sendEvent b m c todo failing (.writeLength n), .go =>
      if (d.lengthSendBuffer c).length ≤ n then
        some (.sendEvent b m c todo failing (.writeMessage 0), d)
      else none
  | .sendEvent b m c todo failing (.writeLength _), .throws =>
      some (.deliver b m todo (failing ++ [c]), d)
  | .sendEvent b m c todo failing (.writeMessage n), .transfer k =>
      some (.sendEvent b m c todo failing (.writeMessage (n + k)),
        d.write c (((d.messageSendBuffer c).drop n).take k))
  | .sendEvent b m c todo failing (.writeMessage n), .go =>
      if (d.messageSendBuffer c).length ≤ n then some (.deliver b m todo failing, d) else none
  | .sendEvent b m c todo failing (.writeMessage _), .throws =>
      some (.deliver b m todo (failing ++ [c]), d)
  | .removeFailing _ [], .go => some (.idle, d)
  | .removeFailing b (c :: failing), .go =>
      some (.removeFailing b failing, d.removeConnection b c)
  -- a connection is added once, by whoever has made it
  | .addConnection c, .go =>
      if d.added c = none then some (.idle, d.addConnection busOf c) else none
  | .removeConnection c, .go => some (.idle, d.removeConnection (busOf c) c)
  | .shutdown c, .go =>
      some (.idle, { d with activeShutdown := Function.update d.activeShutdown c true })
  | _, _ => none

/-- Whether the mutex is held. -/
def Stage.isLocked : Stage → Bool
  | .serialize | .encodeLength | .lock => false
  | .locked | .writeLength _ | .writeMessage _ => true

def holds : Point B C → List (Lock B C)
  | .deliver b _ _ _ | .removeFailing b _ => [.connectionLock b]
  | .sendEvent b _ c _ _ stage =>
      .connectionLock b :: if stage.isLocked then [.mutex c] else []
  | _ => []

def wants : Point B C → Option (Lock B C)
  | .handle b _ _ => some (.connectionLock b)
  | .sendEvent _ _ c _ _ .lock | .shutdown c => some (.mutex c)
  | .addConnection c | .removeConnection c => some (.connectionLock (busOf c))
  | _ => none

/-- The threads of a process. -/
def system : Program (Point B C) (Data B C) (Action B C) (Lock B C) :=
  ⟨next busOf, holds, wants busOf⟩

abbrev State (B C T : Type) := Program.State (Point B C) (Data B C) (Lock B C) T

def Data.init : Data B C where
  connections _ := []
  activeShutdown _ := false
  messageSendBuffer _ := []
  lengthSendBuffer _ := List.replicate 4 0
  written _ := []
  dispatched _ := []
  added _ := none

/-- All threads are outside, and there is no connection. -/
def init : State B C T := ⟨fun _ => .idle, .init, fun _ => none⟩

/-! ### What a connection is to get -/

/-- The messages of the bus since the connection was added, but for those that came from it. -/
def expected (d : Data B C) (c : C) : List Bytes :=
  match d.added c with
  | none => []
  | some n => (((d.dispatched (busOf c)).drop n).filter fun e => e.1 ≠ some c).map (·.2)

/-- The connection is in use. -/
def Live (d : Data B C) (c : C) : Prop :=
  c ∈ d.connections (busOf c) ∧ d.activeShutdown c = false

/-- What `sendEvent` has still to write. -/
def Stage.remaining (message : Bytes) : Stage → Bytes
  | .serialize | .encodeLength | .lock | .locked => frame message
  | .writeLength n => (Socket.encodeLength (UInt32.ofNat message.length)).drop n ++ message
  | .writeMessage n => message.drop n

/-- What a thread at this point has still to write to `c`. -/
def remaining (c : C) : Point B C → Bytes
  | .deliver _ message todo _ => if c ∈ todo then frame message else []
  | .sendEvent _ message c' todo _ stage =>
      if c = c' then stage.remaining message else if c ∈ todo then frame message else []
  | _ => []

def failing : Point B C → List C
  | .deliver _ _ _ failing | .sendEvent _ _ _ _ failing _ | .removeFailing _ failing => failing
  | _ => []

/-- Once `sendEvent` has filled a buffer, it holds what is to be sent. -/
def Stage.Filled (d : Data B C) (message : Bytes) (c : C) : Stage → Prop
  | .serialize => True
  | .encodeLength => d.messageSendBuffer c = message
  | .lock | .locked => d.messageSendBuffer c = message ∧
      d.lengthSendBuffer c = Socket.encodeLength (UInt32.ofNat message.length)
  | .writeLength _ | .writeMessage _ => (d.messageSendBuffer c = message ∧
      d.lengthSendBuffer c = Socket.encodeLength (UInt32.ofNat message.length)) ∧
      d.activeShutdown c = false

def Placed (d : Data B C) : Point B C → Prop
  | .deliver b _ todo failing => todo.Nodup ∧ ∀ c ∈ todo, c ∈ d.connections b ∧ c ∉ failing
  | .sendEvent b message c todo failing stage =>
      (c :: todo).Nodup ∧ (∀ c' ∈ c :: todo, c' ∈ d.connections b ∧ c' ∉ failing) ∧
        stage.Filled d message c
  | _ => True

/-- What is written and what is still to be written make up what `c` is to get. -/
def Settled (d : Data B C) (c : C) (p : Point B C) : Prop :=
  d.written c ++ remaining c p = (expected busOf d c).flatMap frame

/-- Nothing is left to be written to `c`, if it is in use. -/
def Rest (d : Data B C) (c : C) : Prop :=
  Live busOf d c → d.written c = (expected busOf d c).flatMap frame

structure Sound (d : Data B C) : Prop where
  member : ∀ b, ∀ c ∈ d.connections b, busOf c = b ∧ d.added c ≠ none
  nodup : ∀ b, (d.connections b).Nodup
  bound : ∀ c n, d.added c = some n → n ≤ (d.dispatched (busOf c)).length
  sent : ∀ c, d.written c <+: (expected busOf d c).flatMap frame

/-- What holds of the data at the point of one thread. -/
structure Local (d : Data B C) (p : Point B C) : Prop where
  placed : Placed d p
  settled : ∀ c, .connectionLock (busOf c) ∈ holds p → Live busOf d c → c ∉ failing p →
    Settled busOf d c p

variable {busOf}

omit [DecidableEq B] in
theorem expected_congr {d d' : Data B C} {c : C}
    (hdispatched : d'.dispatched (busOf c) = d.dispatched (busOf c))
    (hadded : d'.added c = d.added c) : expected busOf d' c = expected busOf d c := by
  rw [expected, expected, hadded, hdispatched]

theorem expected_dispatch {d : Data B C} (h : Sound busOf d) (b : B) (origin : Option C)
    (message : Bytes) (c : C) :
    expected busOf (d.dispatch b origin message) c =
      if busOf c = b ∧ d.added c ≠ none ∧ origin ≠ some c then expected busOf d c ++ [message]
      else expected busOf d c := by
  cases hadded : d.added c with
  | none => simp [expected, Data.dispatch, hadded]
  | some n =>
      by_cases hb : busOf c = b
      · subst hb
        have hn := h.bound c n hadded
        by_cases horigin : origin = some c
        · simp [expected, Data.dispatch, hadded, List.drop_append_of_le_length hn, horigin]
        · simp [expected, Data.dispatch, hadded, List.drop_append_of_le_length hn, horigin]
      · simp [expected, Data.dispatch, hadded, hb]

omit [DecidableEq B] in
theorem mem_targets {d : Data B C} {b : B} {origin : Option C} {c : C} :
    c ∈ d.targets b origin ↔ c ∈ d.connections b ∧ origin ≠ some c := by
  rw [Data.targets, List.mem_filter, decide_eq_true_eq, ne_comm]

/-- Nothing has changed for the connections of bus `b`, but perhaps a shutdown. -/
structure SameOn (busOf : C → B) (d d' : Data B C) (b : B) : Prop where
  connections : d'.connections b = d.connections b
  dispatched : d'.dispatched b = d.dispatched b
  messageSendBuffer : ∀ c, busOf c = b → d'.messageSendBuffer c = d.messageSendBuffer c
  lengthSendBuffer : ∀ c, busOf c = b → d'.lengthSendBuffer c = d.lengthSendBuffer c
  written : ∀ c, busOf c = b → d'.written c = d.written c
  added : ∀ c, busOf c = b → d'.added c = d.added c

omit [DecidableEq B] [DecidableEq C] in
theorem SameOn.refl (d : Data B C) (b : B) : SameOn busOf d d b :=
  ⟨rfl, rfl, fun _ _ => rfl, fun _ _ => rfl, fun _ _ => rfl, fun _ _ => rfl⟩

omit [DecidableEq B] [DecidableEq C] in
/-- Only connection `c` of another bus has changed. -/
theorem sameOn_of_ne {d d' : Data B C} {b : B} {c : C} (hc : busOf c ≠ b)
    (hconnections : d'.connections b = d.connections b)
    (hdispatched : d'.dispatched b = d.dispatched b)
    (hothers : ∀ c' ≠ c, d'.messageSendBuffer c' = d.messageSendBuffer c' ∧
      d'.lengthSendBuffer c' = d.lengthSendBuffer c' ∧ d'.written c' = d.written c' ∧
      d'.added c' = d.added c') : SameOn busOf d d' b := by
  have hne : ∀ c', busOf c' = b → c' ≠ c := fun c' hc' heq => hc (heq ▸ hc')
  exact ⟨hconnections, hdispatched, fun c' h => (hothers c' (hne c' h)).1,
    fun c' h => (hothers c' (hne c' h)).2.1, fun c' h => (hothers c' (hne c' h)).2.2.1,
    fun c' h => (hothers c' (hne c' h)).2.2.2⟩

/-- A thread leaves alone what belongs to a bus whose lock it neither has nor takes. -/
theorem next_sameOn {d d' : Data B C} {p p' : Point B C} {a : Action B C} {b : B}
    (hsound : Sound busOf d) (hplaced : Placed d p)
    (hnext : next busOf d p a = some (p', d')) (hholds : .connectionLock b ∉ holds p)
    (hwants : wants busOf p ≠ some (.connectionLock b)) : SameOn busOf d d' b := by
  cases p with
  | sendEvent b' m c todo failing stage =>
      have hne : b ≠ b' := by
        rintro rfl
        simp [holds] at hholds
      have hc : busOf c ≠ b := by
        rw [(hsound.member b' c (hplaced.2.1 c List.mem_cons_self).1).1]
        exact hne.symm
      cases stage <;> cases a <;> simp only [next, reduceCtorEq] at hnext
      all_goals try split_ifs at hnext
      all_goals cases hnext
      all_goals first
        | exact .refl d b
        | exact sameOn_of_ne hc rfl rfl fun c' hc' => by simp [Data.write, hc']
  | handle b' origin m =>
      have hne : b ≠ b' := by
        rintro rfl
        simp [wants] at hwants
      cases a <;> simp only [next, reduceCtorEq] at hnext <;> cases hnext
      · exact { SameOn.refl d b with dispatched := by simp [Data.dispatch, hne] }
      · exact .refl d b
  | removeFailing b' failing =>
      have hne : b ≠ b' := by
        rintro rfl
        simp [holds] at hholds
      cases failing <;> cases a <;> simp only [next, reduceCtorEq] at hnext <;> cases hnext
      · exact .refl d b
      · exact { SameOn.refl d b with connections := by simp [Data.removeConnection, hne] }
  | addConnection c =>
      have hc : busOf c ≠ b := fun heq => hwants (by simp [wants, heq])
      cases a <;> simp only [next, reduceCtorEq] at hnext
      split_ifs at hnext
      cases hnext
      exact sameOn_of_ne hc (by simp [Data.addConnection, hc.symm]) rfl fun c' hc' => by
        simp [Data.addConnection, hc']
  | removeConnection c =>
      have hc : busOf c ≠ b := fun heq => hwants (by simp [wants, heq])
      cases a <;> simp only [next, reduceCtorEq] at hnext
      cases hnext
      exact { SameOn.refl d b with connections := by simp [Data.removeConnection, hc.symm] }
  | idle => cases a <;> simp only [next, reduceCtorEq] at hnext <;> cases hnext <;> exact .refl d b
  | deliver b' m todo failing =>
      cases todo <;> cases a <;> simp only [next, reduceCtorEq] at hnext <;> cases hnext <;>
        exact .refl d b
  | shutdown c =>
      cases a <;> simp only [next, reduceCtorEq] at hnext
      cases hnext
      exact { SameOn.refl d b with }

/-! ### One step of a thread -/

section

variable {d : Data B C} (h : Sound busOf d)

include h

omit [DecidableEq B] in
/-- `Sound` does not speak of shutdowns and of the send buffers. -/
theorem Sound.congr {d' : Data B C} (hconnections : d'.connections = d.connections)
    (hdispatched : d'.dispatched = d.dispatched) (hadded : d'.added = d.added)
    (hwritten : d'.written = d.written) : Sound busOf d' := by
  refine ⟨?_, ?_, ?_, fun c => ?_⟩
  · rw [hconnections, hadded]
    exact h.member
  · rw [hconnections]
    exact h.nodup
  · rw [hadded, hdispatched]
    exact h.bound
  · rw [hwritten, expected_congr (congrFun hdispatched _) (congrFun hadded _)]
    exact h.sent c

theorem Sound.dispatch (b : B) (origin : Option C) (message : Bytes) :
    Sound busOf (d.dispatch b origin message) := by
  refine ⟨h.member, h.nodup, fun c n hn => ?_, fun c => ?_⟩
  · have hbound := h.bound c n hn
    by_cases hb : busOf c = b
    · subst hb
      simp [Data.dispatch]
      omega
    · simpa [Data.dispatch, hb] using hbound
  · rw [expected_dispatch h]
    split_ifs
    · rw [List.flatMap_append]
      exact (h.sent c).trans (List.prefix_append _ _)
    · exact h.sent c

theorem Sound.removeConnection (b : B) (c : C) : Sound busOf (d.removeConnection b c) := by
  refine ⟨fun b' c' hc' => ?_, fun b' => ?_, h.bound, h.sent⟩
  · by_cases hb : b' = b
    · subst hb
      simp only [Data.removeConnection, Function.update_self] at hc'
      exact h.member b' c' (List.mem_of_mem_filter hc')
    · exact h.member b' c' (by simpa [Data.removeConnection, hb] using hc')
  · by_cases hb : b' = b
    · subst hb
      simp only [Data.removeConnection, Function.update_self]
      exact (h.nodup b').filter _
    · simpa [Data.removeConnection, hb] using h.nodup b'

omit h in
theorem expected_addConnection {c : C} (c' : C) (hadded : d.added c = none) :
    expected busOf (d.addConnection busOf c) c' = expected busOf d c' := by
  by_cases hc : c' = c
  · subst hc
    simp [expected, Data.addConnection, hadded]
  · simp [expected, Data.addConnection, hc]

theorem Sound.addConnection {c : C} (hadded : d.added c = none) :
    Sound busOf (d.addConnection busOf c) := by
  have hnew : c ∉ d.connections (busOf c) := fun hc => (h.member _ c hc).2 hadded
  refine ⟨fun b c' hc' => ?_, fun b => ?_, fun c' n hn => ?_, fun c' => ?_⟩
  · have hmem : c' ∈ d.connections b ∨ b = busOf c ∧ c' = c := by
      by_cases hb : b = busOf c
      · subst hb
        simpa [Data.addConnection] using hc'
      · exact .inl (by simpa [Data.addConnection, hb] using hc')
    rcases hmem with hold | ⟨rfl, rfl⟩
    · have hne : c' ≠ c := fun heq => (h.member b c' hold).2 (heq ▸ hadded)
      simpa [Data.addConnection, hne] using h.member b c' hold
    · simp [Data.addConnection]
  · by_cases hb : b = busOf c
    · subst hb
      simp only [Data.addConnection, Function.update_self]
      exact List.nodup_append'.mpr ⟨h.nodup _, List.nodup_singleton c, by simpa using hnew⟩
    · simpa [Data.addConnection, hb] using h.nodup b
  · by_cases hc : c' = c
    · subst hc
      obtain rfl : (d.dispatched (busOf c')).length = n := by
        simpa [Data.addConnection] using hn
      exact Nat.le_refl _
    · exact h.bound c' n (by simpa [Data.addConnection, hc] using hn)
  · rw [expected_addConnection c' hadded]
    exact h.sent c'

omit [DecidableEq B] in
/-- Bytes that a connection is to get next are written to it. -/
theorem Sound.write {c : C} {data rest : Bytes}
    (hsettled : d.written c ++ (data ++ rest) = (expected busOf d c).flatMap frame) :
    Sound busOf (d.write c data) := by
  refine ⟨h.member, h.nodup, h.bound, fun c' => ?_⟩
  show _ <+: (expected busOf d c').flatMap frame
  by_cases hc : c' = c
  · subst hc
    exact ⟨rest, by simpa [Data.write] using hsettled⟩
  · simpa [Data.write, hc] using h.sent c'

omit h [DecidableEq B] in
theorem Local.idle (d : Data B C) : Local busOf d .idle :=
  ⟨trivial, fun _ hc => absurd hc List.not_mem_nil⟩

theorem Local.handle {b : B} {origin : Option C} {message : Bytes}
    (hrest : ∀ c, busOf c = b → Rest busOf d c) :
    Local busOf (d.dispatch b origin message) (.deliver b message (d.targets b origin) []) := by
  refine ⟨⟨(h.nodup b).filter _, fun c hc => ⟨List.mem_of_mem_filter hc, List.not_mem_nil⟩⟩,
    fun c hc hlive _ => ?_⟩
  obtain rfl : busOf c = b := by simpa [holds] using hc
  have hwritten : d.written c = (expected busOf d c).flatMap frame := hrest c rfl hlive
  have hadded := (h.member _ c hlive.1).2
  rw [Settled, expected_dispatch h]
  by_cases horigin : origin = some c
  · subst horigin
    simpa [remaining, mem_targets, Data.dispatch] using hwritten
  · have hmem : c ∈ d.connections (busOf c) := hlive.1
    simpa [remaining, mem_targets, hmem, horigin, hadded, Data.dispatch] using hwritten

end

/-- What holds of the data while a message is sent to `c`. -/
structure Sending (busOf : C → B) (d : Data B C) (b : B) (message : Bytes) (c : C)
    (todo failing : List C) (rest : Bytes) : Prop where
  nodup : (c :: todo).Nodup
  member : ∀ c' ∈ c :: todo, c' ∈ d.connections b ∧ c' ∉ failing
  current : Live busOf d c → d.written c ++ rest = (expected busOf d c).flatMap frame
  others : ∀ c', busOf c' = b → Live busOf d c' → c' ∉ failing → c' ≠ c →
    d.written c' ++ (if c' ∈ todo then frame message else []) =
      (expected busOf d c').flatMap frame

section

variable {d : Data B C} {b : B} {message : Bytes} {c : C} {todo failing : List C}

omit [DecidableEq B] in
theorem Local.sending (h : Sound busOf d) {stage : Stage}
    (hlocal : Local busOf d (.sendEvent b message c todo failing stage)) :
    Sending busOf d b message c todo failing (stage.remaining message) ∧
      stage.Filled d message c := by
  obtain ⟨⟨hnodup, hmember, hfilled⟩, hsettled⟩ := hlocal
  refine ⟨⟨hnodup, hmember, fun hlive => ?_, fun c' hc' hlive hnot hne => ?_⟩, hfilled⟩
  · have hb : busOf c = b := (h.member b c (hmember c List.mem_cons_self).1).1
    have heq := hsettled c (by simp [holds, hb]) hlive (hmember c List.mem_cons_self).2
    simpa [Settled, remaining] using heq
  · have heq := hsettled c' (by simp [holds, hc']) hlive hnot
    simpa [Settled, remaining, hne] using heq

omit [DecidableEq B] in
theorem Sending.at (stage : Stage)
    (h : Sending busOf d b message c todo failing (stage.remaining message))
    (hfilled : stage.Filled d message c) :
    Local busOf d (.sendEvent b message c todo failing stage) := by
  refine ⟨⟨h.nodup, h.member, hfilled⟩, fun c' hc' hlive hnot => ?_⟩
  have hb : busOf c' = b := by
    cases stage <;> simpa [holds, Stage.isLocked] using hc'
  by_cases hc : c' = c
  · subst hc
    simpa [Settled, remaining] using h.current hlive
  · simpa [Settled, remaining, hc] using h.others c' hb hlive hnot hc

omit [DecidableEq B] in
/-- The loop goes on with the next connection; if this one is in use, it has all it is to get
or it has failed. -/
theorem Sending.done {rest : Bytes} (h : Sending busOf d b message c todo failing rest)
    {failing' : List C} (hsub : ∀ c' ∉ failing', c' ∉ failing)
    (hthis : ∀ c' ∈ failing', c' ∈ failing ∨ c' = c)
    (hrest : Live busOf d c → c ∉ failing' → rest = []) :
    Local busOf d (.deliver b message todo failing') := by
  refine ⟨⟨h.nodup.tail, fun c' hc' => ?_⟩, fun c' hc' hlive hnot => ?_⟩
  · have hne : c' ≠ c := fun heq => (List.nodup_cons.mp h.nodup).1 (heq ▸ hc')
    obtain ⟨hmem, hnot⟩ := h.member c' (List.mem_cons_of_mem _ hc')
    exact ⟨hmem, fun hfail => (hthis c' hfail).elim hnot hne⟩
  · have hb : busOf c' = b := by simpa [holds] using hc'
    by_cases hc : c' = c
    · subst hc
      have hnotin : c' ∉ todo := (List.nodup_cons.mp h.nodup).1
      have heq := h.current hlive
      rw [hrest hlive hnot] at heq
      simpa [Settled, remaining, hnotin] using heq
    · exact h.others c' hb hlive (hsub c' hnot) hc

omit [DecidableEq B] in
/-- Some of the bytes are written. -/
theorem Sending.write (h : Sound busOf d) (hlive : Live busOf d c) {data rest all : Bytes}
    (hsending : Sending busOf d b message c todo failing all) (hall : all = data ++ rest) :
    Sound busOf (d.write c data) ∧
      Sending busOf (d.write c data) b message c todo failing rest := by
  subst hall
  have hcurrent := hsending.current hlive
  refine ⟨h.write hcurrent, hsending.nodup, hsending.member, fun _ => ?_,
    fun c' hb hlive' hnot hne => ?_⟩
  · show Function.update d.written c _ c ++ rest = (expected busOf d c).flatMap frame
    rw [Function.update_self, List.append_assoc]
    exact hcurrent
  · show Function.update d.written c _ c' ++ _ = (expected busOf d c').flatMap frame
    rw [Function.update_of_ne hne]
    exact hsending.others c' hb hlive' hnot hne

end

/-- What a step of one thread comes to: the data stay sound, what holds at its point holds at
the next one, and nothing is left to be written where it gives up the lock. -/
def Kept (busOf : C → B) (p : Point B C) (d' : Data B C) (p' : Point B C) : Prop :=
  Sound busOf d' ∧ Local busOf d' p' ∧ ∀ c,
    .connectionLock (busOf c) ∈ holds p ∨ wants busOf p = some (.connectionLock (busOf c)) →
      .connectionLock (busOf c) ∉ holds p' → Rest busOf d' c

section

variable {d d' : Data B C} {b : B} {message : Bytes} {c : C} {todo : List C} {p' : Point B C}
  {a : Action B C}

omit [DecidableEq B] in
/-- While the lock is kept, nothing has to be at rest. -/
theorem Kept.locked {failing : List C} {stage : Stage} (h : Sound busOf d')
    (hlocal : Local busOf d' p') (hkeeps : .connectionLock b ∈ holds p') :
    Kept busOf (.sendEvent b message c todo failing stage) d' p' := by
  refine ⟨h, hlocal, fun c' hc' hnot => ?_⟩
  obtain rfl : busOf c' = b := by
    cases stage <;> simpa [holds, wants, Stage.isLocked] using hc'
  exact absurd hkeeps hnot

theorem next_sendEvent {failing : List C} {stage : Stage} (h : Sound busOf d)
    (hlocal : Local busOf d (.sendEvent b message c todo failing stage))
    (hnext : next busOf d (.sendEvent b message c todo failing stage) a = some (p', d')) :
    Kept busOf (.sendEvent b message c todo failing stage) d' p' := by
  obtain ⟨hsending, hfilled⟩ := hlocal.sending h
  have hlive : d.activeShutdown c = false → Live busOf d c := fun hshutdown => by
    have hmem := (hsending.member c List.mem_cons_self).1
    exact ⟨(h.member b c hmem).1 ▸ hmem, hshutdown⟩
  have hfails : Local busOf d (.deliver b message todo (failing ++ [c])) :=
    hsending.done (fun c' hc' hmem => hc' (List.mem_append_left _ hmem)) (by simp)
      fun _ hc => absurd (List.mem_append_right _ (List.mem_singleton_self c)) hc
  have hsame : ∀ {rest}, (Live busOf d c → rest = []) →
      Sending busOf d b message c todo failing rest →
      Local busOf d (.deliver b message todo failing) := fun hrest hs =>
    hs.done (fun _ => id) (fun _ => .inl) fun hl _ => hrest hl
  cases stage with
  | serialize =>
      cases a <;> simp only [next, reduceCtorEq] at hnext <;> cases hnext
      · exact .locked (h.congr rfl rfl rfl rfl) (Sending.at .encodeLength
          ⟨hsending.nodup, hsending.member, hsending.current, hsending.others⟩
          (by simp [Stage.Filled])) List.mem_cons_self
      · exact .locked h hfails List.mem_cons_self
  | encodeLength =>
      have hmessage : d.messageSendBuffer c = message := hfilled
      cases a <;> simp only [next, reduceCtorEq] at hnext
      cases hnext
      exact .locked (h.congr rfl rfl rfl rfl) (Sending.at .lock
        ⟨hsending.nodup, hsending.member, hsending.current, hsending.others⟩
        (by simp [Stage.Filled, hmessage])) List.mem_cons_self
  | lock =>
      cases a <;> simp only [next, reduceCtorEq] at hnext
      cases hnext
      exact .locked h (Sending.at .locked hsending hfilled) List.mem_cons_self
  | locked =>
      cases a <;> simp only [next, reduceCtorEq] at hnext
      split_ifs at hnext with hshutdown <;> cases hnext
      · exact .locked h (hsame (fun hl => by simp [hl.2] at hshutdown) hsending) List.mem_cons_self
      · exact .locked h (Sending.at (.writeLength 0) hsending
          ⟨hfilled, by simpa using hshutdown⟩) List.mem_cons_self
  | writeLength n =>
      obtain ⟨⟨hmessage, hlength⟩, hshutdown⟩ := hfilled
      cases a with
      | transfer k =>
          simp only [next] at hnext
          cases hnext
          have hall : (Stage.writeLength n).remaining message =
              ((d.lengthSendBuffer c).drop n).take k ++
                (Stage.writeLength (n + k)).remaining message := by
            simp [Stage.remaining, hlength, ← List.drop_drop, ← List.append_assoc]
          obtain ⟨hsound, hs⟩ := hsending.write h (hlive hshutdown) hall
          exact .locked hsound (hs.at _ ⟨⟨hmessage, hlength⟩, hshutdown⟩) List.mem_cons_self
      | go =>
          simp only [next] at hnext
          split_ifs at hnext with hend
          cases hnext
          refine .locked h (Sending.at (.writeMessage 0) ?_
            ⟨⟨hmessage, hlength⟩, hshutdown⟩) List.mem_cons_self
          rw [hlength] at hend
          simpa [Stage.remaining, List.drop_eq_nil_of_le hend] using hsending
      | throws =>
          simp only [next] at hnext
          cases hnext
          exact .locked h hfails List.mem_cons_self
      | _ => simp [next] at hnext
  | writeMessage n =>
      obtain ⟨⟨hmessage, hlength⟩, hshutdown⟩ := hfilled
      cases a with
      | transfer k =>
          simp only [next] at hnext
          cases hnext
          have hall : (Stage.writeMessage n).remaining message =
              ((d.messageSendBuffer c).drop n).take k ++
                (Stage.writeMessage (n + k)).remaining message := by
            simp [Stage.remaining, hmessage, ← List.drop_drop]
          obtain ⟨hsound, hs⟩ := hsending.write h (hlive hshutdown) hall
          exact .locked hsound (hs.at _ ⟨⟨hmessage, hlength⟩, hshutdown⟩) List.mem_cons_self
      | go =>
          simp only [next] at hnext
          split_ifs at hnext with hend
          cases hnext
          rw [hmessage] at hend
          exact .locked h (hsame (fun _ => List.drop_eq_nil_of_le hend) hsending)
            List.mem_cons_self
      | throws =>
          simp only [next] at hnext
          cases hnext
          exact .locked h hfails List.mem_cons_self
      | _ => simp [next] at hnext

/-- One step of a thread. What it may rely on where it takes the lock of a bus is that the
connections of the bus are at rest. -/
theorem next_kept {p : Point B C} (h : Sound busOf d) (hlocal : Local busOf d p)
    (hrest : ∀ c, wants busOf p = some (.connectionLock (busOf c)) → Rest busOf d c)
    (hnext : next busOf d p a = some (p', d')) : Kept busOf p d' p' := by
  cases p with
  | idle =>
      cases a <;> simp only [next, reduceCtorEq] at hnext <;> cases hnext <;>
        exact ⟨h, ⟨trivial, by simp [holds]⟩, by simp [holds, wants]⟩
  | handle b origin message =>
      have hbus : ∀ c, busOf c = b → Rest busOf d c := fun c hc => hrest c (by simp [wants, hc])
      cases a <;> simp only [next, reduceCtorEq] at hnext <;> cases hnext
      · refine ⟨h.dispatch b origin message, .handle h hbus, fun c hc hnot => ?_⟩
        simp_all [holds, wants]
      · refine ⟨h, .idle d, fun c hc _ => hrest c (by simpa [holds] using hc)⟩
  | deliver b message todo failing =>
      obtain ⟨⟨hnodup, hmember⟩, hsettled⟩ := hlocal
      have hkeep : ∀ p' : Point B C, .connectionLock b ∈ holds p' → ∀ c,
          .connectionLock (busOf c) ∈ holds (.deliver b message todo failing) ∨
            wants busOf (.deliver b message todo failing) = some (.connectionLock (busOf c)) →
          .connectionLock (busOf c) ∉ holds p' → Rest busOf d c := fun p' hp' c hc hnot => by
        obtain rfl : busOf c = b := by simpa [holds, wants] using hc
        exact absurd hp' hnot
      cases todo with
      | nil =>
          cases a <;> simp only [next, reduceCtorEq] at hnext
          cases hnext
          refine ⟨h, ⟨trivial, fun c hc hl hnot => ?_⟩, hkeep _ List.mem_cons_self⟩
          simpa [Settled, remaining] using hsettled c hc hl hnot
      | cons c todo =>
          cases a <;> simp only [next, reduceCtorEq] at hnext
          cases hnext
          refine ⟨h, ⟨⟨hnodup, hmember, trivial⟩, fun c' hc' hl hnot => ?_⟩,
            hkeep _ List.mem_cons_self⟩
          have heq := hsettled c' hc' hl hnot
          by_cases hc : c' = c
          · subst hc
            simpa [Settled, remaining, Stage.remaining] using heq
          · simpa [Settled, remaining, Stage.remaining, hc] using heq
  | sendEvent b message c todo failing stage => exact next_sendEvent h hlocal hnext
  | removeFailing b failing =>
      obtain ⟨-, hsettled⟩ := hlocal
      cases failing with
      | nil =>
          cases a <;> simp only [next, reduceCtorEq] at hnext
          cases hnext
          refine ⟨h, .idle d, fun c hc _ hl => ?_⟩
          have hheld : .connectionLock (busOf c) ∈ holds (.removeFailing b ([] : List C)) := by
            simpa [holds, wants] using hc
          simpa [Settled, remaining] using hsettled c hheld hl List.not_mem_nil
      | cons c failing =>
          cases a <;> simp only [next, reduceCtorEq] at hnext
          cases hnext
          refine ⟨h.removeConnection b c, ⟨trivial, fun c' hc' hl hnot => ?_⟩,
            fun c' hc' hnot => ?_⟩
          · have hb : busOf c' = b := by simpa [holds] using hc'
            have hmem : c' ∈ d.connections b ∧ c' ≠ c := by
              simpa [Data.removeConnection, hb] using hl.1
            have hrest : c' ∉ failing := hnot
            exact hsettled c' hc' ⟨hb ▸ hmem.1, hl.2⟩ fun hin =>
              (List.mem_cons.mp hin).elim hmem.2 hrest
          · exact absurd (by simpa [holds, wants] using hc') hnot
  | addConnection c =>
      cases a <;> simp only [next, reduceCtorEq] at hnext
      split_ifs at hnext with hadded
      cases hnext
      refine ⟨h.addConnection hadded, .idle _, fun c' hc' _ hl => ?_⟩
      have hbus : busOf c = busOf c' := by simpa [holds, wants] using hc'
      show d.written c' = _
      rw [expected_addConnection c' hadded]
      by_cases hc : c' = c
      · -- nothing has been written to it, as it was to get nothing
        subst hc
        have hsent := h.sent c'
        simp only [expected, hadded, List.flatMap_nil] at hsent ⊢
        exact List.prefix_nil.mp hsent
      · have hmem : c' ∈ d.connections (busOf c') := by
          simpa [Data.addConnection, hbus, hc] using hl.1
        exact hrest c' (by simp [wants, hbus]) ⟨hmem, hl.2⟩
  | removeConnection c =>
      cases a <;> simp only [next, reduceCtorEq] at hnext
      cases hnext
      refine ⟨h.removeConnection _ c, .idle _, fun c' hc' _ hl => ?_⟩
      have hbus : busOf c = busOf c' := by simpa [holds, wants] using hc'
      have hmem : c' ∈ d.connections (busOf c') ∧ c' ≠ c := by
        simpa [Data.removeConnection, hbus] using hl.1
      exact hrest c' (by simp [wants, hbus]) ⟨hmem.1, hl.2⟩
  | shutdown c =>
      cases a <;> simp only [next, reduceCtorEq] at hnext
      cases hnext
      refine ⟨h.congr rfl rfl rfl rfl, .idle _, fun c' hc' => ?_⟩
      simp [holds, wants] at hc'

end

/-! ### Runs -/

theorem wellLocked : (system busOf).WellLocked := by
  intro d p a p' d' h
  simp only [system] at h ⊢
  unfold next at h
  split at h <;> (try split_ifs at h) <;> cases h <;> simp [holds, wants, Stage.isLocked]

/-- What holds in every state that is reached. -/
structure Orderly (busOf : C → B) (s : State B C T) : Prop where
  owned : (system busOf).Owned s
  sound : Sound busOf s.data
  threads : ∀ t, Local busOf s.data (s.pc t)
  rest : ∀ c, (∀ t, .connectionLock (busOf c) ∉ holds (s.pc t)) → Rest busOf s.data c

omit [DecidableEq B] in
/-- A thread does not notice what happens to connections of other buses, nor a shutdown of a
connection whose mutex it does not hold. -/
theorem Local.congr {d d' : Data B C} {p : Point B C} (h : Local busOf d p)
    (hsound : Sound busOf d) (hsame : ∀ b, .connectionLock b ∈ holds p → SameOn busOf d d' b)
    (hmutex : ∀ c, .mutex c ∈ holds p → d'.activeShutdown c = d.activeShutdown c)
    (hshutdown : ∀ c, d'.activeShutdown c = false → d.activeShutdown c = false) :
    Local busOf d' p := by
  refine ⟨?_, fun c hc hl hnot => ?_⟩
  · have hplaced := h.placed
    cases p with
    | deliver b message todo failing =>
        obtain ⟨hnodup, hmember⟩ := hplaced
        exact ⟨hnodup, by rwa [(hsame b List.mem_cons_self).connections]⟩
    | sendEvent b message c todo failing stage =>
        obtain ⟨hnodup, hmember, hfilled⟩ := hplaced
        have hs := hsame b List.mem_cons_self
        have hb : busOf c = b := (hsound.member b c (hmember c List.mem_cons_self).1).1
        refine ⟨hnodup, by rwa [hs.connections], ?_⟩
        cases stage <;> simp only [Stage.Filled, hs.messageSendBuffer c hb,
          hs.lengthSendBuffer c hb] at hfilled ⊢
        all_goals first
          | exact hfilled
          | exact ⟨hfilled.1, (hmutex c (by simp [holds, Stage.isLocked])).trans hfilled.2⟩
    | _ => trivial
  · have hs := hsame _ hc
    have hsettled := h.settled c hc ⟨hs.connections ▸ hl.1, hshutdown c hl.2⟩ hnot
    rw [Settled, hs.written c rfl, expected_congr hs.dispatched (hs.added c rfl)]
    exact hsettled

omit [DecidableEq T] in
theorem orderly_init : Orderly busOf (init : State B C T) where
  owned := fun _ _ => by simp [init, system, holds]
  sound := ⟨by simp [init, Data.init], by simp [init, Data.init], by simp [init, Data.init],
    by simp [init, Data.init]⟩
  threads := fun _ => .idle _
  rest := fun _ _ h => absurd h.1 List.not_mem_nil

/-- Connections are shut down with their mutex held, and remain so. -/
theorem next_activeShutdown {d d' : Data B C} {p p' : Point B C} {a : Action B C}
    (hnext : next busOf d p a = some (p', d')) (c : C) :
    (wants busOf p ≠ some (.mutex c) → d'.activeShutdown c = d.activeShutdown c) ∧
      (d'.activeShutdown c = false → d.activeShutdown c = false) := by
  by_cases hp : p = .shutdown c
  · subst hp
    cases a <;> simp only [next, reduceCtorEq] at hnext
    cases hnext
    simp [wants]
  · have hsame : d'.activeShutdown c = d.activeShutdown c := by
      unfold next at hnext
      split at hnext <;> (try split_ifs at hnext) <;> cases hnext <;> try rfl
      next c' => exact Function.update_of_ne (fun heq => hp (by rw [heq])) ..
    exact ⟨fun _ => hsame, fun h => hsame ▸ h⟩

theorem Orderly.step {s s' : State B C T} {t : T} {a : Action B C} (h : Orderly busOf s)
    (hstep : (system busOf).step s (t, a) = some s') : Orderly busOf s' := by
  have howned := h.owned.step wellLocked hstep
  obtain ⟨p', d', hnext, hfree, rfl⟩ := step_eq_some hstep
  -- what the thread takes, nobody else has
  have hothers : ∀ l t', t' ≠ t → l ∈ holds (s.pc t') →
      l ∉ holds (s.pc t) ∧ wants busOf (s.pc t) ≠ some l := by
    intro l t' hne hl
    refine ⟨fun hl' => hne (h.owned.exclusive hl hl'), fun hw => ?_⟩
    have howner : s.owner l = some t' := (h.owned l t').mpr hl
    rcases hfree l hw with hnone | hsome
    · exact absurd (howner.symm.trans hnone) (by simp)
    · exact hne (Option.some.inj (howner.symm.trans hsome))
  have hsame := fun b => next_sameOn (b := b) h.sound (h.threads t).placed hnext
  have hkept : Kept busOf (s.pc t) d' p' := by
    refine next_kept h.sound (h.threads t) (fun c hw => h.rest c fun t' hl => ?_) hnext
    by_cases ht : t' = t
    · subst ht
      cases hpc : s.pc t' <;> simp [hpc, holds, wants] at hl hw
      next stage => cases stage <;> simp at hw
    · exact (hothers _ t' ht hl).2 hw
  obtain ⟨hsound, hlocal, hrest⟩ := hkept
  refine ⟨howned, hsound, fun t' => ?_, fun c hc => ?_⟩
  · by_cases ht : t' = t
    · subst ht
      simpa using hlocal
    · simp only [Function.update_of_ne ht]
      refine (h.threads t').congr h.sound (fun b hl => ?_) (fun c hl => ?_) fun c => ?_
      · obtain ⟨hnot, hw⟩ := hothers _ t' ht hl
        exact hsame b hnot hw
      · exact (next_activeShutdown hnext c).1 (hothers _ t' ht hl).2
      · exact (next_activeShutdown hnext c).2
  · by_cases hheld : .connectionLock (busOf c) ∈ holds (s.pc t) ∨
        wants busOf (s.pc t) = some (.connectionLock (busOf c))
    · exact hrest c hheld (by simpa using hc t)
    · obtain ⟨hnot, hw⟩ := not_or.mp hheld
      have hs := hsame (busOf c) hnot hw
      have hbefore : ∀ t', .connectionLock (busOf c) ∉ holds (s.pc t') := fun t' => by
        by_cases ht : t' = t
        · rwa [ht]
        · simpa [Function.update_of_ne ht] using hc t'
      intro hl
      rw [hs.written c rfl, expected_congr hs.dispatched (hs.added c rfl)]
      exact h.rest c hbefore ⟨hs.connections ▸ hl.1, (next_activeShutdown hnext c).2 hl.2⟩

/-! ### Reading -/

/-- A reader that gets on with a part of the stream gets on in the same way with all of it. -/
theorem step_append {env : Environment} {k : ℕ} {r r' : Reader δ} (h : r.step env k = some r')
    (more : Bytes) : ({ r with stream := r.stream ++ more } : Reader δ).step env k =
      some { r' with stream := r'.stream ++ more } := by
  cases hpending : (r.bus.connection k).pending with
  | nil => simp [Reader.step, hpending] at h
  | cons read rest =>
      simp only [Reader.step, hpending] at h ⊢
      split_ifs at h with hsize
      have hmore : read.size ≤ (r.stream ++ more).length := by
        rw [List.length_append]
        omega
      rw [if_pos hmore, List.take_append_of_le_length hsize, List.drop_append_of_le_length hsize]
      split at h
      · next b hcomplete =>
          exact congrArg some (by rw [← Option.some.inj h])
      · simp at h

theorem seen_run_append (env : Environment) (k n : ℕ) (r : Reader δ) (more : Bytes) :
    ∃ m, (r.run env k n).seen =
      (({ r with stream := r.stream ++ more } : Reader δ).run env k m).seen := by
  induction n generalizing r with
  | zero => exact ⟨0, rfl⟩
  | succ n ih =>
      rw [Reader.run]
      cases hstep : r.step env k with
      | none => exact ⟨0, rfl⟩
      | some r' =>
          obtain ⟨m, hm⟩ := ih r'
          refine ⟨m + 1, ?_⟩
          simp only [Reader.run, step_append hstep]
          exact hm

/-- Part of a stream of messages is read as the first of these messages. -/
theorem seen_isPrefix_of_isPrefix {env : Environment} {b : Bus δ} {k : ℕ} {messages : List Bytes}
    {stream : Bytes} (hstream : stream <+: messages.flatMap frame)
    (hlengths : ∀ m ∈ messages, m.length < 2 ^ 32) (hpending : (b.connection k).pending = [.length])
    (husable : b.Usable k) (n : ℕ) : (Reader.run env k n ⟨b, stream, []⟩).seen <+: messages := by
  obtain ⟨more, hmore⟩ := hstream
  obtain ⟨m, hm⟩ := seen_run_append env k n ⟨b, stream, []⟩ more
  rw [hm]
  simp only [hmore]
  exact (Reader.Position.run hlengths m
    (.header b messages [] rfl hpending husable)).seen_isPrefix

/-- In every interleaving, what has been written to a connection is the start of the messages
of its bus, in the order in which these took the lock, since the connection was added and but
for those that came from it. It is all of them if the connection is in use and nobody has the
lock. The peer reads the first of these messages and nothing else, and if it deals with all of
them it reads all that is there. -/
theorem broadcast_in_order (busOf : C → B) (labels : List (T × Action B C)) (s : State B C T)
    (hrun : exec (system busOf).step init labels = some s) (c : C) :
    s.data.written c <+: (expected busOf s.data c).flatMap frame ∧
    (Live busOf s.data c → s.owner (.connectionLock (busOf c)) = none →
      s.data.written c = (expected busOf s.data c).flatMap frame) ∧
    ((∀ m ∈ expected busOf s.data c, m.length < 2 ^ 32) →
      ∀ (env : Environment) (b : Bus δ) (k : ℕ), (b.connection k).pending = [.length] →
        b.Usable k → b.alive = true →
        (∀ n, (Reader.run env k n ⟨b, s.data.written c, []⟩).seen <+: expected busOf s.data c) ∧
        (Live busOf s.data c → s.owner (.connectionLock (busOf c)) = none →
          (∀ m ∈ expected busOf s.data c, b.AcceptsMessage env m) →
          ∀ n, 2 * (expected busOf s.data c).length ≤ n →
            (Reader.run env k n ⟨b, s.data.written c, []⟩).seen = expected busOf s.data c)) := by
  have h : Orderly busOf s :=
    exec_invariant (fun _ (_, _) _ h hstep => h.step hstep) orderly_init hrun
  have hall : Live busOf s.data c → s.owner (.connectionLock (busOf c)) = none →
      s.data.written c = (expected busOf s.data c).flatMap frame := by
    intro hlive hfree
    refine h.rest c (fun t hl => ?_) hlive
    have howner := (h.owned _ t).mpr hl
    exact absurd (howner.symm.trans hfree) (by simp)
  refine ⟨h.sound.sent c, hall, fun hlengths env b k hpending husable halive => ⟨fun n => ?_, ?_⟩⟩
  · exact seen_isPrefix_of_isPrefix (h.sound.sent c) hlengths hpending husable n
  · intro hlive hfree haccepts n hn
    obtain ⟨b', hread, -⟩ :=
      Reader.run_frames hlengths hpending husable halive haccepts [] n hn
    rw [hall hlive hfree, hread]
    rfl

/-- Two threads send on a bus with two connections, of which the second one is added later; a
third thread shuts down the first one. -/
def crossing : List (ℕ × Action Unit Bool) :=
  [(0, .callAddConnection true), (0, .go), (0, .callHandle () none [7]),
    (1, .callHandle () none [8]), (1, .go), (1, .go), (1, .go), (1, .go), (1, .go), (1, .go),
    (1, .transfer 4), (1, .go),
    (1, .transfer 1), (1, .go), (1, .go), (1, .go), (2, .callAddConnection false), (2, .go),
    (2, .callShutdown true), (2, .go), (0, .go), (0, .go), (0, .go), (0, .go), (0, .go), (0, .go)]

theorem broadcast_in_order_crossing :
    ∃ s : State Unit Bool ℕ, exec (system fun _ => ()).step init crossing = some s ∧
      s.data.written true <+: [[8], [7]].flatMap frame := by
  have h : (exec (system fun _ => ()).step (init : State Unit Bool ℕ) crossing).map
      (fun s => expected (fun _ => ()) s.data true) = some [[8], [7]] := by
    decide
  obtain ⟨s, hs, hexpected⟩ := Option.map_eq_some_iff.mp h
  exact ⟨s, hs, hexpected ▸ (broadcast_in_order (δ := Bytes) _ crossing s hs true).1⟩

end Rsb.Transport.Socket.Broadcast
