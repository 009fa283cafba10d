import Mathlib.Data.List.Basic
import Rsb.Library.Locks

/-!
The locks of the socket transport: `BusImpl::connectionLock`, one for each bus,
and `BusConnection::mutex`, one for each connection.

A thread is at a point of `BusImpl::handle`, `BusServerImpl::handleIncoming`,
`handleReadLength`, `handleReadBody` or of what these call. Between two points
it does what the source does there; what it reads and writes of the shared
objects, apart from the sockets, is in `Data`.

Dispatching takes the lock of the bus and then the mutex of one connection
after the other. The branch of `handleReadLength` for the end of the file takes
them the other way round: unlike the branch for other errors, it cleans up with
the mutex held.
-/

namespace Rsb.Transport.Socket.LockDiscipline

open Library Library.Program

/-- Buses `B` and their connections `C`. -/
structure Network (B C : Type) where
  busOf : C → B
  isServer : B → Bool

inductive Lock (B C : Type)
  | connectionLock (b : B)
  | mutex (c : C)
  deriving DecidableEq

/-- How an asynchronous read ends: with `error::eof`, with another error or too
few bytes, or with what it was to read. -/
inductive ReadResult
  | eof | failure | complete
  deriving DecidableEq

structure Data (B C : Type) where
  connections : B → List C
  activeShutdown : C → Bool
  disconnecting : C → Bool

/-- In the cleanup, `locked` says that the caller holds the mutex. -/
inductive Point (B C : Type)
  | idle
  /-- Before the lock of the connections, with the origin of the event. -/
  | handle (b : B) (origin : Option C)
  /-- The loop over the connections still to be sent to. -/
  | deliver (b : B) (todo failing : List C)
  /-- In `sendEvent`, before the mutex and after it. -/
  | sendEvent (b : B) (c : C) (todo failing : List C)
  | sending (b : B) (c : C) (todo failing : List C)
  /-- The loop over the connections that failed. -/
  | removeFailing (b : B) (failing : List C)
  /-- `handleReadLength` before the mutex and after it. -/
  | handleReadLength (c : C) (result : ReadResult)
  | lengthRead (c : C) (result : ReadResult)
  | shutdown (c : C)
  /-- `handleReadBody` with a parsed notification. -/
  | bodyRead (c : C)
  /-- The steps of `performSafeCleanup`. -/
  | performSafeCleanup (c : C) (locked : Bool)
  | removeConnection (c : C) (locked : Bool)
  | removing (c : C) (locked : Bool)
  | removed (c : C) (locked : Bool)
  | disconnect (c : C) (locked : Bool)
  | closing (c : C)
  /-- `addConnection` before the lock and after it. -/
  | addConnection (c : C)
  | adding (c : C)
  deriving DecidableEq

inductive Action (B C : Type)
  /-- A thread enters one of the functions. -/
  | callHandle (b : B)
  | callHandleReadLength (c : C) (result : ReadResult)
  | callHandleReadBody (c : C) (result : ReadResult)
  | callAddConnection (c : C)
  /-- The thread goes on: normally, with an exception, or with a bus that is gone. -/
  | go
  | throws
  | expired

variable {B C T : Type} [DecidableEq B] [DecidableEq C] [DecidableEq T]

/-- The connections an event is sent to. -/
def targets (d : Data B C) (b : B) (origin : Option C) : List C :=
  (d.connections b).filter fun c => some c ≠ origin

def Data.removeConnection (d : Data B C) (b : B) (c : C) : Data B C :=
  { d with
    connections := Function.update d.connections b ((d.connections b).filter fun c' => c' ≠ c) }

variable (net : Network B C)

def next (d : Data B C) : Point B C → Action B C → Option (Point B C × Data B C)
  | .idle, .callHandle b => some (.handle b none, d)
  | .idle, .callHandleReadLength c result => some (.handleReadLength c result, d)
  | .idle, .callHandleReadBody c .complete => some (.bodyRead c, d)
  | .idle, .callHandleReadBody c _ => some (.performSafeCleanup c false, d)
  | .idle, .callAddConnection c => some (.addConnection c, d)
  | .handle b origin, .go => some (.deliver b (targets d b origin) [], d)
  | .deliver b [] failing, .go => some (.removeFailing b failing, d)
  | .deliver b (c :: todo) failing, .go => some (.sendEvent b c todo failing, d)
  -- the notification is made before the mutex is taken
  | .deliver b (c :: todo) failing, .throws => some (.deliver b todo (failing ++ [c]), d)
  | .sendEvent b c todo failing, .go => some (.sending b c todo failing, d)
  | .sending b _ todo failing, .go => some (.deliver b todo failing, d)
  | .sending b c todo failing, .throws =>
      if d.activeShutdown c then none else some (.deliver b todo (failing ++ [c]), d)
  | .removeFailing _ [], .go => some (.idle, d)
  | .removeFailing b (c :: failing), .go =>
      some (.removeFailing b failing, d.removeConnection b c)
  | .handleReadLength c result, .go => some (.lengthRead c result, d)
  | .lengthRead c .eof, .go =>
      if !d.activeShutdown c then some (.shutdown c, d) else some (.performSafeCleanup c true, d)
  | .lengthRead c .failure, .go => some (.performSafeCleanup c false, d)
  | .lengthRead _ .complete, .go => some (.idle, d)
  -- what the socket throws on shutdown is caught
  | .shutdown c, .go =>
      some (.performSafeCleanup c true,
        { d with activeShutdown := Function.update d.activeShutdown c true })
  | .bodyRead c, .go =>
      if net.isServer (net.busOf c) then some (.handle (net.busOf c) (some c), d)
      else some (.idle, d)
  | .bodyRead c, .expired => some (.performSafeCleanup c false, d)
  | .performSafeCleanup c locked, .go => some (.removeConnection c locked, d)
  | .performSafeCleanup c locked, .expired => some (.removed c locked, d)
  | .removeConnection c locked, .go => some (.removing c locked, d)
  | .removing c locked, .go => some (.removed c locked, d.removeConnection (net.busOf c) c)
  | .removed c locked, .go =>
      if !d.disconnecting c then some (.disconnect c locked, d) else some (.idle, d)
  | .disconnect c _, .go =>
      some (.closing c, { d with disconnecting := Function.update d.disconnecting c true })
  | .closing _, .go => some (.idle, d)
  | .addConnection c, .go => some (.adding c, d)
  | .adding c, .go =>
      some (.idle, { d with
        connections :=
          Function.update d.connections (net.busOf c) (d.connections (net.busOf c) ++ [c]) })
  | _, _ => none

def holds : Point B C → List (Lock B C)
  | .deliver b _ _ | .sendEvent b _ _ _ | .removeFailing b _ => [.connectionLock b]
  | .sending b c _ _ => [.connectionLock b, .mutex c]
  | .lengthRead c _ | .shutdown c | .closing c => [.mutex c]
  | .performSafeCleanup c locked | .removeConnection c locked | .removed c locked
  | .disconnect c locked => if locked then [.mutex c] else []
  | .removing c locked =>
      .connectionLock (net.busOf c) :: if locked then [.mutex c] else []
  | .adding c => [.connectionLock (net.busOf c)]
  | .idle | .handle _ _ | .handleReadLength _ _ | .bodyRead _ | .addConnection _ => []

def wants : Point B C → Option (Lock B C)
  | .handle b _ | .removeFailing b (_ :: _) => some (.connectionLock b)
  | .sendEvent _ c _ _ | .handleReadLength c _ | .shutdown c | .disconnect c _ =>
      some (.mutex c)
  | .removeConnection c _ | .addConnection c => some (.connectionLock (net.busOf c))
  | _ => none

/-- The threads of processes that use the socket transport. -/
def transport : Program (Point B C) (Data B C) (Action B C) (Lock B C) :=
  ⟨next net, holds net, wants net⟩

abbrev State (B C T : Type) := Program.State (Point B C) (Data B C) (Lock B C) T

/-- All threads are outside of the transport. -/
def init (d : Data B C) : State B C T := ⟨fun _ => .idle, d, fun _ => none⟩

/-- The thread has the lock of the connection's bus and is yet to send to it. -/
def Sends (c : C) : Point B C → Prop
  | .deliver b todo _ | .sending b _ todo _ => b = net.busOf c ∧ c ∈ todo
  | .sendEvent b c' todo _ => b = net.busOf c ∧ c ∈ c' :: todo
  | _ => False

/-- The thread holds the mutex for the end of the file and has not removed the
connection from the bus. -/
def EndsFile (c : C) : Point B C → Prop
  | .lengthRead c' result => c' = c ∧ result = .eof
  | .shutdown c' => c' = c
  | .performSafeCleanup c' locked | .removeConnection c' locked => c' = c ∧ locked = true
  | _ => False

variable {net}

-- The three lemmas about `next` have one case for each of its lines.

theorem wellLocked : (transport net).WellLocked := by
  intro d p a p' d' h
  simp only [transport] at h ⊢
  unfold next at h
  split at h <;> (try split_ifs at h) <;> cases h <;> simp [holds, wants]

theorem next_sends {d d' : Data B C} {p p' : Point B C} {a : Action B C} {c : C}
    (h : next net d p a = some (p', d')) (hsends : Sends net c p') :
    Sends net c p ∨
      ∃ origin, p = .handle (net.busOf c) origin ∧ c ∈ targets d (net.busOf c) origin := by
  unfold next at h
  split at h <;> (try split_ifs at h) <;> cases h <;> grind [Sends]

theorem next_endsFile {d d' : Data B C} {p p' : Point B C} {a : Action B C} {c : C}
    (h : next net d p a = some (p', d')) (hends : EndsFile c p') :
    EndsFile c p ∨ p = .handleReadLength c .eof := by
  unfold next at h
  split at h <;> (try split_ifs at h) <;> cases h <;> simp_all [EndsFile]

variable (net) in
/-- A thread takes the mutex for the end of the file when no other one is about
to send to the connection, and the lock of the connections when no other one
handles the end of the file of a connection it will send to. -/
def Cautious (s : State B C T) : T × Action B C → Prop
  | (t, _) =>
      match s.pc t with
      | .handleReadLength c .eof => ∀ t', t' ≠ t → ¬ Sends net c (s.pc t')
      | .handle b origin => ∀ c ∈ targets s.data b origin, b = net.busOf c →
          ∀ t', t' ≠ t → ¬ EndsFile c (s.pc t')
      | _ => True

instance (c : C) : ∀ p, Decidable (Sends net c p) := by
  intro p
  cases p <;> simp only [Sends] <;> infer_instance

instance (c : C) : ∀ p : Point B C, Decidable (EndsFile c p) := by
  intro p
  cases p <;> simp only [EndsFile] <;> infer_instance

instance (s : State B C Bool) : ∀ label, Decidable (Cautious net s label) := by
  rintro ⟨t, _⟩
  unfold Cautious
  dsimp only
  split <;> infer_instance

variable (net) in
/-- No thread is about to send to a connection that another one is removing
with the mutex held. -/
def Apart (s : State B C T) : Prop :=
  ∀ t t', t' ≠ t → ∀ c, EndsFile c (s.pc t) → ¬ Sends net c (s.pc t')

theorem Apart.step {s s' : State B C T} {label : T × Action B C} (h : Apart net s)
    (hcautious : Cautious net s label) (hstep : (transport net).step s label = some s') :
    Apart net s' := by
  obtain ⟨t₀, a⟩ := label
  obtain ⟨p, d, hnext, -, rfl⟩ := step_eq_some hstep
  intro t t' hne c hends hsends
  simp only [Cautious] at hcautious
  by_cases ht : t = t₀
  · subst ht
    simp only [Function.update_self] at hends
    simp only [Function.update_of_ne hne] at hsends
    rcases next_endsFile hnext hends with hends | hpc
    · exact h t t' hne c hends hsends
    · rw [hpc] at hcautious
      exact hcautious t' hne hsends
  · simp only [Function.update_of_ne ht] at hends
    by_cases ht' : t' = t₀
    · subst ht'
      simp only [Function.update_self] at hsends
      rcases next_sends hnext hsends with hsends | ⟨origin, hpc, hc⟩
      · exact h t t' hne c hends hsends
      · rw [hpc] at hcautious
        exact hcautious c hc rfl t (Ne.symm hne) hends
    · simp only [Function.update_of_ne ht'] at hsends
      exact h t t' hne c hends hsends

omit [DecidableEq B] [DecidableEq C] in
/-- A thread that holds one of the locks and waits for another one is sending,
or it ends a file. -/
theorem waiting {p : Point B C} {l l' : Lock B C} (hholds : l ∈ holds net p)
    (hwants : wants net p = some l') (hl' : l' ∉ holds net p) :
    (∃ b c todo failing, p = .sendEvent b c todo failing ∧
      l = .connectionLock b ∧ l' = .mutex c) ∨
    ∃ c, p = .removeConnection c true ∧ l = .mutex c ∧ l' = .connectionLock (net.busOf c) := by
  cases p with
  | sendEvent b c todo failing =>
      simp only [holds, wants, List.mem_singleton, Option.some.injEq] at hholds hwants
      exact .inl ⟨b, c, todo, failing, rfl, hholds, hwants.symm⟩
  | removeConnection c locked =>
      cases locked <;> simp [holds, wants] at hholds hwants
      exact .inr ⟨c, rfl, hholds, hwants.symm⟩
  | removeFailing b failing => cases failing <;> simp_all [holds, wants]
  | disconnect c locked => cases locked <;> simp_all [holds, wants]
  | _ => simp_all [holds, wants]

omit [DecidableEq T] in
theorem Apart.not_crossed {s : State B C T} (howned : (transport net).Owned s)
    (h : Apart net s) : ¬ (transport net).Crossed s := by
  rintro ⟨t, t', ⟨hne, l', hwants, hholds'⟩, ⟨-, l, hwants', hholds⟩⟩
  have hl' : l' ∉ holds net (s.pc t) := fun hl => hne (howned.exclusive hl hholds')
  have hl : l ∉ holds net (s.pc t') := fun hl => hne (howned.exclusive hholds hl)
  have hsend : ∀ {t t' : T} {b : B} {c : C} {todo failing : List C}, t ≠ t' →
      s.pc t = .sendEvent b c todo failing → s.pc t' = .removeConnection c true →
        b = net.busOf c → False := by
    intro t t' b c todo failing hne hpc hpc' hb
    refine h t' t hne c ?_ ?_
    · simp [hpc', EndsFile]
    · simp [hpc, Sends, hb]
  rcases waiting hholds hwants hl' with ⟨b, c, todo, failing, hpc, rfl, rfl⟩ | ⟨c, hpc, rfl, rfl⟩
  · rcases waiting hholds' hwants' hl with ⟨_, _, _, _, _, hlock, _⟩ | ⟨c', hpc', hlock, hbus⟩
    · cases hlock
    · cases hlock
      cases hbus
      exact hsend hne hpc hpc' rfl
  · rcases waiting hholds' hwants' hl with ⟨b, c', _, _, hpc', hlock, hmutex⟩ | ⟨_, _, hlock, _⟩
    · cases hlock
      cases hmutex
      exact hsend (Ne.symm hne) hpc' hpc rfl
    · cases hlock

omit [DecidableEq T] in
theorem owned_init (d : Data B C) : (transport net).Owned (init d : State B C T) :=
  fun _ _ => by simp [init, transport, holds]

/-- As long as no thread takes the mutex of a connection for the end of the file
while another one is sending to it, or the other way round, no two threads wait
for each other. -/
theorem not_crossed_of_cautious (net : Network B C) (d : Data B C) (s : State B C T)
    (labels : List (T × Action B C))
    (hcautious : Along (transport net).step (Cautious net) (init d) labels)
    (hrun : exec (transport net).step (init d) labels = some s) :
    ¬ (transport net).Crossed s := by
  have hinv : (transport net).Owned s ∧ Apart net s :=
    exec_invariant_along (I := fun s => (transport net).Owned s ∧ Apart net s)
      (fun _ (_, _) _ h hcautious hstep =>
        ⟨h.1.step wellLocked hstep, h.2.step hcautious hstep⟩)
      ⟨owned_init d, fun _ _ _ _ h => by simp [init, EndsFile] at h⟩ hcautious hrun
  exact hinv.2.not_crossed hinv.1

/-- One bus with one connection. -/
def single : Network Unit Unit := ⟨fun _ => (), fun _ => true⟩

def connected : Data Unit Unit := ⟨fun _ => [()], fun _ => false, fun _ => false⟩

/-- One thread dispatches an event while another one is told of the end of the
file: each takes its first lock, then both want the other one, for ever. -/
def endOfFileRun : List (Bool × Action Unit Unit) :=
  [(false, .callHandle ()), (true, .callHandleReadLength () .eof), (false, .go), (true, .go),
    (true, .go), (true, .go), (true, .go), (false, .go)]

theorem crossed_endOfFileRun :
    ∃ s : State Unit Unit Bool,
      exec (transport single).step (init connected) endOfFileRun = some s ∧
        (transport single).Crossed s ∧
        ∀ labels s', exec (transport single).step s labels = some s' →
          (transport single).Crossed s' := by
  obtain ⟨s, hs⟩ : ∃ s : State Unit Unit Bool,
      exec (transport single).step (init connected) endOfFileRun = some s := ⟨_, rfl⟩
  have howned : (transport single).Owned s :=
    exec_invariant (fun _ (_, _) _ h hstep => h.step wellLocked hstep) (owned_init connected) hs
  have hcrossed : (transport single).Crossed s := by
    refine ⟨false, true, ⟨by decide, .mutex (), ?_, ?_⟩, ⟨by decide, .connectionLock (), ?_, ?_⟩⟩
    all_goals
      obtain rfl := Option.some.inj hs
      decide
  exact ⟨s, hs, hcrossed, fun labels s' hrun => hcrossed.exec wellLocked howned hrun⟩

/-- The connection is removed when the event has been sent to it. -/
def dispatchedRun : List (Bool × Action Unit Unit) :=
  [(false, .callHandle ()), (true, .callHandleReadLength () .eof), (false, .go), (false, .go),
    (false, .go), (false, .go), (true, .go), (true, .go), (true, .go), (true, .go)]

theorem not_crossed_dispatchedRun :
    ∃ s : State Unit Unit Bool,
      exec (transport single).step (init connected) dispatchedRun = some s ∧
        (transport single).Waits s true false ∧ ¬ (transport single).Crossed s := by
  obtain ⟨s, hs⟩ : ∃ s : State Unit Unit Bool,
      exec (transport single).step (init connected) dispatchedRun = some s := ⟨_, rfl⟩
  have hcautious : Along (transport single).step (Cautious single)
      (init connected : State Unit Unit Bool) dispatchedRun := by
    decide
  refine ⟨s, hs, ⟨by decide, .connectionLock (), ?_, ?_⟩,
    not_crossed_of_cautious single connected s _ hcautious hs⟩
  all_goals
    obtain rfl := Option.some.inj hs
    decide

end Rsb.Transport.Socket.LockDiscipline
