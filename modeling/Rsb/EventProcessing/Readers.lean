import Rsb.EventProcessing.PullReceivingStrategy
import Rsb.Library.Polling
import Rsb.Library.Runs
import Rsb.Transport.Socket.Connectors

/-!
Reading events (`Reader.cpp`, and the pull connectors of both transports).

Buses hand events to the connectors of a reader, which queue them, and `read` asks the
connectors in the order of their pointers. Both kinds of connectors have the same queue and the
same `raiseEvent`; the one of the socket transport first reads the payload, and throws the
exception of that at the bus.

A queue is locked by each call on it, so that these are taken one after the other. `read` locks
nothing from one connector to the next, and any number of threads may be in it.
-/

namespace Rsb.EventProcessing

open Library Polling Transport

variable {T F C δ : Type} [DecidableEq T] [LinearOrder F] [LinearOrder C]

/-- A reader that has been constructed. `bases` has the connectors of the socket transport, and
`asking` the threads that are in `read`, with the connectors that they have yet to ask. -/
structure Reader (T F C δ : Type) [LinearOrder F] [LinearOrder C] where
  strategy : PullEventReceivingStrategy F C
  bases : C → Option (Socket.ConnectorBase δ)
  queues : C → InPullConnector δ
  asking : T → Option (Bool × List C)
  log : List (Entry T C (Event δ))

namespace Reader

/-- The reader with the strategy that `createEventReceivingStrategy` makes. -/
def new (connectors : SortedSet C) (bases : C → Option (Socket.ConnectorBase δ)) :
    Reader T F C δ :=
  ⟨.new connectors, bases, fun _ => ⟨[]⟩, fun _ => none, []⟩

inductive Call (T C δ : Type)
  /-- A bus calls `handle` of an in-process connector. -/
  | handle (c : C) (now : UInt64) (event : Event δ)
  /-- A bus calls `handle` of a connector of the socket transport. -/
  | handleIncoming (c : C) (now : UInt64) (busEvent : Event Bytes)
  /-- A thread calls `read`. -/
  | read (t : T) (block : Bool)
  /-- The next step of the loop in `raiseEvent` of the strategy. -/
  | next (t : T)

/-- The connector has queued something, if it could. -/
def queue (r : Reader T F C δ) (c : C) (connector : InPullConnector δ) : Reader T F C δ :=
  { r with
    queues := Function.update r.queues c connector
    log := r.log ++ (connector.queue.drop (r.queues c).queue.length).map (.put c) }

/-- `none` while the thread waits. -/
def step (r : Reader T F C δ) : Call T C δ → Option (Reader T F C δ)
  | .handle c now event =>
      match r.bases c with
      | some _ => none
      | none => some (r.queue c ((r.queues c).handle now event))
  | .handleIncoming c now busEvent =>
      match r.bases c with
      | none => none
      | some base =>
          match (Socket.InPullConnector.mk base (r.queues c).queue).handle now busEvent with
          | .error _ => some r
          | .ok connector => some (r.queue c ⟨connector.queue⟩)
  | .read t block =>
      match r.asking t with
      | some _ => none
      | none => some { r with
          asking := Function.update r.asking t (some (block, r.strategy.connectors.keys))
          log := r.log ++ [.started t block] }
  | .next t =>
      match r.asking t with
      | none => none
      | some (block, []) => some { r with
          asking := Function.update r.asking t none
          log := r.log ++ [.nothing t block] }
      | some (block, it :: rest) =>
          ((r.queues it).raiseEvent block).map fun (event, connector) =>
            match event with
            -- no filter is applied
            | some event => { r with
                queues := Function.update r.queues it connector
                asking := Function.update r.asking t none
                log := r.log ++ [.took t block it event] }
            | none => { r with
                asking := Function.update r.asking t (some (block, rest))
                log := r.log ++ [.passed t it] }

end Reader

theorem queue_of_handle {base : Socket.ConnectorBase δ} {queue : List (Event δ)} {now : UInt64}
    {busEvent : Event Bytes} {connector : Socket.InPullConnector δ}
    (h : (Socket.InPullConnector.mk base queue).handle now busEvent = .ok connector) :
    ∃ e, base.deserialize now busEvent = .ok e ∧ connector.queue = queue ++ [e] := by
  rw [Socket.InPullConnector.handle] at h
  obtain ⟨e, he, h⟩ := bind_eq_ok_iff.mp h
  cases h
  exact ⟨e, he, rfl⟩

/-- What `read` returns with the last step of its loop. -/
def returned : Entry T C (Event δ) → Option (Option (Event δ))
  | .took _ _ _ event => some (some event)
  | .nothing _ _ => some none
  | _ => none

/-- Undisturbed by others, the steps of a call are one call of `raiseEvent` of the strategy. -/
theorem exec_next {t : T} {block : Bool} {cs : List C} {r : Reader T F C δ}
    {event : Option (Event δ)} {queues : C → InPullConnector δ}
    (ht : r.asking t = some (block, cs))
    (h : PullEventReceivingStrategy.raiseFrom block cs r.queues = some (event, queues)) :
    ∃ n r', exec Reader.step r (List.replicate n (.next t)) = some r' ∧ r'.queues = queues ∧
      r'.log.getLast?.bind returned = some event := by
  induction cs generalizing r with
  | nil =>
      cases h
      have hnext : r.step (.next t) = some { r with
          asking := Function.update r.asking t none
          log := r.log ++ [.nothing t block] } := by
        simp only [Reader.step, ht]
      exact ⟨1, _, exec_cons_eq_some.mpr ⟨_, hnext, rfl⟩, rfl, by simp [returned]⟩
  | cons it rest ih =>
      rw [PullEventReceivingStrategy.raiseFrom, InPullConnector.raiseEvent] at h
      cases hqueue : (r.queues it).queue with
      | cons e queue =>
          simp only [hqueue] at h
          cases h
          have hnext : r.step (.next t) = some { r with
              queues := Function.update r.queues it ⟨queue⟩
              asking := Function.update r.asking t none
              log := r.log ++ [.took t block it e] } := by
            simp [Reader.step, ht, InPullConnector.raiseEvent, hqueue]
          exact ⟨1, _, exec_cons_eq_some.mpr ⟨_, hnext, rfl⟩, rfl, by simp [returned]⟩
      | nil =>
          cases block with
          | true => simp [hqueue] at h
          | false =>
              have hsame : Function.update r.queues it (r.queues it) = r.queues := by simp
              simp only [hqueue, Option.bind_eq_bind, Option.bind_some, hsame, Bool.false_eq_true,
                if_false] at h
              have hnext : r.step (.next t) = some { r with
                  asking := Function.update r.asking t (some (false, rest))
                  log := r.log ++ [.passed t it] } := by
                simp [Reader.step, ht, InPullConnector.raiseEvent, hqueue]
              obtain ⟨n, r', hrun, hqueues, hlast⟩ := ih (r := { r with
                  asking := Function.update r.asking t (some (false, rest))
                  log := r.log ++ [.passed t it] }) (by simp) h
              exact ⟨n + 1, r', exec_cons_eq_some.mpr ⟨_, hnext, hrun⟩, hqueues, hlast⟩

/-! ### Runs -/

/-- A thread in `read` has passed the connectors that it need not ask any more. -/
def Asking (order : List C) (asking inCall : Option (Bool × List C)) : Prop :=
  (asking = none ∧ inCall = none) ∨
    ∃ block front rest, asking = some (block, rest) ∧ inCall = some (block, front) ∧
      order = front ++ rest ∧ (block = true → front = [])

/-- The log is that of queues which are polled in turn, and the queues are what is left. -/
structure Accounted (connectors : SortedSet C) (r : Reader T F C δ) : Prop where
  asked : r.strategy.connectors = connectors
  inTurn : InTurn connectors.keys r.log
  queues : ∀ c, (r.queues c).queue = waiting c r.log
  asking : ∀ t, Asking connectors.keys (r.asking t) (inCall t r.log)

theorem accounted_new (connectors : SortedSet C) (bases : C → Option (Socket.ConnectorBase δ)) :
    Accounted connectors (Reader.new connectors bases : Reader T F C δ) where
  asked := rfl
  inTurn := inTurn_nil _
  queues _ := rfl
  asking _ := .inl ⟨rfl, rfl⟩

variable {connectors : SortedSet C} {r r' : Reader T F C δ}

omit [LinearOrder C] in
theorem Asking.inCall_none {order : List C} {inCall : Option (Bool × List C)}
    (h : Asking order none inCall) : inCall = none := by
  rcases h with ⟨-, h⟩ | ⟨block, front, rest, h, -⟩
  · exact h
  · cases h

omit [LinearOrder C] in
theorem Asking.inCall_some {order rest : List C} {block : Bool}
    {inCall : Option (Bool × List C)} (h : Asking order (some (block, rest)) inCall) :
    ∃ front, inCall = some (block, front) ∧ order = front ++ rest ∧
      (block = true → front = []) := by
  rcases h with ⟨h, -⟩ | ⟨block', front, rest', h, hcall, horder, hblock⟩
  · cases h
  · cases h
    exact ⟨front, hcall, horder, hblock⟩

theorem Accounted.queue (h : Accounted connectors r) {c : C} {connector : InPullConnector δ}
    {event : Event δ} (hqueue : connector.queue = (r.queues c).queue ++ [event]) :
    Accounted connectors (r.queue c connector) := by
  have hlog : (r.queue c connector).log = r.log ++ [.put c event] := by
    rw [Reader.queue, hqueue, List.drop_left]
    rfl
  refine ⟨h.asked, hlog ▸ h.inTurn.append trivial, fun c' => ?_, fun t => ?_⟩
  · rw [hlog, congrFun (h.inTurn.waiting_put c event) c']
    simp only [Reader.queue, Function.update_apply, ← h.queues]
    split_ifs
    · exact hqueue
    · rfl
  · rw [hlog, inCall_append]
    exact h.asking t

/-- A step of a thread, which leaves the calls of others alone. -/
theorem Accounted.asking_update (h : Accounted connectors r) {t : T}
    {asking : Option (Bool × List C)} {x : Entry T C (Event δ)}
    (hx : ∀ t', t' ≠ t → ∀ call, x.call t' call = call)
    (hasking : Asking connectors.keys asking (x.call t (inCall t r.log))) (t' : T) :
    Asking connectors.keys (Function.update r.asking t asking t') (inCall t' (r.log ++ [x])) := by
  rw [inCall_append, Function.update_apply]
  split_ifs with ht
  · subst ht
    exact hasking
  · rw [hx t' ht]
    exact h.asking t'

theorem Accounted.read (h : Accounted connectors r) {t : T} {block : Bool}
    (hstep : r.step (.read t block) = some r') : Accounted connectors r' := by
  cases ht : r.asking t with
  | some call => simp [Reader.step, ht] at hstep
  | none =>
      simp only [Reader.step, ht, Option.some.injEq] at hstep
      subst hstep
      have hcall : inCall t r.log = none := (ht ▸ h.asking t).inCall_none
      refine ⟨h.asked, h.inTurn.append hcall, fun c => ?_, h.asking_update ?_ ?_⟩
      · rw [waiting_silent (.started t block) trivial]
        exact h.queues c
      · intro t' ht' call
        simp [Entry.call, Ne.symm ht']
      · refine .inr ⟨block, [], connectors.keys, h.asked ▸ rfl, ?_, rfl, fun _ => rfl⟩
        simp [Entry.call]

theorem Accounted.next (h : Accounted connectors r) {t : T} (hstep : r.step (.next t) = some r') :
    Accounted connectors r' := by
  have hothers : ∀ {t' : T}, t' ≠ t → t ≠ t' := Ne.symm
  cases ht : r.asking t with
  | none => simp [Reader.step, ht] at hstep
  | some call =>
      obtain ⟨block, cs⟩ := call
      obtain ⟨front, hcall, horder, hblock⟩ := (ht ▸ h.asking t).inCall_some
      cases cs with
      | nil =>
          simp only [Reader.step, ht, Option.some.injEq] at hstep
          subst hstep
          rw [List.append_nil] at horder
          refine ⟨h.asked, h.inTurn.append (horder ▸ hcall), fun c => ?_, h.asking_update ?_ ?_⟩
          · rw [waiting_silent (.nothing t block) trivial]
            exact h.queues c
          · intro t' ht' call
            simp [Entry.call, hothers ht']
          · exact .inl ⟨rfl, by simp [Entry.call]⟩
      | cons it rest =>
          simp only [Reader.step, ht, InPullConnector.raiseEvent] at hstep
          cases hqueue : (r.queues it).queue with
          | nil =>
              cases block with
              | true => simp [hqueue] at hstep
              | false =>
                  simp only [hqueue, Bool.false_eq_true, if_false, Option.map_some,
                    Option.some.injEq] at hstep
                  subst hstep
                  have hempty : waiting it r.log = [] := (h.queues it).symm.trans hqueue
                  refine ⟨h.asked, h.inTurn.append ⟨hempty, front, rest, hcall, horder⟩,
                    fun c => ?_, h.asking_update ?_ ?_⟩
                  · rw [waiting_silent (.passed t it) trivial]
                    exact h.queues c
                  · intro t' ht' call
                    simp [Entry.call, hothers ht']
                  · refine .inr ⟨false, front ++ [it], rest, rfl, ?_, ?_, by simp⟩
                    · simp [Entry.call, hcall]
                    · rw [horder, List.append_assoc]
                      rfl
          | cons e queue =>
              simp only [hqueue, Option.map_some, Option.some.injEq] at hstep
              subst hstep
              have hhead : waiting it r.log = e :: queue := (h.queues it).symm.trans hqueue
              refine ⟨h.asked, h.inTurn.append ⟨hhead ▸ rfl, front, rest, hcall, horder⟩,
                fun c => ?_, h.asking_update ?_ ?_⟩
              · simp only [congrFun (waiting_took t block it e) c, Function.update_apply,
                  ← h.queues, hqueue]
                split_ifs <;> rfl
              · intro t' ht' call
                simp [Entry.call, hothers ht']
              · exact .inl ⟨rfl, by simp [Entry.call]⟩

theorem Accounted.step (h : Accounted connectors r) {call : Reader.Call T C δ}
    (hstep : r.step call = some r') : Accounted connectors r' := by
  cases call with
  | handle c now event =>
      rw [Reader.step] at hstep
      split at hstep
      · cases hstep
      · obtain rfl := Option.some.inj hstep
        exact h.queue rfl
  | handleIncoming c now busEvent =>
      rw [Reader.step] at hstep
      split at hstep
      · cases hstep
      · split at hstep
        · obtain rfl := Option.some.inj hstep
          exact h
        · rename_i connector hhandle
          obtain rfl := Option.some.inj hstep
          obtain ⟨e, -, hqueue⟩ := queue_of_handle hhandle
          exact h.queue hqueue
  | read t block => exact h.read hstep
  | next t => exact h.next hstep

theorem next_eq_none {t : T} {block : Bool} {cs : List C} (ht : r.asking t = some (block, cs)) :
    r.step (.next t) = none ↔
      block = true ∧ ∃ c, cs.head? = some c ∧ (r.queues c).queue = [] := by
  cases cs with
  | nil => simp [Reader.step, ht]
  | cons it rest =>
      cases hqueue : (r.queues it).queue <;> cases block <;>
        simp [Reader.step, ht, InPullConnector.raiseEvent, hqueue]

/-- For any threads that read at the same time: each connector's events are taken in the order in
which they were queued, each by one call, and what is not taken is still queued. A call goes
through the connectors in their order, past those that it finds empty, takes the first event of
the next one, and returns none only after it has found each of them empty. A thread in `read`
waits only for the first connector, and only if the call blocks. -/
theorem reads_in_turn (connectors : SortedSet C) (bases : C → Option (Socket.ConnectorBase δ))
    {calls : List (Reader.Call T C δ)}
    (hrun : exec Reader.step (Reader.new connectors bases : Reader T F C δ) calls = some r) :
    InTurn connectors.keys r.log ∧ (∀ c, (r.queues c).queue = waiting c r.log) ∧
      ∀ t, (inCall t r.log).isSome → (r.step (.next t) = none ↔
        ∃ c, inCall t r.log = some (true, []) ∧ connectors.first? = some c ∧
          waiting c r.log = []) := by
  have h : Accounted connectors r := exec_invariant (I := Accounted connectors)
    (fun _ _ _ h hstep => h.step hstep) (accounted_new connectors bases) hrun
  refine ⟨h.inTurn, h.queues, fun t ht => ?_⟩
  rcases h.asking t with ⟨-, hcall⟩ | ⟨block, front, rest, hasking, hcall, horder, hblock⟩
  · simp [hcall] at ht
  · rw [next_eq_none hasking, hcall, SortedSet.first?, horder]
    simp only [h.queues, Option.some.injEq, Prod.mk.injEq]
    constructor
    · rintro ⟨rfl, c, hc, hempty⟩
      obtain rfl := hblock rfl
      exact ⟨c, ⟨rfl, rfl⟩, hc, hempty⟩
    · rintro ⟨c, ⟨rfl, rfl⟩, hc, hempty⟩
      exact ⟨rfl, c, hc, hempty⟩

/-- The connector 1 belongs to the socket transport. -/
def sampleBases : ℕ → Option (Socket.ConnectorBase Bytes)
  | 1 => some ⟨.unambiguousMap (SortedMap.empty.insert utf8String stringConverter) [], true⟩
  | _ => none

def sampleBusEvent (wireSchema : Bytes) : Event Bytes :=
  ((Event.new 1 : Event Bytes).setData (some (bytes "hi"))).modifyMetaData
    (·.setUserInfo Socket.wireSchemaKey wireSchema)

/-- The second thread takes the event of the connector 1 after the first one has found the
connector 0 empty. -/
def sampleReads : List (Reader.Call ℕ ℕ Bytes) :=
  [.handleIncoming 1 5 (sampleBusEvent utf8String), .read 0 false, .next 0, .handle 0 6 (.new 2),
    .handleIncoming 1 7 (sampleBusEvent (bytes "unknown")), .read 1 true, .next 1, .read 1 false,
    .next 1, .next 1, .next 0, .next 0]

theorem reads_in_turn_both :
    ∃ r, exec Reader.step (Reader.new (SortedSet.ofElems [0, 1]) sampleBases :
        Reader ℕ ℕ ℕ Bytes) sampleReads = some r ∧ r.log.length = 11 ∧
      InTurn [0, 1] r.log :=
  ⟨_, rfl, rfl, (@reads_in_turn ℕ ℕ ℕ Bytes _ _ _ _ (SortedSet.ofElems [0, 1]) sampleBases
    sampleReads rfl).1⟩

end Rsb.EventProcessing
