import Rsb.Transport.Socket.Routing
import Rsb.Library.Pipelines

/-!
Delivery on the socket bus.

Every publication reaches a destination along one path of agents: the thread
that published it, then the handlers of at most two links. The invariant
`Consistent.conserved` is the bookkeeping of a single agent and a single
destination: what the agent has put there, followed by what it still has to put
there, is what it was given and is meant to go there. Composing the agents of a
path yields `Consistent.trails_delivered`, from which exactly-once delivery and
order are read off.
-/

namespace Rsb.Transport.Socket

open Library

variable {Thread Client Sink : Type}

/-- The node from which the publications on a link may stem: towards the server
the client of the link, towards the client every other node. -/
def Link.Carries (l : Link Client) (origin : Node Client) : Prop :=
  match l with
  | .toServer c => origin = .client c
  | .toClient c => origin ≠ .client c

def Agent.Handles (a : Agent Thread Client) (p : Publication Thread Client) : Prop :=
  match a with
  | .publisher t => p.thread = t
  | .receiver l => l.Carries p.node

/-! ### The outputs of a call -/

namespace Topology

variable (topo : Topology Client Sink)

/-- The live sinks of a node under the scopes above `scope`. -/
def receivers (n : Node Client) (scope : Scope) : List (Destination Client Sink) :=
  ((WeakScopeDispatcher.ofRegistrations (topo.registrations n)).sinksAbove (topo.alive n)
    scope).map (.sink n)

/-- What a call puts out if the scopes above the one of `p` can be made. -/
def outputs [DecidableEq Client] (a : Agent Thread Client) (p : Publication Thread Client) :
    List (Destination Client Sink) :=
  match a with
  | .publisher _ => topo.receivers p.node p.scope ++ (topo.getConnections p.node).map .link
  | .receiver (.toServer c) => topo.receivers .server p.scope ++
      ((topo.getConnections .server).filter (· ≠ .toClient c)).map .link
  | .receiver (.toClient c) => topo.receivers (.client c) p.scope

theorem dispatch_eq (n : Node Client) (scope : Scope) :
    topo.dispatch n scope =
      if scope.SuperScopesFit then .ok (topo.receivers n scope) else .error .writePastEnd := by
  rw [dispatch, WeakScopeDispatcher.mapSinks_eq]
  by_cases hfit : scope.SuperScopesFit
  · rw [if_pos hfit, if_pos hfit]
    rfl
  · rw [if_neg hfit, if_neg hfit]
    rfl

theorem handleIncoming_eq (n : Node Client) (p : Publication Thread Client) :
    topo.handleIncoming n p =
      if p.scope.SuperScopesFit then .ok (topo.receivers n p.scope)
      else .error .writePastEnd := by
  rw [handleIncoming, dispatch_eq, Scope.superScopes_object_eq]
  by_cases hfit : p.scope.SuperScopesFit
  · simp only [if_pos hfit]
    rfl
  · simp only [if_neg hfit]
    rfl

theorem plan_eq [DecidableEq Client] (a : Agent Thread Client) (p : Publication Thread Client) :
    topo.plan a p =
      if p.scope.SuperScopesFit then .ok (topo.outputs a p) else .error .writePastEnd := by
  rcases a with t | (c | c)
  · rw [plan, handle, dispatch_eq, Scope.superScopes_object_eq]
    by_cases hfit : p.scope.SuperScopesFit
    · simp only [if_pos hfit]
      rfl
    · simp only [if_neg hfit]
      rfl
  · rw [plan, serverHandleIncoming, handleIncoming_eq]
    by_cases hfit : p.scope.SuperScopesFit
    · rw [if_pos hfit, if_pos hfit]
      rfl
    · rw [if_neg hfit, if_neg hfit]
      rfl
  · exact topo.handleIncoming_eq _ p

end Topology

section

variable {topo : Topology Client Sink} {n : Node Client} {d : Destination Client Sink}

theorem Topology.mem_receivers {scope : Scope} :
    d ∈ topo.receivers n scope ↔ ∃ k, d = .sink n k ∧ topo.Receives n k scope := by
  simp only [Topology.receivers, List.mem_map, WeakScopeDispatcher.mem_sinksAbove_ofRegistrations,
    Topology.Receives]
  constructor
  · rintro ⟨k, h, rfl⟩
    exact ⟨k, rfl, h⟩
  · rintro ⟨k, rfl, h⟩
    exact ⟨k, h, rfl⟩

theorem Topology.nodup_receivers (scope : Scope) : (topo.receivers n scope).Nodup :=
  (WeakScopeDispatcher.nodup_sinksAbove_ofRegistrations (topo.registrations_nodup n) _ _).map
    fun _ _ h => (Destination.sink.inj h).2

theorem Topology.mem_getConnections {l : Link Client} :
    l ∈ topo.getConnections n ↔ l.writer = n := by
  cases n <;> cases l <;>
    simp [Topology.getConnections, Link.writer, topo.connections_complete, eq_comm]

theorem Topology.nodup_getConnections : (topo.getConnections n).Nodup := by
  cases n with
  | server => exact topo.connections_nodup.map fun _ _ h => Link.toClient.inj h
  | client c => simp [Topology.getConnections]

variable {p : Publication Thread Client} {a : Agent Thread Client}

theorem nodup_sinks_append_links {sinks : List (Destination Client Sink)}
    {links : List (Link Client)} (hsinks : sinks.Nodup) (hlinks : links.Nodup)
    (h : ∀ d ∈ sinks, ∃ k, d = .sink n k) :
    (sinks ++ links.map Destination.link).Nodup := by
  refine List.nodup_append'.mpr
    ⟨hsinks, hlinks.map fun _ _ heq => Destination.link.inj heq, fun d hd hd' => ?_⟩
  obtain ⟨k, rfl⟩ := h d hd
  obtain ⟨l, -, heq⟩ := List.mem_map.mp hd'
  exact absurd heq (by simp)

variable [DecidableEq Client]

theorem Topology.mem_outputs_publisher {t : Thread} : d ∈ topo.outputs (.publisher t) p ↔
    (∃ k, d = .sink p.node k ∧ topo.Receives p.node k p.scope) ∨
      ∃ l, d = .link l ∧ l.writer = p.node := by
  simp only [Topology.outputs, List.mem_append, Topology.mem_receivers, List.mem_map,
    Topology.mem_getConnections]
  refine or_congr_right ⟨?_, ?_⟩
  · rintro ⟨l, h, rfl⟩
    exact ⟨l, rfl, h⟩
  · rintro ⟨l, rfl, h⟩
    exact ⟨l, h, rfl⟩

theorem Topology.mem_outputs_toServer {c : Client} :
    d ∈ topo.outputs (.receiver (.toServer c)) p ↔
      (∃ k, d = .sink .server k ∧ topo.Receives .server k p.scope) ∨
        ∃ b, b ≠ c ∧ d = .link (.toClient b) := by
  simp only [Topology.outputs, List.mem_append, Topology.mem_receivers, List.mem_map,
    List.mem_filter, Topology.mem_getConnections, decide_eq_true_eq]
  refine or_congr_right ⟨?_, ?_⟩
  · rintro ⟨l, ⟨hw, hne⟩, rfl⟩
    cases l with
    | toServer b => simp [Link.writer] at hw
    | toClient b => exact ⟨b, fun h => hne (h ▸ rfl), rfl⟩
  · rintro ⟨b, hne, rfl⟩
    exact ⟨.toClient b, ⟨rfl, fun h => hne (Link.toClient.inj h)⟩, rfl⟩

theorem Topology.nodup_outputs (topo : Topology Client Sink) (a : Agent Thread Client)
    (p : Publication Thread Client) : (topo.outputs a p).Nodup := by
  have hsinks : ∀ n, ∀ d ∈ topo.receivers n p.scope, ∃ k, d = .sink n k := fun n d hd =>
    (Topology.mem_receivers.mp hd).imp fun _ h => h.1
  cases a with
  | publisher t =>
      exact nodup_sinks_append_links (Topology.nodup_receivers _) Topology.nodup_getConnections
        (hsinks _)
  | receiver l =>
      cases l with
      | toServer c =>
          exact nodup_sinks_append_links (Topology.nodup_receivers _)
            (Topology.nodup_getConnections.filter _) (hsinks _)
      | toClient c => exact Topology.nodup_receivers _

/-- Agent `a` is the one that makes the outputs of node `n` for `p`. -/
def Agent.serves (a : Agent Thread Client) [DecidableEq Thread] (n : Node Client)
    (p : Publication Thread Client) : Bool :=
  match a with
  | .publisher t => p.thread = t ∧ p.node = n
  | .receiver (.toServer c) => p.node = .client c ∧ n = .server
  | .receiver (.toClient c) => p.node ≠ .client c ∧ n = .client c

variable [DecidableEq Thread]

/-- At most one agent makes the outputs of a node for a publication. -/
theorem Agent.serves_unique {b : Agent Thread Client} (ha : a.serves n p = true)
    (hb : b.serves n p = true) : a = b := by
  rcases a with t | (c | c) <;> rcases b with t' | (c' | c') <;>
    simp only [Agent.serves, decide_eq_true_eq] at ha hb <;> grind

theorem Agent.serves_of_mem_outputs (ha : a.Handles p) (hd : d ∈ topo.outputs a p) :
    a.serves d.node p = true := by
  rcases a with t | (c | c)
  · have hthread : p.thread = t := ha
    rcases Topology.mem_outputs_publisher.mp hd with ⟨k, rfl, -⟩ | ⟨l, rfl, hw⟩
    · simp [Agent.serves, Destination.node, hthread]
    · simp [Agent.serves, Destination.node, hthread, hw]
  · have hnode : p.node = .client c := ha
    rcases Topology.mem_outputs_toServer.mp hd with ⟨k, rfl, -⟩ | ⟨b, -, rfl⟩
    · simp [Agent.serves, Destination.node, hnode]
    · simp [Agent.serves, Destination.node, hnode, Link.writer]
  · have hnode : p.node ≠ .client c := ha
    obtain ⟨k, rfl, -⟩ := Topology.mem_receivers.mp hd
    simp [Agent.serves, Destination.node, hnode]

omit [DecidableEq Thread] in
/-- No call sends a publication against the direction it came from. -/
theorem Link.carries_of_mem_outputs {l : Link Client} (ha : a.Handles p)
    (hl : .link l ∈ topo.outputs a p) : l.Carries p.node := by
  rcases a with t | (c | c)
  · rcases Topology.mem_outputs_publisher.mp hl with ⟨k, heq, -⟩ | ⟨l', heq, hw⟩
    · simp at heq
    · obtain rfl := Destination.link.inj heq
      cases l <;> simp [Link.Carries, ← hw, Link.writer]
  · rcases Topology.mem_outputs_toServer.mp hl with ⟨k, heq, -⟩ | ⟨b, hne, heq⟩
    · simp at heq
    · obtain rfl := Destination.link.inj heq
      have hnode : p.node = .client c := ha
      simp [Link.Carries, hnode, Ne.symm hne]
  · obtain ⟨k, heq, -⟩ := Topology.mem_receivers.mp hl
    simp at heq

end

namespace Routing

variable [DecidableEq Thread] [DecidableEq Client] [DecidableEq Sink]

/-! ### Histories -/

/-- Everything that was ever put to a destination, in order. -/
def State.log (s : State Thread Client Sink) :
    Destination Client Sink → List (Publication Thread Client)
  | .sink n k => s.delivered (n, k)
  | .link l => s.received l ++ s.wire l

/-- Everything an agent was ever called with, in order. -/
def State.input (s : State Thread Client Sink) :
    Agent Thread Client → List (Publication Thread Client)
  | .publisher t => s.published.filter (·.thread = t)
  | .receiver l => s.received l

/-- What the call of `a` under way has yet to put to `d`. -/
def State.pending (s : State Thread Client Sink) (a : Agent Thread Client)
    (d : Destination Client Sink) : List (Publication Thread Client) :=
  match s.running a with
  | none => []
  | some act => if d ∈ act.todo then [act.event] else []

omit [DecidableEq Thread] in
theorem log_emit (s : State Thread Client Sink) (d d' : Destination Client Sink)
    (p : Publication Thread Client) :
    (s.emit d p).log d' = s.log d' ++ (if d = d' then [p] else []) := by
  rcases d with ⟨n, k⟩ | l <;> rcases d' with ⟨n', k'⟩ | l'
  · by_cases h : (n', k') = (n, k)
    · obtain ⟨rfl, rfl⟩ := Prod.mk.inj h
      simp [State.emit, State.log]
    · have hne : ¬(n = n' ∧ k = k') := fun h' => h (by rw [h'.1, h'.2])
      simp [State.emit, State.log, Function.update_of_ne h, hne]
  · simp [State.emit, State.log]
  · simp [State.emit, State.log]
  · by_cases h : l' = l
    · subst h
      simp [State.emit, State.log]
    · simp [State.emit, State.log, Function.update_of_ne h, Ne.symm h]

omit [DecidableEq Thread] in
@[simp] theorem received_emit (s : State Thread Client Sink) (d : Destination Client Sink)
    (p : Publication Thread Client) : (s.emit d p).received = s.received := by
  cases d <;> rfl

omit [DecidableEq Thread] in
@[simp] theorem published_emit (s : State Thread Client Sink) (d : Destination Client Sink)
    (p : Publication Thread Client) : (s.emit d p).published = s.published := by
  cases d <;> rfl

omit [DecidableEq Thread] in
@[simp] theorem running_emit (s : State Thread Client Sink) (d : Destination Client Sink)
    (p : Publication Thread Client) : (s.emit d p).running = s.running := by
  cases d <;> rfl

omit [DecidableEq Thread] in
@[simp] theorem overrun_emit (s : State Thread Client Sink) (d : Destination Client Sink)
    (p : Publication Thread Client) : (s.emit d p).overrun = s.overrun := by
  cases d <;> rfl

/-! ### The steps -/

omit [DecidableEq Sink] in
theorem start_eq (topo : Topology Client Sink) (s : State Thread Client Sink)
    (a : Agent Thread Client) (p : Publication Thread Client) :
    s.start topo a p = if p.scope.SuperScopesFit then s.setRunning a (some ⟨p, topo.outputs a p⟩)
      else { s with overrun := true } := by
  rw [State.start, Topology.plan_eq]
  by_cases hfit : p.scope.SuperScopesFit
  · simp only [if_pos hfit]
  · simp only [if_neg hfit]

theorem step_cases {topo : Topology Client Sink} {s s' : State Thread Client Sink}
    {l : Label Thread Client} (h : Routing.step topo s l = some s') :
    s.overrun = false ∧
      ((∃ t n scope, l = .publish t n scope ∧ s.running (.publisher t) = none ∧
        s' = (s.record ⟨s.published.length, t, n, scope⟩).start topo (.publisher t)
          ⟨s.published.length, t, n, scope⟩) ∨
      (∃ k p rest, l = .receive k ∧ s.running (.receiver k) = none ∧ s.wire k = p :: rest ∧
        s' = (s.take k p rest).start topo (.receiver k) p) ∨
      (∃ a p d todo, l = .output a ∧ s.running a = some ⟨p, d :: todo⟩ ∧
        s' = (s.emit d p).setRunning a (some ⟨p, todo⟩)) ∨
      ∃ a p, l = .finish a ∧ s.running a = some ⟨p, []⟩ ∧ s' = s.setRunning a none) := by
  cases hover : s.overrun with
  | true => cases l <;> simp [Routing.step, hover] at h
  | false =>
      refine ⟨rfl, ?_⟩
      cases l with
      | publish t n scope =>
          cases hrun : s.running (.publisher t) with
          | some act => simp [Routing.step, hover, hrun] at h
          | none =>
              simp only [Routing.step, hover, hrun, Option.some.injEq] at h
              exact .inl ⟨t, n, scope, rfl, hrun, h.symm⟩
      | receive k =>
          cases hrun : s.running (.receiver k) with
          | some act => simp [Routing.step, hover, hrun] at h
          | none =>
              cases hwire : s.wire k with
              | nil => simp [Routing.step, hover, hrun, hwire] at h
              | cons p rest =>
                  simp only [Routing.step, hover, hrun, hwire, Option.some.injEq] at h
                  exact .inr (.inl ⟨k, p, rest, rfl, hrun, hwire, h.symm⟩)
      | output a =>
          rcases hrun : s.running a with - | ⟨p, - | ⟨d, todo⟩⟩
          · simp [Routing.step, hover, hrun] at h
          · simp [Routing.step, hover, hrun] at h
          · simp only [Routing.step, hover, hrun, Option.some.injEq] at h
            exact .inr (.inr (.inl ⟨a, p, d, todo, rfl, hrun, h.symm⟩))
      | finish a =>
          rcases hrun : s.running a with - | ⟨p, - | ⟨d, todo⟩⟩
          · simp [Routing.step, hover, hrun] at h
          · simp only [Routing.step, hover, hrun, Option.some.injEq] at h
            exact .inr (.inr (.inr ⟨a, p, rfl, hrun, h.symm⟩))
          · simp [Routing.step, hover, hrun] at h

/-- Publications are not taken back. -/
theorem published_subset_step {topo : Topology Client Sink} {s s' : State Thread Client Sink}
    {l : Label Thread Client} (h : Routing.step topo s l = some s') :
    s.published ⊆ s'.published := by
  have hstart : ∀ (s : State Thread Client Sink) a p,
      (s.start topo a p).published = s.published := by
    intro s a p
    rw [start_eq]
    split <;> rfl
  obtain ⟨-, ⟨t, n, scope, -, -, rfl⟩ | ⟨k, p, rest, -, -, -, rfl⟩ | ⟨a, p, d, todo, -, -, rfl⟩ |
    ⟨a, p, -, -, rfl⟩⟩ := step_cases h
  · rw [hstart]
    exact List.subset_append_left _ _
  · rw [hstart]
    exact List.Subset.refl _
  · simp [State.setRunning]
  · exact List.Subset.refl _

/-! ### The invariant -/

structure Consistent (topo : Topology Client Sink) (s : State Thread Client Sink) : Prop where
  /-- A call under way makes outputs that its plan provides for, each once. -/
  active : ∀ a act, s.running a = some act → act.event.scope.SuperScopesFit ∧
    a.Handles act.event ∧ act.todo.Nodup ∧ ∀ d ∈ act.todo, d ∈ topo.outputs a act.event
  /-- Nothing travels against the direction it came from. -/
  carried : ∀ l, ∀ p ∈ s.log (.link l), l.Carries p.node
  /-- What is on a link can be dispatched by its reader. -/
  fits : ∀ l, ∀ p ∈ s.log (.link l), p.scope.SuperScopesFit
  overrun : s.overrun = false
  /-- Publications are numbered in order. -/
  serials : s.published.map (·.serial) = List.range s.published.length
  /-- What an agent has put to a destination, and then what it has yet to put
  there, is what it was called with and has to put there. -/
  conserved : ∀ a d, (s.log d).filter (a.serves d.node) ++ s.pending a d =
    (s.input a).filter (fun p => d ∈ topo.outputs a p)

theorem consistent_init (topo : Topology Client Sink) :
    Consistent topo (State.init : State Thread Client Sink) where
  active a act h := by simp [State.init] at h
  carried l p hp := by simp [State.init, State.log] at hp
  fits l p hp := by simp [State.init, State.log] at hp
  overrun := rfl
  serials := rfl
  conserved a d := by
    cases d <;> cases a <;> simp [State.init, State.log, State.pending, State.input]

/-- Taking up a call: the new event is the last input of the agent, and all its
outputs are pending. -/
theorem conserved_of_start {topo : Topology Client Sink} {s s' : State Thread Client Sink}
    {a : Agent Thread Client} {p : Publication Thread Client}
    (h : ∀ b d, (s.log d).filter (b.serves d.node) ++ s.pending b d =
      (s.input b).filter (fun p => d ∈ topo.outputs b p))
    (hidle : s.running a = none) (hlog : ∀ d, s'.log d = s.log d)
    (hrun : s'.running = Function.update s.running a (some ⟨p, topo.outputs a p⟩))
    (hself : s'.input a = s.input a ++ [p]) (hother : ∀ b ≠ a, s'.input b = s.input b)
    (b : Agent Thread Client) (d : Destination Client Sink) :
    (s'.log d).filter (b.serves d.node) ++ s'.pending b d =
      (s'.input b).filter (fun p => d ∈ topo.outputs b p) := by
  have hb := h b d
  by_cases hba : b = a
  · -- the agent was idle, so what it has put to `d` settles its earlier inputs
    subst hba
    have hnone : s.pending b d = [] := by simp [State.pending, hidle]
    rw [hnone, List.append_nil] at hb
    rw [hlog, hb, hself, List.filter_append]
    congr 1
    by_cases hd : d ∈ topo.outputs b p <;> simp [State.pending, hrun, hd]
  · have hsame : s'.pending b d = s.pending b d := by
      simp [State.pending, hrun, Function.update_of_ne hba]
    rw [hlog, hsame, hother b hba, hb]

theorem Consistent.publish {topo : Topology Client Sink} {s : State Thread Client Sink}
    (h : Consistent topo s) {t : Thread} {n : Node Client} {scope : Scope}
    (hidle : s.running (.publisher t) = none) (hfit : scope.SuperScopesFit) :
    let p : Publication Thread Client := ⟨s.published.length, t, n, scope⟩
    Consistent topo ((s.record p).setRunning (.publisher t)
      (some ⟨p, topo.outputs (.publisher t) p⟩)) where
  active a act hact := by
    by_cases ha : a = .publisher t
    · subst ha
      obtain rfl : _ = act := by simpa [State.setRunning] using hact
      exact ⟨hfit, rfl, topo.nodup_outputs (.publisher t) _, fun d hd => hd⟩
    · exact h.active a act
        (by simpa [State.setRunning, State.record, Function.update_of_ne ha] using hact)
  carried := h.carried
  fits := h.fits
  overrun := h.overrun
  serials := by simp [State.setRunning, State.record, h.serials, List.range_succ]
  conserved := by
    refine conserved_of_start h.conserved hidle (fun d => by cases d <;> rfl) rfl ?_ ?_
    · simp [State.input, State.setRunning, State.record]
    · rintro (t' | l) hne
      · have ht : t ≠ t' := fun heq => hne (heq ▸ rfl)
        simp [State.input, State.setRunning, State.record, ht]
      · rfl

theorem Consistent.receive {topo : Topology Client Sink} {s : State Thread Client Sink}
    (h : Consistent topo s) {l : Link Client} {p : Publication Thread Client}
    {rest : List (Publication Thread Client)} (hidle : s.running (.receiver l) = none)
    (hwire : s.wire l = p :: rest) :
    Consistent topo ((s.take l p rest).setRunning (.receiver l)
      (some ⟨p, topo.outputs (.receiver l) p⟩)) := by
  have hlog : ∀ d : Destination Client Sink,
      State.log ((s.take l p rest).setRunning (.receiver l)
        (some ⟨p, topo.outputs (.receiver l) p⟩)) d = s.log d := by
    rintro (⟨n, k⟩ | l')
    · rfl
    · by_cases hl : l' = l
      · subst hl
        simp [State.log, State.setRunning, State.take, hwire]
      · simp [State.log, State.setRunning, State.take, Function.update_of_ne hl]
  have hp : p ∈ s.log (.link l) := by simp [State.log, hwire]
  refine ⟨fun a act hact => ?_, fun l' q hq => ?_, fun l' q hq => ?_, h.overrun, h.serials, ?_⟩
  · by_cases ha : a = .receiver l
    · subst ha
      obtain rfl : _ = act := by simpa [State.setRunning] using hact
      exact ⟨h.fits l p hp, h.carried l p hp, topo.nodup_outputs _ _, fun d hd => hd⟩
    · exact h.active a act
        (by simpa [State.setRunning, State.take, Function.update_of_ne ha] using hact)
  · rw [hlog] at hq
    exact h.carried l' q hq
  · rw [hlog] at hq
    exact h.fits l' q hq
  · refine conserved_of_start h.conserved hidle hlog rfl ?_ ?_
    · simp [State.input, State.setRunning, State.take]
    · rintro (t | l') hne
      · rfl
      · have hl : l' ≠ l := fun heq => hne (heq ▸ rfl)
        simp [State.input, State.setRunning, State.take, Function.update_of_ne hl]

/-- One output: what was the head of the pending outputs is now in the log. No
other agent serves the destination for this event. -/
theorem Consistent.output {topo : Topology Client Sink} {s : State Thread Client Sink}
    (h : Consistent topo s) {a : Agent Thread Client} {p : Publication Thread Client}
    {d : Destination Client Sink} {todo : List (Destination Client Sink)}
    (hrun : s.running a = some ⟨p, d :: todo⟩) :
    Consistent topo ((s.emit d p).setRunning a (some ⟨p, todo⟩)) := by
  obtain ⟨hfit, hhandles, hnodup, hplan⟩ := h.active a _ hrun
  have hd : d ∈ topo.outputs a p := hplan d List.mem_cons_self
  have hserves := Agent.serves_of_mem_outputs hhandles hd
  have hlog : ∀ d', ((s.emit d p).setRunning a (some ⟨p, todo⟩)).log d' =
      s.log d' ++ (if d = d' then [p] else []) := fun d' => by
    rw [← log_emit]
    cases d' <;> rfl
  have hlink : ∀ l, ∀ q ∈ ((s.emit d p).setRunning a (some ⟨p, todo⟩)).log (.link l),
      q ∈ s.log (.link l) ∨ d = .link l ∧ q = p := fun l q hq => by
    rw [hlog] at hq
    rcases List.mem_append.mp hq with hq | hq
    · exact .inl hq
    · by_cases hl : d = .link l
      · exact .inr ⟨hl, by simpa [hl] using hq⟩
      · simp [hl] at hq
  refine ⟨fun b act hact => ?_, fun l q hq => ?_, fun l q hq => ?_, ?_, ?_, fun b d' => ?_⟩
  · by_cases hb : b = a
    · subst hb
      obtain rfl : _ = act := by simpa [State.setRunning] using hact
      exact ⟨hfit, hhandles, (List.nodup_cons.mp hnodup).2,
        fun d' hd' => hplan d' (List.mem_cons_of_mem d hd')⟩
    · exact h.active b act (by simpa [State.setRunning, Function.update_of_ne hb] using hact)
  · rcases hlink l q hq with hq | ⟨rfl, rfl⟩
    · exact h.carried l q hq
    · exact Link.carries_of_mem_outputs hhandles hd
  · rcases hlink l q hq with hq | ⟨-, rfl⟩
    · exact h.fits l q hq
    · exact hfit
  · exact (overrun_emit s d p).trans h.overrun
  · simpa [State.setRunning] using h.serials
  · have hinput : ((s.emit d p).setRunning a (some ⟨p, todo⟩)).input b = s.input b := by
      cases b <;> simp [State.input, State.setRunning]
    rw [hinput, ← h.conserved b d', hlog, List.filter_append, List.append_assoc]
    congr 1
    by_cases hb : b = a
    · subst hb
      by_cases hdd : d = d'
      -- the output leaves the list of pending ones and enters the log
      · subst hdd
        have hnot : d ∉ todo := (List.nodup_cons.mp hnodup).1
        simp [State.pending, State.setRunning, hrun, hserves, hnot]
      · simp [State.pending, State.setRunning, hrun, hdd, Ne.symm hdd]
    · have hother : (if d = d' then [p] else []).filter (b.serves d'.node) = [] := by
        split_ifs with hdd
        · subst hdd
          have hnot : b.serves d.node p ≠ true := fun hs => hb (Agent.serves_unique hs hserves)
          simp [hnot]
        · rfl
      simp [hother, State.pending, State.setRunning, Function.update_of_ne hb]

theorem Consistent.finish {topo : Topology Client Sink} {s : State Thread Client Sink}
    (h : Consistent topo s) {a : Agent Thread Client} {p : Publication Thread Client}
    (hrun : s.running a = some ⟨p, []⟩) : Consistent topo (s.setRunning a none) where
  active b act hact := by
    by_cases hb : b = a
    · subst hb
      simp [State.setRunning] at hact
    · exact h.active b act (by simpa [State.setRunning, Function.update_of_ne hb] using hact)
  carried := h.carried
  fits := h.fits
  overrun := h.overrun
  serials := h.serials
  conserved b d := by
    have hpending : (s.setRunning a none).pending b d = s.pending b d := by
      by_cases hb : b = a
      · subst hb
        simp [State.pending, State.setRunning, hrun]
      · simp [State.pending, State.setRunning, Function.update_of_ne hb]
    have hlog : (s.setRunning a none).log d = s.log d := by cases d <;> rfl
    have hinput : (s.setRunning a none).input b = s.input b := by cases b <;> rfl
    rw [hpending, hlog, hinput, h.conserved]

theorem Consistent.step {topo : Topology Client Sink} {s s' : State Thread Client Sink}
    {l : Label Thread Client} (h : Consistent topo s) (hstep : Routing.step topo s l = some s')
    (hfits : ∀ p ∈ s'.published, p.scope.SuperScopesFit) : Consistent topo s' := by
  obtain ⟨-, ⟨t, n, scope, -, hidle, rfl⟩ | ⟨k, p, rest, -, hidle, hwire, rfl⟩ |
    ⟨a, p, d, todo, -, hrun, rfl⟩ | ⟨a, p, -, hrun, rfl⟩⟩ := step_cases hstep
  · by_cases hfit : scope.SuperScopesFit
    · rw [start_eq, if_pos hfit]
      exact h.publish hidle hfit
    · rw [start_eq, if_neg hfit] at hfits
      exact absurd (hfits _ (List.mem_append_right _ List.mem_cons_self)) hfit
  · rw [start_eq, if_pos (h.fits k p (by simp [State.log, hwire]))]
    exact h.receive hidle hwire
  · exact h.output hrun
  · exact h.finish hrun

theorem Consistent.of_reachable {topo : Topology Client Sink} {s : State Thread Client Sink}
    (h : Reachable (Routing.step topo) State.init s)
    (hfits : ∀ p ∈ s.published, p.scope.SuperScopesFit) : Consistent topo s := by
  let I (s : State Thread Client Sink) : Prop :=
    (∀ p ∈ s.published, p.scope.SuperScopesFit) → Consistent topo s
  have hI : I s := h.invariant (fun _ => consistent_init topo) fun s l s' hs hstep hfits =>
    (hs fun p hp => hfits p (published_subset_step hstep hp)).step hstep hfits
  exact hI hfits

/-! ### Paths

`h.hop` is one stage of a path for the publications that satisfy `r`: from the
inputs of an agent to what has arrived at one of its destinations. -/

section

variable {topo : Topology Client Sink} {s : State Thread Client Sink} {t : Thread}
  {n origin : Node Client} {k : Sink} {l : Link Client} {a : Agent Thread Client}
  {r : Publication Thread Client → Bool}

omit [DecidableEq Sink] in
theorem sink_mem_outputs {p : Publication Thread Client} (h : a.serves n p = true) :
    .sink n k ∈ topo.outputs a p ↔ topo.Receives n k p.scope := by
  rcases a with t | (c | c)
  · obtain ⟨-, rfl⟩ : p.thread = t ∧ p.node = n := by simpa [Agent.serves] using h
    simp [Topology.mem_outputs_publisher]
  · obtain ⟨-, rfl⟩ : p.node = .client c ∧ n = .server := by simpa [Agent.serves] using h
    simp [Topology.mem_outputs_toServer]
  · obtain ⟨-, rfl⟩ : p.node ≠ .client c ∧ n = .client c := by simpa [Agent.serves] using h
    simp [Topology.outputs, Topology.mem_receivers]

instance (topo : Topology Client Sink) (n : Node Client) (k : Sink) (scope : Scope) :
    Decidable (topo.Receives n k scope) :=
  decidable_of_iff (.sink n k ∈ topo.receivers n scope) (by simp [Topology.mem_receivers])

theorem Consistent.hop (h : Consistent topo s) (a : Agent Thread Client)
    (d : Destination Client Sink) (hr : ∀ p, r p = true → a.serves d.node p = true) :
    Trails (Quiescent s) ((s.log d).filter r)
      ((s.input a).filter (fun p => r p && d ∈ topo.outputs a p)) := by
  refine ⟨(s.pending a d).filter r, ?_, fun hq => by simp [State.pending, hq.1 a]⟩
  have hc := congrArg (List.filter r) (h.conserved a d)
  rw [List.filter_append, List.filter_filter, List.filter_filter] at hc
  rw [← hc]
  congr 1
  apply List.filter_congr
  intro p _
  cases hp : r p with
  | false => rfl
  | true => simp [hr p hp]

/-- From a link to the agents that put publications on it. -/
theorem Consistent.hop_link (h : Consistent topo s) (a : Agent Thread Client)
    (hr : ∀ p, r p = true → a.serves l.writer p = true ∧ .link l ∈ topo.outputs a p) :
    Trails (Quiescent s) ((s.log (.link l)).filter r) ((s.input a).filter r) := by
  have hhop := h.hop a (.link l) fun p hp => (hr p hp).1
  have hall : (s.input a).filter (fun p => r p && decide (.link l ∈ topo.outputs a p)) =
      (s.input a).filter r := List.filter_congr fun p _ => by
    cases hp : r p with
    | false => rfl
    | true => simp [(hr p hp).2]
  rw [hall] at hhop
  exact hhop

omit [DecidableEq Thread] [DecidableEq Client] [DecidableEq Sink] in
theorem received_trails (s : State Thread Client Sink) (l : Link Client) :
    Trails (Quiescent s) (s.received l) (s.log (.link l)) :=
  ⟨s.wire l, rfl, fun hq => hq.2 l⟩

/-- `p` was published by thread `t` on node `origin`. -/
def Publication.isFrom (t : Thread) (origin : Node Client) (p : Publication Thread Client) :
    Bool :=
  p.thread = t ∧ p.node = origin

theorem Publication.isFrom_iff {p : Publication Thread Client} :
    isFrom t origin p = true ↔ p.thread = t ∧ p.node = origin := by
  simp [isFrom]

omit [DecidableEq Sink] in
theorem input_publisher (hr : ∀ p, r p = true → Publication.isFrom t origin p = true) :
    (s.input (.publisher t)).filter r = s.published.filter r := by
  rw [State.input, List.filter_filter]
  apply List.filter_congr
  intro p _
  cases hp : r p with
  | false => rfl
  | true => simp [(Publication.isFrom_iff.mp (hr p hp)).1]

/-- What has been put on a link, of the publications of one thread on one node,
is what the thread has published there so far, in the same order. -/
theorem Consistent.trails_link (h : Consistent topo s) (hl : l.Carries origin)
    (hr : ∀ p, r p = true → Publication.isFrom t origin p = true) :
    Trails (Quiescent s) ((s.log (.link l)).filter r) (s.published.filter r) := by
  have hpublisher : ∀ l : Link Client, l.writer = origin →
      Trails (Quiescent s) ((s.log (.link l)).filter r) (s.published.filter r) := by
    intro l hw
    rw [← input_publisher hr]
    apply h.hop_link _
    intro p hp
    obtain ⟨ht, hn⟩ := Publication.isFrom_iff.mp (hr p hp)
    refine ⟨by simp [Agent.serves, ht, hn, hw],
      Topology.mem_outputs_publisher.mpr (.inr ⟨l, rfl, ?_⟩)⟩
    rw [hw, hn]
  cases l with
  | toServer c => exact hpublisher _ hl.symm
  | toClient b =>
      cases origin with
      | server => exact hpublisher _ rfl
      | client c =>
          -- the relay through the server: link, handler of `c`, link of `c`
          have hne : b ≠ c := fun heq => hl (heq ▸ rfl)
          refine (h.hop_link (.receiver (.toServer c)) fun p hp => ?_).trans
            (((received_trails s (.toServer c)).filter r).trans (hpublisher _ rfl))
          have hn := (Publication.isFrom_iff.mp (hr p hp)).2
          exact ⟨by simp [Agent.serves, hn, Link.writer],
            Topology.mem_outputs_toServer.mpr (.inr ⟨b, hne, rfl⟩)⟩

/-- What a sink has been handed, of the publications of one thread on one node,
is what the thread has published there so far and the sink is to receive. -/
theorem Consistent.trails_delivered (h : Consistent topo s) (t : Thread)
    (origin n : Node Client) (k : Sink) :
    Trails (Quiescent s) ((s.delivered (n, k)).filter (Publication.isFrom t origin))
      (s.published.filter
        (fun p => Publication.isFrom t origin p && topo.Receives n k p.scope)) := by
  have hsink : ∀ a : Agent Thread Client,
      (∀ p, Publication.isFrom t origin p = true → a.serves n p = true) →
      Trails (Quiescent s) ((s.delivered (n, k)).filter (Publication.isFrom t origin))
        ((s.input a).filter
          (fun p => Publication.isFrom t origin p && topo.Receives n k p.scope)) := by
    intro a ha
    have hhop := h.hop a (.sink n k) ha
    have hsame : (s.input a).filter
          (fun p => Publication.isFrom t origin p && decide (.sink n k ∈ topo.outputs a p)) =
        (s.input a).filter
          (fun p => Publication.isFrom t origin p && decide (topo.Receives n k p.scope)) :=
      List.filter_congr fun p _ => by
        cases hp : Publication.isFrom t origin p with
        | false => rfl
        | true => simp [sink_mem_outputs (ha p hp)]
    rw [hsame] at hhop
    exact hhop
  have hfrom : ∀ p, (Publication.isFrom t origin p && decide (topo.Receives n k p.scope)) = true →
      Publication.isFrom t origin p = true := fun p hp => (Bool.and_eq_true_iff.mp hp).1
  by_cases hlocal : origin = n
  · rw [← input_publisher hfrom]
    apply hsink _
    intro p hp
    obtain ⟨ht, hn⟩ := Publication.isFrom_iff.mp hp
    simp [Agent.serves, ht, hn, hlocal]
  · -- the last link of the path is the one `n` reads
    obtain ⟨l, hl, hserves⟩ : ∃ l : Link Client, l.Carries origin ∧
        ∀ p : Publication Thread Client, p.node = origin →
          (Agent.receiver l : Agent Thread Client).serves n p = true := by
      cases n with
      | client b =>
          exact ⟨.toClient b, hlocal, fun p hp => by simp [Agent.serves, hp, hlocal]⟩
      | server =>
          cases origin with
          | server => exact absurd rfl hlocal
          | client c => exact ⟨.toServer c, rfl, fun p hp => by simp [Agent.serves, hp]⟩
    exact (hsink _ fun p hp => hserves p (Publication.isFrom_iff.mp hp).2).trans
      (((received_trails s l).filter _).trans (h.trails_link hl hfrom))

omit [DecidableEq Thread] [DecidableEq Client] [DecidableEq Sink] in
theorem nodup_of_serials {l : List (Publication Thread Client)}
    (h : l.map (·.serial) = List.range l.length) : l.Nodup :=
  List.Nodup.of_map (·.serial) (h ▸ List.nodup_range)

omit [DecidableEq Sink] in
theorem count_filter_isFrom (l : List (Publication Thread Client))
    (p : Publication Thread Client) :
    (l.filter (Publication.isFrom p.thread p.node)).count p = l.count p :=
  List.count_filter (by simp [Publication.isFrom])

/-- Nothing is put on a link twice. -/
theorem Consistent.count_link_le (h : Consistent topo s) (l : Link Client)
    (p : Publication Thread Client) : (s.log (.link l)).count p ≤ 1 := by
  by_cases hp : p ∈ s.log (.link l)
  · have htrails := h.trails_link (h.carried l p hp) (t := p.thread) (fun _ hq => hq)
    rw [← count_filter_isFrom]
    exact (htrails.sublist.count_le p).trans
      (List.nodup_iff_count_le_one.mp ((nodup_of_serials h.serials).filter _) p)
  · simp [List.count_eq_zero_of_not_mem hp]

/-- Only what was published for a sink is handed to it. -/
theorem Consistent.mem_delivered (h : Consistent topo s) {p : Publication Thread Client}
    (hp : p ∈ s.delivered (n, k)) : p ∈ s.published ∧ topo.Receives n k p.scope := by
  have hfrom : p ∈ (s.delivered (n, k)).filter (Publication.isFrom p.thread p.node) :=
    List.mem_filter.mpr ⟨hp, by simp [Publication.isFrom]⟩
  have hmem := (h.trails_delivered p.thread p.node n k).sublist.subset hfrom
  simp only [List.mem_filter, Bool.and_eq_true, decide_eq_true_eq] at hmem
  exact ⟨hmem.1, hmem.2.2⟩

theorem Consistent.count_delivered (h : Consistent topo s) (hq : Quiescent s)
    {p : Publication Thread Client} (hp : p ∈ s.published) (hk : topo.Receives n k p.scope) :
    (s.delivered (n, k)).count p = 1 := by
  rw [← count_filter_isFrom, (h.trails_delivered p.thread p.node n k).eq_of_rest hq,
    List.count_filter (by simp [Publication.isFrom, hk])]
  exact List.count_eq_one_of_mem (nodup_of_serials h.serials) hp

end

/-! ### The bus as a whole -/

/-- A sink is handed two publications in the order in which they were published,
if they are related by `same`. -/
def KeepsOrder (same : Publication Thread Client → Publication Thread Client → Prop)
    (topo : Topology Client Sink) (s : State Thread Client Sink) : Prop :=
  ∀ n k p q, same p q → [p, q].Sublist s.published → topo.Receives n k p.scope →
    topo.Receives n k q.scope → q ∈ s.delivered (n, k) → [p, q].Sublist (s.delivered (n, k))

theorem Consistent.keepsOrder {topo : Topology Client Sink} {s : State Thread Client Sink}
    (h : Consistent topo s) :
    KeepsOrder (fun p q => p.thread = q.thread ∧ p.node = q.node) topo s := by
  rintro n k p q ⟨hthread, hnode⟩ hpq hp hq hmem
  have htrails := h.trails_delivered q.thread q.node n k
  have hsub : [p, q].Sublist (s.published.filter
      (fun p => Publication.isFrom q.thread q.node p && topo.Receives n k p.scope)) := by
    have hkeep := hpq.filter
      (fun p => Publication.isFrom q.thread q.node p && decide (topo.Receives n k p.scope))
    simpa [Publication.isFrom, hthread, hnode, hp, hq] using hkeep
  have hmem' : q ∈ (s.delivered (n, k)).filter (Publication.isFrom q.thread q.node) :=
    List.mem_filter.mpr ⟨hmem, by simp [Publication.isFrom]⟩
  exact (htrails.ordered ((nodup_of_serials h.serials).filter _) hsub hmem').trans
    List.filter_sublist

/-- As long as a notification or a call is under way the bus can go on. -/
theorem exists_step_of_not_quiescent (topo : Topology Client Sink)
    {s : State Thread Client Sink} (hover : s.overrun = false) (h : ¬Quiescent s) :
    ∃ l s', (∀ t n scope, l ≠ .publish t n scope) ∧ Routing.step topo s l = some s' := by
  by_cases hrun : ∃ a, s.running a ≠ none
  · obtain ⟨a, ha⟩ := hrun
    obtain ⟨⟨p, todo⟩, hact⟩ := Option.ne_none_iff_exists'.mp ha
    cases todo with
    | nil => exact ⟨.finish a, _, by simp, by simp only [Routing.step, hover, hact]; rfl⟩
    | cons d todo => exact ⟨.output a, _, by simp, by simp only [Routing.step, hover, hact]; rfl⟩
  · have hidle : ∀ a, s.running a = none := fun a => not_not.mp fun ha => hrun ⟨a, ha⟩
    obtain ⟨l, hl⟩ : ∃ l, s.wire l ≠ [] := by
      by_contra hno
      exact h ⟨hidle, fun l => not_not.mp fun hl => hno ⟨l, hl⟩⟩
    obtain ⟨p, rest, hwire⟩ := List.exists_cons_of_ne_nil hl
    exact ⟨.receive l, _, by simp, by simp only [Routing.step, hover, hidle, hwire]; rfl⟩

section

/-- A server with one sink on the root scope, and one client without sinks. -/
def pairTopology : Topology Unit Unit where
  connections := [()]
  connections_nodup := by simp
  connections_complete := by simp
  registrations
    | .server => [(.root, ())]
    | .client _ => []
  registrations_nodup n := by cases n <;> simp
  alive _ _ := true

/-- One thread publishes on the client, then on the server, before the handler
of the server takes up the notification of the client. -/
def overtakingRun : List (Label Unit Unit) :=
  [.publish () (.client ()) .root, .output (.publisher ()), .finish (.publisher ()),
    .publish () .server .root, .output (.publisher ()), .output (.publisher ()),
    .finish (.publisher ()),
    .receive (.toServer ()), .output (.receiver (.toServer ())),
    .finish (.receiver (.toServer ())),
    .receive (.toClient ()), .finish (.receiver (.toClient ()))]

end

end Routing

end Rsb.Transport.Socket
