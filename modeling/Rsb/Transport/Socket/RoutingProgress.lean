import Rsb.Library.Progress
import Rsb.Transport.Socket.RoutingDelivery
import Mathlib.Algebra.BigOperators.Group.List.Basic
import Mathlib.Algebra.GroupWithZero.Nat

/-!
That the socket bus comes to rest (`BusImpl.cpp`, `BusServerImpl.cpp`).

`Destination.work` counts the steps that an output leads to: the output itself, and for a
notification on a link the call of the handler at the other end with its outputs and its
return. A notification goes over two links at most, so the count is a closed expression.
-/

namespace Rsb.Transport.Socket

open Library

variable {Thread Client Sink : Type}

namespace Topology

variable (topo : Topology Client Sink)

/-- What becomes of a notification on its way to a client: the handler is called, makes its
outputs and returns. -/
def clientWork (c : Client) (p : Publication Thread Client) : ℕ :=
  2 + (topo.receivers (.client c) p.scope).length

variable [DecidableEq Client]

/-- What becomes of a notification on its way to the server. -/
def serverWork (c : Client) (p : Publication Thread Client) : ℕ :=
  2 + (topo.receivers .server p.scope).length +
    ((topo.connections.filter (· ≠ c)).map fun c' => 1 + topo.clientWork c' p).sum

def linkWork (p : Publication Thread Client) : Link Client → ℕ
  | .toServer c => topo.serverWork c p
  | .toClient c => topo.clientWork c p

/-- The steps that an output leads to. -/
def outputWork (p : Publication Thread Client) : Destination Client Sink → ℕ
  | .sink _ _ => 1
  | .link l => 1 + topo.linkWork p l

/-- The steps that a call under way leads to; its return is one of them. -/
def callWork : Option (Activation Thread Client Sink) → ℕ
  | none => 0
  | some act => 1 + (act.todo.map (topo.outputWork act.event)).sum

theorem sum_outputWork_receivers (p : Publication Thread Client) (n : Node Client) :
    ((topo.receivers n p.scope).map (topo.outputWork p)).sum =
      (topo.receivers n p.scope).length := by
  rw [receivers, List.map_map, List.length_map]
  have hone : topo.outputWork p ∘ Destination.sink n = fun _ => 1 := rfl
  rw [hone]
  simp

/-- A notification leads to the call of a handler with its outputs, and this to its return. -/
theorem linkWork_eq (p : Publication Thread Client) (l : Link Client) :
    topo.linkWork p l = 1 + topo.callWork (some ⟨p, topo.outputs (.receiver l) p⟩) := by
  cases l with
  | toClient c =>
      have hsum := topo.sum_outputWork_receivers p (.client c)
      simp only [linkWork, clientWork, callWork, outputs, hsum]
      omega
  | toServer c =>
      have hconnections : ((topo.getConnections .server).filter (· ≠ .toClient c)).map .link =
          (topo.connections.filter (· ≠ c)).map
            fun c' => (.link (.toClient c') : Destination Client Sink) := by
        simp [getConnections, List.filter_map, Function.comp_def]
      have hsum := topo.sum_outputWork_receivers p .server
      simp only [linkWork, serverWork, callWork, outputs, List.map_append, List.sum_append, hsum,
        hconnections, List.map_map]
      have houtputs : topo.outputWork p ∘ (fun c' => Destination.link (.toClient c')) =
          fun c' => 1 + topo.clientWork c' p := rfl
      rw [houtputs]
      omega

end Topology

namespace Routing

variable [DecidableEq Thread] [DecidableEq Client]

/-- Nothing is published. -/
def Label.Quiet : Label Thread Client → Prop
  | .publish _ _ _ => False
  | .receive _ | .output _ | .finish _ => True

def links (topo : Topology Client Sink) : Finset (Link Client) :=
  (topo.connections.map Link.toServer ++ topo.connections.map Link.toClient).toFinset

theorem mem_links (topo : Topology Client Sink) (l : Link Client) : l ∈ links topo := by
  cases l <;> simp [links, topo.connections_complete]

/-- Who may be executing a call: the threads that have published, and the handlers. -/
def agents (topo : Topology Client Sink) (published : List (Publication Thread Client)) :
    Finset (Agent Thread Client) :=
  (published.map fun p => .publisher p.thread).toFinset ∪ (links topo).image .receiver

/-- The steps to be taken until everything that was published is where it is to go. -/
def work (topo : Topology Client Sink) (s : State Thread Client Sink) : ℕ :=
  ∑ a ∈ agents topo s.published, topo.callWork (s.running a) +
    ∑ l ∈ links topo, ((s.wire l).map fun p => topo.linkWork p l).sum

/-- Only those who have published are executing `handle`. -/
def Accounted (topo : Topology Client Sink) (s : State Thread Client Sink) : Prop :=
  ∀ a, s.running a ≠ none → a ∈ agents topo s.published

variable {topo : Topology Client Sink} {s s' : State Thread Client Sink}

theorem mem_agents {published : List (Publication Thread Client)} {a : Agent Thread Client} :
    a ∈ agents topo published ↔
      (∃ p ∈ published, .publisher p.thread = a) ∨ ∃ l, .receiver l = a := by
  simp [agents, mem_links topo]

theorem receiver_mem_agents (l : Link Client) (published : List (Publication Thread Client)) :
    .receiver l ∈ agents topo published := mem_agents.mpr (.inr ⟨l, rfl⟩)

theorem Accounted.setRunning (h : Accounted topo s) {a : Agent Thread Client}
    (act : Option (Activation Thread Client Sink)) (ha : a ∈ agents topo s'.published)
    (hpublished : s.published ⊆ s'.published)
    (hrunning : s'.running = Function.update s.running a act) : Accounted topo s' := by
  intro b hb
  rw [hrunning, Function.update_apply] at hb
  split_ifs at hb with hba
  · exact hba ▸ ha
  · obtain ⟨p, hp, hthread⟩ | hreceiver := mem_agents.mp (h b hb)
    · exact mem_agents.mpr (.inl ⟨p, hpublished hp, hthread⟩)
    · exact mem_agents.mpr (.inr hreceiver)

variable [DecidableEq Sink]

/-- The steps that are taken while nothing is published. -/
theorem quiet_cases {l : Label Thread Client} (hl : l.Quiet)
    (hstep : Routing.step topo s l = some s') :
    (∃ k p rest, s.running (.receiver k) = none ∧ s.wire k = p :: rest ∧
      s' = (s.take k p rest).start topo (.receiver k) p) ∨
    (∃ a p d todo, s.running a = some ⟨p, d :: todo⟩ ∧
      s' = (s.emit d p).setRunning a (some ⟨p, todo⟩)) ∨
    ∃ a p, s.running a = some ⟨p, []⟩ ∧ s' = s.setRunning a none := by
  obtain ⟨-, ⟨t, n, scope, rfl, -, -⟩ | ⟨k, p, rest, -, hidle, hwire, hs'⟩ |
    ⟨a, p, d, todo, -, hrun, hs'⟩ | ⟨a, p, -, hrun, hs'⟩⟩ := step_cases hstep
  · exact hl.elim
  · exact .inl ⟨k, p, rest, hidle, hwire, hs'⟩
  · exact .inr (.inl ⟨a, p, d, todo, hrun, hs'⟩)
  · exact .inr (.inr ⟨a, p, hrun, hs'⟩)

omit [DecidableEq Sink] in
theorem Accounted.start (h : Accounted topo s) {a : Agent Thread Client}
    {p : Publication Thread Client} (ha : a ∈ agents topo s.published) :
    Accounted topo (s.start topo a p) := by
  rw [start_eq]
  split
  · exact h.setRunning _ ha (List.Subset.refl _) rfl
  · exact h

theorem Accounted.quiet (h : Accounted topo s) {l : Label Thread Client} (hl : l.Quiet)
    (hstep : Routing.step topo s l = some s') :
    Accounted topo s' ∧ s'.published = s.published := by
  obtain ⟨k, p, rest, -, -, rfl⟩ | ⟨a, p, d, todo, hrun, rfl⟩ | ⟨a, p, hrun, rfl⟩ :=
    quiet_cases hl hstep
  · have htake : Accounted topo (s.take k p rest) := h
    refine ⟨htake.start (receiver_mem_agents k _), ?_⟩
    rw [start_eq]
    split <;> rfl
  · have ha := h a (by simp [hrun])
    cases d with
    | sink n k => exact ⟨h.setRunning _ ha (List.Subset.refl _) rfl, rfl⟩
    | link k => exact ⟨h.setRunning _ ha (List.Subset.refl _) rfl, rfl⟩
  · exact ⟨h.setRunning _ (h a (by simp [hrun])) (List.Subset.refl _) rfl, rfl⟩

omit [DecidableEq Sink] in
theorem accounted_init : Accounted topo (State.init : State Thread Client Sink) :=
  fun _ ha => absurd rfl ha

/-- Whatever is done, only those who have published are executing `handle`. -/
theorem Accounted.step (h : Accounted topo s) {l : Label Thread Client}
    (hstep : Routing.step topo s l = some s') : Accounted topo s' := by
  cases l with
  | publish t n scope =>
      obtain ⟨-, rfl⟩ : s.running (.publisher t) = none ∧
          s' = (s.record ⟨s.published.length, t, n, scope⟩).start topo (.publisher t)
            ⟨s.published.length, t, n, scope⟩ := by
        simpa using (step_cases hstep).2
      have hrecord : Accounted topo (s.record ⟨s.published.length, t, n, scope⟩) := fun a ha => by
        obtain ⟨p, hp, hthread⟩ | hreceiver := mem_agents.mp (h a ha)
        · exact mem_agents.mpr (.inl ⟨p, List.mem_append_left _ hp, hthread⟩)
        · exact mem_agents.mpr (.inr hreceiver)
      refine hrecord.start (mem_agents.mpr (.inl ?_))
      exact ⟨_, List.mem_append_right _ List.mem_cons_self, rfl⟩
  | receive l => exact (h.quiet (l := .receive l) trivial hstep).1
  | output a => exact (h.quiet (l := .output a) trivial hstep).1
  | finish a => exact (h.quiet (l := .finish a) trivial hstep).1

/-- Every step but a publication does one unit of the work. -/
theorem Accounted.work_eq (h : Accounted topo s) (hc : Consistent topo s)
    {l : Label Thread Client} (hl : l.Quiet) (hstep : Routing.step topo s l = some s') :
    work topo s = work topo s' + 1 := by
  have hcalls (a : Agent Thread Client) (ha : a ∈ agents topo s.published) :=
    sum_update ha (fun _ => topo.callWork) s.running
  have hlinks (k : Link Client) := sum_update (mem_links topo k)
    (fun l ps => (ps.map fun p => topo.linkWork p l).sum) s.wire
  obtain ⟨k, p, rest, hidle, hwire, rfl⟩ | ⟨a, p, d, todo, hrun, rfl⟩ | ⟨a, p, hrun, rfl⟩ :=
    quiet_cases hl hstep
  · -- the notification is taken from the link, and its handler called
    have hcall := hcalls _ (receiver_mem_agents k _) (some ⟨p, topo.outputs (.receiver k) p⟩)
    have hlink := hlinks k rest
    rw [hidle, Topology.callWork] at hcall
    rw [hwire, List.map_cons, List.sum_cons, topo.linkWork_eq] at hlink
    rw [start_eq, if_pos (hc.fits k p (by simp [State.log, hwire]))]
    simp only [work, State.setRunning, State.take]
    omega
  · have hcall := hcalls a (h a (by simp [hrun])) (some ⟨p, todo⟩)
    simp only [hrun, Topology.callWork, List.map_cons, List.sum_cons] at hcall
    cases d with
    | sink n k =>
        rw [Topology.outputWork] at hcall
        simp only [work, State.setRunning, State.emit, Topology.callWork]
        omega
    | link k =>
        have hlink := hlinks k (s.wire k ++ [p])
        rw [Topology.outputWork] at hcall
        simp only [List.map_append, List.sum_append, List.map_cons, List.map_nil,
          List.sum_singleton] at hlink
        simp only [work, State.setRunning, State.emit, Topology.callWork]
        omega
  · have hcall := hcalls a (h a (by simp [hrun])) none
    simp only [hrun, Topology.callWork, List.map_nil, List.sum_nil] at hcall
    simp only [work, State.setRunning, Topology.callWork]
    omega

omit [DecidableEq Sink] in
theorem work_of_quiescent (h : Quiescent s) : work topo s = 0 := by
  simp [work, h.1, h.2, Topology.callWork]

/-- The bus makes progress until it is at rest. -/
theorem progress (topo : Topology Client Sink) {published : List (Publication Thread Client)}
    (hfits : ∀ p ∈ published, p.scope.SuperScopesFit) :
    Progress (Routing.step topo) Label.Quiet
      (fun s => Consistent topo s ∧ Accounted topo s ∧ s.published = published) Quiescent
      (work topo) where
  invariant s l s' hs hl hstep := by
    obtain ⟨haccounted, hpublished⟩ := hs.2.1.quiet hl hstep
    have hsame := hpublished.trans hs.2.2
    exact ⟨hs.1.step hstep (hsame ▸ hfits), haccounted, hsame⟩
  does s l s' hs hl hstep := hs.2.1.work_eq hs.1 hl hstep
  goes s hs hnot := by
    obtain ⟨l, s', hl, hstep⟩ := exists_step_of_not_quiescent topo hs.1.overrun hnot
    refine ⟨l, s', ?_, hstep⟩
    cases l with
    | publish t n scope => exact hl t n scope rfl
    | receive _ | output _ | finish _ => trivial

end Routing

end Rsb.Transport.Socket
