import Rsb.Library.Runs
import Rsb.Transport.Socket.Framing

/-!
Connecting to a bus server (`BusServerImpl::handleAccept`, the constructor of
`BusConnection`, `Factory::getBusClientFor`).

The constructor on the server writes four bytes, the one on the client returns
after reading four bytes. The accept handler adds its connection to the bus in a
step of its own after the constructor, and sends what is dispatched meanwhile to
the other connections only. One accept is outstanding at a time. A dispatch
holds the lock of the connection list throughout, so it is one step.
-/

namespace Rsb.Transport.Socket.Handshake

open Library

variable {Client : Type}

/-- Where the constructor of a client's connection stands. -/
inductive Phase
  | absent | reading | returned
  deriving DecidableEq

/-- Where the server stands in `handleAccept`. -/
inductive Acceptor (Client : Type)
  | armed
  | accepted (c : Client)
  | constructed (c : Client)
  | added (c : Client)
  | stopped
  deriving DecidableEq

/-- The client whose connection the handler has yet to add. -/
def Acceptor.inHand : Acceptor Client → List Client
  | .accepted c | .constructed c => [c]
  | _ => []

/-- `backlog` holds established connections that wait to be accepted, `wire`
what the server has written to a client and the client has not read yet. -/
structure State (Client : Type) where
  acceptor : Acceptor Client
  shutdown : Bool
  backlog : List Client
  phase : Client → Phase
  connections : List Client
  receiving : Client → Bool
  wire : Client → Bytes

/-- An active server without clients. -/
def State.init : State Client :=
  ⟨.armed, false, [], fun _ => .absent, [], fun _ => false, fun _ => []⟩

inductive Label (Client : Type)
  /-- The socket of a client is connected, its constructor starts to read. -/
  | connect (c : Client)
  /-- `handleAccept` is invoked with a connection, or with an error. -/
  | accept
  | acceptFails
  /-- The steps of `handleAccept`. -/
  | construct
  | addConnection
  | startReceiving
  /-- The beginning of `deactivate`. -/
  | deactivate
  /-- The constructor of a client reads the handshake and returns. -/
  | read (c : Client)
  /-- The server sends an event to its connections, except to its origin. -/
  | dispatch (origin : Option Client) (message : Bytes)

/-- `lengthSendBuffer` after `resize(4)`. -/
def handshake : Bytes := List.replicate 4 0

/-- The end of `handleAccept`: accept again, or signal that shutdown is done. -/
def State.continueAccepting (s : State Client) : State Client :=
  if !s.shutdown then { s with acceptor := .armed }
  else { s with acceptor := .stopped, shutdown := false }

theorem connections_continueAccepting (s : State Client) :
    s.continueAccepting.connections = s.connections := by
  rw [State.continueAccepting]
  split <;> rfl

theorem phase_continueAccepting (s : State Client) : s.continueAccepting.phase = s.phase := by
  rw [State.continueAccepting]
  split <;> rfl

variable [DecidableEq Client]

def step (s : State Client) : Label Client → Option (State Client)
  | .connect c =>
      if s.phase c = .absent then
        some { s with backlog := s.backlog ++ [c], phase := Function.update s.phase c .reading }
      else none
  | .accept =>
      match s.acceptor, s.backlog with
      | .armed, c :: rest => some { s with acceptor := .accepted c, backlog := rest }
      | _, _ => none
  | .acceptFails =>
      match s.acceptor with
      | .armed => some s.continueAccepting
      | _ => none
  | .construct =>
      match s.acceptor with
      -- the handshake is on its way before the connection is in the list
      | .accepted c => some { s with
          acceptor := .constructed c
          wire := Function.update s.wire c (s.wire c ++ handshake) }
      | _ => none
  | .addConnection =>
      match s.acceptor with
      | .constructed c => some { s with
          acceptor := .added c
          connections := s.connections ++ [c] }
      | _ => none
  | .startReceiving =>
      match s.acceptor with
      | .added c => some { s with receiving := Function.update s.receiving c true }.continueAccepting
      | _ => none
  | .deactivate => some { s with shutdown := true }
  | .read c =>
      if s.phase c = .reading ∧ 4 ≤ (s.wire c).length then
        some { s with
          phase := Function.update s.phase c .returned
          wire := Function.update s.wire c ((s.wire c).drop 4) }
      else none
  | .dispatch origin message =>
      if ∀ c ∈ origin, s.receiving c = true then
        some { s with wire := fun c =>
          if c ∈ s.connections ∧ origin ≠ some c then s.wire c ++ frame message else s.wire c }
      else none

/-- No client is served before it is in the list, unless the handler is just
about to add it. -/
structure Consistent (s : State Client) : Prop where
  written : ∀ c, s.wire c ≠ [] → c ∈ s.connections ∨ s.acceptor = .constructed c
  nodup : (s.connections ++ s.acceptor.inHand ++ s.backlog).Nodup
  present : ∀ c ∈ s.connections ++ s.acceptor.inHand ++ s.backlog, s.phase c ≠ .absent

omit [DecidableEq Client] in
theorem consistent_init : Consistent (State.init : State Client) :=
  ⟨fun c h => absurd rfl h, by simp [State.init, Acceptor.inHand],
    by simp [State.init, Acceptor.inHand]⟩

omit [DecidableEq Client] in
/-- The handler returns: the list and the backlog stay, nothing is in hand. -/
theorem Consistent.continueAccepting {s : State Client} (h : Consistent s)
    (hacceptor : ∀ c, s.acceptor ≠ .constructed c) : Consistent s.continueAccepting := by
  have hwritten : ∀ c, s.wire c ≠ [] → c ∈ s.connections := fun c hc =>
    (h.written c hc).resolve_right (hacceptor c)
  have hsub : (s.connections ++ [] ++ s.backlog).Sublist
      (s.connections ++ s.acceptor.inHand ++ s.backlog) :=
    ((List.Sublist.refl _).append (List.nil_sublist _)).append (.refl _)
  rw [State.continueAccepting]
  split
  all_goals
    exact ⟨fun c hc => .inl (hwritten c hc), h.nodup.sublist hsub,
      fun c hc => h.present c (hsub.subset hc)⟩

theorem Consistent.step {s s' : State Client} {l : Label Client} (h : Consistent s)
    (hstep : Handshake.step s l = some s') : Consistent s' := by
  obtain ⟨hwritten, hnodup, hpresent⟩ := h
  cases l with
  | connect c =>
      simp only [Handshake.step] at hstep
      split_ifs at hstep with habsent
      obtain rfl := Option.some.inj hstep
      have hnew : c ∉ s.connections ++ s.acceptor.inHand ++ s.backlog := fun hc =>
        hpresent c hc habsent
      refine ⟨hwritten, ?_, fun c' hc' => ?_⟩
      · rw [← List.append_assoc]
        exact List.nodup_append'.mpr ⟨hnodup, List.nodup_singleton c, by simpa using hnew⟩
      · by_cases heq : c' = c
        · simp [heq]
        · simp only [Function.update_of_ne heq]
          apply hpresent c'
          simpa [heq] using hc'
  | accept =>
      simp only [Handshake.step] at hstep
      split at hstep
      · next c rest hacceptor hbacklog =>
          obtain rfl := Option.some.inj hstep
          simp only [hacceptor, hbacklog, Acceptor.inHand] at hwritten hnodup hpresent
          refine ⟨fun c' hc' => .inl ((hwritten c' hc').resolve_right (by simp)), ?_, ?_⟩
          · simpa [Acceptor.inHand] using hnodup
          · simpa [Acceptor.inHand] using hpresent
      · simp at hstep
  | acceptFails =>
      simp only [Handshake.step] at hstep
      split at hstep
      · next hacceptor =>
          obtain rfl := Option.some.inj hstep
          exact Consistent.continueAccepting ⟨hwritten, hnodup, hpresent⟩ (by simp [hacceptor])
      · simp at hstep
  | construct =>
      simp only [Handshake.step] at hstep
      split at hstep
      · next c hacceptor =>
          obtain rfl := Option.some.inj hstep
          simp only [hacceptor, Acceptor.inHand] at hwritten hnodup hpresent
          refine ⟨fun c' hc' => ?_, by simpa [Acceptor.inHand] using hnodup,
            by simpa [Acceptor.inHand] using hpresent⟩
          by_cases heq : c' = c
          · exact .inr (by rw [heq])
          · simp only [Function.update_of_ne heq] at hc'
            exact .inl ((hwritten c' hc').resolve_right (by simp))
      · simp at hstep
  | addConnection =>
      simp only [Handshake.step] at hstep
      split at hstep
      · next c hacceptor =>
          obtain rfl := Option.some.inj hstep
          simp only [hacceptor, Acceptor.inHand] at hwritten hnodup hpresent
          refine ⟨fun c' hc' => .inl ?_, by simpa [Acceptor.inHand] using hnodup,
            by simpa [Acceptor.inHand] using hpresent⟩
          rcases hwritten c' hc' with hmem | heq
          · exact List.mem_append_left _ hmem
          · obtain rfl : c = c' := by simpa using heq
            exact List.mem_append_right _ List.mem_cons_self
      · simp at hstep
  | startReceiving =>
      simp only [Handshake.step] at hstep
      split at hstep
      · next c hacceptor =>
          obtain rfl := Option.some.inj hstep
          exact Consistent.continueAccepting ⟨hwritten, hnodup, hpresent⟩ (by simp [hacceptor])
      · simp at hstep
  | deactivate =>
      obtain rfl := Option.some.inj hstep
      exact ⟨hwritten, hnodup, hpresent⟩
  | read c =>
      simp only [Handshake.step] at hstep
      split_ifs at hstep with hread
      obtain rfl := Option.some.inj hstep
      -- what `c` reads was written, so the server knows of it
      have hne : s.wire c ≠ [] := fun hnil => by simp [hnil] at hread
      refine ⟨fun c' hc' => ?_, hnodup, fun c' hc' => ?_⟩
      · by_cases heq : c' = c
        · exact heq ▸ hwritten c hne
        · exact hwritten c' (by simpa [Function.update_of_ne heq] using hc')
      · by_cases heq : c' = c
        · simp [heq]
        · simpa [Function.update_of_ne heq] using hpresent c' hc'
  | dispatch origin message =>
      simp only [Handshake.step] at hstep
      split_ifs at hstep
      obtain rfl := Option.some.inj hstep
      refine ⟨fun c hc => ?_, hnodup, hpresent⟩
      by_cases hmem : c ∈ s.connections
      · exact .inl hmem
      · exact hwritten c (by simpa [hmem] using hc)

/-- Every constructor that has returned has its peer in the list. -/
def Complete (s : State Client) : Prop := ∀ c, s.phase c = .returned → c ∈ s.connections

/-- The handshake is not read while the server is about to add the connection. -/
def Timely (s : State Client) : Label Client → Prop
  | .read c => s.acceptor ≠ .constructed c
  | _ => True

/-- Connections stay in the list, and a constructor returns only by reading. -/
theorem step_effect {s s' : State Client} {l : Label Client}
    (hstep : Handshake.step s l = some s') :
    s.connections ⊆ s'.connections ∧ ∀ c, s'.phase c = .returned →
      s.phase c = .returned ∨ l = .read c ∧ s.wire c ≠ [] := by
  cases l with
  | connect c =>
      simp only [Handshake.step] at hstep
      split_ifs at hstep
      obtain rfl := Option.some.inj hstep
      refine ⟨List.Subset.refl _, fun c' hc' => .inl ?_⟩
      by_cases heq : c' = c
      · simp [heq] at hc'
      · simpa [Function.update_of_ne heq] using hc'
  | read c =>
      simp only [Handshake.step] at hstep
      split_ifs at hstep with hread
      obtain rfl := Option.some.inj hstep
      refine ⟨List.Subset.refl _, fun c' hc' => ?_⟩
      by_cases heq : c' = c
      · subst heq
        exact .inr ⟨rfl, fun hnil => by simp [hnil] at hread⟩
      · exact .inl (by simpa [Function.update_of_ne heq] using hc')
  | addConnection =>
      simp only [Handshake.step] at hstep
      split at hstep
      · obtain rfl := Option.some.inj hstep
        exact ⟨List.subset_append_left _ _, fun _ => .inl⟩
      · simp at hstep
  | accept | acceptFails | construct | startReceiving | deactivate | dispatch _ _ =>
      simp only [Handshake.step] at hstep
      (try split at hstep) <;>
      first
      | (obtain rfl := Option.some.inj hstep
         simp [connections_continueAccepting, phase_continueAccepting])
      | simp at hstep

theorem Complete.step {s s' : State Client} {l : Label Client} (hs : Consistent s)
    (h : Complete s) (htimely : Timely s l) (hstep : Handshake.step s l = some s') :
    Complete s' := by
  obtain ⟨hsub, hphase⟩ := step_effect hstep
  intro c hc
  rcases hphase c hc with hold | ⟨rfl, hwire⟩
  · exact hsub (h c hold)
  · exact hsub ((hs.written c hwire).resolve_right htimely)

/-- The moment a constructor returns, its peer is in the list, unless the
server has written the handshake and not yet added the connection. As long as
no constructor returns at such a moment, every client whose constructor has
returned is in the list, and every event dispatched then is sent to it. -/
theorem handshake_complete_iff :
    (∀ (s s' : State Client) (c : Client), Reachable Handshake.step State.init s →
      Handshake.step s (.read c) = some s' →
        (c ∈ s'.connections ↔ s.acceptor ≠ .constructed c)) ∧
    ∀ (s : State Client) (labels : List (Label Client)),
      Along Handshake.step Timely State.init labels →
        exec Handshake.step State.init labels = some s →
          (∀ c, s.phase c = .returned → c ∈ s.connections) ∧
          ∀ origin message s', Handshake.step s (.dispatch origin message) = some s' →
            ∀ c, s.phase c = .returned → origin ≠ some c →
              s'.wire c = s.wire c ++ frame message := by
  constructor
  · intro s s' c hreach hstep
    have hs : Consistent s := hreach.invariant consistent_init fun _ _ _ h => h.step
    simp only [Handshake.step] at hstep
    split_ifs at hstep with hread
    obtain rfl := Option.some.inj hstep
    have hne : s.wire c ≠ [] := fun hnil => by simp [hnil] at hread
    refine ⟨fun hmem heq => ?_, fun hacceptor => (hs.written c hne).resolve_right hacceptor⟩
    have hnodup := hs.nodup
    rw [heq, List.append_assoc] at hnodup
    exact (List.nodup_append'.mp hnodup).2.2 hmem (by simp [Acceptor.inHand])
  · intro s labels halong hrun
    obtain ⟨-, hcomplete⟩ : Consistent s ∧ Complete s :=
      exec_invariant_along (I := fun s => Consistent s ∧ Complete s)
        (fun _ _ _ h htimely hstep => ⟨h.1.step hstep, h.2.step h.1 htimely hstep⟩)
        ⟨consistent_init, fun c hc => absurd hc (by simp [State.init])⟩ halong hrun
    refine ⟨hcomplete, fun origin message s' hstep c hc horigin => ?_⟩
    simp only [Handshake.step] at hstep
    split_ifs at hstep
    obtain rfl := Option.some.inj hstep
    simp [hcomplete c hc, horigin]

/-- One client connects, and its constructor returns before the server has
added the connection. -/
def hastyRun : List (Label Unit) := [.connect (), .accept, .construct, .read ()]

/-- The event the server dispatches then is not sent to the client. -/
theorem not_complete_hastyRun :
    ∃ s s' : State Unit, Reachable Handshake.step State.init s ∧ s.phase () = .returned ∧
      () ∉ s.connections ∧ Handshake.step s (.dispatch none [1]) = some s' ∧
      s'.wire () = s.wire () := by
  obtain ⟨s, hs⟩ : ∃ s, exec Handshake.step State.init hastyRun = some s := ⟨_, rfl⟩
  obtain ⟨s', hs'⟩ : ∃ s', Handshake.step s (.dispatch none [1]) = some s' := ⟨_, rfl⟩
  refine ⟨s, s', ⟨_, hs⟩, ?_, ?_, hs', ?_⟩
  all_goals
    obtain rfl := Option.some.inj hs
    obtain rfl := Option.some.inj hs'
    decide

theorem handshake_complete_iff_orderly :
    ∃ s s' : State Unit, s.phase () = .returned ∧
      Handshake.step s (.dispatch none [1]) = some s' ∧ s'.wire () = s.wire () ++ frame [1] := by
  obtain ⟨s, hs⟩ : ∃ s, exec Handshake.step State.init
      ([.connect (), .accept, .construct, .addConnection, .read ()] : List (Label Unit)) =
        some s := ⟨_, rfl⟩
  obtain ⟨s', hs'⟩ : ∃ s', Handshake.step s (.dispatch none [1]) = some s' := ⟨_, rfl⟩
  have hphase : s.phase () = .returned := by
    obtain rfl := Option.some.inj hs
    rfl
  have halong : Along Handshake.step Timely State.init
      ([.connect (), .accept, .construct, .addConnection, .read ()] : List (Label Unit)) := by
    refine ⟨trivial, fun _ h₁ => ⟨trivial, fun _ h₂ => ⟨trivial, fun _ h₃ => ⟨trivial,
      fun _ h₄ => ⟨?_, fun _ _ => trivial⟩⟩⟩⟩⟩
    obtain rfl := Option.some.inj h₁
    obtain rfl := Option.some.inj h₂
    obtain rfl := Option.some.inj h₃
    obtain rfl := Option.some.inj h₄
    simp [Timely]
  have hsent := (handshake_complete_iff.2 s _ halong hs).2
  exact ⟨s, s', hphase, hs', hsent none [1] s' hs' () hphase (by simp)⟩

end Rsb.Transport.Socket.Handshake
