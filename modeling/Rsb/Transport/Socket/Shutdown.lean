import Rsb.Library.Runs

/-!
Shutting down a bus server (`BusServerImpl::activate`, `deactivate`,
`handleAccept`, and `LifecycledBusServer`, which passes these calls on).

One thread calls `activate` and `deactivate`, the thread of the service runs
the accept handlers, and the two share the flag `shutdown`. A call of
`deactivate` sets the flag and waits until a handler resets it, so it depends
on a handler that has yet to test the flag. An exception that leaves a handler
ends the process and is left out here, as are the connections themselves.
-/

namespace Rsb.Transport.Socket.Shutdown

open Library

/-- Where the handler of a completed accept stands: before the test of
`shutdown`, before `acceptOne`, or before `shutdown` is reset. -/
inductive Point
  | entered | rearming | resetting
  deriving DecidableEq

/-- Where the thread that controls the server stands. -/
inductive Control
  | idle
  /-- In `deactivate`, before `cancel`, in the loop after it, and behind the loop. -/
  | cancelling | waiting | closing
  deriving DecidableEq

/-- `pending` accept operations are under way, `completed` ones have ended and
their handlers have not been invoked. -/
structure State where
  active : Bool
  shutdown : Bool
  pending : ℕ
  completed : ℕ
  handler : Option Point
  control : Control
  deriving DecidableEq

/-- After the constructor. -/
def State.init : State := ⟨false, false, 0, 0, none, .idle⟩

inductive Label
  | activate
  /-- The steps of `deactivate`, which the destructor of `LifecycledBusServer` calls as well. -/
  | deactivate
  | cancel
  | leaveLoop
  | returns
  /-- The destructor of `BusServerImpl`. Pending handlers hold a reference to the server. -/
  | destruct
  /-- A client connects, or accepting fails. -/
  | complete
  /-- The steps of `handleAccept`. -/
  | invoke
  | test
  | acceptOne
  | reset
  deriving DecidableEq

def step (s : State) : Label → Option State
  | .activate =>
      if s.control = .idle then some { s with pending := s.pending + 1, active := true } else none
  | .deactivate =>
      if s.control = .idle then some { s with shutdown := true, control := .cancelling } else none
  | .cancel =>
      if s.control = .cancelling then
        some { s with pending := 0, completed := s.completed + s.pending, control := .waiting }
      else none
  | .leaveLoop =>
      if s.control = .waiting ∧ s.shutdown = false then some { s with control := .closing }
      else none
  | .returns =>
      if s.control = .closing then some { s with active := false, control := .idle } else none
  | .destruct =>
      if s.control = .idle ∧ s.pending = 0 ∧ s.completed = 0 ∧ s.handler = none ∧
          s.active = true then
        some { s with shutdown := true, control := .cancelling }
      else none
  | .complete =>
      if 0 < s.pending then
        some { s with pending := s.pending - 1, completed := s.completed + 1 }
      else none
  | .invoke =>
      if s.handler = none ∧ 0 < s.completed then
        some { s with completed := s.completed - 1, handler := some .entered }
      else none
  | .test =>
      if s.handler = some .entered then
        some { s with handler := some (if s.shutdown then .resetting else .rearming) }
      else none
  | .acceptOne =>
      if s.handler = some .rearming then
        some { s with pending := s.pending + 1, handler := none }
      else none
  | .reset =>
      if s.handler = some .resetting then some { s with shutdown := false, handler := none }
      else none

/-- Some accept has completed and its handler will find `shutdown` set, or has
found it set. -/
def Outstanding (s : State) : Prop :=
  0 < s.completed ∨ s.handler = some .entered ∨ s.handler = some .resetting

instance (s : State) : Decidable (Outstanding s) := by
  unfold Outstanding
  infer_instance

/-- Nobody waits in vain. -/
def Awaited (s : State) : Prop := s.control = .waiting → s.shutdown = true → Outstanding s

/-- When the acceptor is cancelled an accept is pending or outstanding, or the
flag has been reset already. -/
def Attended (s : State) : Label → Prop
  | .cancel => s.shutdown = true → 0 < s.pending ∨ Outstanding s
  | _ => True

instance (s : State) : ∀ l, Decidable (Attended s l) := by
  intro l
  cases l <;> simp only [Attended] <;> infer_instance

theorem awaited_cancel_iff {s s' : State} (hstep : step s .cancel = some s') :
    Awaited s' ↔ Attended s .cancel := by
  simp only [step] at hstep
  split_ifs at hstep
  obtain rfl := Option.some.inj hstep
  simp only [Awaited, Attended, Outstanding, forall_const]
  apply forall_congr'
  intro _
  rw [Nat.add_pos_iff_pos_or_pos, or_comm (a := 0 < s.completed), or_assoc]

theorem Awaited.step {s s' : State} {l : Label} (h : Awaited s) (hl : Attended s l)
    (hstep : Shutdown.step s l = some s') : Awaited s' := by
  cases l with
  | cancel => exact (awaited_cancel_iff hstep).mpr hl
  | activate | deactivate | leaveLoop | returns | destruct =>
      simp only [Shutdown.step] at hstep
      split_ifs at hstep with hguard
      obtain rfl := Option.some.inj hstep
      intro hwaiting
      simp_all
  | complete =>
      simp only [Shutdown.step] at hstep
      split_ifs at hstep with hpending
      obtain rfl := Option.some.inj hstep
      exact fun _ _ => .inl (Nat.succ_pos _)
  | invoke =>
      simp only [Shutdown.step] at hstep
      split_ifs at hstep with hguard
      obtain rfl := Option.some.inj hstep
      exact fun _ _ => .inr (.inl rfl)
  | test =>
      simp only [Shutdown.step] at hstep
      by_cases hentered : s.handler = some .entered
      · rw [if_pos hentered] at hstep
        obtain rfl := Option.some.inj hstep
        intro _ hshutdown
        exact .inr (.inr (by simp [show s.shutdown = true from hshutdown]))
      · simp [hentered] at hstep
  | acceptOne =>
      simp only [Shutdown.step] at hstep
      split_ifs at hstep with hrearming
      obtain rfl := Option.some.inj hstep
      intro hwaiting hshutdown
      -- this handler has missed the flag, so it is another one that is awaited
      rcases h hwaiting hshutdown with hcompleted | hhandler | hhandler
      · exact .inl hcompleted
      · simp [hrearming] at hhandler
      · simp [hrearming] at hhandler
  | reset =>
      simp only [Shutdown.step] at hstep
      split_ifs at hstep with hresetting
      obtain rfl := Option.some.inj hstep
      intro _ hshutdown
      simp at hshutdown

/-! ### The end of the wait -/

/-- The steps of the handlers, which the thread of the service takes on its own. -/
def Label.isHandler : Label → Bool
  | .invoke | .test | .acceptOne | .reset => true
  | _ => false

theorem exists_reset {s : State} (hshutdown : s.shutdown = true) (h : Outstanding s) :
    ∃ labels s', (∀ l ∈ labels, l.isHandler = true) ∧ exec step s labels = some s' ∧
      s'.shutdown = false := by
  obtain ⟨active, shutdown, pending, completed, handler, control⟩ := s
  obtain rfl : shutdown = true := hshutdown
  have hcompleted : handler ≠ some .entered → handler ≠ some .resetting →
      ∃ n, completed = n + 1 := fun he hr =>
    Nat.exists_eq_succ_of_ne_zero (Nat.pos_iff_ne_zero.mp (h.resolve_right (by simp [he, hr])))
  rcases handler with - | (- | - | -)
  · obtain ⟨n, rfl⟩ := hcompleted (by simp) (by simp)
    exact ⟨[.invoke, .test, .reset], _, by simp [Label.isHandler], rfl, rfl⟩
  · exact ⟨[.test, .reset], _, by simp [Label.isHandler], rfl, rfl⟩
  · obtain ⟨n, rfl⟩ := hcompleted (by simp) (by simp)
    exact ⟨[.acceptOne, .invoke, .test, .reset], _, by simp [Label.isHandler], rfl, rfl⟩
  · exact ⟨[.reset], _, by simp [Label.isHandler], rfl, rfl⟩

/-- Right after the acceptor is cancelled an accept whose handler will find the
flag set is outstanding exactly if one was pending or outstanding before, or the
flag was reset already. If this is so whenever the acceptor is cancelled, then
whenever `deactivate` waits such an accept is outstanding, and the handlers end
the wait without a further client. -/
theorem deactivate_awaited_iff (s : State) :
    (∀ s', step s .cancel = some s' → (Awaited s' ↔ Attended s .cancel)) ∧
    ∀ labels : List Label, Along step Attended State.init labels →
      exec step State.init labels = some s → s.control = .waiting → s.shutdown = true →
        Outstanding s ∧ ∃ labels s', (∀ l ∈ labels, l.isHandler = true) ∧
          exec step s labels = some s' ∧ s'.shutdown = false := by
  refine ⟨fun s' => awaited_cancel_iff, fun labels halong hrun hwaiting hshutdown => ?_⟩
  have hs : Awaited s := exec_invariant_along (fun _ _ _ h hl hstep => h.step hl hstep)
    (fun h => by simp [State.init] at h) halong hrun
  have houtstanding := hs hwaiting hshutdown
  exact ⟨houtstanding, exists_reset hshutdown houtstanding⟩

/-- A call of `deactivate`, and the destructor of `LifecycledBusServer`. -/
def twiceRun : List Label :=
  [.activate, .deactivate, .cancel, .invoke, .test, .reset, .leaveLoop, .returns,
    .deactivate, .cancel]

/-- A handler has tested the flag when `deactivate` sets it. -/
def lateRun : List Label :=
  [.activate, .complete, .invoke, .test, .deactivate, .cancel, .acceptOne]

/-- In both runs `deactivate` waits, and no accept that has completed is left: in
the first one none will ever be, in the second one a client would have to come. -/
theorem not_awaited_twiceRun_lateRun :
    (∃ s, exec step State.init twiceRun = some s ∧ s.control = .waiting ∧ s.shutdown = true ∧
      ¬Outstanding s ∧ s.pending = 0) ∧
    ∃ s, exec step State.init lateRun = some s ∧ s.control = .waiting ∧ s.shutdown = true ∧
      ¬Outstanding s ∧ s.pending = 1 :=
  ⟨⟨_, rfl, by decide⟩, _, rfl, by decide⟩

/-- The flag is set before the handler tests it. -/
theorem deactivate_awaited_timelyRun :
    ∃ s, exec step State.init [.activate, .complete, .invoke, .deactivate, .cancel] = some s ∧
      Outstanding s := by
  obtain ⟨s, hs⟩ : ∃ s, exec step State.init
      [.activate, .complete, .invoke, .deactivate, .cancel] = some s := ⟨_, rfl⟩
  refine ⟨s, hs, ((deactivate_awaited_iff s).2 _ (by decide) hs ?_ ?_).1⟩
  all_goals
    obtain rfl := Option.some.inj hs
    rfl

end Rsb.Transport.Socket.Shutdown
