import Rsb.EventProcessing.ScopeDispatcher
import Rsb.Library.InPlace
import Rsb.Library.Runs
import Rsb.Transport.Inprocess.Removal

/-!
Receive routes (`InRouteConfigurator.cpp`, `Listener.cpp`, `Reader.cpp`) over connectors of the
in-process transport and of the socket transport (`inprocess/InConnector.cpp`,
`socket/InConnector.cpp`, `ConnectorBase.cpp`).

The constructor of a `Listener` or a `Reader` makes a configurator, adds the connectors and
activates it. When that throws, the configurator is destroyed on the way out, and its
destructor deactivates all connectors, however far the activation has got.
-/

namespace Rsb.EventProcessing.ReceiveRoutes

open Library Library.InPlace Transport

/-- The transport of a connector. -/
inductive Kind
  | inprocess | socket
  deriving DecidableEq

/-- What is changed in a connector; only one of the socket transport has a `bus` of its own. -/
structure Connector (B : Type) where
  active : Bool
  scope : Scope
  bus : Option B

/-- Connectors `C`, the in-process bus, the sinks of the buses `B` of the socket transport,
and which connectors exist. -/
structure World (C B : Type) where
  connectors : C → Connector B
  bus : Inprocess.Bus C
  sinkDispatcher : B → WeakScopeDispatcher C
  alive : C → Bool

/-- What a route gets from elsewhere, unless an exception is thrown: the buses for its
connectors, a strategy for receiving events, and what the derived `activate` does with it. -/
structure Environment (C B E : Type) where
  getBus : C → Except Exception B
  createEventReceivingStrategy : Except Exception E
  derived : Except Exception Unit

variable {C B E : Type} [LinearOrder C] [DecidableEq B]

namespace World

/-- No connector has been used. -/
def init : World C B := ⟨fun _ => ⟨false, .root, none⟩, .empty, fun _ => .empty, fun _ => true⟩

def modify (w : World C B) (c : C) (f : Connector B → Connector B) : World C B :=
  { w with connectors := Function.update w.connectors c (f (w.connectors c)) }

def setSinks (w : World C B) (b : B) (sinks : WeakScopeDispatcher C) : World C B :=
  { w with sinkDispatcher := Function.update w.sinkDispatcher b sinks }

section

variable (w : World C B) (c : C) (f g : Connector B → Connector B)

omit [DecidableEq B]

@[simp] theorem modify_bus : (w.modify c f).bus = w.bus := rfl

@[simp] theorem modify_sinkDispatcher : (w.modify c f).sinkDispatcher = w.sinkDispatcher := rfl

@[simp] theorem modify_connectors_self : (w.modify c f).connectors c = f (w.connectors c) :=
  Function.update_self ..

theorem modify_connectors_of_ne {o : C} (h : o ≠ c) :
    (w.modify c f).connectors o = w.connectors o := Function.update_of_ne h ..

omit [LinearOrder C] in
@[simp] theorem setSinks_connectors [DecidableEq B] (b : B) (sinks : WeakScopeDispatcher C) :
    (w.setSinks b sinks).connectors = w.connectors := rfl

theorem modify_modify : (w.modify c f).modify c g = w.modify c fun s => g (f s) := by
  rw [modify, modify_connectors_self]
  show (⟨_, _, _, _⟩ : World C B) = ⟨_, _, _, _⟩
  rw [modify, Function.update_idem]

end

end World

/-- A call that may throw. -/
def call {α : Type} (x : Except Exception α) : InPlace Fault (World C B) α :=
  ofExcept (x.mapError .thrown)

/-! ### Connectors -/

/-- `setScope`, which is the same for both transports. -/
def setScope (c : C) (scope : Scope) : InPlace Fault (World C B) Unit := do
  let w ← get
  if (w.connectors c).active then
    call (.error ⟨.runtimeError, bytes "Cannot set scope while active"⟩)
  else modify fun w => w.modify c fun s => { s with scope }

/-- `inprocess::InConnector::activate`. -/
def Inprocess.activate (c : C) : InPlace Fault (World C B) Unit := do
  modify fun w => { w with bus := w.bus.addSink c (w.connectors c).scope }
  modify fun w => w.modify c fun s => { s with active := true }

/-- `inprocess::InConnector::deactivate`. -/
def Inprocess.deactivate (c : C) : InPlace Fault (World C B) Unit := do
  modify fun w => w.modify c fun s => { s with active := false }
  let w ← get
  let bus ← ofExcept (w.bus.removeSink w.alive c (w.connectors c).scope)
  set { w with bus }

/-- `ConnectorBase::activate`, with what `getBus` of the factory returns. -/
def ConnectorBase.activate (c : C) (bus : Except Exception B) : InPlace Fault (World C B) Unit := do
  let bus ← call bus
  modify fun w => w.modify c fun s => { s with bus := some bus }
  modify fun w => w.modify c fun s => { s with active := true }

/-- `ConnectorBase::deactivate`. -/
def ConnectorBase.deactivate (c : C) : InPlace Fault (World C B) Unit := do
  modify fun w => w.modify c fun s => { s with active := false }
  modify fun w => w.modify c fun s => { s with bus := none }

/-- `socket::InConnector::activate`. -/
def Socket.activate (c : C) (bus : Except Exception B) : InPlace Fault (World C B) Unit := do
  ConnectorBase.activate c bus
  let w ← get
  match (w.connectors c).bus with
  | none => throw .nullPointer
  | some b => set (w.setSinks b ((w.sinkDispatcher b).addSink (w.connectors c).scope c))

/-- `BusImpl::removeSink`. -/
def Socket.removeSink (c : C) (b : B) : InPlace Fault (World C B) Unit := do
  let w ← get
  let sinks ← ofExcept ((w.sinkDispatcher b).removeSink w.alive (w.connectors c).scope c)
  set (w.setSinks b sinks)

/-- `socket::InConnector::deactivate`. -/
def Socket.deactivate (c : C) : InPlace Fault (World C B) Unit := do
  let w ← get
  match (w.connectors c).bus with
  | none => pure ()
  | some b => Socket.removeSink c b
  ConnectorBase.deactivate c

variable (kind : C → Kind)

def activate (bus : Except Exception B) (c : C) : InPlace Fault (World C B) Unit :=
  match kind c with
  | .inprocess => Inprocess.activate c
  | .socket => Socket.activate c bus

def deactivate (c : C) : InPlace Fault (World C B) Unit :=
  match kind c with
  | .inprocess => Inprocess.deactivate c
  | .socket => Socket.deactivate c

/-! ### Routes -/

structure InRouteConfigurator (C E : Type) [LinearOrder C] where
  scope : Scope
  connectors : SortedSet C
  eventReceivingStrategy : Option E
  shutdown : Bool

namespace InRouteConfigurator

/-- The constructor. -/
def new (scope : Scope) : InRouteConfigurator C E := ⟨scope, .empty, none, false⟩

def addConnector (r : InRouteConfigurator C E) (connector : C) : InRouteConfigurator C E :=
  { r with connectors := r.connectors.add connector }

/-- The loop of `activate` over the connectors. -/
def activateAll (getBus : C → Except Exception B) (scope : Scope) :
    List C → InPlace Fault (World C B) Unit
  | [] => pure ()
  | it :: rest => do
      setScope it scope
      ReceiveRoutes.activate kind (getBus it) it
      activateAll getBus scope rest

/-- The loop of `deactivate` over the connectors. -/
def deactivateAll : List C → InPlace Fault (World C B) Unit
  | [] => pure ()
  | it :: rest => do
      ReceiveRoutes.deactivate kind it
      deactivateAll rest

/-- `InRouteConfigurator::activate`. -/
def baseActivate (env : Environment C B E) (r : InRouteConfigurator C E) :
    InPlace Fault (World C B) (InRouteConfigurator C E) := do
  activateAll kind env.getBus r.scope r.connectors.keys
  let strategy ← call env.createEventReceivingStrategy
  return { r with eventReceivingStrategy := some strategy }

/-- `activate` of the derived class, if it has one. -/
def activate (env : Environment C B E) (r : InRouteConfigurator C E) :
    InPlace Fault (World C B) (InRouteConfigurator C E) := do
  let r ← r.baseActivate kind env
  call env.derived
  return r

def deactivate (r : InRouteConfigurator C E) :
    InPlace Fault (World C B) (InRouteConfigurator C E) := do
  deactivateAll kind r.connectors.keys
  return { r with eventReceivingStrategy := none, shutdown := true }

/-- `~InRouteConfigurator`. -/
def destructor (r : InRouteConfigurator C E) : InPlace Fault (World C B) Unit :=
  if r.shutdown then pure () else do let _ ← r.deactivate kind

end InRouteConfigurator

/-- What becomes of the construction of a participant. -/
inductive Outcome (C B E : Type) [LinearOrder C]
  | constructed (configurator : InRouteConfigurator C E) (w : World C B)
  /-- The exception has left the constructor. -/
  | threw (e : Exception) (w : World C B)
  /-- Something else has failed, after which anything may happen, or the destructor has thrown
  while an exception was under way, which ends the program. -/
  | stopped (f : Fault)

/-- The constructor of `Listener` or `Reader`. An `activate` that throws leaves alone what the
destructor of the configurator reads in it. -/
def construct (env : Environment C B E) (connectors : List C) (scope : Scope) (w : World C B) :
    Outcome C B E :=
  let configurator : InRouteConfigurator C E :=
    connectors.foldl InRouteConfigurator.addConnector (.new scope)
  match (configurator.activate kind env).run w with
  | .ok configurator w => .constructed configurator w
  | .error (.thrown e) w =>
      match (configurator.destructor kind).run w with
      | .ok _ w => .threw e w
      | .error f _ => .stopped f
  | .error f _ => .stopped f

/-! ### What else happens -/

inductive Label (C B : Type)
  | setScope (c : C) (scope : Scope)
  | activate (c : C) (bus : Except Exception B)
  | deactivate (c : C)
  /-- An event is dispatched on the in-process bus. -/
  | handle (scope : Scope)
  /-- The last pointer to a connector goes away; its destructor may have to wait. -/
  | expire (c : C)
  | destructor (c : C)

/-- The state after a call, also if it throws; after another fault there is none. -/
def survive : EStateM.Result Fault (World C B) Unit → Option (World C B)
  | .ok _ w | .error (.thrown _) w => some w
  | .error _ _ => none

/-- Connectors are used while there are pointers to them, and are activated only while they
are inactive. -/
def step (w : World C B) : Label C B → Option (World C B)
  | .setScope c scope => if w.alive c then survive ((setScope c scope).run w) else none
  | .activate c bus =>
      if w.alive c ∧ (w.connectors c).active = false then survive ((activate kind bus c).run w)
      else none
  | .deactivate c => if w.alive c then survive ((deactivate kind c).run w) else none
  | .handle scope => some { w with bus := (w.bus.handleNoLock w.alive scope).1 }
  | .expire c =>
      if w.alive c then some { w with alive := Function.update w.alive c false } else none
  | .destructor c =>
      if w.alive c then none
      else if (w.connectors c).active then
        match (deactivate kind c).run w with
        | .ok _ w => some w
        | .error _ _ => none
      else some w

/-! ### Connectors that exist are sinks of the buses they have -/

/-- A socket connector is a sink of the bus that it has, once, and of no other. -/
structure Own (w : World C B) (c : C) : Prop where
  active : (w.connectors c).active = (w.connectors c).bus.isSome
  entries : ∀ b s, ((w.sinkDispatcher b).entries s).count c =
    if (w.connectors c).bus = some b ∧ (w.connectors c).scope = s then 1 else 0

/-- The sinks of a bus are connectors of its transport. -/
structure Sound (w : World C B) : Prop where
  inprocess : ∀ {c s}, c ∈ w.bus.list s → kind c = .inprocess
  socket : ∀ {c b s}, c ∈ (w.sinkDispatcher b).entries s → kind c = .socket
  own : ∀ {c}, kind c = .socket → w.alive c = true → Own w c

/-- A connector is as it was, and a sink of the socket buses as it was. -/
structure Untouched (w w' : World C B) (c : C) : Prop where
  connector : w'.connectors c = w.connectors c
  entries : ∀ b s, ((w'.sinkDispatcher b).entries s).count c =
    ((w.sinkDispatcher b).entries s).count c

/-- What every call on a connector leaves alone. -/
structure Touches (c : C) (w w' : World C B) : Prop where
  alive : w'.alive = w.alive
  others : ∀ o, o ≠ c → w.alive o = true → Untouched w w' o

/-! ### What the calls do -/

section

variable {w : World C B} {c : C} {b : B}

omit [DecidableEq B] in
theorem run_setScope {scope : Scope} (h : (w.connectors c).active = false) :
    (setScope c scope).run w = .ok () (w.modify c fun s => { s with scope }) := by
  rw [setScope, run_get_bind, if_neg (by rw [h]; exact Bool.false_ne_true)]
  rfl

omit [DecidableEq B] in
theorem run_setScope_of_active {scope : Scope} (h : (w.connectors c).active = true) :
    (setScope c scope).run w =
      .error (.thrown ⟨.runtimeError, bytes "Cannot set scope while active"⟩) w := by
  rw [setScope, run_get_bind, if_pos h]
  rfl

omit [DecidableEq B] in
theorem run_inprocessActivate :
    (Inprocess.activate c).run w =
      .ok () (World.modify { w with bus := w.bus.addSink c (w.connectors c).scope } c
        fun s => { s with active := true }) := rfl

omit [DecidableEq B] in
theorem run_inprocessDeactivate :
    (Inprocess.deactivate c).run w =
      if (w.connectors c).scope.SuperScopesFit then
        .ok () { w.modify c fun s => { s with active := false } with
          bus := w.bus.eraseSink w.alive c }
      else .error .writePastEnd (w.modify c fun s => { s with active := false }) := by
  have hremove : ∀ w₁ : World C B, w₁.bus.removeSink w₁.alive c (w₁.connectors c).scope =
      if (w₁.connectors c).scope.SuperScopesFit then .ok (w₁.bus.eraseSink w₁.alive c)
      else .error .writePastEnd := fun w₁ => Inprocess.Bus.removeSink_eq ..
  have hrest : ∀ w₁ : World C B, (do
      let w ← get
      let bus ← ofExcept (w.bus.removeSink w.alive c (w.connectors c).scope)
      set { w with bus } : InPlace Fault (World C B) Unit).run w₁ =
        if (w₁.connectors c).scope.SuperScopesFit then
          .ok () { w₁ with bus := w₁.bus.eraseSink w₁.alive c }
        else .error .writePastEnd w₁ := by
    intro w₁
    rw [run_get_bind, run_bind (run_ofExcept _ _), hremove]
    split_ifs <;> rfl
  have hscope : ((w.modify c fun s => { s with active := false }).connectors c).scope =
      (w.connectors c).scope := by rw [World.modify_connectors_self]
  rw [← hscope]
  exact hrest (w.modify c fun s => { s with active := false })

theorem run_socketActivate (b : B) :
    (Socket.activate c (.ok b)).run w =
      .ok () ((w.modify c fun s => { s with active := true, bus := some b }).setSinks b
        ((w.sinkDispatcher b).addSink (w.connectors c).scope c)) := by
  have hbase : (ConnectorBase.activate c (.ok b)).run w =
      result (.ok ()) (w.modify c fun s => { s with active := true, bus := some b }) := by
    show EStateM.Result.ok () ((w.modify c _).modify c _) = _
    rw [World.modify_modify]
    rfl
  rw [Socket.activate, run_bind hbase]
  show EStateM.run (match (World.connectors (w.modify c _) c).bus with
    | none => _
    | some b => _ : InPlace Fault (World C B) Unit) _ = _
  rw [World.modify_connectors_self]
  rfl

theorem run_socketDeactivate_of_none (h : (w.connectors c).bus = none) :
    (Socket.deactivate c).run w =
      .ok () (w.modify c fun s => { s with active := false, bus := none }) := by
  rw [Socket.deactivate, run_get_bind, h]
  show EStateM.Result.ok () ((w.modify c _).modify c _) = _
  rw [World.modify_modify]

theorem run_socketDeactivate_of_some (h : (w.connectors c).bus = some b) :
    (Socket.deactivate c).run w =
      match (w.sinkDispatcher b).removeSink w.alive (w.connectors c).scope c with
      | .ok sinks =>
          .ok () ((w.setSinks b sinks).modify c fun s => { s with active := false, bus := none })
      | .error f => .error f w := by
  rw [Socket.deactivate, run_get_bind, h]
  cases hremoved : (w.sinkDispatcher b).removeSink w.alive (w.connectors c).scope c with
  | error f =>
      have hremove : (Socket.removeSink c b).run w = result (.error f) w := by
        rw [Socket.removeSink, run_get_bind, hremoved]
        rfl
      rw [run_bind hremove]
  | ok sinks =>
      have hremove : (Socket.removeSink c b).run w = result (.ok ()) (w.setSinks b sinks) := by
        rw [Socket.removeSink, run_get_bind, hremoved]
        rfl
      rw [run_bind hremove]
      show EStateM.Result.ok () (((w.setSinks b sinks).modify c _).modify c _) = _
      rw [World.modify_modify]

end

/-! ### Frames -/

section

variable {w w' w'' : World C B} {c o : C}

omit [DecidableEq B] in
theorem Untouched.trans (h : Untouched w w' o) (h' : Untouched w' w'' o) : Untouched w w'' o :=
  ⟨h'.connector.trans h.connector, fun b s => (h'.entries b s).trans (h.entries b s)⟩

theorem Own.untouched (h : Own w o) (hu : Untouched w w' o) : Own w' o := by
  refine ⟨?_, fun b s => ?_⟩
  · rw [hu.connector, h.active]
  · rw [hu.entries, hu.connector, h.entries]

omit [DecidableEq B] in
theorem Touches.trans (h : Touches c w w') (h' : Touches c w' w'') : Touches c w w'' :=
  ⟨h'.alive.trans h.alive, fun o hne ho =>
    (h.others o hne ho).trans (h'.others o hne (by rw [h.alive]; exact ho))⟩

omit [DecidableEq B] in
theorem touches_modify (f : Connector B → Connector B) : Touches c w (w.modify c f) :=
  ⟨rfl, fun _ hne _ => ⟨World.modify_connectors_of_ne w c f hne, fun _ _ => rfl⟩⟩

omit [DecidableEq B] in
theorem touches_bus (bus : Inprocess.Bus C) : Touches c w { w with bus } :=
  ⟨rfl, fun _ _ _ => ⟨rfl, fun _ _ => rfl⟩⟩

omit [LinearOrder C] in
theorem entries_setSinks (b b' : B) (sinks : WeakScopeDispatcher C) (s : Scope) :
    ((w.setSinks b sinks).sinkDispatcher b').entries s =
      if b' = b then sinks.entries s else (w.sinkDispatcher b').entries s :=
  WeakScopeDispatcher.entries_update w.sinkDispatcher b sinks b' s

theorem touches_setSinks {b : B} {sinks : WeakScopeDispatcher C}
    (h : ∀ o, o ≠ c → w.alive o = true → ∀ s,
      (sinks.entries s).count o = ((w.sinkDispatcher b).entries s).count o) :
    Touches c w (w.setSinks b sinks) := by
  refine ⟨rfl, fun o hne ho => ⟨rfl, fun b' s => ?_⟩⟩
  rw [entries_setSinks]
  split
  · next hb => rw [hb, h o hne ho]
  · rfl

theorem touches_addSink (b : B) (scope : Scope) :
    Touches c w (w.setSinks b ((w.sinkDispatcher b).addSink scope c)) := by
  refine touches_setSinks fun o hne _ s => ?_
  rw [WeakScopeDispatcher.entries_addSink, List.count_append]
  split
  · rw [List.count_singleton, if_neg (by simpa using Ne.symm hne), Nat.add_zero]
  · rfl

theorem touches_removeSink {b : B} {scope : Scope} {sinks : WeakScopeDispatcher C}
    (h : (w.sinkDispatcher b).removeSink w.alive scope c = .ok sinks) :
    Touches c w (w.setSinks b sinks) := by
  refine touches_setSinks fun o hne ho s => ?_
  rw [WeakScopeDispatcher.entries_removeSink h]
  split
  · exact List.count_filter (by simp [ho, hne])
  · rfl

variable {kind} in
theorem Sound.of_touches (h : Sound kind w) (ht : Touches c w w')
    (hinprocess : ∀ {o s}, o ∈ w'.bus.list s → kind o = .inprocess)
    (hsocket : ∀ {o b s}, o ∈ (w'.sinkDispatcher b).entries s → kind o = .socket)
    (hown : kind c = .socket → w.alive c = true → Own w' c) : Sound kind w' := by
  refine ⟨hinprocess, hsocket, fun {o} hkind ho => ?_⟩
  rw [ht.alive] at ho
  by_cases hne : o = c
  · subst hne
    exact hown hkind ho
  · exact (h.own hkind ho).untouched (ht.others o hne ho)

end

/-! ### The calls keep the sinks right -/

section

variable {kind}
variable {w w' : World C B} {c : C}

theorem Own.bus_eq_none (h : Own w c) (hactive : (w.connectors c).active = false) :
    (w.connectors c).bus = none :=
  Option.isNone_iff_eq_none.mp (by
    rw [← Option.not_isSome, ← h.active, hactive, Bool.not_false])

theorem Sound.setScope (h : Sound kind w) (hactive : (w.connectors c).active = false)
    (scope : Scope) : Sound kind (w.modify c fun s => { s with scope }) := by
  refine h.of_touches (touches_modify _) h.inprocess h.socket fun hkind halive => ?_
  have hown := h.own hkind halive
  have hbus := hown.bus_eq_none hactive
  refine ⟨?_, fun b s => ?_⟩
  · rw [World.modify_connectors_self]
    exact hown.active
  · rw [World.modify_connectors_self, World.modify_sinkDispatcher, hown.entries, hbus]
    simp

theorem Sound.inprocessActivate (h : Sound kind w) (hkind : kind c = .inprocess) :
    Sound kind (World.modify { w with bus := w.bus.addSink c (w.connectors c).scope } c
      fun s => { s with active := true }) := by
  refine h.of_touches ((touches_bus _).trans (touches_modify _)) (fun {o s} hmem => ?_) h.socket
    fun hsocket => by rw [hkind] at hsocket; cases hsocket
  rcases Inprocess.mem_list_addSink hmem with rfl | ⟨s', hmem⟩
  · exact hkind
  · exact h.inprocess hmem

theorem Sound.inprocessDeactivate (h : Sound kind w) (hkind : kind c = .inprocess) :
    Sound kind { w.modify c fun s => { s with active := false } with
      bus := w.bus.eraseSink w.alive c } := by
  refine h.of_touches ((touches_modify _).trans (touches_bus _)) (fun {o s} hmem => ?_) h.socket
    fun hsocket => by rw [hkind] at hsocket; cases hsocket
  rw [Inprocess.Bus.list_eraseSink] at hmem
  exact h.inprocess (List.mem_of_mem_eraseP hmem)

theorem Sound.socketActivate (h : Sound kind w) (hkind : kind c = .socket)
    (hactive : (w.connectors c).active = false) (b : B) :
    Sound kind ((w.modify c fun s => { s with active := true, bus := some b }).setSinks b
      ((w.sinkDispatcher b).addSink (w.connectors c).scope c)) := by
  refine h.of_touches ((touches_modify _).trans (touches_addSink b _)) h.inprocess
    (fun {o b' s} hmem => ?_) fun _ halive => ?_
  · rw [entries_setSinks] at hmem
    split at hmem
    · rw [WeakScopeDispatcher.entries_addSink] at hmem
      rcases List.mem_append.mp hmem with hmem | hmem
      · exact h.socket hmem
      · split at hmem
        · rw [List.mem_singleton.mp hmem, hkind]
        · cases hmem
    · exact h.socket hmem
  · have hown := h.own hkind halive
    have hbus := hown.bus_eq_none hactive
    have hbefore : ∀ b s, ((w.sinkDispatcher b).entries s).count c = 0 := by
      intro b s
      rw [hown.entries, hbus]
      simp
    have hafter : ((w.modify c fun s => { s with active := true, bus := some b }).setSinks b
        ((w.sinkDispatcher b).addSink (w.connectors c).scope c)).connectors c =
        ⟨true, (w.connectors c).scope, some b⟩ := by
      rw [World.setSinks_connectors, World.modify_connectors_self]
    refine ⟨by rw [hafter]; rfl, fun b' s => ?_⟩
    rw [hafter, entries_setSinks]
    by_cases hb : b' = b
    · subst hb
      rw [if_pos rfl, WeakScopeDispatcher.entries_addSink, List.count_append, hbefore]
      by_cases hs : (w.connectors c).scope = s <;> simp [hs]
    · rw [if_neg hb, World.modify_sinkDispatcher, hbefore, if_neg]
      rintro ⟨heq, -⟩
      exact hb (Option.some.inj heq).symm

theorem Sound.socketDeactivate_of_none (h : Sound kind w) (hbus : (w.connectors c).bus = none) :
    Sound kind (w.modify c fun s => { s with active := false, bus := none }) := by
  refine h.of_touches (touches_modify _) h.inprocess h.socket fun hkind halive => ?_
  refine ⟨by rw [World.modify_connectors_self]; rfl, fun b s => ?_⟩
  rw [World.modify_connectors_self, World.modify_sinkDispatcher, (h.own hkind halive).entries, hbus]

theorem Sound.socketDeactivate_of_some (h : Sound kind w) {b : B}
    (hbus : (w.connectors c).bus = some b) {sinks : WeakScopeDispatcher C}
    (hremoved : (w.sinkDispatcher b).removeSink w.alive (w.connectors c).scope c = .ok sinks) :
    Sound kind ((w.setSinks b sinks).modify c
      fun s => { s with active := false, bus := none }) := by
  have hentries : ∀ b' s, (((w.setSinks b sinks).modify c fun s =>
      { s with active := false, bus := none }).sinkDispatcher b').entries s =
      if b' = b ∧ s = (w.connectors c).scope then ((w.sinkDispatcher b').entries s).filter
        (fun pointer => !(!w.alive pointer || pointer == c))
      else (w.sinkDispatcher b').entries s := by
    intro b' s
    rw [World.modify_sinkDispatcher, entries_setSinks,
      WeakScopeDispatcher.entries_removeSink hremoved]
    by_cases hb : b' = b
    · subst hb
      simp
    · simp [hb]
  refine h.of_touches ((touches_removeSink hremoved).trans (touches_modify _)) h.inprocess
    (fun {o b' s} hmem => ?_) fun hkind halive => ?_
  · rw [hentries] at hmem
    split at hmem
    · exact h.socket (List.mem_of_mem_filter hmem)
    · exact h.socket hmem
  · refine ⟨by rw [World.modify_connectors_self]; rfl, fun b' s => ?_⟩
    rw [World.modify_connectors_self]
    show _ = if (none : Option B) = some b' ∧ (w.connectors c).scope = s then 1 else 0
    rw [if_neg (fun h => nomatch h.1), hentries]
    split
    · rw [List.count_eq_zero]
      simp
    · next hother =>
        rw [(h.own hkind halive).entries, hbus, if_neg]
        rintro ⟨hb, hs⟩
        exact hother ⟨(Option.some.inj hb).symm, hs.symm⟩

end

end Rsb.EventProcessing.ReceiveRoutes
