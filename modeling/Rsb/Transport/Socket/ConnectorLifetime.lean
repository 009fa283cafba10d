import Rsb.EventProcessing.ScopeDispatcher
import Rsb.Library.Locks

/-!
When connectors of the socket transport are called (`InConnector.cpp`, `ConnectorBase.cpp`,
`BusImpl.cpp`, `InPushConnector.cpp`, `InPullConnector.cpp`).

A connector is driven by one thread, which activates and deactivates it and in the end gives
up its shared pointer. The loops of the dispatcher hold a pointer to the connector that they
call, and `removeSink` to the one that it looks at; whoever gives up the last pointer runs
the destructor. Sinks are registered, removed and called with the lock of their bus held,
but `active` and `bus` are changed without it.

While a thread is in such a loop nobody else changes the lists, and the thread itself only
through destructors, which take pointers out that dangle. So a loop goes over what the lists
were when it began, also where its element has been erased with the connector it was about
and the source goes on from there.
-/

namespace Rsb.Transport.Socket.ConnectorLifetime

open Library Library.Program

/-- What is changed in a connector. -/
structure Connector (B : Type) where
  active : Bool
  bus : Option B
  scope : Scope

/-- Connectors `C`, buses `B` and threads `T`. -/
structure Data (C B T : Type) where
  connectors : C → Connector B
  sinkDispatcher : B → WeakScopeDispatcher C
  /-- The shared pointers to a connector, by the threads that hold them. -/
  references : C → List T
  /-- The driver has not given up its pointer. -/
  owned : C → Bool
  /-- The calls of `handle` that threw since the connector was not active. -/
  refused : List C

/-- A call that has not returned, by what it does next. -/
inductive Frame (C B : Type)
  /-- `ConnectorBase::activate` with the bus stored, then `addSink` before and after its lock. -/
  | activating (c : C) (b : B)
  | addSink (c : C) (b : B)
  | adding (c : C) (b : B)
  /-- `InConnector::deactivate`, then `removeSink` before and after its lock, and with the
  pointer to one of the sinks. -/
  | deactivate (c : C)
  | removeSink (c : C) (b : B)
  | removing (c : C) (b : B)
  | examining (c : C) (b : B) (pointer : C)
  /-- `ConnectorBase::deactivate`, before `active` and before `bus` is reset. -/
  | stopping (c : C)
  | resetting (c : C)
  /-- `~InConnector` and `~ConnectorBase`. -/
  | destructor (c : C)
  | baseDestructor (c : C)
  /-- `BusImpl::handle` or `handleIncoming` before the lock. -/
  | dispatch (b : B) (scope : Scope)
  /-- The loop over the sinks, and a call of `handle` before and after the test of `active`. -/
  | mapSinks (b : B) (rest : List C)
  | calling (b : B) (pointer : C) (rest : List C)
  | handling (b : B) (pointer : C) (rest : List C)

inductive Action (C B : Type)
  /-- What a thread is asked to do; `activate` with what `getBus` returns, unless it throws. -/
  | setScope (c : C) (scope : Scope)
  | activate (c : C) (bus : Option B)
  | deactivate (c : C)
  | reset (c : C)
  | dispatch (b : B) (scope : Scope)
  /-- The innermost call goes on, looks at a sink, or ends with an exception. -/
  | go
  | examine (pointer : C)
  | throws

variable {C B T : Type}

/-- No pointer to `c` is left. -/
def Expired (d : Data C B T) (c : C) : Prop := d.references c = []

section

variable [DecidableEq C] [DecidableEq B] [DecidableEq T]

instance (d : Data C B T) (c : C) : Decidable (Expired d c) :=
  inferInstanceAs (Decidable (_ = _))

namespace Data

def modify (d : Data C B T) (c : C) (f : Connector B → Connector B) : Data C B T :=
  { d with connectors := Function.update d.connectors c (f (d.connectors c)) }

/-- `weak_ptr::lock`, for a pointer that does not dangle. -/
def lock (d : Data C B T) (t : T) (c : C) : Data C B T :=
  { d with references := Function.update d.references c (t :: d.references c) }

/-- A thread gives up a pointer to `c`. -/
def release (d : Data C B T) (t : T) (c : C) : Data C B T :=
  { d with references := Function.update d.references c ((d.references c).erase t) }

def setSinks (d : Data C B T) (b : B) (sinks : WeakScopeDispatcher C) : Data C B T :=
  { d with sinkDispatcher := Function.update d.sinkDispatcher b sinks }

end Data

/-- What a thread goes on with after it has given up a pointer to `c`. -/
def released (d : Data C B T) (c : C) (frames : List (Frame C B)) : List (Frame C B) × Data C B T :=
  (if Expired d c then .destructor c :: frames else frames, d)

/-- What thread `t` begins. It drives connectors that it has a pointer to, and activates
them only while they are inactive. -/
def begin (driver : C → T) (t : T) (d : Data C B T) :
    Action C B → Option (List (Frame C B) × Data C B T)
  | .setScope c scope =>
      if driver c = t ∧ d.owned c then
        -- throws if the connector is active
        if (d.connectors c).active then some ([], d)
        else some ([], d.modify c fun s => { s with scope })
      else none
  | .activate c bus =>
      if driver c = t ∧ d.owned c ∧ (d.connectors c).active = false then
        match bus with
        | none => some ([], d)
        | some b => some ([.activating c b], d.modify c fun s => { s with bus := some b })
      else none
  | .deactivate c => if driver c = t ∧ d.owned c then some ([.deactivate c], d) else none
  | .reset c =>
      if driver c = t ∧ d.owned c then
        let d := { d with owned := Function.update d.owned c false }
        some (released (d.release t c) c [])
      else none
  | .dispatch b scope => some ([.dispatch b scope], d)
  | _ => none

/-- The frames that take the place of the innermost one. -/
def Frame.next (t : T) (d : Data C B T) :
    Frame C B → Action C B → Option (List (Frame C B) × Data C B T)
  | .activating c b, .go => some ([.addSink c b], d.modify c fun s => { s with active := true })
  | .addSink c b, .go => some ([.adding c b], d)
  | .adding c b, .go =>
      some ([], d.setSinks b ((d.sinkDispatcher b).addSink (d.connectors c).scope c))
  | .deactivate c, .go =>
      match (d.connectors c).bus with
      | none => some ([.stopping c], d)
      | some b => some ([.removeSink c b], d)
  | .removeSink c b, .go => some ([.removing c b], d)
  | .removing c b, .examine pointer =>
      if pointer ∈ (d.sinkDispatcher b).entries (d.connectors c).scope ∧ ¬ Expired d pointer then
        some ([.examining c b pointer], d.lock t pointer)
      else none
  | .examining c b pointer, .go =>
      some (released (d.release t pointer) pointer [.removing c b])
  | .removing c b, .go =>
      match (d.sinkDispatcher b).removeSink (fun p => !decide (Expired d p))
          (d.connectors c).scope c with
      | .ok sinks => some ([.stopping c], d.setSinks b sinks)
      -- the exception leaves `deactivate`
      | .error _ => some ([], d)
  | .removing _ _, .throws => some ([], d)
  | .stopping c, .go => some ([.resetting c], d.modify c fun s => { s with active := false })
  | .resetting c, .go => some ([], d.modify c fun s => { s with bus := none })
  | .destructor c, .go =>
      if (d.connectors c).active then some ([.deactivate c, .baseDestructor c], d)
      else some ([.baseDestructor c], d)
  | .baseDestructor c, .go =>
      if (d.connectors c).active then some ([.stopping c], d) else some ([], d)
  | .dispatch b scope, .go =>
      some ([.mapSinks b ((scope.superScopes true).flatMap (d.sinkDispatcher b).entries)], d)
  | .mapSinks _ [], .go => some ([], d)
  | .mapSinks b (pointer :: rest), .go =>
      if Expired d pointer then some ([.mapSinks b rest], d)
      else some ([.calling b pointer rest], d.lock t pointer)
  -- a destructor has thrown
  | .mapSinks _ _, .throws => some ([], d)
  | .calling b pointer rest, .go =>
      if (d.connectors pointer).active then some ([.handling b pointer rest], d)
      else
        let d := { d with refused := pointer :: d.refused }
        some (released (d.release t pointer) pointer [.mapSinks b []])
  -- handlers may publish events
  | .handling b pointer rest, .dispatch b' scope =>
      some ([.dispatch b' scope, .handling b pointer rest], d)
  | .handling b pointer rest, .go =>
      some (released (d.release t pointer) pointer [.mapSinks b rest])
  -- the pointer is given up before the lock
  | .handling b pointer _, .throws =>
      some (released (d.release t pointer) pointer [.mapSinks b []])
  | _, _ => none

end

/-- The lock of a bus that is held in a frame. -/
def Frame.lock : Frame C B → Option B
  | .adding _ b | .removing _ b | .examining _ b _ => some b
  | .mapSinks b _ | .calling b _ _ | .handling b _ _ => some b
  | .activating _ _ | .addSink _ _ | .deactivate _ | .removeSink _ _ | .stopping _ => none
  | .resetting _ | .destructor _ | .baseDestructor _ | .dispatch _ _ => none

/-- The lock that is taken next. -/
def Frame.wants : Frame C B → Option B
  | .addSink _ b | .removeSink _ b | .dispatch b _ => some b
  | .activating _ _ | .adding _ _ | .deactivate _ | .removing _ _ | .examining _ _ _ => none
  | .stopping _ | .resetting _ | .destructor _ | .baseDestructor _ => none
  | .mapSinks _ _ | .calling _ _ _ | .handling _ _ _ => none

/-- The calls that a thread is in, the innermost one first. -/
structure Control (C B T : Type) where
  self : T
  stack : List (Frame C B)

/-- The threads, with the locks of the buses. -/
def program [DecidableEq C] [DecidableEq B] [DecidableEq T] (driver : C → T) :
    Program (Control C B T) (Data C B T) (Action C B) B where
  next d p a :=
    match p.stack with
    | [] => (begin driver p.self d a).map fun r => ({ p with stack := r.1 }, r.2)
    | f :: below => (f.next p.self d a).map fun r => ({ p with stack := r.1 ++ below }, r.2)
  holds p := p.stack.filterMap Frame.lock
  wants p := p.stack.head?.bind Frame.wants

/-- All the connectors have been constructed, and their drivers have a pointer to them. -/
def init (driver : C → T) : State (Control C B T) (Data C B T) B T where
  pc t := ⟨t, []⟩
  data :=
    { connectors := fun _ => ⟨false, none, .root⟩
      sinkDispatcher := fun _ => .empty
      references := fun c => [driver c]
      owned := fun _ => true
      refused := [] }
  owner _ := none

/-! ### What holds in a state -/

/-- A bus has a pointer to `c`. -/
def Registered (d : Data C B T) (b : B) (c : C) : Prop :=
  ∃ scope, c ∈ (d.sinkDispatcher b).entries scope

/-- What is registered and exists is active, for the bus and the scope it is registered with. -/
def Linked (d : Data C B T) : Prop :=
  ∀ b scope c, c ∈ (d.sinkDispatcher b).entries scope → ¬ Expired d c →
    (d.connectors c).active = true ∧ (d.connectors c).bus = some b ∧ (d.connectors c).scope = scope

namespace Frame

/-- The connector that is activated, deactivated or destroyed. -/
def drives : Frame C B → Option C
  | .activating c _ | .addSink c _ | .adding c _ | .deactivate c | .removeSink c _ => some c
  | .removing c _ | .examining c _ _ | .stopping c | .resetting c => some c
  | .destructor c | .baseDestructor c => some c
  | .dispatch _ _ | .mapSinks _ _ | .calling _ _ _ | .handling _ _ _ => none

/-- The connector to which the frame has a shared pointer. -/
def pointer? : Frame C B → Option C
  | .examining _ _ pointer | .calling _ pointer _ | .handling _ pointer _ => some pointer
  | .activating _ _ | .addSink _ _ | .adding _ _ | .deactivate _ | .removeSink _ _ => none
  | .removing _ _ | .stopping _ | .resetting _ | .destructor _ | .baseDestructor _ => none
  | .dispatch _ _ | .mapSinks _ _ => none

/-- The sinks that a loop calls, from the one it is at. -/
def loop? : Frame C B → Option (B × List C)
  | .mapSinks b rest => some (b, rest)
  | .calling b pointer rest | .handling b pointer rest => some (b, pointer :: rest)
  | .activating _ _ | .addSink _ _ | .adding _ _ | .deactivate _ | .removeSink _ _ => none
  | .removing _ _ | .examining _ _ _ | .stopping _ | .resetting _ => none
  | .destructor _ | .baseDestructor _ | .dispatch _ _ => none

/-- How far the driver of a connector has got. -/
def Progress (d : Data C B T) : Frame C B → Prop
  | .activating c b | .removeSink c b | .removing c b | .examining c b _ =>
      (d.connectors c).bus = some b
  | .addSink c b | .adding c b =>
      (d.connectors c).active = true ∧ (d.connectors c).bus = some b
  | .stopping c | .resetting c => ∀ b, ¬ Registered d b c
  | .destructor _ | .baseDestructor _ => False
  | .deactivate _ | .dispatch _ _ | .mapSinks _ _ | .calling _ _ _ | .handling _ _ _ => True

end Frame

/-- A connector that exists is driven by its driver, in its outermost call. What a loop has
still to call is registered, as far as it exists. -/
structure FrameOk (driver : C → T) (d : Data C B T) (t : T) (f : Frame C B)
    (below : List (Frame C B)) : Prop where
  driven : ∀ c, f.drives = some c →
    Expired d c ∨ (d.owned c = true ∧ driver c = t ∧ below = [] ∧ f.Progress d)
  listed : ∀ b l, f.loop? = some (b, l) → ∀ c ∈ l, Expired d c ∨ Registered d b c

def StackOk (driver : C → T) (d : Data C B T) (t : T) : List (Frame C B) → Prop
  | [] => True
  | f :: below => FrameOk driver d t f below ∧ StackOk driver d t below

/-- The pointers to `c` in the frames of a thread. -/
def held [DecidableEq C] (stack : List (Frame C B)) (c : C) : ℕ :=
  stack.countP fun f => f.pointer? = some c

/-- The pointer of the driver. -/
def ownedBy [DecidableEq T] (driver : C → T) (d : Data C B T) (c : C) (t : T) : ℕ :=
  if d.owned c = true ∧ driver c = t then 1 else 0

structure Inv [DecidableEq C] [DecidableEq B] [DecidableEq T] (driver : C → T)
    (s : State (Control C B T) (Data C B T) B T) : Prop where
  self : ∀ t, (s.pc t).self = t
  locks : (program driver).Owned s
  counted : ∀ c t, (s.data.references c).count t =
    ownedBy driver s.data c t + held (s.pc t).stack c
  frames : ∀ t, StackOk driver s.data t (s.pc t).stack
  linked : Linked s.data
  refused : s.data.refused = []

/-! ### What a step leaves alone -/

/-- What changes from `d` to `d'`: only the connector `c₀` is driven, and only from the lists
of the bus `b₀` sinks have gone that exist. -/
structure Change (d d' : Data C B T) (c₀ : Option C) (b₀ : Option B) : Prop where
  expired : ∀ c, Expired d c → Expired d' c
  same : ∀ c, c₀ ≠ some c → d'.connectors c = d.connectors c ∧ d'.owned c = d.owned c ∧
    ∀ b, Registered d' b c → Registered d b c
  kept : ∀ b c, b₀ ≠ some b → Registered d b c → Expired d' c ∨ Registered d' b c

variable {driver : C → T} {d d' : Data C B T} {t : T} {c₀ : Option C} {b₀ : Option B}

theorem Frame.lock_of_loop? {f : Frame C B} {b : B} {l : List C} (h : f.loop? = some (b, l)) :
    f.lock = some b := by
  cases f <;> simp_all [Frame.loop?, Frame.lock]

theorem Frame.Progress.congr {f : Frame C B} {c : C} (hdrives : f.drives = some c)
    (hconnector : d'.connectors c = d.connectors c)
    (hregistered : ∀ b, Registered d' b c → Registered d b c) (h : f.Progress d) :
    f.Progress d' := by
  cases f with
  | stopping _ | resetting _ =>
      obtain rfl := Option.some.inj hdrives
      exact fun b hb => h b (hregistered b hb)
  | activating _ _ | addSink _ _ | adding _ _ | removeSink _ _ | removing _ _ | examining _ _ _ =>
      obtain rfl := Option.some.inj hdrives
      simp only [Frame.Progress, hconnector] at h ⊢
      exact h
  | destructor _ | baseDestructor _ => exact h.elim
  | deactivate _ | dispatch _ _ | mapSinks _ _ | calling _ _ _ | handling _ _ _ => trivial

theorem FrameOk.change {f : Frame C B} {below : List (Frame C B)}
    (h : FrameOk driver d t f below) (hchange : Change d d' c₀ b₀)
    (hdrives : ∀ c, c₀ = some c → f.drives = some c → Expired d c)
    (hlock : ∀ b, b₀ = some b → f.lock ≠ some b) : FrameOk driver d' t f below where
  driven c hc := by
    rcases h.driven c hc with hexpired | ⟨howned, hdriver, hbelow, hprogress⟩
    · exact .inl (hchange.expired c hexpired)
    · by_cases htouched : c₀ = some c
      · exact .inl (hchange.expired c (hdrives c htouched hc))
      · obtain ⟨hconnector, howned', hregistered⟩ := hchange.same c htouched
        exact .inr ⟨howned'.trans howned, hdriver, hbelow,
          hprogress.congr hc hconnector hregistered⟩
  listed b l hloop c hc := by
    rcases h.listed b l hloop c hc with hexpired | hregistered
    · exact .inl (hchange.expired c hexpired)
    · exact hchange.kept b c (fun hb => hlock b hb (Frame.lock_of_loop? hloop)) hregistered

theorem StackOk.change {stack : List (Frame C B)} (h : StackOk driver d t stack)
    (hchange : Change d d' c₀ b₀)
    (hdrives : ∀ f ∈ stack, ∀ c, c₀ = some c → f.drives = some c → Expired d c)
    (hlock : ∀ f ∈ stack, ∀ b, b₀ = some b → f.lock ≠ some b) : StackOk driver d' t stack := by
  induction stack with
  | nil => trivial
  | cons f below ih =>
      refine ⟨h.1.change hchange (hdrives f List.mem_cons_self) (hlock f List.mem_cons_self), ?_⟩
      exact ih h.2 (fun g hg => hdrives g (List.mem_cons_of_mem _ hg))
        (fun g hg => hlock g (List.mem_cons_of_mem _ hg))

theorem StackOk.frameOk {stack above below : List (Frame C B)} {f : Frame C B}
    (h : StackOk driver d t stack) (hstack : stack = above ++ f :: below) :
    FrameOk driver d t f below := by
  induction above generalizing stack with
  | nil =>
      subst hstack
      exact h.1
  | cons g above ih =>
      subst hstack
      exact ih h.2 rfl

theorem StackOk.below {above below : List (Frame C B)}
    (h : StackOk driver d t (above ++ below)) : StackOk driver d t below := by
  induction above with
  | nil => exact h
  | cons f above ih => exact ih h.2

/-- A driver is in its outermost call. -/
theorem StackOk.driven {stack : List (Frame C B)} {f : Frame C B} {c : C}
    (h : StackOk driver d t stack) (hf : f ∈ stack) (hc : f.drives = some c) :
    Expired d c ∨ driver c = t := by
  obtain ⟨above, below, hstack⟩ := List.append_of_mem hf
  rcases (h.frameOk hstack).driven c hc with hexpired | ⟨-, hdriver, -⟩
  · exact .inl hexpired
  · exact .inr hdriver

theorem FrameOk.of_drives {f : Frame C B} {below : List (Frame C B)} {c : C}
    (hdrives : f.drives = some c) (hloop : f.loop? = none)
    (h : Expired d c ∨ (d.owned c = true ∧ driver c = t ∧ below = [] ∧ f.Progress d)) :
    FrameOk driver d t f below where
  driven c' hc' := by
    obtain rfl := Option.some.inj (hdrives.symm.trans hc')
    exact h
  listed b l hl := by simp [hloop] at hl

/-- The frame that follows another one for the same connector. -/
theorem FrameOk.next {f g : Frame C B} {below : List (Frame C B)} {c : C}
    (h : FrameOk driver d t f below) (hf : f.drives = some c) (hg : g.drives = some c)
    (hloop : g.loop? = none) (hexpired : Expired d c → Expired d' c)
    (howned : d'.owned c = d.owned c)
    (hprogress : ¬ Expired d c → f.Progress d → g.Progress d') :
    FrameOk driver d' t g below := by
  apply FrameOk.of_drives hg hloop
  by_cases hc : Expired d c
  · exact .inl (hexpired hc)
  · obtain ⟨howned', hdriver, hbelow, hfar⟩ := (h.driven c hf).resolve_left hc
    exact .inr ⟨howned.trans howned', hdriver, hbelow, hprogress hc hfar⟩

theorem FrameOk.of_loop {f : Frame C B} {below : List (Frame C B)} {b : B} {l : List C}
    (hdrives : f.drives = none) (hloop : f.loop? = some (b, l))
    (h : ∀ c ∈ l, Expired d c ∨ Registered d b c) : FrameOk driver d t f below where
  driven c hc := by simp [hdrives] at hc
  listed b' l' hl := by
    obtain ⟨rfl, rfl⟩ := Prod.mk.inj (Option.some.inj (hloop.symm.trans hl))
    exact h

/-- A loop goes on with some of its sinks. -/
theorem FrameOk.loop_next {f g : Frame C B} {below : List (Frame C B)} {b : B} {l l' : List C}
    (h : FrameOk driver d t f below) (hf : f.loop? = some (b, l)) (hdrives : g.drives = none)
    (hg : g.loop? = some (b, l')) (hsub : l' ⊆ l) (hexpired : ∀ c, Expired d c → Expired d' c)
    (hregistered : ∀ c, Registered d b c → Registered d' b c) : FrameOk driver d' t g below :=
  FrameOk.of_loop hdrives hg fun c hc =>
    (h.listed b l hf c (hsub hc)).imp (hexpired c) (hregistered c)

theorem FrameOk.dispatch {b : B} {scope : Scope} {below : List (Frame C B)} :
    FrameOk driver d t (.dispatch b scope) below where
  driven _ hc := by cases hc
  listed _ _ hl := by cases hl

/-! ### What a step does -/

section

variable [DecidableEq C]

@[simp] theorem held_nil (c : C) : held ([] : List (Frame C B)) c = 0 := rfl

theorem held_cons (f : Frame C B) (stack : List (Frame C B)) (c : C) :
    held (f :: stack) c = held stack c + if f.pointer? = some c then 1 else 0 := by
  simp [held, List.countP_cons]

theorem held_append (above below : List (Frame C B)) (c : C) :
    held (above ++ below) c = held above c + held below c := List.countP_append

variable [DecidableEq T]

/-- Thread `t` puts the frames `new` in place of `old`, which stand above `below`. -/
structure Does (driver : C → T) (t : T) (d : Data C B T) (old new below : List (Frame C B))
    (d' : Data C B T) (c₀ : Option C) (b₀ : Option B) : Prop where
  change : Change d d' c₀ b₀
  drives : ∀ c, c₀ = some c → Expired d c ∨ (driver c = t ∧ below = [])
  unlists : ∀ b, b₀ = some b → (∃ f ∈ old, f.lock = some b) ∧ below = []
  frames : StackOk driver d' t below → StackOk driver d' t (new ++ below)
  counted : ∀ c t', (d'.references c).count t' + ownedBy driver d c t' +
      (if t' = t then held old c else 0) =
    (d.references c).count t' + ownedBy driver d' c t' + (if t' = t then held new c else 0)
  linked : Linked d'
  refused : d'.refused = d.refused

/-- A step that does what is said keeps the invariant. -/
theorem Inv.of_does [DecidableEq B] {s : State (Control C B T) (Data C B T) B T}
    (h : Inv driver s) {t : T} {old new below stack : List (Frame C B)} {owner : B → Option T}
    (hstack : (s.pc t).stack = old ++ below) (hnew : stack = new ++ below)
    (hdoes : Does driver t s.data old new below d' c₀ b₀)
    (hlocks : (program driver).Owned
      ⟨Function.update s.pc t ⟨(s.pc t).self, stack⟩, d', owner⟩) :
    Inv driver ⟨Function.update s.pc t ⟨(s.pc t).self, stack⟩, d', owner⟩ where
  self t' := by
    by_cases ht : t' = t
    · subst ht
      simpa using h.self t'
    · simpa [ht] using h.self t'
  locks := hlocks
  counted c t' := by
    have hbefore := h.counted c t'
    have hstep := hdoes.counted c t'
    by_cases ht : t' = t
    · subst ht
      rw [hstack, held_append] at hbefore
      simp only [if_true, Function.update_self, hnew, held_append] at hstep ⊢
      omega
    · simp only [ht, if_false, ne_eq, not_false_eq_true, Function.update_of_ne] at hstep ⊢
      omega
  frames t' := by
    have hstackOk := h.frames t'
    by_cases ht : t' = t
    · subst ht
      simp only [Function.update_self, hnew]
      have hbelowOk : StackOk driver s.data t' below := by
        rw [hstack] at hstackOk
        exact hstackOk.below
      refine hdoes.frames (hbelowOk.change hdoes.change ?_ ?_)
      · intro f hf c hc _
        rcases hdoes.drives c hc with hexpired | ⟨-, hbelow⟩
        · exact hexpired
        · simp [hbelow] at hf
      · intro f hf b hb
        simp [(hdoes.unlists b hb).2] at hf
    · simp only [Function.update_of_ne ht]
      refine hstackOk.change hdoes.change ?_ ?_
      · intro f hf c hc hdrives
        rcases hdoes.drives c hc with hexpired | ⟨hdriver, -⟩
        · exact hexpired
        · rcases hstackOk.driven hf hdrives with hexpired | hdriver'
          · exact hexpired
          · exact absurd (hdriver'.symm.trans hdriver) ht
      · intro f hf b hb hlock
        obtain ⟨⟨g, hg, hglock⟩, -⟩ := hdoes.unlists b hb
        have hholds : b ∈ (program driver).holds (s.pc t) := by
          refine List.mem_filterMap.mpr ⟨g, ?_, hglock⟩
          rw [hstack]
          exact List.mem_append_left _ hg
        have hholds' : b ∈ (program driver).holds (s.pc t') :=
          List.mem_filterMap.mpr ⟨f, hf, hlock⟩
        exact ht (h.locks.exclusive hholds' hholds)
  linked := hdoes.linked
  refused := hdoes.refused.trans h.refused

end

end Rsb.Transport.Socket.ConnectorLifetime
