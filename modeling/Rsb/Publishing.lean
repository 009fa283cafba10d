import Rsb.Informer
import Rsb.Library.InPlace
import Rsb.Library.Runs
import Mathlib.Algebra.Group.Nat.Defs

/-!
Runs of publications (`Informer.cpp`).

Events are passed by pointers. `publish` checks the event behind the pointer, writes the
id into it and hands the pointer to the connectors, which may change the event again. A
client may publish an event any number of times, and change it in between.

The numbers an informer gives out are counted modulo `2 ^ 32`; since only accepted
events get one, the ids of what is sent follow each other without gaps.
-/

namespace Rsb.Publishing

open Library Library.InPlace

variable {δ : Type}

/-- The informer, the events by their pointers, and what the configurator was given. -/
structure Publisher (δ : Type) where
  informer : Informer
  made : ℕ
  events : ℕ → Event δ
  sent : List (Event δ)

/-- What the connectors of the configurator do with an event, one after the other. -/
abbrev Connectors (δ : Type) := List (Event δ → Event δ)

def process (connectors : Connectors δ) (e : Event δ) : Event δ :=
  connectors.foldl (fun e handle => handle e) e

def modifyEvent (p : ℕ) (f : Event δ → Event δ) (s : Publisher δ) : Publisher δ :=
  { s with events := Function.update s.events p (f (s.events p)) }

section

variable (print : Printer δ) (connectors : Connectors δ)

def nextSequenceNumber : InPlace Fault (Publisher δ) UInt32 := do
  let s ← get
  set { s with informer := s.informer.nextSequenceNumber.2 }
  return s.informer.nextSequenceNumber.1

def uncheckedPublish (p : ℕ) : InPlace Fault (Publisher δ) Unit := do
  let sequenceNumber ← nextSequenceNumber
  modify fun s => modifyEvent p (·.setId s.informer.id sequenceNumber) s
  -- `configurator->publish(event)`
  modify fun s => modifyEvent p (process connectors) { s with sent := s.sent ++ [s.events p] }

def checkedPublish (p : ℕ) : InPlace Fault (Publisher δ) Unit := do
  let s ← get
  let e := s.events p
  if e.type = [] then
    throw (invalidArgument (bytes "Event type cannot be empty: " ++ print.event e))
  else if s.informer.type ≠ [] ∧ e.type ≠ s.informer.type then
    throw (invalidArgument (bytes "Specified event type " ++ e.type ++
      bytes " does not match informer type " ++ s.informer.type ++ bytes "."))
  else if e.scope ≠ s.informer.scope ∧ !e.scope.isSubScopeOf s.informer.scope then
    throw (invalidArgument (bytes "Specified event scope " ++ print.scope e.scope ++
      bytes " does not match informer scope " ++ print.scope s.informer.scope ++ bytes "."))
  else uncheckedPublish connectors p

/-- A new event; its pointer is returned. -/
def new (e : Event δ) : InPlace Fault (Publisher δ) ℕ := do
  let s ← get
  set { s with made := s.made + 1, events := Function.update s.events s.made e }
  return s.made

def createEvent (now : UInt64) : InPlace Fault (Publisher δ) ℕ := do
  let s ← get
  new ((Event.new now).setScope s.informer.scope)

/-- `publish(EventPtr)`. -/
def publish (p : ℕ) : InPlace Fault (Publisher δ) Unit := checkedPublish print connectors p

/-- `publish(VoidPtr, const std::string&)`. -/
def publishData (now : UInt64) (data : Option δ) (type : Bytes) :
    InPlace Fault (Publisher δ) Unit := do
  let p ← createEvent now
  modify (modifyEvent p (·.setData data))
  modify (modifyEvent p (·.setType type))
  checkedPublish print connectors p

end

/-- What a client does with an informer and its events. -/
inductive Call (δ : Type)
  | create (e : Event δ)
  | modify (p : ℕ) (f : Event δ → Event δ)
  | publish (connectors : Connectors δ) (p : ℕ)
  | publishData (connectors : Connectors δ) (now : UInt64) (data : Option δ) (type : Bytes)

def Call.run (print : Printer δ) : Call δ → InPlace Fault (Publisher δ) Unit
  | .create e => do let _ ← new e
  | .modify p f => MonadState.modifyGet fun s => ((), modifyEvent p f s)
  | .publish connectors p => Publishing.publish print connectors p
  | .publishData connectors now data type => Publishing.publishData print connectors now data type

/-- Pointers are those of events that have been made. -/
def step (print : Printer δ) (s : Publisher δ) (call : Call δ) : Option (Publisher δ) :=
  match call with
  | .modify p _ | .publish _ p => if p < s.made then some (left ((call.run print).run s)) else none
  | .create _ | .publishData _ _ _ _ => some (left ((call.run print).run s))

/-- A new informer, and no event so far. -/
def init (id : UUID) (scope : Scope) (type : Bytes) : Publisher δ :=
  ⟨⟨id, scope, type, 0⟩, 0, fun _ => Event.new 0, []⟩

/-! ### One publication -/

/-- The informer takes the event. -/
def Acceptable (i : Informer) (e : Event δ) : Prop :=
  e.type ≠ [] ∧ (i.type ≠ [] → e.type = i.type) ∧
    (e.scope = i.scope ∨ e.scope.isSubScopeOf i.scope = true)

instance (i : Informer) (e : Event δ) : Decidable (Acceptable i e) :=
  inferInstanceAs (Decidable (_ ∧ _ ∧ _))

/-- The state after an accepted publication. -/
def published (connectors : Connectors δ) (p : ℕ) (s : Publisher δ) : Publisher δ :=
  let e := (s.events p).setId s.informer.id s.informer.currentSequenceNumber
  { s with
    informer := { s.informer with currentSequenceNumber := s.informer.currentSequenceNumber + 1 }
    events := Function.update s.events p (process connectors e)
    sent := s.sent ++ [e] }

theorem run_uncheckedPublish (connectors : Connectors δ) (p : ℕ) (s : Publisher δ) :
    (uncheckedPublish connectors p).run s = .ok () (published connectors p s) := by
  show EStateM.Result.ok () _ = EStateM.Result.ok () _
  congr 1
  simp [modifyEvent, published, Informer.nextSequenceNumber]

/-- An event is accepted, with all that follows, or refused with nothing done. -/
theorem run_publish (print : Printer δ) (connectors : Connectors δ) (p : ℕ) (s : Publisher δ) :
    (Acceptable s.informer (s.events p) ∧
      (publish print connectors p).run s = .ok () (published connectors p s)) ∨
    (¬Acceptable s.informer (s.events p) ∧
      ∃ what, (publish print connectors p).run s = .error (invalidArgument what) s) := by
  have hunchecked := run_uncheckedPublish connectors p s
  simp only [publish, checkedPublish, run_get_bind]
  simp only [EStateM.run] at hunchecked ⊢
  split_ifs with hempty htype hscope
  · exact .inr ⟨fun h => h.1 hempty, _, rfl⟩
  · exact .inr ⟨fun h => htype.2 (h.2.1 htype.1), _, rfl⟩
  · refine .inr ⟨fun h => ?_, _, rfl⟩
    rcases h.2.2 with heq | hsub
    · exact hscope.1 heq
    · simp [hsub] at hscope
  · refine .inl ⟨⟨hempty, fun hne => by_contra fun h => htype ⟨hne, h⟩, ?_⟩, hunchecked⟩
    by_contra h
    obtain ⟨hne, hsub⟩ := not_or.mp h
    exact hscope ⟨hne, by simpa using hsub⟩

/-- The events and the informer come out as from `Informer.checkedPublish`. -/
theorem run_publish_eq (print : Printer δ) (connectors : Connectors δ) (p : ℕ) (s : Publisher δ) :
    (publish print connectors p).run s =
      match s.informer.checkedPublish print (s.events p) with
      | .ok (informer, e) => .ok () { s with
          informer
          events := Function.update s.events p (process connectors e)
          sent := s.sent ++ [e] }
      | .error f => .error f s := by
  have hunchecked := run_uncheckedPublish connectors p s
  simp only [publish, checkedPublish, run_get_bind, Informer.checkedPublish]
  simp only [EStateM.run] at hunchecked ⊢
  split_ifs
  · rfl
  · rfl
  · rfl
  · exact hunchecked

/-- The event that `publishData` makes. -/
def dataEvent (i : Informer) (now : UInt64) (data : Option δ) (type : Bytes) : Event δ :=
  (((Event.new now : Event δ).setScope i.scope).setData data).setType type

/-- A call returns exactly for an event that is acceptable, and has then sent it; else
nothing has changed. -/
theorem publish_exact (print : Printer δ) (connectors : Connectors δ) (p : ℕ) (s : Publisher δ) :
    ((∃ s', (publish print connectors p).run s = .ok () s') ↔
      Acceptable s.informer (s.events p)) ∧
    (∀ s', (publish print connectors p).run s = .ok () s' → s' = published connectors p s) ∧
    ∀ f s', (publish print connectors p).run s = .error f s' → s' = s := by
  rcases run_publish print connectors p s with ⟨haccepted, hok⟩ | ⟨hrefused, what, herror⟩
  · rw [hok]
    refine ⟨iff_of_true ⟨_, rfl⟩ haccepted, ?_, ?_⟩
    · intro s' hs'
      cases hs'
      rfl
    · intro f s' hs'
      cases hs'
  · rw [herror]
    refine ⟨iff_of_false ?_ hrefused, ?_, ?_⟩
    · rintro ⟨s', hs'⟩
      cases hs'
    · intro s' hs'
      cases hs'
    · intro f s' hs'
      cases hs'
      rfl

/-- Data is published like an event made for it. -/
theorem run_publishData (print : Printer δ) (connectors : Connectors δ) (now : UInt64)
    (data : Option δ) (type : Bytes) (s : Publisher δ) :
    (publishData print connectors now data type).run s =
      (publish print connectors s.made).run { s with
        made := s.made + 1
        events := Function.update s.events s.made (dataEvent s.informer now data type) } := by
  show (checkedPublish print connectors s.made).run _ = _
  simp [publish, modifyEvent, dataEvent]

/-! ### Runs -/

/-- What is sent carries the id of the informer and the numbers from 0 on. -/
structure Numbered (id : UUID) (scope : Scope) (type : Bytes) (s : Publisher δ) : Prop where
  informer : s.informer = ⟨id, scope, type, UInt32.ofNat s.sent.length⟩
  ids : ∀ (k : ℕ) (e : Event δ), s.sent[k]? = some e → e.id = some ⟨id, UInt32.ofNat k⟩

section

variable {id : UUID} {scope : Scope} {type : Bytes}

theorem Numbered.congr {s s' : Publisher δ} (h : Numbered id scope type s)
    (hinformer : s'.informer = s.informer) (hsent : s'.sent = s.sent) :
    Numbered id scope type s' := by
  refine ⟨?_, ?_⟩
  · rw [hinformer, hsent]
    exact h.informer
  · rw [hsent]
    exact h.ids

theorem Numbered.published {s : Publisher δ} (h : Numbered id scope type s)
    (connectors : Connectors δ) (p : ℕ) :
    Numbered id scope type (published connectors p s) := by
  refine ⟨?_, fun k e he => ?_⟩
  · simp only [Publishing.published, h.informer, List.length_append, List.length_singleton]
    rw [UInt32.ofNat_add]
    rfl
  · rcases lt_trichotomy k s.sent.length with hk | rfl | hk
    · have hold : s.sent[k]? = some e := by
        simpa [Publishing.published, List.getElem?_append_left hk] using he
      exact h.ids k e hold
    · have hnew : (s.events p).setId s.informer.id s.informer.currentSequenceNumber = e := by
        simpa [Publishing.published] using he
      rw [← hnew, h.informer]
      rfl
    · have hnone : (Publishing.published connectors p s).sent[k]? = none := by
        apply List.getElem?_eq_none
        simp only [Publishing.published, List.length_append, List.length_singleton]
        omega
      simp [hnone] at he

theorem Numbered.publish {s : Publisher δ} (h : Numbered id scope type s) (print : Printer δ)
    (connectors : Connectors δ) (p : ℕ) :
    Numbered id scope type (left ((publish print connectors p).run s)) := by
  rcases run_publish print connectors p s with ⟨-, hrun⟩ | ⟨-, what, hrun⟩
  · rw [hrun]
    exact h.published connectors p
  · rw [hrun]
    exact h

theorem Numbered.step {s s' : Publisher δ} {call : Call δ} (h : Numbered id scope type s)
    {print : Printer δ} (hstep : step print s call = some s') : Numbered id scope type s' := by
  cases call with
  | create e =>
      obtain rfl := Option.some.inj hstep
      exact h.congr rfl rfl
  | modify p f =>
      simp only [Publishing.step] at hstep
      split_ifs at hstep
      obtain rfl := Option.some.inj hstep
      exact h.congr rfl rfl
  | publish connectors p =>
      simp only [Publishing.step] at hstep
      split_ifs at hstep
      obtain rfl := Option.some.inj hstep
      exact h.publish print connectors p
  | publishData connectors now data dataType =>
      obtain rfl := Option.some.inj hstep
      rw [Call.run, run_publishData]
      apply Numbered.publish
      exact h.congr rfl rfl

theorem numbered_init : Numbered id scope type (init id scope type : Publisher δ) :=
  ⟨rfl, by simp [init]⟩

/-- Numbers that are less than `2 ^ 32` apart are different. -/
theorem ofNat_ne_of_lt {j k : ℕ} (hlt : j < k) (hk : k - j < 2 ^ 32) :
    UInt32.ofNat j ≠ UInt32.ofNat k := by
  intro h
  have hmod := congrArg UInt32.toNat h
  simp only [UInt32.toNat_ofNat'] at hmod
  omega

end

/-- In every run, an event is accepted exactly if it has a type, the one of the informer
if there is one, and the scope of the informer or one below. A rejected event is not
sent and leaves everything as it was; for rejected data this holds of the informer, of
what is sent and of all events there were. What is sent carries the id of the informer
and the numbers from 0 on, modulo `2 ^ 32`, so that two events fewer than `2 ^ 32`
publications apart have different ids. -/
theorem publications_numbered (print : Printer δ) (id : UUID) (scope : Scope) (type : Bytes)
    (calls : List (Call δ)) (s : Publisher δ)
    (hrun : exec (step print) (init id scope type) calls = some s) :
    (∀ connectors p,
      let r := (publish print connectors p).run s
      ((∃ s', r = .ok () s') ↔ (s.events p).type ≠ [] ∧
        (type ≠ [] → (s.events p).type = type) ∧
        ((s.events p).scope = scope ∨ (s.events p).scope.isSubScopeOf scope = true)) ∧
      (∀ s', r = .ok () s' → ∃ e, s'.sent = s.sent ++ [e] ∧
        e = (s.events p).setId id (UInt32.ofNat s.sent.length)) ∧
      ∀ f s', r = .error f s' → s' = s) ∧
    (∀ connectors now data dataType,
      let r := (publishData print connectors now data dataType).run s
      ((∃ s', r = .ok () s') ↔ dataType ≠ [] ∧ (type ≠ [] → dataType = type)) ∧
      (∀ s', r = .ok () s' → ∃ e, s'.sent = s.sent ++ [e] ∧
        e = (dataEvent s.informer now data dataType).setId id (UInt32.ofNat s.sent.length)) ∧
      ∀ f s', r = .error f s' →
        s'.informer = s.informer ∧ s'.sent = s.sent ∧ ∀ p < s.made, s'.events p = s.events p) ∧
    (∀ (k : ℕ) (e : Event δ), s.sent[k]? = some e → e.id = some ⟨id, UInt32.ofNat k⟩) ∧
    ∀ (j k : ℕ) (e e' : Event δ), j < k → k - j < 2 ^ 32 → s.sent[j]? = some e → s.sent[k]? = some e' →
      e.id ≠ e'.id := by
  have hnumbered : Numbered id scope type s :=
    exec_invariant (fun _ _ _ h hstep => h.step hstep) numbered_init hrun
  have hinformer := hnumbered.informer
  refine ⟨fun connectors p => ?_, fun connectors now data dataType => ?_, hnumbered.ids, ?_⟩
  · obtain ⟨haccepted, hsent, hrefused⟩ := publish_exact print connectors p s
    refine ⟨?_, ?_, hrefused⟩
    · rw [haccepted, Acceptable, hinformer]
    · intro s' hs'
      obtain rfl := hsent s' hs'
      exact ⟨_, rfl, by rw [hinformer]⟩
  · rw [run_publishData]
    generalize hmade : ({ s with
      made := s.made + 1
      events := Function.update s.events s.made (dataEvent s.informer now data dataType) } :
        Publisher δ) = t
    obtain ⟨haccepted, hsent, hrefused⟩ := publish_exact print connectors s.made t
    refine ⟨?_, ?_, ?_⟩
    · rw [haccepted]
      subst hmade
      simp [Acceptable, hinformer, dataEvent, Event.setType, Event.setData, Event.setScope]
    · intro s' hs'
      obtain rfl := hsent s' hs'
      subst hmade
      exact ⟨_, rfl, by simp [hinformer]⟩
    · intro f s' hs'
      obtain rfl := hrefused f s' hs'
      subst hmade
      exact ⟨rfl, rfl, fun p hp => Function.update_of_ne hp.ne _ _⟩
  · intro j k e e' hlt hk he he' heq
    rw [hnumbered.ids j e he, hnumbered.ids k e' he'] at heq
    have hnumbers := congrArg EventId.sequenceNumber (Option.some.inj heq)
    exact ofNat_ne_of_lt hlt hk hnumbers

def sensor : UUID := ⟨List.replicate 16 22, by decide⟩

/-- One event is published twice; between the two calls it is refused without a type. -/
def repeated : List (Call Bytes) :=
  [.create ((Event.new 0).setType (bytes "t")), .publish [] 0, .modify 0 (·.setType []),
    .publish [] 0, .modify 0 (·.setType (bytes "t")), .publish [] 0]

def plainPrinter : Printer Bytes := ⟨fun _ => [], Scope.toString⟩

theorem publications_numbered_repeated :
    ∃ s, exec (step plainPrinter) (init sensor Scope.root []) repeated = some s ∧
      s.sent.length = 2 ∧
      ∀ e e' : Event Bytes, s.sent[0]? = some e → s.sent[1]? = some e' → e.id ≠ e'.id :=
  ⟨_, rfl, rfl, fun e e' => (publications_numbered plainPrinter sensor Scope.root [] repeated _
    rfl).2.2.2 0 1 e e' Nat.zero_lt_one (by decide)⟩

end Rsb.Publishing
