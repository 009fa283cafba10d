import Rsb.EventProcessing.ScopeDispatcher
import Rsb.Patterns.LocalServer
import Rsb.Transport.Inprocess.Delivery

/-!
Requests on a bus (`LocalServer.cpp`, `BusImpl.cpp`, `inprocess/Bus.cpp`).

The listener of a method also receives what is sent to scopes below. The connectors of the
socket bus copy an event before they hand it on; on the in-process bus all methods get the
same object, with what those before have made of it.
-/

namespace Rsb.Patterns

open Library

variable {δ : Type}

inductive BusKind
  | socket | inprocess
  deriving DecidableEq

/-- What methods work with. -/
structure Setting (δ : Type) where
  typeName : Exception → Bytes
  ofString : Bytes → δ
  print : Printer δ
  informing : LocalMethod.Informing δ
  now : UInt64
  /-- The error strategy of the listener of a method is to end the process. -/
  exits : LocalMethod δ → Bool
  /-- What the handler of a method, and whoever else has the event, makes of a shared event
  before the next method gets it. -/
  leaves : LocalMethod δ → Event δ → Event δ

/-- `deliver` of the receiving strategy catches exceptions. -/
def LocalMethod.Execution.survives (exits : Bool) (x : Execution δ) : Bool :=
  match x.outcome with
  | .ok _ => true
  | .error (.fault (.thrown _)) | .error .foreign => !exits
  | .error (.fault _) => false

/-- The times that the connector and the receiving strategy of a listener write. -/
def BusKind.arrive (bus : BusKind) (now : UInt64) (event : Event δ) : Event δ :=
  let event :=
    match bus with
    | .socket => event.modifyMetaData (·.setReceiveTime now 0)
    | .inprocess =>
        if event.metaData.receiveTime = 0 then event.modifyMetaData (·.setReceiveTime now 0)
        else event
  event.modifyMetaData (·.setDeliverTime now now)

/-- The bus of one process with a connector for each method. The connectors are known by the
numbers of their methods. -/
def inprocessBus (methods : List (LocalMethod δ)) : Transport.Inprocess.Bus ℕ :=
  methods.zipIdx.foldl (fun b e => b.addSink e.2 e.1.scope) .empty

/-- The methods whose connectors a bus calls for an event, one after the other. -/
def reached (bus : BusKind) (methods : List (LocalMethod δ)) (scope : Scope) :
    Except Fault (List (LocalMethod δ)) :=
  match bus with
  | .socket => do
      let _ ← scope.object.superScopes true
      (WeakScopeDispatcher.ofRegistrations (methods.map fun m => (m.scope, m))).mapSinks
        (fun _ => true) scope
  | .inprocess =>
      .ok (((inprocessBus methods).handleNoLock (fun _ => true) scope).2.filterMap (methods[·]?))

namespace Setting

variable (s : Setting δ)

def handle (m : LocalMethod δ) (event : Event δ) : LocalMethod.Execution δ :=
  m.handle s.typeName s.ofString s.print s.informing s.now event

/-- The event that the next connector is called with: the one that is published or, on the
in-process bus, what has become of it. -/
def next (bus : BusKind) (event : Event δ) (m : LocalMethod δ) : Event δ :=
  match bus with
  | .socket => event
  | .inprocess => s.leaves m (bus.arrive s.now event)

/-- The calls of `handle`, each with the event it gets. -/
def handleAll (bus : BusKind) :
    Event δ → List (LocalMethod δ) → List (LocalMethod δ × Event δ × LocalMethod.Execution δ)
  | _, [] => []
  | event, m :: ms =>
      let found := bus.arrive s.now event
      let rest := handleAll bus (s.next bus event m) ms
      if LocalMethod.filter.match found then
        let x := s.handle m found
        (m, found, x) :: if x.survives (s.exits m) then rest else []
      else rest

/-- What the methods do with an event on the bus. -/
def serve (bus : BusKind) (methods : List (LocalMethod δ)) (event : Event δ) :
    Except Fault (List (LocalMethod δ × Event δ × LocalMethod.Execution δ)) := do
  let ms ← reached bus methods event.scope
  return s.handleAll bus event ms

end Setting

/-! ### Who is reached -/

theorem covers_eq {a b : Scope} : a.covers b = true ↔ b = a ∨ b.isSubScopeOf a = true := by
  rw [Scope.covers, Bool.or_eq_true, beq_iff_eq, Scope.isSubScopeOf_eq, eq_comm]

/-- Every connector is registered on the scope of its method. -/
theorem exact_inprocessBus (methods : List (LocalMethod δ)) :
    Transport.Inprocess.Exact (inprocessBus methods) fun k => (methods[k]?).map (·.scope) := by
  have hfold (later done : List (LocalMethod δ)) (b : Transport.Inprocess.Bus ℕ)
      (hb : Transport.Inprocess.Exact b fun k => (done[k]?).map (·.scope)) :
      Transport.Inprocess.Exact
        ((later.zipIdx done.length).foldl (fun b e => b.addSink e.2 e.1.scope) b)
        fun k => ((done ++ later)[k]?).map (·.scope) := by
    induction later generalizing done b with
    | nil => simpa using hb
    | cons m later ih =>
        have hfree : (done[done.length]?).map (·.scope) = none := by simp
        have hnext := hb.addSink hfree m.scope
        have hregistered : (Function.update (fun k => (done[k]?).map (·.scope)) done.length
            (some m.scope)) = fun k => ((done ++ [m])[k]?).map (·.scope) := by
          funext k
          rcases lt_trichotomy k done.length with hk | rfl | hk
          · simp [Function.update_of_ne hk.ne, List.getElem?_append_left hk]
          · simp
          · have hnone : (done ++ [m])[k]? = none := List.getElem?_eq_none (by simp; omega)
            simp [Function.update_of_ne hk.ne', hnone, hk.le]
        rw [hregistered] at hnext
        have hlater := ih (done ++ [m]) _ hnext
        rw [List.length_append, List.length_singleton, List.append_assoc] at hlater
        exact hlater
  exact hfold methods [] .empty Transport.Inprocess.consistent_init.exact

theorem reached_spec {methods : List (LocalMethod δ)} (hdistinct : (methods.map (·.scope)).Nodup)
    (bus : BusKind) {scope : Scope} (hfit : bus = .socket → scope.SuperScopesFit) :
    ∃ ms, reached bus methods scope = .ok ms ∧ ms.Nodup ∧
      ∀ m, m ∈ ms ↔ m ∈ methods ∧ (scope = m.scope ∨ scope.isSubScopeOf m.scope = true) := by
  cases bus with
  | socket =>
      let registrations := methods.map fun m => (m.scope, m)
      have hnodup : (registrations.map (·.2)).Nodup := by
        simpa [registrations, Function.comp_def] using hdistinct.of_map
      refine ⟨(WeakScopeDispatcher.ofRegistrations registrations).sinksAbove (fun _ => true) scope,
        ?_, WeakScopeDispatcher.nodup_sinksAbove_ofRegistrations hnodup _ _, fun m => ?_⟩
      · simp only [reached, Scope.superScopes_object_eq, WeakScopeDispatcher.mapSinks_eq,
          if_pos (hfit rfl)]
        rfl
      · simp [WeakScopeDispatcher.mem_sinksAbove_ofRegistrations, registrations, covers_eq]
  | inprocess =>
      let state : Transport.Inprocess.State ℕ :=
        ⟨inprocessBus methods, fun k => (methods[k]?).map (·.scope), fun _ => true, none⟩
      have hstate : Transport.Inprocess.Consistent state :=
        ⟨exact_inprocessBus methods, fun _ _ => rfl⟩
      have hcount := hstate.count_calls scope
      have hmem (k : ℕ) : k ∈ state.calls scope ↔
          ∃ m, methods[k]? = some m ∧ m.scope.covers scope = true := by
        rw [← List.count_pos_iff, hcount]
        split_ifs with hreceives
        · refine iff_of_true Nat.one_pos ?_
          simpa [Transport.Inprocess.Receives, state] using hreceives
        · refine iff_of_false (lt_irrefl 0) ?_
          simpa [Transport.Inprocess.Receives, state] using hreceives
      refine ⟨(state.calls scope).filterMap (methods[·]?), rfl, ?_, fun m => ?_⟩
      · have hnodup : (state.calls scope).Nodup := List.nodup_iff_count_le_one.mpr fun k => by
          rw [hcount]
          split_ifs <;> simp
        refine hnodup.filterMap fun i j m hi hj => ?_
        obtain ⟨hlt, -⟩ := List.getElem?_eq_some_iff.mp hi
        exact (List.getElem?_inj hlt hdistinct.of_map).mp (hi.trans hj.symm)
      · rw [List.mem_filterMap, ← covers_eq]
        constructor
        · rintro ⟨k, hk, hm⟩
          obtain ⟨m', hm', hcovers⟩ := (hmem k).mp hk
          obtain rfl := Option.some.inj (hm'.symm.trans hm)
          exact ⟨List.mem_of_getElem? hm, hcovers⟩
        · rintro ⟨hm, hcovers⟩
          obtain ⟨k, hk⟩ := List.getElem?_of_mem hm
          exact ⟨k, (hmem k).mpr ⟨m, hk, hcovers⟩, hk⟩

/-! ### What the methods do -/

/-- As far as methods and their filters look at a request, it is the same. -/
structure SameRequest (event found : Event δ) : Prop where
  id : found.id = event.id
  method : found.method = event.method
  type : found.type = event.type

theorem SameRequest.trans {a b c : Event δ} (h : SameRequest a b) (h' : SameRequest b c) :
    SameRequest a c :=
  ⟨h'.id.trans h.id, h'.method.trans h.method, h'.type.trans h.type⟩

theorem BusKind.sameRequest_arrive (bus : BusKind) (now : UInt64) (event : Event δ) :
    SameRequest event (bus.arrive now event) := by
  cases bus with
  | socket => exact ⟨rfl, rfl, rfl⟩
  | inprocess =>
      simp only [BusKind.arrive]
      split <;> exact ⟨rfl, rfl, rfl⟩

namespace Setting

variable {s : Setting δ} {bus : BusKind}

/-- What the methods of a list find of a request. -/
theorem handleAll_induction {P : List (LocalMethod δ) →
      List (LocalMethod δ × Event δ × LocalMethod.Execution δ) → Prop} {event : Event δ}
    (hrequest : event.method = bytes "REQUEST")
    {ms : List (LocalMethod δ)}
    (hleaves : bus = .inprocess → ∀ m ∈ ms, ∀ e, SameRequest event e →
      SameRequest event (s.leaves m e))
    (hnil : P [] [])
    (hcons : ∀ m ms found rest, SameRequest event found → P ms rest →
      P (m :: ms) ((m, found, s.handle m found) ::
        if (s.handle m found).survives (s.exits m) then rest else [])) :
    P ms (s.handleAll bus event ms) := by
  have hall (e : Event δ) (he : SameRequest event e) : P ms (s.handleAll bus e ms) := by
    induction ms generalizing e with
    | nil => exact hnil
    | cons m ms ih =>
        have hfound := he.trans (bus.sameRequest_arrive s.now e)
        have hfilter : LocalMethod.filter.match (bus.arrive s.now e) = true := by
          simp [LocalMethod.filter, MethodFilter.match, hfound.method, hrequest]
        have hrest := ih fun hbus m' hm' => hleaves hbus m' (List.mem_cons_of_mem _ hm')
        have hnext : SameRequest event (s.next bus e m) := by
          cases bus with
          | socket => exact he
          | inprocess => exact hleaves rfl m List.mem_cons_self _ hfound
        rw [handleAll, if_pos hfilter]
        exact hcons m ms _ _ hfound (hrest _ hnext)
  exact hall event ⟨rfl, rfl, rfl⟩

section

variable {event : Event δ} (hrequest : event.method = bytes "REQUEST") {ms : List (LocalMethod δ)}
  (hleaves : bus = .inprocess → ∀ m ∈ ms, ∀ e, SameRequest event e →
    SameRequest event (s.leaves m e))

include hrequest hleaves

theorem handleAll_sublist : ((s.handleAll bus event ms).map (·.1)).Sublist ms := by
  refine handleAll_induction (P := fun ms served => (served.map (·.1)).Sublist ms) hrequest hleaves
    .slnil fun m ms found rest _ hrest => ?_
  rw [List.map_cons]
  split
  · exact hrest.cons_cons m
  · exact (List.nil_sublist ms).cons_cons m

theorem of_mem_handleAll {m : LocalMethod δ} {e : Event δ} {x : LocalMethod.Execution δ}
    (h : (m, e, x) ∈ s.handleAll bus event ms) : SameRequest event e ∧ x = s.handle m e := by
  revert h
  refine handleAll_induction (P := fun _ served => (m, e, x) ∈ served →
    SameRequest event e ∧ x = s.handle m e) hrequest hleaves (by simp)
    fun m' ms found rest hfound hrest h => ?_
  rcases List.mem_cons.mp h with heq | h
  · obtain ⟨rfl, rfl, rfl⟩ := heq
    exact ⟨hfound, rfl⟩
  · split at h
    · exact hrest h
    · cases h

/-- No method is left out as long as the process goes on. -/
theorem exists_mem_handleAll
    (hsurvives : ∀ m ∈ ms, ∀ e, SameRequest event e →
      (s.handle m e).survives (s.exits m) = true) {m : LocalMethod δ} (hm : m ∈ ms) :
    ∃ e x, (m, e, x) ∈ s.handleAll bus event ms := by
  revert hsurvives hm
  refine handleAll_induction (P := fun ms served => (∀ m ∈ ms, ∀ e, SameRequest event e →
    (s.handle m e).survives (s.exits m) = true) → m ∈ ms → ∃ e x, (m, e, x) ∈ served) hrequest
    hleaves (by simp) fun m' ms found rest hfound hrest hsurvives hm => ?_
  rcases List.mem_cons.mp hm with rfl | hm
  · exact ⟨found, _, List.mem_cons_self⟩
  · obtain ⟨e, x, hx⟩ := hrest (fun m hm => hsurvives m (List.mem_cons_of_mem _ hm)) hm
    rw [if_pos (hsurvives m' List.mem_cons_self found hfound)]
    exact ⟨e, x, List.mem_cons_of_mem _ hx⟩

end

end Setting

namespace LocalMethod

def participant : UUID := ⟨List.replicate 16 3, by decide⟩

/-- The server at `/s/`, and its method `m`, which answers with the request. -/
def outerServer : LocalServer Bytes := ⟨Scope.ofComponents [bytes "s"] (by decide), .empty⟩

def outerMethod : LocalMethod Bytes :=
  ⟨Scope.ofComponents [bytes "s", bytes "m"] (by decide), bytes "m",
    .event (fun _ request => .ok (some request)) fun _ request => request, participant, 0⟩

/-- The server at `/s/m/`, and its method `n`, which takes a string and returns it. -/
def innerServer : LocalServer Bytes :=
  ⟨Scope.ofComponents [bytes "s", bytes "m"] (by decide), .empty⟩

def innerMethod : LocalMethod Bytes :=
  ⟨Scope.ofComponents [bytes "s", bytes "m", bytes "n"] (by decide), bytes "n",
    .typed stringType stringType fun _ data => .ok data, participant, 0⟩

/-- The method `n` with a callback that gives its request another id. -/
def renamingMethod : LocalMethod Bytes :=
  { innerMethod with
    callback := .event (fun _ _ => .ok (some ((Event.new 0).setType stringType)))
      fun _ request => request.setId participant 8 }

/-- The method `m` with the callback of `n`. -/
def stringMethod : LocalMethod Bytes := { outerMethod with callback := innerMethod.callback }

/-- A request to the method `n`. -/
def requestOf (type : Bytes) : Event Bytes :=
  ((((Event.new 0).setScope innerMethod.scope).setMethod (bytes "REQUEST")).setType type).setId
    participant 7

/-- Everything works. A callback that gets the event returns it. -/
def plainSetting : Setting Bytes where
  typeName _ := bytes "exception"
  ofString := id
  print := ⟨fun _ => [], Scope.toString⟩
  informing := .works
  now := 1
  exits _ := false
  leaves m event :=
    match m.callback with
    | .event _ _ => m.sent ⟨participant, 7⟩ event
    | .anyReplyType _ _ | .typed _ _ _ => event

theorem survives_plainSetting {m : LocalMethod Bytes} {e reply : Event Bytes}
    (hsame : SameRequest (requestOf stringType) e) (hkeeps : m.callback.KeepsId)
    (haccepts : m.Accepts e)
    (hreply : m.reply plainSetting.typeName plainSetting.ofString plainSetting.now e = .ok reply)
    (htype : reply.type = stringType) :
    (plainSetting.handle m e).survives (plainSetting.exits m) = true := by
  have hne : reply.type ≠ [] := by
    rw [htype]
    decide
  have hid : (m.callback.left m.name e).id = some ⟨participant, 7⟩ :=
    (hkeeps m.name e).trans hsame.id
  have hanswer : m.answer plainSetting.typeName plainSetting.ofString plainSetting.print
      plainSetting.informing plainSetting.now e = .ok _ :=
    (answer_eq_ok_iff hid).mpr ⟨reply, hreply, rfl, hne, rfl, rfl⟩
  rw [Setting.handle, handle, if_pos haccepts, hanswer]
  rfl

end LocalMethod

end Rsb.Patterns
