import Rsb.Prelude
import Rsb.Library.SortedMap
import Mathlib.Data.List.Basic
import Mathlib.Data.List.TakeWhile
import Mathlib.Logic.Function.Basic

/-!
The transports that a process knows (`transports.cpp`, `transport/Factory.h`).

There is a connector factory for each of the three directions. The transports that come
with the library are registered first, those of plugins later. A record of a connector is
never replaced, and what is said about a transport is read from the records.
-/

namespace Rsb.Transport

open Library

/-- `Directions`. -/
inductive Direction
  | inPush | inPull | out
  deriving DecidableEq

namespace Direction

def flag : Direction → UInt32
  | .inPush => 0x01
  | .inPull => 0x02
  | .out => 0x04

def RequiredBy (requiredDirections : UInt32) (d : Direction) : Prop :=
  requiredDirections &&& d.flag ≠ 0

instance (requiredDirections : UInt32) (d : Direction) :
    Decidable (d.RequiredBy requiredDirections) :=
  inferInstanceAs (Decidable (requiredDirections &&& d.flag ≠ 0))

/-- In the order in which the factories are asked. -/
def all : List Direction := [.inPull, .inPush, .out]

@[simp] theorem mem_all (d : Direction) : d ∈ all := by
  cases d <;> decide

end Direction

/-! ### The factory of a direction -/

structure ConnectorInfo where
  name : Bytes
  schemas : SortedSet Bytes
  remote : Bool
  options : SortedSet Bytes
  deriving DecidableEq

/-- The constructor. -/
def ConnectorInfo.new (name : Bytes) (schemas : SortedSet Bytes) (remote : Bool)
    (options : SortedSet Bytes) : ConnectorInfo :=
  ⟨name, schemas, remote, options.add (bytes "enabled")⟩

/-- The records are held under the names that they have. -/
structure ConnectorFactory where
  infos : SortedMap Bytes ConnectorInfo
  named : ∀ name info, infos.find? name = some info → info.name = name

/-- A call of `registerConnector`, with what `impls().register_` did in it. -/
structure Registration where
  name : Bytes
  schemas : SortedSet Bytes
  remote : Bool
  options : SortedSet Bytes
  register_ : Except Fault Unit

def Registration.info (r : Registration) : ConnectorInfo :=
  .new r.name r.schemas r.remote r.options

namespace ConnectorFactory

/-- `ConnectorFactory()`. -/
def new : ConnectorFactory where
  infos := .empty
  named name info h := by simp at h

def getConnectorInfo (f : ConnectorFactory) (name : Bytes) : Except Fault ConnectorInfo :=
  match f.infos.find? name with
  | none => .error (.thrown ⟨.noSuchObject, name⟩)
  | some info => .ok info

/-- The set is ordered by the names before anything else. -/
def getConnectorInfos (f : ConnectorFactory) : List ConnectorInfo := f.infos.entries.map (·.2)

/-- `this->infos.insert(std::make_pair(name, info))` -/
def insertInfo (f : ConnectorFactory) (info : ConnectorInfo) : ConnectorFactory where
  infos := if f.infos.find? info.name = none then f.infos.insert info.name info else f.infos
  named name info' h := by
    split_ifs at h with hnone
    · rw [SortedMap.find?_insert] at h
      split_ifs at h with hname
      · exact (Option.some.inj h ▸ hname).symm
      · exact f.named name info' h
    · exact f.named name info' h

def registerConnector (f : ConnectorFactory) (r : Registration) :
    Except Fault ConnectorFactory := do
  r.register_
  return f.insertInfo r.info

/-- A name that is taken keeps its record. -/
theorem find?_insertInfo (f : ConnectorFactory) (info : ConnectorInfo) (name : Bytes) :
    (f.insertInfo info).infos.find? name =
      (f.infos.find? name).or (if info.name = name then some info else none) := by
  change SortedMap.find? (if f.infos.find? info.name = none then _ else _) name = _
  by_cases hname : info.name = name
  · subst hname
    cases hfind : f.infos.find? info.name with
    | none => simp
    | some old => simp [hfind]
  · rw [if_neg hname, Option.or_none]
    split_ifs
    · rw [SortedMap.find?_insert, if_neg (Ne.symm hname)]
    · rfl

end ConnectorFactory

/-! ### The three factories -/

/-- The flag says whether the transports of the library have been registered. -/
structure Transports where
  factory : Direction → ConnectorFactory
  registered : Bool

namespace Transports

/-- When the process starts. -/
def new : Transports := ⟨fun _ => .new, false⟩

def find? (t : Transports) (d : Direction) (name : Bytes) : Option ConnectorInfo :=
  (t.factory d).infos.find? name

def registerConnector (t : Transports) (d : Direction) (r : Registration) :
    Except Fault Transports := do
  let f ← (t.factory d).registerConnector r
  return { t with factory := Function.update t.factory d f }

/-- Registrations one after the other, up to the first that throws. -/
def registerConnectors :
    Transports → List (Direction × Registration) → Transports × Except Fault Unit
  | t, [] => (t, .ok ())
  | t, (d, r) :: rest =>
      match t.registerConnector d r with
      | .error fault => (t, .error fault)
      | .ok t' => t'.registerConnectors rest

def inprocess (register_ : Except Fault Unit) : Registration :=
  ⟨bytes "inprocess", .ofElems [bytes "inprocess"], false, .empty, register_⟩

def socket (register_ : Except Fault Unit) : Registration :=
  ⟨bytes "socket", .ofElems [bytes "socket"], true,
    .ofElems [bytes "host", bytes "port", bytes "server", bytes "tcpnodelay", bytes "wait"],
    register_⟩

/-- The transports of the library, in one direction. -/
def defaults (withSocket : Bool) (register_ : Direction → Bytes → Except Fault Unit)
    (d : Direction) : List (Direction × Registration) :=
  if withSocket then
    [(d, inprocess (register_ d (bytes "inprocess"))), (d, socket (register_ d (bytes "socket")))]
  else [(d, inprocess (register_ d (bytes "inprocess")))]

/-- `withSocket` stands for `RSB_WITH_SOCKET_TRANSPORT`. -/
def registerDefaultTransports (withSocket : Bool)
    (register_ : Direction → Bytes → Except Fault Unit) (t : Transports) :
    Transports × Except Fault Unit :=
  if t.registered then (t, .ok ())
  else
    ({ t with registered := true } : Transports).registerConnectors
      ([.inPush, .inPull, .out].flatMap (defaults withSocket register_))

/-! ### What is read from the records -/

def names (t : Transports) (d : Direction) : SortedSet Bytes :=
  .ofElems ((t.factory d).getConnectorInfos.map (·.name))

def intersection (left right : SortedSet Bytes) : SortedSet Bytes :=
  left.filter fun e => e.1 ∈ right

def noDirection : Fault :=
  invalidArgument (bytes "At least one required direction has to be specified.")

def getAvailableTransports (t : Transports) (requiredDirections : UInt32) :
    Except Fault (SortedSet Bytes) :=
  if requiredDirections = 0 then .error noDirection
  else
    let result : SortedSet Bytes := Direction.all.foldl
      (fun result d => (t.names d).keys.foldl SortedSet.add result) SortedMap.empty
    .ok (Direction.all.foldl
      (fun result d =>
        if d.RequiredBy requiredDirections then intersection result (t.names d) else result)
      result)

def isAvailable (t : Transports) (transportName : Bytes) (requiredDirections : UInt32) :
    Except Fault Bool :=
  if requiredDirections = 0 then .error noDirection
  else
    .ok (Direction.all.all fun d =>
      !(d.RequiredBy requiredDirections) || (t.find? d transportName).isSome)

def disagreement : Fault :=
  .thrown ⟨.logicError, bytes "connectors of one transport disagree about remoteness."⟩

/-- One of the `try` blocks. `known` is empty while `validResult` is false. -/
def agree (t : Transports) (transportName : Bytes) (known : Option Bool) (d : Direction) :
    Except Fault (Option Bool) :=
  match (t.factory d).getConnectorInfo transportName with
  | .error (.thrown ⟨.noSuchObject, _⟩) => .ok known
  | .error fault => .error fault
  | .ok info =>
      if known = some (!info.remote) then .error disagreement else .ok (some info.remote)

def isRemote (t : Transports) (transportName : Bytes) : Except Fault Bool := do
  match ← Direction.all.foldlM (t.agree transportName) none with
  | none => .error (.thrown ⟨.noSuchObject, transportName⟩)
  | some remote => return remote

variable {t : Transports}

theorem mem_names {d : Direction} {name : Bytes} :
    name ∈ t.names d ↔ (t.find? d name).isSome = true := by
  rw [names, SortedSet.mem_ofElems, ConnectorFactory.getConnectorInfos, List.map_map,
    List.mem_map, Option.isSome_iff_exists]
  constructor
  · rintro ⟨⟨key, info⟩, hmem, rfl⟩
    have hfind := SortedMap.find?_eq_some_iff.mpr hmem
    refine ⟨info, ?_⟩
    rw [find?, Function.comp_apply, (t.factory d).named key info hfind]
    exact hfind
  · rintro ⟨info, hfind⟩
    exact ⟨(name, info), SortedMap.find?_eq_some_iff.mp hfind, (t.factory d).named name info hfind⟩

theorem mem_intersection {left right : SortedSet Bytes} {name : Bytes} :
    name ∈ intersection left right ↔ name ∈ left ∧ name ∈ right := by
  rw [SortedSet.mem_def, intersection, SortedMap.find?_filter_eq_some]
  exact and_congr_right fun _ => decide_eq_true_iff

theorem mem_foldl_union {S : Direction → SortedSet Bytes} {l : List Direction}
    {result : SortedSet Bytes} {name : Bytes} :
    name ∈ l.foldl (fun result d => (S d).keys.foldl SortedSet.add result) result ↔
      name ∈ result ∨ ∃ d ∈ l, name ∈ S d := by
  induction l generalizing result with
  | nil => simp
  | cons d l ih =>
      rw [List.foldl_cons, ih, SortedSet.mem_foldl_add, SortedSet.mem_keys,
        List.exists_mem_cons_iff, or_comm (a := name ∈ S d), or_assoc]

theorem mem_foldl_intersection {S : Direction → SortedSet Bytes} {p : Direction → Prop}
    [DecidablePred p] {l : List Direction} {result : SortedSet Bytes} {name : Bytes} :
    name ∈ l.foldl (fun result d => if p d then intersection result (S d) else result) result ↔
      name ∈ result ∧ ∀ d ∈ l, p d → name ∈ S d := by
  induction l generalizing result with
  | nil => simp
  | cons d l ih =>
      rw [List.foldl_cons, ih, List.forall_mem_cons, ← and_assoc]
      by_cases hp : p d
      · simp only [hp, if_true, mem_intersection, true_imp_iff]
      · simp only [hp, if_false, false_imp_iff, and_true]

/-- A transport is available if it can do what is required, and at all. -/
theorem getAvailableTransports_of_ne_zero {requiredDirections : UInt32}
    (h : requiredDirections ≠ 0) :
    ∃ available, t.getAvailableTransports requiredDirections = .ok available ∧
      ∀ name, name ∈ available ↔ (∃ d, (t.find? d name).isSome = true) ∧
        ∀ d : Direction, d.RequiredBy requiredDirections → (t.find? d name).isSome = true := by
  rw [getAvailableTransports, if_neg h]
  refine ⟨_, rfl, fun name => ?_⟩
  rw [mem_foldl_intersection, mem_foldl_union]
  simp [mem_names]

theorem isAvailable_of_ne_zero {name : Bytes} {requiredDirections : UInt32}
    (h : requiredDirections ≠ 0) :
    t.isAvailable name requiredDirections = .ok true ↔
      ∀ d : Direction, d.RequiredBy requiredDirections → (t.find? d name).isSome = true := by
  rw [isAvailable, if_neg h, Except.ok.injEq, List.all_eq_true]
  refine forall_congr' fun d => ?_
  by_cases hd : d.RequiredBy requiredDirections
  · simp [hd]
  · simp [hd]

theorem agree_eq (name : Bytes) (known : Option Bool) (d : Direction) :
    t.agree name known d =
      match t.find? d name with
      | none => .ok known
      | some info =>
          if known = some (!info.remote) then .error disagreement else .ok (some info.remote) := by
  rw [agree, ConnectorFactory.getConnectorInfo, find?]
  cases (t.factory d).infos.find? name <;> rfl

/-- What is known so far is kept, and whoever else knows the transport agrees with it. -/
theorem foldlM_agree_eq_some {name : Bytes} {remote : Bool} {l : List Direction}
    {known : Option Bool} :
    l.foldlM (t.agree name) known = .ok (some remote) ↔
      (known = some remote ∨ known = none ∧ ∃ d ∈ l, (t.find? d name).isSome = true) ∧
        ∀ d ∈ l, ∀ info, t.find? d name = some info → info.remote = remote := by
  induction l generalizing known with
  | nil => simp [pure, Except.pure]
  | cons d l ih =>
      rw [List.foldlM_cons, agree_eq, List.forall_mem_cons, List.exists_mem_cons_iff]
      cases hfind : t.find? d name with
      | none =>
          change l.foldlM (t.agree name) known = _ ↔ _
          rw [ih]
          simp
      | some info =>
          dsimp only
          split_ifs with hknown
          · subst hknown
            refine iff_of_false (by simp [bind, Except.bind]) ?_
            rintro ⟨hold | ⟨hold, -⟩, hagree, -⟩
            · have hremote := hagree info rfl
              subst hremote
              simp at hold
            · cases hold
          · change l.foldlM (t.agree name) (some info.remote) = _ ↔ _
            rw [ih]
            cases known with
            | none => simp
            | some k =>
                have hk : k = info.remote := by simpa using hknown
                simp [hk]

theorem foldlM_agree_eq_none {name : Bytes} {l : List Direction} {known : Option Bool} :
    l.foldlM (t.agree name) known = .ok none ↔
      known = none ∧ ∀ d ∈ l, t.find? d name = none := by
  induction l generalizing known with
  | nil => simp [pure, Except.pure]
  | cons d l ih =>
      rw [List.foldlM_cons, agree_eq, List.forall_mem_cons]
      cases hfind : t.find? d name with
      | none =>
          change l.foldlM (t.agree name) known = _ ↔ _
          rw [ih]
          simp
      | some info =>
          refine iff_of_false (fun h => ?_) (by simp)
          dsimp only at h
          split_ifs at h
          · cases h
          · exact absurd (ih.mp h).1 (by simp)

theorem foldlM_agree_eq_error {name : Bytes} {l : List Direction} {known : Option Bool}
    {fault : Fault} (h : l.foldlM (t.agree name) known = .error fault) : fault = disagreement := by
  induction l generalizing known with
  | nil => cases h
  | cons d l ih =>
      rw [List.foldlM_cons, agree_eq, bind_eq_error_iff] at h
      rcases h with hfirst | ⟨known', -, hrest⟩
      · split at hfirst
        · cases hfirst
        · split_ifs at hfirst
          exact (Except.error.inj hfirst).symm
      · exact ih hrest

theorem isRemote_eq_ok_iff {name : Bytes} {remote : Bool} :
    t.isRemote name = .ok remote ↔
      (∃ d, (t.find? d name).isSome = true) ∧
        ∀ d info, t.find? d name = some info → info.remote = remote := by
  have hsome : Direction.all.foldlM (t.agree name) none = .ok (some remote) ↔ _ :=
    foldlM_agree_eq_some
  simp only [reduceCtorEq, false_or, true_and, Direction.mem_all, true_imp_iff] at hsome
  rw [← hsome, isRemote]
  cases Direction.all.foldlM (t.agree name) none with
  | error fault => simp [bind, Except.bind]
  | ok known => cases known <;> simp [bind, Except.bind, pure, Except.pure]

theorem isRemote_eq_noSuchObject_iff {name : Bytes} :
    t.isRemote name = .error (.thrown ⟨.noSuchObject, name⟩) ↔ ∀ d, t.find? d name = none := by
  have hnone : Direction.all.foldlM (t.agree name) none = .ok none ↔ _ := foldlM_agree_eq_none
  simp only [true_and, Direction.mem_all, true_imp_iff] at hnone
  rw [← hnone, isRemote]
  cases hfold : Direction.all.foldlM (t.agree name) none with
  | error fault =>
      rw [foldlM_agree_eq_error hfold]
      simp [bind, Except.bind, disagreement]
  | ok known => cases known <;> simp [bind, Except.bind, pure, Except.pure]

/-! ### Registrations -/

theorem registerConnector_eq (t : Transports) (d : Direction) (r : Registration) :
    t.registerConnector d r = r.register_.map fun _ =>
      { t with factory := Function.update t.factory d ((t.factory d).insertInfo r.info) } := by
  rw [registerConnector, ConnectorFactory.registerConnector]
  cases r.register_ <;> rfl

theorem find?_insertInfo (t : Transports) (d d' : Direction) (info : ConnectorInfo)
    (name : Bytes) :
    ({ t with factory := Function.update t.factory d' ((t.factory d').insertInfo info) } :
        Transports).find? d name =
      (t.find? d name).or (if d' = d ∧ info.name = name then some info else none) := by
  by_cases hd : d' = d
  · subst hd
    simp [find?, ConnectorFactory.find?_insertInfo]
  · simp [find?, Function.update_of_ne (Ne.symm hd), hd]

/-- A record comes from the first registration that was carried out. -/
theorem find?_registerConnectors (t : Transports) (l : List (Direction × Registration))
    (d : Direction) (name : Bytes) :
    (t.registerConnectors l).1.find? d name = (t.find? d name).or
      (((l.takeWhile fun e => e.2.register_.isOk).find? fun e =>
        e.1 = d ∧ e.2.name = name).map (·.2.info)) := by
  induction l generalizing t with
  | nil => simp [registerConnectors]
  | cons e l ih =>
      obtain ⟨d', r⟩ := e
      rw [registerConnectors, registerConnector_eq]
      cases hregister : r.register_ with
      | error fault => simp [hregister, Except.map, Except.isOk, Except.toBool]
      | ok =>
          rw [List.takeWhile_cons_of_pos (by simp [hregister, Except.isOk, Except.toBool]),
            List.find?_cons]
          simp only [Except.map]
          rw [ih, find?_insertInfo, Option.or_assoc]
          by_cases hname : d' = d ∧ r.info.name = name
          · have hfirst : d' = d ∧ r.name = name := hname
            simp [hname.1, hname.2, hfirst.2]
          · have hfirst : ¬ (d' = d ∧ r.name = name) := hname
            simp [hname, hfirst]

theorem registerConnectors_eq_ok_iff (t : Transports) (l : List (Direction × Registration)) :
    (t.registerConnectors l).2 = .ok () ↔ ∀ e ∈ l, e.2.register_ = .ok () := by
  induction l generalizing t with
  | nil => simp [registerConnectors]
  | cons e l ih =>
      obtain ⟨d, r⟩ := e
      rw [registerConnectors, registerConnector_eq, List.forall_mem_cons]
      cases hregister : r.register_ with
      | error fault => simp [Except.map]
      | ok => simp [Except.map, ih]

/-- What the library and its plugins do. -/
inductive Call
  | registerDefaultTransports (withSocket : Bool)
      (register_ : Direction → Bytes → Except Fault Unit)
  | plugin (registrations : List (Direction × Registration))

def call (t : Transports) : Call → Transports × Except Fault Unit
  | .registerDefaultTransports withSocket register_ =>
      t.registerDefaultTransports withSocket register_
  | .plugin registrations => t.registerConnectors registrations

/-- The transports after some calls, whether these threw or not. -/
def run (t : Transports) (calls : List Call) : Transports :=
  calls.foldl (fun t c => (t.call c).1) t

theorem find?_call {d : Direction} {name : Bytes} {info : ConnectorInfo}
    (h : t.find? d name = some info) (c : Call) : (t.call c).1.find? d name = some info := by
  cases c with
  | registerDefaultTransports withSocket register_ =>
      rw [call, registerDefaultTransports]
      split
      · exact h
      · rw [find?_registerConnectors]
        exact congrArg (Option.or · _) h
  | plugin registrations =>
      rw [call, find?_registerConnectors, h]
      rfl

/-- Records stay. -/
theorem find?_run {d : Direction} {name : Bytes} {info : ConnectorInfo}
    (h : t.find? d name = some info) (calls : List Call) :
    (t.run calls).find? d name = some info := by
  induction calls generalizing t with
  | nil => exact h
  | cons c calls ih => exact ih (find?_call h c)

theorem find?_registerDefaultTransports {withSocket : Bool}
    {register_ : Direction → Bytes → Except Fault Unit}
    (h : (new.registerDefaultTransports withSocket register_).2 = .ok ()) (d : Direction) :
    (new.registerDefaultTransports withSocket register_).1.find? d (bytes "inprocess") =
        some (inprocess (.ok ())).info ∧
      (withSocket = true →
        (new.registerDefaultTransports withSocket register_).1.find? d (bytes "socket") =
          some (socket (.ok ())).info) := by
  rw [registerDefaultTransports, if_neg (by decide)] at h ⊢
  have hall := (registerConnectors_eq_ok_iff _ _).mp h
  rw [find?_registerConnectors, find?_registerConnectors, List.takeWhile_eq_self_iff.mpr]
  · refine ⟨?_, ?_⟩
    · cases withSocket <;> cases d <;> rfl
    · rintro rfl
      cases d <;> rfl
  · intro e he
    rw [hall e he]
    rfl

/-- Whatever plugins do after the transports of the library have been registered: these stay
what they are, no record is replaced later, and what is said about a transport is what the
records say. Only if none of the three directions is required, a transport need not be there to
be available. -/
theorem transports_known {withSocket : Bool} {register_ : Direction → Bytes → Except Fault Unit}
    (hdefaults : (new.registerDefaultTransports withSocket register_).2 = .ok ())
    (calls : List Call) {t : Transports}
    (ht : (new.registerDefaultTransports withSocket register_).1.run calls = t) :
    (∀ d, t.find? d (bytes "inprocess") = some (inprocess (.ok ())).info ∧
      (withSocket = true → t.find? d (bytes "socket") = some (socket (.ok ())).info)) ∧
    t.isRemote (bytes "inprocess") = .ok false ∧
    (withSocket = true → t.isRemote (bytes "socket") = .ok true) ∧
    (∀ d name info, t.find? d name = some info →
      ∀ later, (t.run later).find? d name = some info) ∧
    (∀ name remote, t.isRemote name = .ok remote ↔
      (∃ d, (t.find? d name).isSome = true) ∧
        ∀ d info, t.find? d name = some info → info.remote = remote) ∧
    ∀ requiredDirections, requiredDirections ≠ 0 →
      ∃ available, t.getAvailableTransports requiredDirections = .ok available ∧
        ∀ name, (name ∈ available ↔ (∃ d, (t.find? d name).isSome = true) ∧
            ∀ d : Direction, d.RequiredBy requiredDirections →
              (t.find? d name).isSome = true) ∧
          (t.isAvailable name requiredDirections = .ok true ↔
            name ∈ available ∨ ∀ d : Direction, ¬ d.RequiredBy requiredDirections) := by
  subst ht
  have hinprocess := fun d =>
    find?_run (find?_registerDefaultTransports hdefaults d).1 calls
  have hsocket := fun (hwith : withSocket = true) d =>
    find?_run ((find?_registerDefaultTransports hdefaults d).2 hwith) calls
  refine ⟨fun d => ⟨hinprocess d, fun hwith => hsocket hwith d⟩, ?_, fun hwith => ?_,
    fun d name info h later => find?_run h later, fun name remote => isRemote_eq_ok_iff,
    fun requiredDirections hsome => ?_⟩
  · refine isRemote_eq_ok_iff.mpr ⟨⟨.out, by rw [hinprocess]; rfl⟩, fun d info hd => ?_⟩
    rw [hinprocess d] at hd
    rw [← Option.some.inj hd]
    rfl
  · refine isRemote_eq_ok_iff.mpr ⟨⟨.out, by rw [hsocket hwith]; rfl⟩, fun d info hd => ?_⟩
    rw [hsocket hwith d] at hd
    rw [← Option.some.inj hd]
    rfl
  · obtain ⟨available, havailable, hmem⟩ := getAvailableTransports_of_ne_zero hsome
    refine ⟨available, havailable, fun name => ⟨hmem name, ?_⟩⟩
    rw [isAvailable_of_ne_zero hsome, hmem]
    constructor
    · intro hall
      by_cases hrequired : ∃ d : Direction, d.RequiredBy requiredDirections
      · obtain ⟨d, hd⟩ := hrequired
        exact .inl ⟨⟨d, hall d hd⟩, hall⟩
      · exact .inr (not_exists.mp hrequired)
    · rintro (⟨-, hall⟩ | hnone) d hd
      · exact hall d hd
      · exact absurd hd (hnone d)

/-- A plugin that brings its own socket transport. -/
theorem transports_known_plugin :
    let t := (new.registerDefaultTransports true fun _ _ => .ok ()).1.run
      [.plugin [(.out, ⟨bytes "socket", .empty, false, .empty, .ok ()⟩)]]
    t.isRemote (bytes "socket") = .ok true :=
  have hdefaults : (new.registerDefaultTransports true fun _ _ => .ok ()).2 = .ok () := rfl
  (transports_known hdefaults _ rfl).2.2.1 rfl

end Transports

end Rsb.Transport
