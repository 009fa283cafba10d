import Rsb.Introspection.Announcements
import Rsb.Library.Runs
import Rsb.Library.Tenants
import Rsb.Scope.StringCache

/-!
Servers and their participants (`Server.cpp`, `LocalServer.cpp`, `RemoteServer.cpp`, and the
functions of `Factory.cpp` that create participants).

A server and its methods are participants, and so are the listener that a method has from the
start and the informer that it gets for its first call or its first reply. The factory signals
each of them when it has been constructed, and its destructor signals it again. Constructors
and slots may throw on the way; then whatever has been made so far is destroyed. A method is
also a handler of its own listener, and lives until the server lets go of both.

`getMethod` runs under the mutex of the server and `getInformer` under one of the method, so
that the calls are taken one after the other. A name without components on a server for the
root scope, or one that makes the string of the scope too long, has the call read or write out
of bounds; nothing is said of what follows.
-/

namespace Rsb.Patterns.Servers

open Library Introspection

inductive Kind
  | localServer | remoteServer

namespace Kind

/-- `getKind` of a server. -/
def server : Kind → Bytes
  | localServer => bytes "local-server"
  | remoteServer => bytes "remote-server"

/-- `getKind` of its methods. -/
def method : Kind → Bytes
  | localServer => bytes "local-method"
  | remoteServer => bytes "remote-method"

end Kind

/-- What a new participant gets, unless its constructor throws, and what the slots do when it
is announced. -/
structure Birth where
  constructor : Except Exception UUID
  slots : Except Exception Unit

/-- The functions of the factory that create participants. -/
def create (kind : Bytes) (scope : Scope) (transportURLs : SortedSet Bytes)
    (introspectionEnabled : Bool) (parent : Option Participant) (birth : Birth) :
    Except Fault Participant × List Signal :=
  match birth.constructor with
  | .error e => (.error (.thrown e), [])
  | .ok id =>
      let p : Participant := ⟨kind, id, scope, transportURLs, introspectionEnabled⟩
      match birth.slots with
      | .ok () => (.ok p, [.created p parent])
      -- the only pointer to it goes away
      | .error e => (.error (.thrown e), [.created p parent, .destroyed p])

structure Method where
  participant : Participant
  listener : Option Participant
  informer : Option Participant

/-- The signals that `deactivate` causes. -/
def Method.deactivate (m : Method) : List Signal :=
  (m.listener.toList ++ m.informer.toList).map Signal.destroyed

/-- The server itself, its methods and their listeners have the configuration for listeners. -/
structure Server where
  kind : Kind
  participant : Participant
  informerIntrospection : Bool
  methods : SortedMap Bytes Method

namespace Server

/-- `createLocalServer` or `createRemoteServer`, which have no parent here. -/
def create (kind : Kind) (scope : Scope) (listenerIntrospection informerIntrospection : Bool)
    (server : Birth) : Except Fault Server × List Signal :=
  match Servers.create kind.server scope .empty listenerIntrospection none server with
  | (.error f, signals) => (.error f, signals)
  | (.ok q, signals) => (.ok ⟨kind, q, informerIntrospection, .empty⟩, signals)

/-- The scope for a method. -/
def methodScope (s : Server) (name : Bytes) : Except Fault Scope := do
  let child ← Scope.parse (bytes "/" ++ name)
  s.participant.scope.concatObject child

/-- The part that `getMethod` and `registerMethod` have in common: the method is created,
activated and stored. -/
def addMethod (s : Server) (name : Bytes) (listenerURLs : SortedSet Bytes)
    (method listener : Birth) : Except Fault Server × List Signal :=
  match s.methodScope name with
  | .error f => (.error f, [])
  | .ok scope =>
      let introspectionEnabled := s.participant.introspectionEnabled
      -- the factory takes the last component for the name
      if scope.getComponents = [] then (.error .readPastEnd, [])
      else
        match Servers.create s.kind.method scope .empty introspectionEnabled (some s.participant)
            method with
        | (.error f, signals) => (.error f, signals)
        | (.ok m, signals) =>
            match Servers.create (bytes "listener") scope listenerURLs introspectionEnabled (some m)
                listener with
            | (.error f, signals') => (.error f, signals ++ signals' ++ [.destroyed m])
            | (.ok l, signals') =>
                (.ok { s with methods := s.methods.insert name ⟨m, some l, none⟩ },
                  signals ++ signals')

/-- `LocalServer::registerMethod` or `RemoteServer::getMethod`. -/
def method (s : Server) (name : Bytes) (listenerURLs : SortedSet Bytes)
    (method listener : Birth) : Except Fault Server × List Signal :=
  match s.methods.find? name, s.kind with
  | some _, .localServer =>
      (.error (.thrown ⟨.methodExists, bytes "Method '" ++ name ++
        bytes "' already exists for server '" ++ s.participant.scope.toString ++ bytes "'"⟩), [])
  | some _, .remoteServer => (.ok s, [])
  | none, _ => s.addMethod name listenerURLs method listener

/-- `Method::getInformer`, for a call or a reply of the method with the name. -/
def getInformer (s : Server) (name : Bytes) (informerURLs : SortedSet Bytes) (informer : Birth) :
    Except Fault Server × List Signal :=
  match s.methods.find? name with
  | none => (.ok s, [])
  | some m =>
      match m.informer with
      | some _ => (.ok s, [])
      | none =>
          match Servers.create (bytes "informer") m.participant.scope informerURLs
              s.informerIntrospection (some m.participant) informer with
          | (.error f, signals) => (.error f, signals)
          | (.ok i, signals) =>
              (.ok { s with methods := s.methods.insert name { m with informer := some i } },
                signals)

/-- The signals that the destructor causes: it deactivates all methods, and then the map lets go
of them, in an order of its own. -/
def destructor (s : Server) (order : List Bytes) : List Signal :=
  s.methods.entries.flatMap (·.2.deactivate) ++
    (order.filterMap s.methods.find?).map (Signal.destroyed ·.participant) ++
      [.destroyed s.participant]

end Server

/-! ### A process with servers -/

variable {S : Type} [DecidableEq S]

/-- The servers of a process, and the signals of its factory so far. -/
structure Process (S : Type) where
  servers : S → Option Server
  log : List Signal

inductive Call (S : Type)
  | createServer (s : S) (kind : Kind) (scope : Scope)
      (listenerIntrospection informerIntrospection : Bool) (server : Birth)
  | method (s : S) (name : Bytes) (listenerURLs : SortedSet Bytes) (method listener : Birth)
  | getInformer (s : S) (name : Bytes) (informerURLs : SortedSet Bytes) (informer : Birth)
  | destructor (s : S) (order : List Bytes)

namespace Process

def start : Process S := ⟨fun _ => none, []⟩

/-- After a call on a server, which is left as it was when the call throws. -/
def put (p : Process S) (s : S) : Except Fault Server × List Signal → Process S
  | (.ok server, signals) => ⟨Function.update p.servers s (some server), p.log ++ signals⟩
  | (.error _, signals) => { p with log := p.log ++ signals }

/-- A run goes on after a call that returns or throws. -/
def goOn (p : Process S) (s : S) (result : Except Fault Server × List Signal) :
    Option (Process S) :=
  match result.1 with
  | .ok _ | .error (.thrown _) => some (p.put s result)
  | .error _ => none

/-- Servers are used between their construction and their destruction. -/
def step (p : Process S) : Call S → Option (Process S)
  | .createServer s kind scope listenerIntrospection informerIntrospection server =>
      if p.servers s = none then
        p.goOn s <|
          Server.create kind scope listenerIntrospection informerIntrospection server
      else none
  | .method s name listenerURLs method listener =>
      (p.servers s).bind fun server => p.goOn s (server.method name listenerURLs method listener)
  | .getInformer s name informerURLs informer =>
      (p.servers s).bind fun server => p.goOn s (server.getInformer name informerURLs informer)
  | .destructor s order =>
      match p.servers s with
      | none => none
      | some server =>
          if order.Perm server.methods.keys then
            some ⟨Function.update p.servers s none, p.log ++ server.destructor order⟩
          else none

end Process

/-! ### Who lives where -/

inductive Place (S : Type)
  | server (s : S)
  | method (s : S) (name : Bytes)
  | listener (s : S) (name : Bytes)
  | informer (s : S) (name : Bytes)
  deriving DecidableEq

def Place.parent : Place S → Option (Place S)
  | server _ => none
  | method s _ => some (server s)
  | listener s name | informer s name => some (method s name)

def Server.participantAt (server : Server) : Place S → Option Participant
  | .server _ => some server.participant
  | .method _ name => (server.methods.find? name).map Method.participant
  | .listener _ name => (server.methods.find? name).bind Method.listener
  | .informer _ name => (server.methods.find? name).bind Method.informer

def Place.owner : Place S → S
  | server s | method s _ | listener s _ | informer s _ => s

def Process.participantAt (p : Process S) (y : Place S) : Option Participant :=
  (p.servers y.owner).bind (·.participantAt y)

def noticeOf : Signal → Notice Participant
  | .created q parent => .born q parent
  | .destroyed q => .died q

def notices (log : List Signal) : List (Notice Participant) := log.map noticeOf

/-! ### What is announced is what lives -/

theorem notices_append (log log' : List Signal) :
    notices (log ++ log') = notices log ++ notices log' := List.map_append

theorem id_of_newborn {log : List Signal} {q : Participant}
    (h : q ∈ (notices log).filterMap Notice.newborn) :
    q.id ∈ log.filterMap Signal.createdId := by
  obtain ⟨n, hn, hq⟩ := List.mem_filterMap.mp h
  obtain ⟨signal, hsignal, rfl⟩ := List.mem_map.mp hn
  cases signal with
  | created q' parent =>
      obtain rfl : q' = q := Option.some.inj hq
      exact List.mem_filterMap.mpr ⟨_, hsignal, rfl⟩
  | destroyed q' => cases hq

/-- Who has an id that has not been seen before is new. -/
theorem new_of_nodup {log signals : List Signal} {q : Participant} {parent : Option Participant}
    (h : ((log ++ .created q parent :: signals).filterMap Signal.createdId).Nodup) :
    q ∉ (notices log).filterMap Notice.newborn := by
  intro hborn
  rw [List.filterMap_append] at h
  have hdisjoint := (List.nodup_append.mp h).2.2
  exact hdisjoint _ (id_of_newborn hborn) q.id
    (List.mem_filterMap.mpr ⟨_, List.mem_cons_self, rfl⟩) rfl

theorem nodup_of_append {log signals : List Signal}
    (h : ((log ++ signals).filterMap Signal.createdId).Nodup) :
    (log.filterMap Signal.createdId).Nodup := by
  rw [List.filterMap_append] at h
  exact (List.nodup_append.mp h).1

/-- Signals of the creation of the same id are the same signal. -/
theorem eq_of_createdId {log : List Signal} (h : (log.filterMap Signal.createdId).Nodup)
    {signal signal' : Signal} (hmem : signal ∈ log) (hmem' : signal' ∈ log) {id : UUID}
    (hid : signal.createdId = some id) (hid' : signal'.createdId = some id) :
    signal = signal' := by
  rw [List.Nodup, List.pairwise_filterMap] at h
  have hsymm : Std.Symm fun a b : Signal =>
      ∀ i, a.createdId = some i → ∀ j, b.createdId = some j → i ≠ j :=
    ⟨fun a b hab i hi j hj => (hab j hj i hi).symm⟩
  by_contra hne
  exact h.forall hmem hmem' hne id hid id hid' rfl

/-- Two that were born with the same id are one. -/
theorem eq_of_born {log : List Signal} (h : (log.filterMap Signal.createdId).Nodup)
    {q q' : Participant} {g g' : Option Participant} (hborn : Notice.born q g ∈ notices log)
    (hborn' : Notice.born q' g' ∈ notices log) (hid : q.id = q'.id) : q = q' := by
  have hcreated : ∀ {q g}, Notice.born q g ∈ notices log → Signal.created q g ∈ log := by
    intro q g hq
    obtain ⟨signal, hsignal, hq⟩ := List.mem_map.mp hq
    cases signal with
    | created q' g' =>
        cases hq
        exact hsignal
    | destroyed q' => cases hq
  have heq := eq_of_createdId h (hcreated hborn) (hcreated hborn') rfl
    (congrArg some hid.symm)
  injection heq

theorem distinct_of_orderly {log : List Signal} (horderly : Notice.Orderly (notices log))
    (h : (log.filterMap Signal.createdId).Nodup) : Distinct log where
  created := h
  identifies := by
    have hborn : ∀ signal ∈ log, ∃ g, Notice.born signal.participant g ∈ notices log := by
      intro signal hsignal
      cases signal with
      | created q g => exact ⟨g, List.mem_map_of_mem hsignal⟩
      | destroyed q =>
          have hq := horderly.exists_born (List.mem_map_of_mem hsignal)
          obtain ⟨n, hn, hnew⟩ := List.mem_filterMap.mp hq
          cases n with
          | born q' g =>
              obtain rfl : q' = q := Option.some.inj hnew
              exact ⟨g, hn⟩
          | died q' => cases hnew
    intro a ha b hb hid
    obtain ⟨g, hg⟩ := hborn a ha
    obtain ⟨g', hg'⟩ := hborn b hb
    exact eq_of_born h hg hg' hid

/-- Known participants are those that are alive. -/
theorem mem_remaining_iff {log : List Signal} (horderly : Notice.Orderly (notices log))
    (h : (log.filterMap Signal.createdId).Nodup) {info : ParticipantInfo} :
    info ∈ remaining log ↔
      ∃ q g, Notice.Alive (notices log) q g ∧ q.ignored = false ∧ info = q.info g := by
  induction log using List.reverseRecOn with
  | nil => simp [remaining, notices, Notice.Alive]
  | append_singleton log signal ih =>
      rw [notices_append] at horderly
      have hbefore := ih (Notice.orderly_of_append horderly) (nodup_of_append h)
      have hnotice : notices [signal] = [noticeOf signal] := rfl
      rw [notices_append, hnotice]
      cases signal with
      | created q g =>
          have halive : ∀ q' g', Notice.Alive (notices log ++ [.born q g]) q' g' ↔ _ := fun q' g' =>
            Notice.alive_born (Notice.orderly_of_append horderly) (new_of_nodup h) g
          rw [remaining_created, List.mem_append, hbefore]
          simp only [noticeOf, halive]
          constructor
          · rintro (⟨q', g', hq', hknown, hinfo⟩ | hinfo)
            · exact ⟨q', g', .inl hq', hknown, hinfo⟩
            · split_ifs at hinfo with hignored
              · cases hinfo
              · exact ⟨q, g, .inr ⟨rfl, rfl⟩, by simpa using hignored, List.mem_singleton.mp hinfo⟩
          · rintro ⟨q', g', hq' | ⟨rfl, rfl⟩, hknown, hinfo⟩
            · exact .inl ⟨q', g', hq', hknown, hinfo⟩
            · exact .inr (by simp [hknown, hinfo])
      | destroyed q =>
          simp only [remaining_destroyed, List.mem_filter, hbefore, noticeOf, Notice.alive_died]
          constructor
          · rintro ⟨⟨q', g', hq', hknown, rfl⟩, hne⟩
            refine ⟨q', g', ⟨hq', ?_⟩, hknown, rfl⟩
            rintro rfl
            exact absurd rfl (of_decide_eq_true hne)
          · rintro ⟨q', g', ⟨hq', hne⟩, hknown, rfl⟩
            refine ⟨⟨q', g', hq', hknown, rfl⟩, decide_eq_true fun hid => hne ?_⟩
            obtain ⟨g, hg⟩ := Notice.exists_alive_of_append horderly
            exact eq_of_born (nodup_of_append h) hq'.1 hg.1 hid

/-! ### Births and deaths -/

variable {f : Place S → Option Participant} {log : List Signal} {y : Place S}

/-- A place after the attempt to create who shall live there. -/
def settle (f : Place S → Option Participant) (y : Place S) :
    Except Fault Participant → Place S → Option Participant
  | .ok q => Function.update f y (some q)
  | .error _ => f

theorem settled_create (h : Settled Place.parent f (notices log)) (hfree : f y = none)
    (hparent : ∀ z, y.parent = some z → f z ≠ none) {kind : Bytes} {scope : Scope}
    {transportURLs : SortedSet Bytes} {introspectionEnabled : Bool} {birth : Birth}
    {result : Except Fault Participant} {signals : List Signal}
    (hcreate : create kind scope transportURLs introspectionEnabled
      (parentAt Place.parent f y) birth = (result, signals))
    (hids : ((log ++ signals).filterMap Signal.createdId).Nodup) :
    Settled Place.parent (settle f y result) (notices (log ++ signals)) := by
  unfold create at hcreate
  rw [notices_append]
  cases hconstructor : birth.constructor with
  | error e =>
      obtain ⟨rfl, rfl⟩ := Prod.mk.inj ((by simpa only [hconstructor] using hcreate))
      simpa [settle, notices] using h
  | ok id =>
      cases hslots : birth.slots with
      | ok u =>
          simp only [hconstructor, hslots] at hcreate
          obtain ⟨rfl, rfl⟩ := Prod.mk.inj hcreate
          exact h.born hfree hparent (new_of_nodup hids)
      | error e =>
          simp only [hconstructor, hslots] at hcreate
          obtain ⟨rfl, rfl⟩ := Prod.mk.inj hcreate
          exact h.stillborn hfree hparent (new_of_nodup hids)

/-! ### Calls -/

variable {p : Process S} {s : S} {server : Server} {name : Bytes}

omit [DecidableEq S] in
theorem participantAt_server (hs : p.servers s = some server) (hy : y.owner = s) :
    p.participantAt y = server.participantAt y := by
  rw [Process.participantAt, hy, hs]
  rfl

theorem participantAt_put (server' : Server) (signals : List Signal) (y : Place S) :
    (p.put s (.ok server', signals)).participantAt y =
      if y.owner = s then server'.participantAt y else p.participantAt y := by
  simp only [Process.participantAt, Process.put, Function.update_apply]
  split_ifs <;> rfl

theorem log_put (result : Except Fault Server × List Signal) :
    (p.put s result).log = p.log ++ result.2 := by
  obtain ⟨result, signals⟩ := result
  cases result <;> rfl

/-- Storing a method. -/
theorem participantAt_insert (hs : p.servers s = some server) (m : Method)
    (signals : List Signal) (y : Place S) :
    (p.put s (.ok { server with methods := server.methods.insert name m },
      signals)).participantAt y =
      if y = .method s name then some m.participant
      else if y = .listener s name then m.listener
      else if y = .informer s name then m.informer
      else p.participantAt y := by
  rw [participantAt_put]
  by_cases hy : y.owner = s
  · rw [if_pos hy, participantAt_server hs hy]
    cases y with
    | server s' => rfl
    | method s' name' | listener s' name' | informer s' name' =>
        obtain rfl : s' = s := hy
        by_cases hname' : name' = name <;>
          simp [Server.participantAt, SortedMap.find?_insert, hname']
  · have hother : ∀ z : Place S, z.owner = s → y ≠ z := by
      rintro z hz rfl
      exact hy hz
    rw [if_neg hy, if_neg (hother _ rfl), if_neg (hother _ rfl), if_neg (hother _ rfl)]

theorem participantAt_insert_method (hs : p.servers s = some server)
    (hname : server.methods.find? name = none) (m l : Participant) (signals : List Signal) :
    (p.put s (.ok { server with methods := server.methods.insert name ⟨m, some l, none⟩ },
      signals)).participantAt =
      Function.update (Function.update p.participantAt (.method s name) (some m))
        (.listener s name) (some l) := by
  have hinformer : p.participantAt (.informer s name) = none := by
    rw [participantAt_server hs rfl, Server.participantAt, hname]
    rfl
  funext y
  rw [participantAt_insert hs, Function.update_apply, Function.update_apply]
  by_cases hy : y = .informer s name
  · simp [hy, hinformer]
  · by_cases hmethod : y = .method s name
    · simp [hmethod]
    · rw [if_neg hmethod, if_neg hy, if_neg hmethod]

theorem participantAt_insert_informer (hs : p.servers s = some server) {m : Method}
    (hname : server.methods.find? name = some m) (i : Participant) (signals : List Signal) :
    (p.put s (.ok { server with
      methods := server.methods.insert name { m with informer := some i } },
      signals)).participantAt =
      Function.update p.participantAt (.informer s name) (some i) := by
  have hmethod : p.participantAt (.method s name) = some m.participant := by
    rw [participantAt_server hs rfl, Server.participantAt, hname]
    rfl
  have hlistener : p.participantAt (.listener s name) = m.listener := by
    rw [participantAt_server hs rfl, Server.participantAt, hname]
    rfl
  funext y
  rw [participantAt_insert hs, Function.update_apply]
  by_cases hy : y = .informer s name
  · simp [hy]
  · rw [if_neg hy]
    split_ifs with hy' hy'
    · rw [hy', hmethod]
    · rw [hy', hlistener]
    · rfl

omit [DecidableEq S] in
theorem free_of_unknown (hs : p.servers s = some server)
    (hname : server.methods.find? name = none)
    (hy : y = .method s name ∨ y.parent = some (.method s name)) : p.participantAt y = none := by
  rcases hy with rfl | hy
  · rw [participantAt_server hs rfl, Server.participantAt, hname]
    rfl
  · cases y with
    | server s' => cases hy
    | method s' name' => cases hy
    | listener s' name' | informer s' name' =>
        cases hy
        rw [participantAt_server hs rfl, Server.participantAt, hname]
        rfl

theorem settled_addMethod (hs : p.servers s = some server)
    (hname : server.methods.find? name = none)
    (h : Settled Place.parent p.participantAt (notices p.log)) {listenerURLs : SortedSet Bytes}
    {method listener : Birth} {result : Except Fault Server × List Signal}
    (hresult : server.addMethod name listenerURLs method listener = result)
    (hids : ((p.log ++ result.2).filterMap Signal.createdId).Nodup) :
    Settled Place.parent (p.put s result).participantAt (notices (p.put s result).log) := by
  have hserver : p.participantAt (.server s) = some server.participant :=
    participantAt_server hs rfl
  have hfree := fun y => free_of_unknown (y := y) hs hname
  have hnothing : ∀ f, result = (.error f, []) →
      Settled Place.parent (p.put s result).participantAt (notices (p.put s result).log) := by
    rintro f rfl
    rw [Process.put, List.append_nil]
    exact h
  unfold Server.addMethod at hresult
  cases hscope : server.methodScope name with
  | error f => exact hnothing f (by simpa only [hscope] using hresult.symm)
  | ok scope =>
      simp only [hscope] at hresult
      split at hresult
      · exact hnothing _ hresult.symm
      · have hroom : ∀ z, (Place.method s name).parent = some z → p.participantAt z ≠ none := by
          rintro z hz
          cases hz
          simp [hserver]
        rw [← hserver] at hresult
        split at hresult
        · rename_i f signals hmethod
          subst hresult
          exact settled_create h (hfree _ (.inl rfl)) hroom hmethod hids
        · rename_i m signals hmethod
          have hborn : ((p.log ++ signals).filterMap Signal.createdId).Nodup →
              Settled Place.parent (Function.update p.participantAt (.method s name) (some m))
                (notices (p.log ++ signals)) :=
            settled_create h (hfree _ (.inl rfl)) hroom hmethod
          have hchildless : ∀ y : Place S, y.parent = some (.method s name) →
              Function.update p.participantAt (.method s name) (some m) y = none := by
            intro y hy
            rw [Function.update_of_ne, hfree y (.inr hy)]
            rintro rfl
            cases hy
          have hplace : parentAt Place.parent
              (Function.update p.participantAt (.method s name) (some m))
              (.listener s name) = some m := Function.update_self ..
          have hroom' : ∀ z, (Place.listener s name).parent = some z →
              Function.update p.participantAt (.method s name) (some m) z ≠ none := by
            intro z hz
            cases hz
            simp
          split at hresult
          · rename_i f signals' hlistener
            subst hresult
            rw [← hplace] at hlistener
            simp only [← List.append_assoc] at hids
            have hids' := nodup_of_append hids
            have hsettled : Settled Place.parent
                (Function.update p.participantAt (.method s name) (some m))
                (notices (p.log ++ signals ++ signals')) :=
              settled_create (hborn (nodup_of_append hids')) (hchildless _ rfl) hroom'
                hlistener hids'
            have hdied := hsettled.died (Function.update_self ..) hchildless
            rw [Function.update_idem, ← hfree _ (.inl rfl), Function.update_eq_self] at hdied
            rw [Process.put, ← List.append_assoc, ← List.append_assoc, notices_append]
            exact hdied
          · rename_i l signals' hlistener
            subst hresult
            rw [← hplace] at hlistener
            simp only [← List.append_assoc] at hids
            rw [participantAt_insert_method hs hname, Process.put, ← List.append_assoc]
            exact settled_create (hborn (nodup_of_append hids)) (hchildless _ rfl) hroom'
              hlistener hids

theorem eq_put_of_goOn {result : Except Fault Server × List Signal} {p' : Process S}
    (h : p.goOn s result = some p') : p' = p.put s result := by
  rw [Process.goOn] at h
  split at h
  · exact (Option.some.inj h).symm
  · exact (Option.some.inj h).symm
  · cases h

/-- A call on a server that is there. -/
theorem exists_of_bind {call : Server → Except Fault Server × List Signal} {p' : Process S}
    (h : ((p.servers s).bind fun server => p.goOn s (call server)) = some p') :
    ∃ server, p.servers s = some server ∧ p' = p.put s (call server) := by
  obtain ⟨server, hs, hcall⟩ := Option.bind_eq_some_iff.mp h
  exact ⟨server, hs, eq_put_of_goOn hcall⟩

theorem put_self (hs : p.servers s = some server) : p.put s (.ok server, []) = p := by
  rw [Process.put, ← hs, Function.update_eq_self, List.append_nil]

theorem settled_getInformer (hs : p.servers s = some server)
    (h : Settled Place.parent p.participantAt (notices p.log)) {informerURLs : SortedSet Bytes}
    {informer : Birth} {result : Except Fault Server × List Signal}
    (hresult : server.getInformer name informerURLs informer = result)
    (hids : ((p.log ++ result.2).filterMap Signal.createdId).Nodup) :
    Settled Place.parent (p.put s result).participantAt (notices (p.put s result).log) := by
  unfold Server.getInformer at hresult
  cases hname : server.methods.find? name with
  | none =>
      simp only [hname] at hresult
      rwa [← hresult, put_self hs]
  | some m =>
      simp only [hname] at hresult
      cases hinformer : m.informer with
      | some i =>
          simp only [hinformer] at hresult
          rwa [← hresult, put_self hs]
      | none =>
          simp only [hinformer] at hresult
          have hmethod : parentAt Place.parent p.participantAt (.informer s name) =
              some m.participant := by
            change p.participantAt (.method s name) = _
            rw [participantAt_server hs rfl, Server.participantAt, hname]
            rfl
          have hfree : p.participantAt (.informer s name) = none := by
            rw [participantAt_server hs rfl, Server.participantAt, hname]
            exact hinformer
          have hroom : ∀ z, (Place.informer s name).parent = some z →
              p.participantAt z ≠ none := by
            intro z hz
            cases hz
            exact fun hnone => Option.some_ne_none _ (hmethod.symm.trans hnone)
          rw [← hmethod] at hresult
          split at hresult
          · rename_i f signals hcreate
            subst hresult
            exact settled_create h hfree hroom hcreate hids
          · rename_i i signals hcreate
            subst hresult
            rw [participantAt_insert_informer hs hname]
            exact settled_create h hfree hroom hcreate hids

theorem settled_createServer (hs : p.servers s = none)
    (h : Settled Place.parent p.participantAt (notices p.log)) {kind : Kind} {scope : Scope}
    {listenerIntrospection informerIntrospection : Bool} {birth : Birth}
    {result : Except Fault Server × List Signal}
    (hresult : Server.create kind scope listenerIntrospection informerIntrospection birth = result)
    (hids : ((p.log ++ result.2).filterMap Signal.createdId).Nodup) :
    Settled Place.parent (p.put s result).participantAt (notices (p.put s result).log) := by
  have hfree : ∀ y : Place S, y.owner = s → p.participantAt y = none := by
    intro y hy
    rw [Process.participantAt, hy, hs]
    rfl
  have hroom : ∀ z : Place S, (Place.server s).parent = some z →
      p.participantAt z ≠ none := fun z hz => nomatch hz
  unfold Server.create at hresult
  split at hresult
  · rename_i f signals hcreate
    subst hresult
    exact settled_create h (hfree _ rfl) hroom hcreate hids
  · rename_i q signals hcreate
    subst hresult
    have hplaces : (p.put s (.ok ⟨kind, q, informerIntrospection, .empty⟩,
        signals)).participantAt = Function.update p.participantAt (.server s) (some q) := by
      funext y
      rw [participantAt_put, Function.update_apply]
      by_cases hy : y.owner = s
      · rw [if_pos hy, hfree y hy]
        cases y with
        | server s' =>
            obtain rfl : s' = s := hy
            rw [if_pos rfl]
            rfl
        | method s' name | listener s' name | informer s' name =>
            rw [if_neg (by simp)]
            rfl
      · rw [if_neg hy, if_neg]
        rintro rfl
        exact hy rfl
    rw [hplaces]
    exact settled_create h (hfree _ rfl) hroom hcreate hids

/-! ### Destructors -/

/-- Where the listeners and informers of the methods live. -/
def Server.leaves (server : Server) (s : S) : List (Place S) :=
  server.methods.keys.flatMap fun name => [.listener s name, .informer s name]

omit [DecidableEq S] in
theorem nodup_leaves (server : Server) (s : S) : (server.leaves s).Nodup := by
  refine List.nodup_flatMap.mpr ⟨fun name _ => by simp, ?_⟩
  refine server.methods.nodup_keys.imp fun hne y hy hy' => hne ?_
  rcases List.mem_pair.mp hy with rfl | rfl <;> simpa using hy'

omit [DecidableEq S] in
theorem notices_deactivate (hs : p.servers s = some server) :
    notices (server.methods.entries.flatMap (·.2.deactivate)) =
      ((server.leaves s).filterMap p.participantAt).map .died := by
  rw [notices, List.map_flatMap, Server.leaves, SortedMap.keys, List.flatMap_map,
    List.filterMap_flatMap, List.map_flatMap]
  refine List.flatMap_congr fun e he => ?_
  have hname : server.methods.find? e.1 = some e.2 := SortedMap.find?_eq_some_iff.mpr he
  have hlistener : p.participantAt (.listener s e.1) = e.2.listener := by
    rw [participantAt_server hs rfl, Server.participantAt, hname]
    rfl
  have hinformer : p.participantAt (.informer s e.1) = e.2.informer := by
    rw [participantAt_server hs rfl, Server.participantAt, hname]
    rfl
  rw [Method.deactivate]
  cases hl : e.2.listener <;> cases hi : e.2.informer <;>
    simp [hlistener, hinformer, hl, hi, noticeOf]

omit [DecidableEq S] in
theorem notices_released (hs : p.servers s = some server) (order : List Bytes) :
    notices ((order.filterMap server.methods.find?).map (Signal.destroyed ·.participant)) =
      ((order.map (Place.method s)).filterMap p.participantAt).map .died := by
  have hmethod : ∀ name, p.participantAt (.method s name) =
      (server.methods.find? name).map Method.participant := fun name =>
    participantAt_server hs rfl
  induction order with
  | nil => rfl
  | cons name order ih =>
      rw [List.map_cons, List.filterMap_cons, List.filterMap_cons, hmethod]
      cases server.methods.find? name with
      | none => exact ih
      | some m => exact congrArg (Notice.died m.participant :: ·) ih

omit [DecidableEq S] in
theorem mem_leaves : y ∈ server.leaves s ↔
    ∃ name ∈ server.methods.keys, y.parent = some (.method s name) := by
  rw [Server.leaves, List.mem_flatMap]
  refine exists_congr fun name => and_congr_right fun _ => ?_
  cases y <;> simp [Place.parent]

/-- Below an unknown name there is nothing, and what is below a known one is given up. -/
theorem vacate_leaves (hs : p.servers s = some server)
    (hy : y.parent = some (.method s name)) :
    vacate p.participantAt (server.leaves s) y = none := by
  unfold vacate
  split_ifs with hmem
  · rfl
  · have hname : server.methods.find? name = none := by
      by_contra hname
      obtain ⟨m, hm⟩ := Option.ne_none_iff_exists'.mp hname
      exact hmem (mem_leaves.mpr ⟨name, SortedMap.mem_keys.mpr ⟨m, hm⟩, hy⟩)
    exact free_of_unknown hs hname (.inr hy)

theorem settled_destructor (hs : p.servers s = some server)
    (h : Settled Place.parent p.participantAt (notices p.log)) {order : List Bytes}
    (horder : order.Perm server.methods.keys) {p' : Process S}
    (hp' : p' = ⟨Function.update p.servers s none, p.log ++ server.destructor order⟩) :
    Settled Place.parent p'.participantAt (notices p'.log) := by
  have hleaves := h.vacate (nodup_leaves server s) fun y hy y' hplace => by
    obtain ⟨name, -, hparent⟩ := mem_leaves.mp hy
    cases y' <;> cases hplace <;> cases hparent
  rw [← notices_deactivate hs] at hleaves
  have hsame : (order.map (Place.method s)).filterMap
      (vacate p.participantAt (server.leaves s)) =
        (order.map (Place.method s)).filterMap p.participantAt := by
    refine List.filterMap_congr fun y hy => if_neg fun hleaf => ?_
    obtain ⟨name, -, rfl⟩ := List.mem_map.mp hy
    obtain ⟨name', -, hparent⟩ := mem_leaves.mp hleaf
    cases hparent
  have hnodup : (order.map (Place.method s)).Nodup :=
    (horder.nodup_iff.mpr server.methods.nodup_keys).map fun name name' heq => by
      injection heq
  have hmethods := hleaves.vacate hnodup fun y hy y' hplace => by
    obtain ⟨name, -, rfl⟩ := List.mem_map.mp hy
    exact vacate_leaves hs hplace
  rw [hsame, ← notices_released hs] at hmethods
  have hempty : ∀ name, vacate (vacate p.participantAt (server.leaves s))
      (order.map (Place.method s)) (.method s name) = none := by
    intro name
    unfold vacate
    split_ifs with hmem hleaf
    · rfl
    · rfl
    · refine free_of_unknown hs ?_ (.inl rfl)
      by_contra hname
      obtain ⟨m, hm⟩ := Option.ne_none_iff_exists'.mp hname
      exact hmem (List.mem_map_of_mem (horder.mem_iff.mpr (SortedMap.mem_keys.mpr ⟨m, hm⟩)))
  have hserver : vacate (vacate p.participantAt (server.leaves s)) (order.map (Place.method s))
      (.server s) = some server.participant := by
    rw [vacate, if_neg (by simp), vacate, if_neg, participantAt_server hs rfl]
    · rfl
    · rw [mem_leaves]
      rintro ⟨name, -, hparent⟩
      cases hparent
  have hdied := hmethods.died hserver fun y hplace => by
    cases y <;> cases hplace
    exact hempty _
  have hgone : Function.update (vacate (vacate p.participantAt (server.leaves s))
      (order.map (Place.method s))) (.server s) none = p'.participantAt := by
    funext y
    simp only [hp', Process.participantAt, Function.update_apply]
    by_cases hy : y.owner = s
    · rw [if_pos hy, Option.bind_none]
      cases y with
      | server s' =>
          obtain rfl : s' = s := hy
          rw [if_pos rfl]
      | method s' name =>
          obtain rfl : s' = s := hy
          rw [if_neg (by simp), hempty]
      | listener s' name | informer s' name =>
          obtain rfl : s' = s := hy
          rw [if_neg (by simp), vacate, if_neg (by simp), vacate_leaves hs rfl]
    · have hserver' : y ≠ .server s := by
        rintro rfl
        exact hy rfl
      have hmethod' : y ∉ order.map (Place.method s) := fun hmem => by
        obtain ⟨name, -, rfl⟩ := List.mem_map.mp hmem
        exact hy rfl
      have hleaf : y ∉ server.leaves s := fun hmem => by
        obtain ⟨name, -, hparent⟩ := mem_leaves.mp hmem
        cases y <;> cases hparent <;> exact hy rfl
      rw [if_neg hserver', if_neg hy, vacate, if_neg hmethod', vacate, if_neg hleaf]
      rfl
  rw [hgone] at hdied
  rw [hp'] at hdied ⊢
  simp only [Server.destructor, ← List.append_assoc, notices_append]
  exact hdied

/-! ### Runs -/

theorem step_createServer {kind : Kind} {scope : Scope}
    {listenerIntrospection informerIntrospection : Bool} {birth : Birth} {p' : Process S}
    (hstep : p.step (.createServer s kind scope listenerIntrospection informerIntrospection
      birth) = some p') :
    p.servers s = none ∧ p' = p.put s
      (Server.create kind scope listenerIntrospection informerIntrospection birth) := by
  rw [Process.step] at hstep
  split_ifs at hstep with hs
  exact ⟨hs, eq_put_of_goOn hstep⟩

theorem step_destructor {order : List Bytes} {p' : Process S}
    (hstep : p.step (.destructor s order) = some p') :
    ∃ server, p.servers s = some server ∧ order.Perm server.methods.keys ∧
      p' = ⟨Function.update p.servers s none, p.log ++ server.destructor order⟩ := by
  cases hs : p.servers s with
  | none => simp [Process.step, hs] at hstep
  | some server =>
      simp only [Process.step, hs] at hstep
      split_ifs at hstep with horder
      exact ⟨server, rfl, horder, (Option.some.inj hstep).symm⟩

theorem settled_step {c : Call S} {p' : Process S}
    (h : Settled Place.parent p.participantAt (notices p.log)) (hstep : p.step c = some p')
    (hids : (p'.log.filterMap Signal.createdId).Nodup) :
    Settled Place.parent p'.participantAt (notices p'.log) := by
  cases c with
  | createServer s kind scope listenerIntrospection informerIntrospection birth =>
      obtain ⟨hs, rfl⟩ := step_createServer hstep
      refine settled_createServer hs h rfl ?_
      rwa [log_put] at hids
  | method s name listenerURLs method listener =>
      obtain ⟨server, hs, rfl⟩ := exists_of_bind hstep
      have hnothing : ∀ f, server.method name listenerURLs method listener = (.error f, []) →
          Settled Place.parent
            (p.put s (server.method name listenerURLs method listener)).participantAt
            (notices (p.put s (server.method name listenerURLs method listener)).log) := by
        intro f heq
        rw [heq, Process.put, List.append_nil]
        exact h
      cases hname : server.methods.find? name with
      | none =>
          have hadd : server.method name listenerURLs method listener =
              server.addMethod name listenerURLs method listener := by
            rw [Server.method, hname]
          rw [hadd] at hids ⊢
          refine settled_addMethod hs hname h rfl ?_
          rwa [log_put] at hids
      | some m =>
          cases hkind : server.kind with
          | localServer => exact hnothing _ (by rw [Server.method, hname, hkind])
          | remoteServer =>
              rwa [Server.method, hname, hkind, put_self hs]
  | getInformer s name informerURLs informer =>
      obtain ⟨server, hs, rfl⟩ := exists_of_bind hstep
      refine settled_getInformer hs h rfl ?_
      rwa [log_put] at hids
  | destructor s order =>
      obtain ⟨server, hs, horder, hp'⟩ := step_destructor hstep
      exact settled_destructor hs h horder hp'

/-- Signals are only added. -/
theorem nodup_of_step {c : Call S} {p' : Process S} (hstep : p.step c = some p')
    (hids : (p'.log.filterMap Signal.createdId).Nodup) :
    (p.log.filterMap Signal.createdId).Nodup := by
  have hlog : ∃ signals, p'.log = p.log ++ signals := by
    cases c with
    | createServer s kind scope listenerIntrospection informerIntrospection birth =>
        obtain ⟨-, rfl⟩ := step_createServer hstep
        exact ⟨_, log_put _⟩
    | method s name listenerURLs method listener | getInformer s name informerURLs informer =>
        obtain ⟨server, hs, rfl⟩ := exists_of_bind hstep
        exact ⟨_, log_put _⟩
    | destructor s order =>
        obtain ⟨server, -, -, rfl⟩ := step_destructor hstep
        exact ⟨_, rfl⟩
  obtain ⟨signals, hlog⟩ := hlog
  exact nodup_of_append (hlog ▸ hids)

/-! ### What a method has -/

omit [DecidableEq S] in
theorem of_create {kind : Bytes} {scope : Scope} {transportURLs : SortedSet Bytes}
    {introspectionEnabled : Bool} {parent : Option Participant} {birth : Birth} {q : Participant}
    {signals : List Signal}
    (hcreate : create kind scope transportURLs introspectionEnabled parent birth =
      (.ok q, signals)) : q.kind = kind ∧ q.scope = scope := by
  unfold create at hcreate
  split at hcreate
  · cases hcreate
  · split at hcreate <;> cases hcreate
    exact ⟨rfl, rfl⟩

/-- A method of the server: it listens on its scope, and answers and calls there. -/
structure Equipped (server : Server) (name : Bytes) (m : Method) : Prop where
  kind : m.participant.kind = server.kind.method
  scope : ∃ child, Scope.parse (bytes "/" ++ name) = .ok child ∧
    m.participant.scope = server.participant.scope.concat child
  listener : ∃ l, m.listener = some l ∧ l.kind = bytes "listener" ∧
    l.scope = m.participant.scope
  informer : ∀ i, m.informer = some i → i.kind = bytes "informer" ∧
    i.scope = m.participant.scope

def Server.Equipped (server : Server) : Prop :=
  ∀ name m, server.methods.find? name = some m → Servers.Equipped server name m

theorem Server.Equipped.insert (h : server.Equipped) {m : Method}
    (hm : Servers.Equipped server name m) :
    Server.Equipped { server with methods := server.methods.insert name m } := by
  intro name' m' hname'
  rw [SortedMap.find?_insert] at hname'
  split_ifs at hname' with heq
  · obtain rfl := Option.some.inj hname'
    subst heq
    exact ⟨hm.kind, hm.scope, hm.listener, hm.informer⟩
  · have hm' := h name' m' hname'
    exact ⟨hm'.kind, hm'.scope, hm'.listener, hm'.informer⟩

omit [DecidableEq S] in
theorem methodScope_eq_ok {scope : Scope} (h : server.methodScope name = .ok scope) :
    ∃ child, Scope.parse (bytes "/" ++ name) = .ok child ∧
      scope = server.participant.scope.concat child := by
  obtain ⟨child, hparse, hconcat⟩ := bind_eq_ok_iff.mp h
  rw [Scope.concatObject_eq] at hconcat
  split_ifs at hconcat
  exact ⟨child, hparse, (Except.ok.inj hconcat).symm⟩

theorem Server.Equipped.addMethod (h : server.Equipped) {listenerURLs : SortedSet Bytes}
    {method listener : Birth} {server' : Server} {signals : List Signal}
    (hadd : server.addMethod name listenerURLs method listener = (.ok server', signals)) :
    server'.Equipped := by
  unfold Server.addMethod at hadd
  cases hscope : server.methodScope name with
  | error f => simp [hscope] at hadd
  | ok scope =>
      obtain ⟨child, hparse, hconcat⟩ := methodScope_eq_ok hscope
      simp only [hscope] at hadd
      split_ifs at hadd
      · cases hadd
      · split at hadd
        · cases hadd
        · rename_i m _ hmethod
          split at hadd
          · cases hadd
          · rename_i l _ hlistener
            cases hadd
            have hm := of_create hmethod
            have hl := of_create hlistener
            exact h.insert ⟨hm.1, ⟨child, hparse, hm.2.trans hconcat⟩,
              ⟨l, rfl, hl.1, hl.2.trans hm.2.symm⟩, fun i hi => nomatch hi⟩

theorem Server.Equipped.method (h : server.Equipped) {listenerURLs : SortedSet Bytes}
    {method listener : Birth} {server' : Server} {signals : List Signal}
    (hmethod : server.method name listenerURLs method listener = (.ok server', signals)) :
    server'.Equipped := by
  unfold Server.method at hmethod
  split at hmethod
  · cases hmethod
  · cases hmethod
    exact h
  · exact h.addMethod hmethod

theorem Server.Equipped.getInformer (h : server.Equipped) {informerURLs : SortedSet Bytes}
    {informer : Birth} {server' : Server} {signals : List Signal}
    (hinformer : server.getInformer name informerURLs informer = (.ok server', signals)) :
    server'.Equipped := by
  unfold Server.getInformer at hinformer
  split at hinformer
  · cases hinformer
    exact h
  · rename_i m hname
    split at hinformer
    · cases hinformer
      exact h
    · split at hinformer
      · cases hinformer
      · rename_i i _ hcreate
        cases hinformer
        have hm := h name m hname
        refine h.insert ⟨hm.kind, hm.scope, hm.listener, fun i' hi' => ?_⟩
        obtain rfl := Option.some.inj hi'
        exact of_create hcreate

def Process.Equipped (p : Process S) : Prop := ∀ s server, p.servers s = some server →
  server.Equipped

theorem Process.Equipped.put (h : p.Equipped) {result : Except Fault Server × List Signal}
    (hresult : ∀ server' signals, result = (.ok server', signals) → server'.Equipped) :
    (p.put s result).Equipped := by
  obtain ⟨_ | server', signals⟩ := result
  · exact h
  · intro s' server'' hs'
    simp only [Process.put, Function.update_apply] at hs'
    split_ifs at hs' with heq
    · obtain rfl := Option.some.inj hs'
      exact hresult _ _ rfl
    · exact h s' server'' hs'

theorem Process.Equipped.step {c : Call S} {p' : Process S} (h : p.Equipped)
    (hstep : p.step c = some p') : p'.Equipped := by
  cases c with
  | createServer s kind scope listenerIntrospection informerIntrospection birth =>
      obtain ⟨-, rfl⟩ := step_createServer hstep
      refine h.put fun server' signals heq => ?_
      rw [Server.create] at heq
      split at heq <;> cases heq
      intro name m hname
      cases hname
  | method s name listenerURLs method listener =>
      obtain ⟨server, hs, rfl⟩ := exists_of_bind hstep
      exact h.put fun server' signals heq => (h s server hs).method heq
  | getInformer s name informerURLs informer =>
      obtain ⟨server, hs, rfl⟩ := exists_of_bind hstep
      exact h.put fun server' signals heq => (h s server hs).getInformer heq
  | destructor s order =>
      obtain ⟨server, -, -, rfl⟩ := step_destructor hstep
      intro s' server' hs'
      simp only [Function.update_apply] at hs'
      split_ifs at hs'
      exact h s' server' hs'

/-! ### Runs -/

/-- Wherever the calls lead, what lives is what introspection knows, each participant was born
while its parent lived and dies before it, and all methods have what they need. -/
theorem server_participants {calls : List (Call S)}
    (hrun : exec Process.step Process.start calls = some p)
    (hids : (p.log.filterMap Signal.createdId).Nodup) :
    Settled Place.parent p.participantAt (notices p.log) ∧ p.Equipped ∧ Distinct p.log ∧
      ∀ info, info ∈ remaining p.log ↔ ∃ y q, p.participantAt y = some q ∧ q.ignored = false ∧
        info = q.info (parentAt Place.parent p.participantAt y) := by
  have hequipped : p.Equipped := by
    refine exec_invariant (I := Process.Equipped) (fun _ _ _ h hstep => h.step hstep) ?_ hrun
    intro s server hs
    cases hs
  have hsettled : Settled Place.parent p.participantAt (notices p.log) := by
    refine exec_invariant (I := fun p : Process S => (p.log.filterMap Signal.createdId).Nodup →
      Settled Place.parent p.participantAt (notices p.log)) ?_ (fun _ => settled_nil _) hrun hids
    intro p c p' h hstep hids
    exact settled_step (h (nodup_of_step hstep hids)) hstep hids
  refine ⟨hsettled, hequipped, distinct_of_orderly hsettled.orderly hids, fun info => ?_⟩
  rw [mem_remaining_iff hsettled.orderly hids]
  constructor
  · rintro ⟨q, g, halive, hknown, hinfo⟩
    obtain ⟨y, hy, rfl⟩ := (hsettled.alive q g).mp halive
    exact ⟨y, q, hy, hknown, hinfo⟩
  · rintro ⟨y, q, hy, hknown, hinfo⟩
    exact ⟨q, _, (hsettled.alive q _).mpr ⟨y, hy, rfl⟩, hknown, hinfo⟩

/-! ### A remote server whose first listener cannot be announced -/

def sampleBirth (i : ℕ) : Birth :=
  ⟨.ok ⟨List.replicate 15 0 ++ [UInt8.ofNat i], by simp⟩, .ok ()⟩

def sampleCalls : List (Call ℕ) :=
  [.createServer 0 .remoteServer .root true true (sampleBirth 1),
    .method 0 (bytes "echo") .empty (sampleBirth 2)
      { sampleBirth 3 with slots := .error ⟨.runtimeError, bytes "no memory"⟩ },
    .method 0 (bytes "echo") .empty (sampleBirth 4) (sampleBirth 5),
    .createServer 1 .localServer .root false false (sampleBirth 6),
    .getInformer 0 (bytes "echo") .empty (sampleBirth 7)]

theorem server_participants_remote :
    ∃ p, exec Process.step Process.start sampleCalls = some p ∧
      Settled Place.parent p.participantAt (notices p.log) ∧
      p.log.length = 9 ∧ (remaining p.log).length = 4 :=
  ⟨_, rfl, (@server_participants ℕ _ _ sampleCalls rfl (by decide)).1, rfl, rfl⟩

end Rsb.Patterns.Servers
