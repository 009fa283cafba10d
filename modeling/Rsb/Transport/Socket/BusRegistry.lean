import Rsb.Transport.Socket.Factory

/-!
Histories of a factory: requests, lost connections and released buses.

A registry is asked by endpoint, and what it answers with is only checked for its
options. So a client bus may be handed out after its connection has been lost. And in
`auto` mode a conflict of options counts as a failure to get a server.
-/

namespace Rsb.Transport.Socket.Factory

open Library Library.InPlace

inductive Label
  | getBus (answers : Answers) (r : Request)
  /-- The receive loop of a connection ends, or sending over it fails. -/
  | lose (b c : ℕ)
  | release (b : ℕ)

def step (s : Factory) : Label → Option Factory
  | .getBus answers r => some (left ((getBus answers r).run s))
  | .lose b c =>
      if (s.buses b).alive ∧ c ∈ (s.buses b).connections then some (s.removeConnection b c)
      else none
  | .release b => if (s.buses b).alive then some (s.releaseBus b) else none

def init : Factory := ⟨.empty, .empty, fun _ => ⟨false, false, false, []⟩, 0, 0⟩

/-! ### The registries and the connections -/

/-- The registries hold buses of their kind, and a client has at most one connection. -/
structure Kept (s : Factory) : Prop where
  clients : ∀ e b, s.busClients.find? e = some b → b < s.made ∧ (s.buses b).isServer = false
  servers : ∀ e b, s.busServers.find? e = some b → b < s.made ∧ (s.buses b).isServer = true
  single : ∀ b, (s.buses b).isServer = false → (s.buses b).connections.length ≤ 1

theorem kept_init : Kept init := ⟨by simp [init], by simp [init], by simp [init]⟩

theorem Kept.trimmed {s : Factory} (h : Kept s) {busClients busServers : Registry}
    (hclients : Trimmed s.buses s.busClients busClients)
    (hservers : Trimmed s.buses s.busServers busServers) :
    Kept { s with busClients, busServers } :=
  ⟨fun e b hb => h.clients e b (hclients.entries e b hb),
    fun e b hb => h.servers e b (hservers.entries e b hb), h.single⟩

/-- Buses stay what they are when they are changed. -/
theorem Kept.modifyBus {s : Factory} (h : Kept s) (b : ℕ) {f : BusImpl → BusImpl}
    (hkind : (f (s.buses b)).isServer = (s.buses b).isServer)
    (hsingle : (f (s.buses b)).isServer = false → (f (s.buses b)).connections.length ≤ 1) :
    Kept (s.modifyBus b f) := by
  have hbuses : ∀ b', ((s.modifyBus b f).buses b').isServer = (s.buses b').isServer := by
    intro b'
    by_cases heq : b' = b
    · subst heq
      simp [Factory.modifyBus, hkind]
    · simp [Factory.modifyBus, heq]
  refine ⟨fun e b' hb' => ?_, fun e b' hb' => ?_, fun b' hb' => ?_⟩
  · rw [hbuses]
    exact h.clients e b' hb'
  · rw [hbuses]
    exact h.servers e b' hb'
  · by_cases heq : b' = b
    · subst heq
      simp only [Factory.modifyBus, Function.update_self] at hb' ⊢
      exact hsingle hb'
    · rw [hbuses] at hb'
      simpa [Factory.modifyBus, heq] using h.single b' hb'

theorem Kept.releaseBus {s : Factory} (h : Kept s) (b : ℕ) : Kept (s.releaseBus b) := by
  apply h.modifyBus b
  · rfl
  · intro _
    exact Nat.zero_le 1

theorem Kept.addConnection {s : Factory} (h : Kept s) {b : ℕ}
    (hempty : (s.buses b).connections = []) : Kept (s.addConnection b) := by
  have hadded : Kept (s.modifyBus b fun bus =>
      { bus with connections := bus.connections ++ [s.connected] }) := by
    apply h.modifyBus b
    · rfl
    · intro _
      simp [hempty]
  exact ⟨hadded.clients, hadded.servers, hadded.single⟩

theorem Kept.removeConnection {s : Factory} (h : Kept s) (b c : ℕ) :
    Kept (s.removeConnection b c) := by
  apply h.modifyBus b
  · rfl
  · intro hkind
    exact (List.length_filter_le _ _).trans (h.single b hkind)

theorem Kept.makeBus {s : Factory} (h : Kept s) (isServer tcpnodelay : Bool) :
    Kept (s.makeBus isServer tcpnodelay) := by
  have hold : ∀ b < s.made, (s.makeBus isServer tcpnodelay).buses b = s.buses b := by
    intro b hb
    exact Function.update_of_ne hb.ne _ _
  refine ⟨fun e b hb => ?_, fun e b hb => ?_, fun b hb => ?_⟩
  · obtain ⟨hlt, hkind⟩ := h.clients e b hb
    exact ⟨hlt.trans (Nat.lt_succ_self _), by rw [hold b hlt, hkind]⟩
  · obtain ⟨hlt, hkind⟩ := h.servers e b hb
    exact ⟨hlt.trans (Nat.lt_succ_self _), by rw [hold b hlt, hkind]⟩
  · by_cases heq : b = s.made
    · subst heq
      simp [Factory.makeBus]
    · simp only [Factory.makeBus, Function.update_of_ne heq] at hb ⊢
      exact h.single b hb

theorem Kept.addClient {s : Factory} (h : Kept s) (e : Endpoint) (tcpnodelay : Bool) :
    Kept (s.addClient e tcpnodelay) := by
  have hmade := h.makeBus false tcpnodelay
  refine ⟨fun e' b hb => ?_, hmade.servers, hmade.single⟩
  simp only [Factory.addClient, SortedMap.find?_insert] at hb
  split_ifs at hb
  · obtain rfl := Option.some.inj hb
    exact ⟨Nat.lt_succ_self _, by simp [Factory.addClient, Factory.makeBus]⟩
  · exact hmade.clients e' b hb

theorem Kept.addServer {s : Factory} (h : Kept s) (e : Endpoint) (tcpnodelay : Bool) :
    Kept (s.addServer e tcpnodelay) := by
  have hmade := h.makeBus true tcpnodelay
  refine ⟨hmade.clients, fun e' b hb => ?_, hmade.single⟩
  simp only [Factory.addServer, SortedMap.find?_insert] at hb
  split_ifs at hb
  · obtain rfl := Option.some.inj hb
    exact ⟨Nat.lt_succ_self _, by simp [Factory.addServer, Factory.makeBus]⟩
  · exact hmade.servers e' b hb

/-- The list of a bus that has just been made is empty. -/
theorem connections_addClient (s : Factory) (e : Endpoint) (tcpnodelay : Bool) :
    ((s.addClient e tcpnodelay).buses s.made).connections = [] := by
  simp [addClient, makeBus]

theorem Kept.getBus {s : Factory} (h : Kept s) (answers : Answers) (r : Request) :
    Kept (left ((getBus answers r).run s)) := by
  have houtcome := outcome_getBus answers r s
  generalize (Factory.getBus answers r).run s = x at houtcome
  cases houtcome with
  | found _ _ hclients hservers => exact h.trimmed hclients hservers
  | conflict _ _ hclients hservers => exact h.trimmed hclients hservers
  | failed _ _ hclients hservers => exact h.trimmed hclients hservers
  | @madeClient e busClients busServers _ hclients hservers =>
      apply Kept.addConnection
      · exact (h.trimmed hclients hservers).addClient e r.tcpnodelay
      · exact connections_addClient { s with busClients, busServers } e r.tcpnodelay
  | lostClient _ hclients hservers =>
      exact ((h.trimmed hclients hservers).addClient _ _).releaseBus _
  | madeServer _ hservers => exact (h.trimmed (.refl _ _) hservers).addServer _ _

theorem Kept.step {s s' : Factory} {l : Label} (h : Kept s) (hstep : step s l = some s') :
    Kept s' := by
  cases l with
  | getBus answers r =>
      obtain rfl := Option.some.inj hstep
      exact h.getBus answers r
  | lose b c =>
      simp only [Factory.step] at hstep
      split_ifs at hstep
      obtain rfl := Option.some.inj hstep
      exact h.removeConnection b c
  | release b =>
      simp only [Factory.step] at hstep
      split_ifs at hstep
      obtain rfl := Option.some.inj hstep
      exact h.releaseBus b

/-! ### What is handed out -/

/-- A bus that is returned for a client has its one connection, so that its URL can be
asked for. -/
def Connected (s : Factory) : Label → Prop
  | .getBus answers r => ∀ b s', (getBus answers r).run s = .ok b s' →
      (s'.buses b).isServer = false →
        (s'.buses b).connections.length = 1 ∧
          ∀ url, (s'.buses b).getTransportURL url ≠ .error .assertion
  | _ => True

/-- The request does not come upon a client bus whose connection has been lost. -/
def Intact (s : Factory) : Label → Prop
  | .getBus answers r => fallsBack answers r s = true →
      ∀ b, firstLive s.buses s.busClients (endpoints answers r.host r.port) = some b →
        (s.buses b).tcpnodelay = r.tcpnodelay → (s.buses b).connections ≠ []
  | _ => True

theorem getTransportURL_ne_iff (b : BusImpl) :
    (∀ url, b.getTransportURL url ≠ .error .assertion) ↔ b.connections.length = 1 := by
  rw [List.length_eq_one_iff]
  constructor
  · intro h
    have hurl := h fun _ => []
    unfold BusImpl.getTransportURL at hurl
    split at hurl
    · next c hc => exact ⟨c, hc⟩
    · exact absurd rfl hurl
  · rintro ⟨c, hc⟩ url
    simp [BusImpl.getTransportURL, hc]

theorem firstLive_of_fallsBack {answers : Answers} {r : Request} {s : Factory}
    (hfalls : fallsBack answers r s = true) :
    firstLive s.buses s.busClients (endpoints answers r.host r.port) = held answers r s :=
  (if_pos hfalls).symm

/-- A request comes upon a client exactly if it ends up with `getBusClientFor`. -/
theorem Kept.isServer_held {s : Factory} (h : Kept s) {answers : Answers} {r : Request} {b : ℕ}
    (hheld : held answers r s = some b) :
    (s.buses b).isServer = !fallsBack answers r s := by
  cases hfalls : fallsBack answers r s with
  | true =>
      rw [← firstLive_of_fallsBack hfalls] at hheld
      obtain ⟨e, -, he⟩ := List.exists_of_findSome?_eq_some hheld
      exact (h.clients e b (liveIn_eq_some_iff.mp he).1).2
  | false =>
      rw [held, hfalls] at hheld
      exact (h.servers _ b (liveIn_eq_some_iff.mp hheld).1).2

theorem intact_of_held_eq_none {answers : Answers} {r : Request} {s : Factory}
    (hheld : held answers r s = none) : Intact s (.getBus answers r) := by
  intro hfalls b hb
  rw [firstLive_of_fallsBack hfalls, hheld] at hb
  cases hb

/-- A client that is handed out has its connection if it has not lost it. -/
theorem Kept.single_held_iff {s : Factory} (h : Kept s) {answers : Answers} {r : Request} {b : ℕ}
    (hheld : held answers r s = some b) (hoptions : (s.buses b).tcpnodelay = r.tcpnodelay) :
    ((s.buses b).isServer = false → (s.buses b).connections.length = 1) ↔
      Intact s (.getBus answers r) := by
  have hkind := h.isServer_held hheld
  constructor
  · intro hone hfalls b' hb' _ hlost
    rw [firstLive_of_fallsBack hfalls, hheld] at hb'
    obtain rfl := Option.some.inj hb'
    have hlength := hone (by rw [hkind, hfalls]; rfl)
    simp [hlost] at hlength
  · intro hintact hclient
    have hfalls : fallsBack answers r s = true := by simpa [hclient] using hkind.symm
    have hne := hintact hfalls b ((firstLive_of_fallsBack hfalls).trans hheld) hoptions
    exact le_antisymm (h.single b hclient) (List.length_pos_iff.mpr hne)

theorem connected_iff_intact {s : Factory} (h : Kept s) (l : Label) :
    Connected s l ↔ Intact s l := by
  cases l with
  | lose b c => exact Iff.rfl
  | release b => exact Iff.rfl
  | getBus answers r =>
      simp only [Connected, getTransportURL_ne_iff, and_self]
      have houtcome := outcome_getBus answers r s
      generalize (getBus answers r).run s = x at houtcome
      cases houtcome with
      | @found b busClients busServers hheld hoptions =>
          rw [← h.single_held_iff hheld hoptions]
          constructor
          · intro hconnected
            exact hconnected b { s with busClients, busServers } rfl
          · intro hone b' s' heq
            cases heq
            exact hone
      | conflict hheld hoptions =>
          apply iff_of_true
          · intro b' s' heq
            cases heq
          · intro hfalls b' hb' hoptions'
            rw [firstLive_of_fallsBack hfalls, hheld] at hb'
            obtain rfl := Option.some.inj hb'
            exact absurd hoptions' hoptions
      | failed hheld | lostClient hheld =>
          refine iff_of_true ?_ (intact_of_held_eq_none hheld)
          intro b' s' heq
          cases heq
      | madeClient hheld =>
          refine iff_of_true ?_ (intact_of_held_eq_none hheld)
          intro b' s' heq _
          cases heq
          simp [addConnection, modifyBus, addClient, makeBus]
      | madeServer hheld =>
          refine iff_of_true ?_ (intact_of_held_eq_none hheld)
          intro b' s' heq hclient
          cases heq
          simp [addServer, makeBus] at hclient

/-- Every client bus that is handed out in a run has its connection, exactly if no
request comes upon a live client bus that has lost it. -/
theorem handed_out_connected_iff (labels : List Label) (s : Factory)
    (hrun : exec step init labels = some s) :
    Along step Connected init labels ↔ Along step Intact init labels :=
  along_congr (fun _ _ _ h hstep => h.step hstep) (fun _ l _ h _ => connected_iff_intact h l)
    kept_init hrun

def localhost : Bytes := bytes "localhost"

/-- Everything outside succeeds, and the name stands for itself. -/
def reachable : Answers := ⟨.ok [localhost], .ok [(localhost, true)], .ok (), .ok ()⟩

def request (serverMode : ServerMode) (tcpnodelay : Bool) : Request :=
  ⟨serverMode, localhost, 55555, tcpnodelay⟩

/-- The connection is lost while the bus is in use, and the bus is asked for again. -/
def lostConnection : List Label :=
  [.getBus reachable (request .no true), .lose 0 0, .getBus reachable (request .no true)]

/-- The bus that the second request returns has no connection. -/
theorem not_connected_lostConnection :
    (∃ s b s', exec step init (lostConnection.take 2) = some s ∧
      (getBus reachable (request .no true)).run s = .ok b s' ∧
      (s'.buses b).isServer = false ∧ (s'.buses b).connections = [] ∧
      ∀ url, (s'.buses b).getTransportURL url = .error .assertion) ∧
    ¬Along step Connected init lostConnection := by
  refine ⟨⟨_, 0, _, rfl, rfl, rfl, rfl, fun _ => rfl⟩, fun halong => ?_⟩
  have hone := (((halong.2 _ rfl).2 _ rfl).1 0 _ rfl rfl).1
  exact absurd hone (by decide)

/-- The bus is asked for again while it has its connection. -/
def keptConnection : List Label :=
  [.getBus reachable (request .no true), .getBus reachable (request .no true)]

/-- The second request returns the bus of the first. -/
theorem connected_keptConnection :
    (∃ s s', exec step init (keptConnection.take 1) = some s ∧ s.made = 1 ∧
      (getBus reachable (request .no true)).run s = .ok 0 s' ∧ s'.made = 1) ∧
    Along step Connected init keptConnection := by
  refine ⟨⟨_, _, rfl, rfl, rfl, rfl⟩, ?_⟩
  refine (handed_out_connected_iff _ _ rfl).mpr ⟨?_, fun s hs => ⟨?_, fun _ _ => trivial⟩⟩
  · intro _ b hb
    cases hb
  · cases hs
    intro _ b hb
    cases hb
    intro _
    exact List.cons_ne_nil _ _

/-! ### Conflicting options -/

/-- The registry that the mode of a request asks first. -/
def consulted (s : Factory) : ServerMode → Registry
  | .no => s.busClients
  | .yes | .auto => s.busServers

/-- There is a live bus for the endpoint, with other options. -/
def Conflicting (s : Factory) (r : Request) : Prop :=
  ∃ b, liveIn s.buses (s.consulted r.serverMode) (Endpoint.of r.host r.port) = some b ∧
    (s.buses b).tcpnodelay ≠ r.tcpnodelay

/-- A request that conflicts throws `std::invalid_argument`; no bus is made, and the
registries hold the same live buses as before. -/
def Reported (s : Factory) : Label → Prop
  | .getBus answers r => Conflicting s r → ∃ what s',
      (getBus answers r).run s = .error (invalidArgument what) s' ∧
        s'.buses = s.buses ∧ s'.made = s.made ∧ SameLive s.buses s.busClients s'.busClients ∧
        SameLive s.buses s.busServers s'.busServers
  | _ => True

/-- A request in `auto` mode that conflicts with a server also conflicts with the first
live client bus for the endpoint or for one to which it is resolved. -/
def ConflictsTwice (s : Factory) : Label → Prop
  | .getBus answers r => Conflicting s r → r.serverMode = .auto →
      ∃ b, firstLive s.buses s.busClients (endpoints answers r.host r.port) = some b ∧
        (s.buses b).tcpnodelay ≠ r.tcpnodelay
  | _ => True

/-- What a conflicting request comes upon. -/
theorem held_of_conflicting (answers : Answers) {s : Factory} {r : Request}
    (h : Conflicting s r) :
    (r.serverMode ≠ .auto → ∃ b, held answers r s = some b ∧
      (s.buses b).tcpnodelay ≠ r.tcpnodelay) ∧
    (r.serverMode = .auto → held answers r s =
      firstLive s.buses s.busClients (endpoints answers r.host r.port)) := by
  obtain ⟨b, hlive, hoptions⟩ := h
  refine ⟨fun hmode => ⟨b, ?_, hoptions⟩, fun hmode => ?_⟩
  · cases hserver : r.serverMode with
    | no =>
        rw [hserver, consulted] at hlive
        simp [held, fallsBack, hserver, endpoints, firstLive_cons, hlive]
    | yes =>
        rw [hserver, consulted] at hlive
        simp [held, fallsBack, hserver, hlive]
    | auto => exact absurd hserver hmode
  · rw [hmode, consulted] at hlive
    simp [held, fallsBack, hmode, hlive, hoptions]

/-- Whatever the mode, a request is refused for its options exactly if the bus that it
comes upon has others. -/
theorem refused_iff_held (answers : Answers) (r : Request) (s : Factory) :
    (∃ what s', (getBus answers r).run s = .error (invalidArgument what) s' ∧
      s'.buses = s.buses ∧ s'.made = s.made ∧ SameLive s.buses s.busClients s'.busClients ∧
      SameLive s.buses s.busServers s'.busServers) ↔
    ∃ b, held answers r s = some b ∧ (s.buses b).tcpnodelay ≠ r.tcpnodelay := by
  have houtcome := outcome_getBus answers r s
  generalize (getBus answers r).run s = x at houtcome
  cases houtcome with
  | found hheld hoptions =>
      apply iff_of_false
      · rintro ⟨what, s', heq, -⟩
        cases heq
      · rintro ⟨b, hb, hne⟩
        obtain rfl := Option.some.inj (hheld.symm.trans hb)
        exact hne hoptions
  | conflict hheld hoptions hclients hservers =>
      exact iff_of_true ⟨_, _, rfl, rfl, rfl, hclients.live, hservers.live⟩ ⟨_, hheld, hoptions⟩
  | failed hheld htype =>
      apply iff_of_false
      · rintro ⟨what, s', heq, -⟩
        cases heq
        exact htype rfl
      · rintro ⟨b, hb, -⟩
        simp [hheld] at hb
  | lostClient hheld | madeClient hheld | madeServer hheld =>
      apply iff_of_false
      · rintro ⟨what, s', heq, -⟩
        cases heq
      · rintro ⟨b, hb, -⟩
        simp [hheld] at hb

theorem reported_iff_conflictsTwice (s : Factory) (l : Label) :
    Reported s l ↔ ConflictsTwice s l := by
  cases l with
  | lose b c => exact Iff.rfl
  | release b => exact Iff.rfl
  | getBus answers r =>
      apply forall_congr'
      intro hconflicting
      obtain ⟨hother, hauto⟩ := held_of_conflicting answers hconflicting
      rw [refused_iff_held]
      by_cases hmode : r.serverMode = .auto
      · rw [hauto hmode]
        exact ⟨fun h _ => h, fun h => h hmode⟩
      · exact iff_of_true (hother hmode) fun h => absurd h hmode

/-- Every conflict in a run is reported, exactly if those of requests in `auto` mode are
conflicts with a client as well. -/
theorem conflicts_reported_iff (labels : List Label) (s : Factory)
    (hrun : exec step init labels = some s) :
    Along step Reported init labels ↔ Along step ConflictsTwice init labels := by
  have htrue : ∀ (s : Factory) (l : Label) (s' : Factory), True → step s l = some s' → True :=
    fun _ _ _ _ _ => trivial
  exact along_congr htrue (fun s l _ _ _ => reported_iff_conflictsTwice s l) trivial hrun

/-- A server without the option is in use when one with the option is asked for. -/
def fallback : List Label :=
  [.getBus reachable (request .yes false), .getBus reachable (request .auto true)]

/-- The second request makes a client and returns it. -/
theorem not_reported_fallback :
    (∃ s s', exec step init (fallback.take 1) = some s ∧ Conflicting s (request .auto true) ∧
      (getBus reachable (request .auto true)).run s = .ok 1 s' ∧
      s'.made = s.made + 1 ∧ (s'.buses 1).isServer = false) ∧
    ¬Along step Reported init fallback := by
  have hconflicting : ∀ s, exec step init (fallback.take 1) = some s →
      Conflicting s (request .auto true) := by
    intro s hs
    cases hs
    exact ⟨0, rfl, by decide⟩
  refine ⟨⟨_, _, rfl, hconflicting _ rfl, rfl, rfl, rfl⟩, fun halong => ?_⟩
  obtain ⟨what, s', heq, -⟩ := (halong.2 _ rfl).1 (hconflicting _ rfl)
  cases heq

/-- The same request in server mode. -/
theorem reported_server :
    Along step Reported init
      [.getBus reachable (request .yes false), .getBus reachable (request .yes true)] := by
  refine (conflicts_reported_iff _ _ rfl).mpr ⟨?_, fun s hs => ⟨?_, fun _ _ => trivial⟩⟩
  · intro _ hmode
    cases hmode
  · intro _ hmode
    cases hmode

end Rsb.Transport.Socket.Factory
