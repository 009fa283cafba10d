import Rsb.ParticipantConfig
import Rsb.Library.InPlace

/-!
Options handled in place (`ParticipantConfig::handleOption`).

`handleOption` changes the configuration object as it goes, and an exception leaves the
object as it is at that point. All the sections check an option before they store it,
with one exception: a transport that has not been configured is added before its own
`handleOption` looks at the rest of the key. And two sections read the second component
of a key without asking for the size.
-/

namespace Rsb.ParticipantConfig.InPlace

open Library Library.InPlace

variable {π : Type} [Properties π]

/-- `Transport::handleOption`. -/
def Transport.handleOption (env : Environment) (key : Key) (value : Bytes) :
    InPlace Fault (Transport π) Unit :=
  if 2 ≤ key.length ∧ key[0]? = some (bytes "converter") ∧ key[1]? = some (bytes "cpp") then
    if key.length ≠ 3 then
      throw (invalidArgument (bytes "Option key `" ++ env.printed key ++
        bytes "' has invalid number of components; converter-related keys for transports has to have three components"))
    else do
      let wireSchema ← ofExcept (component key 2)
      modify fun t => t.insertConverter wireSchema value
  else if 2 ≤ key.length ∧ key[0]? = some (bytes "converter") then pure ()
  else if key.length ≠ 1 then
    throw (invalidArgument (bytes "Key `" ++ env.printed key ++
      bytes "' has invalid number of components; transport option keys have to have one component."))
  else do
    let name ← ofExcept (component key 0)
    modify fun t => t.setOption name value

/-- `EventProcessingStrategy::handleOption`. -/
def EventProcessingStrategy.handleOption (env : Environment) (key : Key) (value : Bytes) :
    InPlace Fault (EventProcessingStrategy π) Unit :=
  if key.length ≠ 1 then
    throw (invalidArgument (bytes "Key `" ++ env.printed key ++
      bytes "' has invalid number of components; transport option keys have to have one component."))
  else do
    let name ← ofExcept (component key 0)
    modify fun s => s.setOption name value

def handleQualityOfService (env : Environment) (key : Key) (value : Bytes) :
    InPlace Fault (ParticipantConfig π) Unit :=
  if key.length ≠ 2 then
    throw (invalidArgument (bytes "Option key `" ++ env.printed key ++
      bytes "' has invalid number of components; options related to quality of service have to have two components."))
  else do
    let second ← ofExcept (component key 1)
    if second = bytes "reliability" then
      let reliability ← ofExcept (valueOf env reliabilityOf key value)
      modify fun c => { c with qosSpec := { c.qosSpec with reliability := reliability } }
    else if second = bytes "ordering" then
      let ordering ← ofExcept (valueOf env orderingOf key value)
      modify fun c => { c with qosSpec := { c.qosSpec with ordering := ordering } }
    else pure ()

def handleErrorHandling (env : Environment) (key : Key) (value : Bytes) :
    InPlace Fault (ParticipantConfig π) Unit := do
  let second ← ofExcept (component key 1)
  if second = bytes "onhandlererror" then
    let errorStrategy ← ofExcept (valueOf env errorStrategyOf key value)
    modify fun c => { c with errorStrategy := errorStrategy }
  else pure ()

/-- What is done with the strategy that a key names. -/
def configure (env : Environment) (key : Key) (value : Bytes) :
    InPlace Fault (EventProcessingStrategy π) Unit :=
  if key.length = 2 then modify fun s => s.setName value
  else EventProcessingStrategy.handleOption env (key.drop 2) value

def handleEventProcessing (env : Environment) (key : Key) (value : Bytes) :
    InPlace Fault (ParticipantConfig π) Unit := do
  let second ← ofExcept (component key 1)
  if second = bytes "receivingstrategy" then
    onPart (·.eventReceivingStrategy) (fun c s => { c with eventReceivingStrategy := s })
      (configure env key value)
  else if second = bytes "sendingstrategy" then
    onPart (·.eventSendingStrategy) (fun c s => { c with eventSendingStrategy := s })
      (configure env key value)
  else
    let first ← ofExcept (component key 0)
    throw (invalidArgument (bytes "`" ++ second ++ bytes "' is not a valid sub-key of `" ++
      first ++ bytes "'."))

def handleIntrospection (env : Environment) (key : Key) (value : Bytes) :
    InPlace Fault (ParticipantConfig π) Unit :=
  if key.length = 2 ∧ key[1]? = some (bytes "enabled") then do
    let enabled ← ofExcept (env.lexicalCast value)
    modify fun c => { c with introspection := enabled }
  else pure ()

def addTransport (c : ParticipantConfig π) (name : Bytes) (transport : Transport π) :
    ParticipantConfig π :=
  { c with transports := (c.transports.erase name).insert name transport }

/-- Work on the transport that the iterator points to. -/
def onTransport (name : Bytes) (m : InPlace Fault (Transport π) Unit) :
    InPlace Fault (ParticipantConfig π) Unit := fun c =>
  match c.transports.find? name with
  | none => .error .nullPointer c
  | some transport =>
      onPart (fun _ => transport)
        (fun c t => { c with transports := c.transports.insert name t }) m c

def handleTransport (env : Environment) (key : Key) (value : Bytes) :
    InPlace Fault (ParticipantConfig π) Unit :=
  if key.length < 3 then
    throw (invalidArgument (bytes "Option key `" ++ env.printed key ++
      bytes "' has invalid number of components; transport-related keys have to have at least three components."))
  else do
    let name ← ofExcept (component key 1)
    let c ← get
    if c.transports.find? name = none then
      let transport ← ofExcept (Transport.new name)
      modify fun c => addTransport c name transport
    onTransport name (Transport.handleOption env (key.drop 2) value)

def handleOption (env : Environment) (key : Key) (value : Bytes) :
    InPlace Fault (ParticipantConfig π) Unit := do
  let first ← ofExcept (component key 0)
  if first = bytes "qualityofservice" then handleQualityOfService env key value
  else if first = bytes "errorhandling" then handleErrorHandling env key value
  else if first = bytes "eventprocessing" then handleEventProcessing env key value
  else if first = bytes "introspection" then handleIntrospection env key value
  else if first = bytes "transport" then handleTransport env key value
  else if key.length = 1 then
    modify fun c => { c with options := Properties.set c.options first value }
  else pure ()

/-! ### Sections that check before they store -/

section

variable (env : Environment) (key : Key) (value : Bytes)

theorem Transport.realizes_handleOption :
    Realizes (Transport.handleOption env key value)
      (fun t : Transport π => t.handleOption env key value) :=
  realizes_ite
    (realizes_ite (realizes_throw _) (realizes_ofExcept_bind fun _ => realizes_modify _))
    (realizes_ite realizes_pure
      (realizes_ite (realizes_throw _) (realizes_ofExcept_bind fun _ => realizes_modify _)))

theorem EventProcessingStrategy.realizes_handleOption :
    Realizes (EventProcessingStrategy.handleOption env key value)
      (fun s : EventProcessingStrategy π => s.handleOption env key value) :=
  realizes_ite (realizes_throw _) (realizes_ofExcept_bind fun _ => realizes_modify _)

omit [Properties π] in
theorem realizes_handleQualityOfService :
    Realizes (handleQualityOfService env key value)
      (fun c : ParticipantConfig π => c.handleQualityOfService env key value) := by
  refine realizes_ite (realizes_throw _) (realizes_ofExcept_bind fun second => ?_)
  refine realizes_ite (realizes_ofExcept_bind fun _ => realizes_modify _) ?_
  exact realizes_ite (realizes_ofExcept_bind fun _ => realizes_modify _) realizes_pure

omit [Properties π] in
theorem realizes_handleErrorHandling :
    Realizes (handleErrorHandling env key value)
      (fun c : ParticipantConfig π => c.handleErrorHandling env key value) := by
  refine realizes_ofExcept_bind fun second => ?_
  exact realizes_ite (realizes_ofExcept_bind fun _ => realizes_modify _) realizes_pure

theorem realizes_configure :
    Realizes (configure env key value)
      (fun s : EventProcessingStrategy π => s.configure env key value) :=
  realizes_ite (realizes_modify _)
    (EventProcessingStrategy.realizes_handleOption env (key.drop 2) value)

theorem realizes_handleEventProcessing :
    Realizes (handleEventProcessing env key value)
      (fun c : ParticipantConfig π => c.handleEventProcessing env key value) := by
  have hconfigure := realizes_configure (π := π) env key value
  refine realizes_ofExcept_bind fun second => ?_
  refine realizes_ite (realizes_onPart (fun _ => rfl) hconfigure) ?_
  refine realizes_ite (realizes_onPart (fun _ => rfl) hconfigure) ?_
  exact realizes_ofExcept_bind fun first => realizes_throw _

omit [Properties π] in
theorem realizes_handleIntrospection :
    Realizes (handleIntrospection env key value)
      (fun c : ParticipantConfig π => c.handleIntrospection env key value) :=
  realizes_ite (realizes_ofExcept_bind fun _ => realizes_modify _) realizes_pure

end

/-! ### Transports -/

/-- The keys of at least two components that a transport refuses: a converter selection
for C++ that does not have three, and any other key but a selection for another
language. -/
def Refused : Key → Prop
  | first :: second :: rest =>
      if first = bytes "converter" then second = bytes "cpp" ∧ rest.length ≠ 1 else True
  | _ => False

theorem Transport.handleOption_ok_or_refused (env : Environment) (t : Transport π)
    {key : Key} (hkey : key ≠ []) (value : Bytes) :
    (¬ Refused key ∧ ∃ t', t.handleOption env key value = .ok t') ∨
      (Refused key ∧ ∃ what, t.handleOption env key value = .error (invalidArgument what)) := by
  obtain ⟨first, rest, rfl⟩ := List.exists_cons_of_ne_nil hkey
  rw [ParticipantConfig.Transport.handleOption]
  cases rest with
  | nil =>
      rw [if_neg (by simp), if_neg (by simp), if_neg (by simp)]
      exact .inl ⟨id, _, rfl⟩
  | cons second rest =>
      by_cases hfirst : first = bytes "converter"
      · subst hfirst
        by_cases hsecond : second = bytes "cpp"
        · subst hsecond
          rw [if_pos (by simp)]
          split
          · next hlen =>
              refine .inr ⟨?_, _, rfl⟩
              rw [Refused, if_pos rfl]
              exact ⟨rfl, by simpa using hlen⟩
          · next hlen =>
              obtain ⟨wireSchema, rfl⟩ : ∃ wireSchema, rest = [wireSchema] :=
                List.length_eq_one_iff.mp (by simpa using hlen)
              refine .inl ⟨?_, _, rfl⟩
              rw [Refused, if_pos rfl]
              simp
        · rw [if_neg (by simp [hsecond]), if_pos (by simp)]
          refine .inl ⟨?_, _, rfl⟩
          rw [Refused, if_pos rfl]
          exact fun h => hsecond h.1
      · rw [if_neg (by simp [hfirst]), if_neg (by simp [hfirst]), if_pos (by simp)]
        refine .inr ⟨?_, _, rfl⟩
        rw [Refused, if_neg hfirst]
        trivial

section

variable {env : Environment} {c : ParticipantConfig π} {name value : Bytes} {subKey : Key}

theorem length_transport_key (hkey : subKey ≠ []) :
    ¬ (bytes "transport" :: name :: subKey).length < 3 := by
  have hpos := List.length_pos_iff.mpr hkey
  simp only [List.length_cons]
  omega

omit [Properties π] in
/-- An atomic update of a transport of the configuration is one of the configuration. -/
theorem run_onTransport {m : InPlace Fault (Transport π) Unit}
    {f : Transport π → Except Fault (Transport π)} (h : Realizes m f) {t : Transport π}
    (hfind : c.transports.find? name = some t) :
    (onTransport name m).run c = outcome c (f t >>= fun t' =>
      .ok { c with transports := c.transports.insert name t' }) := by
  have hput : c.transports.insert name t = c.transports := SortedMap.insert_eq_self_iff.mpr hfind
  have hrun := h t
  simp only [EStateM.run, onTransport, onPart, hfind] at hrun ⊢
  rw [hrun]
  cases f t with
  | ok t' => rfl
  | error e =>
      simp only [outcome, hput]
      rfl

/-- The transport is there: it is changed, or nothing is. -/
theorem run_handleTransport_of_some {t : Transport π} (hfind : c.transports.find? name = some t)
    (hkey : subKey ≠ []) :
    (handleTransport env (bytes "transport" :: name :: subKey) value).run c =
      outcome c (c.handleTransport env (bytes "transport" :: name :: subKey) value) := by
  have hfunctional : c.handleTransport env (bytes "transport" :: name :: subKey) value =
      (t.handleOption env subKey value >>= fun t' =>
        .ok { c with transports := c.transports.insert name t' }) := by
    rw [ParticipantConfig.handleTransport, if_neg (length_transport_key hkey)]
    show (c.findTransport name >>= _) = _
    rw [findTransport, hfind]
    rfl
  rw [handleTransport, if_neg (length_transport_key hkey), hfunctional]
  show (if c.transports.find? name = none then _
    else onTransport name (Transport.handleOption env subKey value) :
      InPlace Fault (ParticipantConfig π) Unit).run c = _
  rw [if_neg (by simp [hfind])]
  exact run_onTransport (Transport.realizes_handleOption env subKey value) hfind

/-- It is not there and cannot be made. -/
theorem run_handleTransport_of_nil (hfind : c.transports.find? [] = none) (hkey : subKey ≠ []) :
    (handleTransport env (bytes "transport" :: [] :: subKey) value).run c =
      outcome c (c.handleTransport env (bytes "transport" :: [] :: subKey) value) := by
  rw [handleTransport, ParticipantConfig.handleTransport, if_neg (length_transport_key hkey),
    if_neg (length_transport_key hkey)]
  show (if c.transports.find? [] = none then _ else _ :
    InPlace Fault (ParticipantConfig π) Unit).run c = outcome c (c.findTransport [] >>= _)
  rw [if_pos hfind, findTransport, hfind]
  rfl

/-- It is added first, and stays if the rest of the key is refused. -/
theorem run_handleTransport_of_none (hname : name ≠ []) (hfind : c.transports.find? name = none)
    (hkey : subKey ≠ []) :
    let added := addTransport c name ⟨name, .empty, Properties.empty⟩
    (handleTransport env (bytes "transport" :: name :: subKey) value).run c =
      outcome added
        ((⟨name, .empty, Properties.empty⟩ : Transport π).handleOption env subKey value >>=
          fun t => .ok { added with transports := added.transports.insert name t }) := by
  intro added
  have hadded : added.transports.find? name = some ⟨name, .empty, Properties.empty⟩ :=
    SortedMap.find?_insert_self _ _ _
  rw [handleTransport, if_neg (length_transport_key hkey)]
  show (if c.transports.find? name = none then _ else _ :
    InPlace Fault (ParticipantConfig π) Unit).run c = _
  rw [if_pos hfind, ParticipantConfig.Transport.new, if_neg hname]
  exact run_onTransport (Transport.realizes_handleOption env subKey value) hadded

end

/-! ### Faults -/

/-- If the computation fails, then with an exception. -/
def Throws {α : Type} (x : Except Fault α) : Prop := ∀ f, x = .error f → ∃ e, f = .thrown e

section

variable {α β : Type}

theorem throws_ok (a : α) : Throws (.ok a : Except Fault α) := by
  intro f h
  cases h

theorem throws_invalidArgument (what : Bytes) :
    Throws (.error (invalidArgument what) : Except Fault α) := by
  intro f h
  obtain rfl := Except.error.inj h
  exact ⟨_, rfl⟩

theorem throws_bind {x : Except Fault α} {k : α → Except Fault β} (hx : Throws x)
    (hk : ∀ a, Throws (k a)) : Throws (x >>= k) := by
  intro f h
  rcases bind_eq_error_iff.mp h with hf | ⟨a, -, hf⟩
  · exact hx f hf
  · exact hk a f hf

theorem throws_ite {p : Prop} [Decidable p] {x y : Except Fault α} (hx : p → Throws x)
    (hy : ¬ p → Throws y) : Throws (if p then x else y) := by
  split
  · next h => exact hx h
  · next h => exact hy h

theorem throws_component {key : Key} {i : ℕ} (h : i < key.length) : Throws (component key i) := by
  rw [component, List.getElem?_eq_getElem h]
  exact throws_ok _

theorem throws_valueOf (env : Environment) (alternative : Bytes → Option α) (key : Key)
    (value : Bytes) : Throws (valueOf env alternative key value) := by
  rw [valueOf]
  cases alternative value with
  | none => exact throws_invalidArgument _
  | some a => exact throws_ok a

end

section

variable (env : Environment) (c : ParticipantConfig π) (value : Bytes)

omit [Properties π] in
theorem throws_handleQualityOfService (key : Key) :
    Throws (c.handleQualityOfService env key value) := by
  refine throws_ite (fun _ => throws_invalidArgument _) fun hlen => ?_
  refine throws_bind (throws_component (by omega)) fun second => ?_
  refine throws_ite (fun _ => throws_bind (throws_valueOf _ _ _ _) fun _ => throws_ok _) fun _ => ?_
  exact throws_ite (fun _ => throws_bind (throws_valueOf _ _ _ _) fun _ => throws_ok _)
    fun _ => throws_ok _

omit [Properties π] in
theorem throws_handleErrorHandling {key : Key} (h : 1 < key.length) :
    Throws (c.handleErrorHandling env key value) := by
  refine throws_bind (throws_component h) fun second => ?_
  exact throws_ite (fun _ => throws_bind (throws_valueOf _ _ _ _) fun _ => throws_ok _)
    fun _ => throws_ok _

theorem throws_configure (s : EventProcessingStrategy π) (key : Key) :
    Throws (s.configure env key value) := by
  refine throws_ite (fun _ => throws_ok _) fun _ => ?_
  refine throws_ite (fun _ => throws_invalidArgument _) fun hlen => ?_
  exact throws_bind (throws_component (by omega)) fun _ => throws_ok _

theorem throws_handleEventProcessing {key : Key} (h : 1 < key.length) :
    Throws (c.handleEventProcessing env key value) := by
  refine throws_bind (throws_component h) fun second => ?_
  refine throws_ite (fun _ => throws_bind (throws_configure _ _ _ _) fun _ => throws_ok _)
    fun _ => ?_
  refine throws_ite (fun _ => throws_bind (throws_configure _ _ _ _) fun _ => throws_ok _)
    fun _ => ?_
  exact throws_bind (throws_component (by omega)) fun _ => throws_invalidArgument _

omit [Properties π] in
theorem throws_handleIntrospection (hcast : ∀ value, Throws (env.lexicalCast value)) (key : Key) :
    Throws (c.handleIntrospection env key value) :=
  throws_ite (fun _ => throws_bind (hcast value) fun _ => throws_ok _) fun _ => throws_ok _

theorem throws_handleTransport (key : Key) : Throws (c.handleTransport env key value) := by
  refine throws_ite (fun _ => throws_invalidArgument _) fun hlen => ?_
  refine throws_bind (throws_component (by omega)) fun name => ?_
  have hfind : Throws (c.findTransport name) := by
    rw [findTransport]
    cases c.transports.find? name with
    | none => exact throws_ite (fun _ => throws_invalidArgument _) fun _ => throws_ok _
    | some t => exact throws_ok t
  refine throws_bind hfind fun t => throws_bind ?_ fun _ => throws_ok _
  have hkey : key.drop 2 ≠ [] := by
    rw [ne_eq, List.drop_eq_nil_iff]
    omega
  intro f hf
  rcases Transport.handleOption_ok_or_refused env t hkey value with ⟨-, t', ht'⟩ | ⟨-, what, hwhat⟩
  · rw [hf] at ht'
    cases ht'
  · rw [hf] at hwhat
    exact ⟨_, Except.error.inj hwhat⟩

/-- Two sections look for a second component that need not be there. -/
theorem throws_handleOption_iff (hcast : ∀ value, Throws (env.lexicalCast value)) {key : Key}
    (hkey : key ≠ []) :
    Throws (c.handleOption env key value) ↔
      key ≠ [bytes "errorhandling"] ∧ key ≠ [bytes "eventprocessing"] := by
  constructor
  · intro h
    constructor
    · rintro rfl
      obtain ⟨e, he⟩ := h .readPastEnd rfl
      cases he
    · rintro rfl
      obtain ⟨e, he⟩ := h .readPastEnd rfl
      cases he
  · rintro ⟨herror, hprocessing⟩
    obtain ⟨first, rest, rfl⟩ := List.exists_cons_of_ne_nil hkey
    have hlength : ∀ name, first :: rest ≠ [name] → first = name → 1 < (first :: rest).length := by
      rintro _ hne rfl
      cases rest with
      | nil => exact absurd rfl hne
      | cons second rest => simp
    show Throws (if first = bytes "qualityofservice" then _ else _)
    refine throws_ite (fun _ => throws_handleQualityOfService _ _ _ _) fun _ => ?_
    refine throws_ite (fun h => throws_handleErrorHandling _ _ _ (hlength _ herror h)) fun _ => ?_
    refine throws_ite (fun h => throws_handleEventProcessing _ _ _ (hlength _ hprocessing h))
      fun _ => ?_
    refine throws_ite (fun _ => throws_handleIntrospection _ _ _ hcast _) fun _ => ?_
    refine throws_ite (fun _ => throws_handleTransport _ _ _ _) fun _ => ?_
    exact throws_ite (fun _ => throws_ok _) fun _ => throws_ok _

end

/-! ### Atomicity -/

/-- The key gives an option of a transport that is not configured yet. -/
def Adds (c : ParticipantConfig π) (name : Bytes) (subKey key : Key) : Prop :=
  key = bytes "transport" :: name :: subKey ∧ subKey ≠ [] ∧ name ≠ [] ∧
    c.transports.find? name = none

section

variable {env : Environment} {c : ParticipantConfig π} {value : Bytes}

theorem run_handleTransport_of_not_adds {rest : Key}
    (h : ¬ ∃ name subKey, Adds c name subKey (bytes "transport" :: rest)) :
    (handleTransport env (bytes "transport" :: rest) value).run c =
      outcome c (c.handleTransport env (bytes "transport" :: rest) value) := by
  rcases rest with _ | ⟨name, _ | ⟨second, subKey⟩⟩
  · rfl
  · rfl
  · cases hfind : c.transports.find? name with
    | some t => exact run_handleTransport_of_some hfind (List.cons_ne_nil _ _)
    | none =>
        have hname : name = [] := by
          by_contra hname
          exact h ⟨name, _, rfl, List.cons_ne_nil _ _, hname, hfind⟩
        subst hname
        exact run_handleTransport_of_nil hfind (List.cons_ne_nil _ _)

/-- Unless a transport is added, an option is stored or nothing is changed. -/
theorem run_handleOption_of_not_adds {key : Key} (h : ¬ ∃ name subKey, Adds c name subKey key) :
    (handleOption env key value).run c = outcome c (c.handleOption env key value) := by
  cases key with
  | nil => rfl
  | cons first rest =>
      show (if first = bytes "qualityofservice" then _ else _ :
          InPlace Fault (ParticipantConfig π) Unit).run c =
        outcome c (if first = bytes "qualityofservice" then _ else _)
      split_ifs with hquality herror hprocessing hintrospection htransport hlen
      · exact realizes_handleQualityOfService env _ value c
      · exact realizes_handleErrorHandling env _ value c
      · exact realizes_handleEventProcessing env _ value c
      · exact realizes_handleIntrospection env _ value c
      · subst htransport
        exact run_handleTransport_of_not_adds h
      · rfl
      · rfl

omit [Properties π] in
theorem addTransport_ne {name : Bytes} {t : Transport π} (h : c.transports.find? name = none) :
    addTransport c name t ≠ c := by
  intro heq
  have hadded : (addTransport c name t).transports.find? name = some t :=
    SortedMap.find?_insert_self _ _ _
  rw [heq, h] at hadded
  cases hadded

variable (env value) in
/-- The added transport stays when its option is refused. -/
theorem run_handleOption_of_adds {name : Bytes} {subKey key : Key} (h : Adds c name subKey key) :
    (¬ Refused subKey ∧ ∃ c', (handleOption env key value).run c = .ok () c' ∧
      c.handleOption env key value = .ok c') ∨
    (Refused subKey ∧ ∃ what,
      (handleOption env key value).run c =
        .error (invalidArgument what) (addTransport c name ⟨name, .empty, Properties.empty⟩) ∧
      c.handleOption env key value = .error (invalidArgument what)) := by
  obtain ⟨rfl, hsub, hname, hfind⟩ := h
  have hrun : (handleOption env (bytes "transport" :: name :: subKey) value).run c = _ :=
    run_handleTransport_of_none hname hfind hsub
  have hfunctional : c.handleOption env (bytes "transport" :: name :: subKey) value =
      ((⟨name, .empty, Properties.empty⟩ : Transport π).handleOption env subKey value >>= fun t =>
        .ok { c with transports := c.transports.insert name t }) := by
    show c.handleTransport env (bytes "transport" :: name :: subKey) value = _
    rw [ParticipantConfig.handleTransport, if_neg (length_transport_key hsub)]
    show (c.findTransport name >>= _) = _
    rw [findTransport, hfind, ParticipantConfig.Transport.new, if_neg hname]
    rfl
  have hinsert : ∀ t, (addTransport c name ⟨name, .empty, Properties.empty⟩).transports.insert
      name t = c.transports.insert name t := by
    intro t
    apply SortedMap.ext_find?
    intro k
    simp only [addTransport, SortedMap.find?_insert, SortedMap.find?_erase]
    split_ifs <;> rfl
  rw [hrun, hfunctional]
  rcases Transport.handleOption_ok_or_refused env (⟨name, .empty, Properties.empty⟩ : Transport π)
      hsub value with ⟨hok, t', ht'⟩ | ⟨hrefused, what, hwhat⟩
  · refine .inl ⟨hok, { c with transports := c.transports.insert name t' }, ?_, ?_⟩
    · rw [ht', ← hinsert t']
      rfl
    · rw [ht']
      rfl
  · refine .inr ⟨hrefused, what, ?_, ?_⟩
    · rw [hwhat]
      rfl
    · rw [hwhat]
      rfl

/-- In place, an option has the effect that it has as a function, and fails where the
function does. -/
theorem run_handleOption (key : Key) :
    ∃ left, (handleOption env key value).run c = outcome left (c.handleOption env key value) := by
  by_cases h : ∃ name subKey, Adds c name subKey key
  · obtain ⟨name, subKey, h⟩ := h
    rcases run_handleOption_of_adds env value h with ⟨-, c', hrun, hok⟩ | ⟨-, what, hrun, herror⟩
    · exact ⟨c, by rw [hrun, hok]; rfl⟩
    · exact ⟨_, by rw [hrun, herror]; rfl⟩
  · exact ⟨c, run_handleOption_of_not_adds h⟩

/-- Handling the option returns, or it throws and leaves the configuration as it was. -/
def Robust (env : Environment) (c : ParticipantConfig π) (key : Key) (value : Bytes) : Prop :=
  ∀ f c', (handleOption env key value).run c = .error f c' → (∃ e, f = .thrown e) ∧ c' = c

/-- The key has nothing behind `errorhandling` or `eventprocessing`, or it has a sub-key
that is refused for a transport that is not configured yet. -/
def Risky (c : ParticipantConfig π) (key : Key) : Prop :=
  key = [bytes "errorhandling"] ∨ key = [bytes "eventprocessing"] ∨
    ∃ name subKey, Adds c name subKey key ∧ Refused subKey

omit [Properties π] in
theorem risky_iff_refused {name : Bytes} {subKey key : Key} (h : Adds c name subKey key) :
    Risky c key ↔ Refused subKey := by
  have hkey := h.1
  constructor
  · rintro (rfl | rfl | ⟨name', subKey', h', hrefused⟩)
    · cases hkey
    · cases hkey
    · obtain ⟨-, -, rfl⟩ := by simpa using h'.1.symm.trans hkey
      exact hrefused
  · intro hrefused
    exact .inr (.inr ⟨name, subKey, h, hrefused⟩)

omit [Properties π] in
theorem risky_iff_short {key : Key} (h : ¬ ∃ name subKey, Adds c name subKey key) :
    Risky c key ↔ ¬(key ≠ [bytes "errorhandling"] ∧ key ≠ [bytes "eventprocessing"]) := by
  have hadds : ¬ ∃ name subKey, Adds c name subKey key ∧ Refused subKey := by
    rintro ⟨name, subKey, hadds, -⟩
    exact h ⟨name, subKey, hadds⟩
  rw [Risky, or_iff_left hadds, ne_eq, ne_eq, not_and_or, not_not, not_not]

/-- Handling is robust except for the keys that are risky. -/
theorem robust_iff (hcast : ∀ value, Throws (env.lexicalCast value)) {key : Key}
    (hkey : key ≠ []) : Robust env c key value ↔ ¬ Risky c key := by
  by_cases hadds : ∃ name subKey, Adds c name subKey key
  · obtain ⟨name, subKey, hadds⟩ := hadds
    rw [risky_iff_refused hadds]
    rcases run_handleOption_of_adds env value hadds with
      ⟨hok, c', hrun, -⟩ | ⟨hrefused, what, hrun, -⟩
    · refine iff_of_true (fun f c' herror => ?_) hok
      rw [hrun] at herror
      cases herror
    · refine iff_of_false (fun hrobust => ?_) (not_not_intro hrefused)
      exact addTransport_ne hadds.2.2.2 (hrobust _ _ hrun).2
  · rw [risky_iff_short hadds, not_not, ← throws_handleOption_iff env c value hcast hkey, Robust,
      run_handleOption_of_not_adds hadds]
    cases c.handleOption env key value with
    | ok c' => exact iff_of_true (fun f c' h => by cases h) (throws_ok c')
    | error f =>
        constructor
        · intro hrobust f' hf
          obtain rfl := Except.error.inj hf
          exact (hrobust f c rfl).1
        · rintro hthrows f' c' ⟨⟩
          exact ⟨hthrows f rfl, rfl⟩

end

theorem throws_sampleEnvironment (value : Bytes) : Throws (sampleEnvironment.lexicalCast value) := by
  refine throws_ite (fun _ => throws_ok _) fun _ => throws_ite (fun _ => throws_ok _) fun _ => ?_
  intro f h
  obtain rfl := Except.error.inj h
  exact ⟨_, rfl⟩

/-- The name of the transport is followed by one component. -/
theorem robust_host :
    ¬Risky sampleConfig [bytes "transport", bytes "socket", bytes "host"] ∧
      Robust sampleEnvironment sampleConfig
        [bytes "transport", bytes "socket", bytes "host"] (bytes "localhost") := by
  have hsafe : ¬Risky sampleConfig [bytes "transport", bytes "socket", bytes "host"] := by
    rintro (h | h | ⟨name, subKey, hadds, hrefused⟩)
    · exact absurd (congrArg List.length h) (by decide)
    · exact absurd (congrArg List.length h) (by decide)
    · obtain ⟨-, rfl⟩ := List.cons.inj (List.cons.inj hadds.1).2
      exact hrefused
  exact ⟨hsafe, (robust_iff throws_sampleEnvironment (by decide)).mpr hsafe⟩

/-- There is nothing behind `errorhandling`, and no option of a transport has a key of two
components. -/
theorem not_robust_short_or_refused :
    ¬ Robust sampleEnvironment sampleConfig [bytes "errorhandling"] (bytes "LOG") ∧
      ¬ Robust sampleEnvironment sampleConfig
        [bytes "transport", bytes "socket", bytes "host", bytes "name"] (bytes "localhost") := by
  constructor
  · intro h
    obtain ⟨⟨e, he⟩, -⟩ := h .readPastEnd sampleConfig rfl
    cases he
  · intro h
    have hleft := (h _ _ rfl).2
    have hfound := congrArg (·.transports.find? (bytes "socket")) hleft
    cases hfound

end Rsb.ParticipantConfig.InPlace
