import Rsb.ParticipantConfig
import Rsb.Transport.Transports

/-!
The default configuration of participants (`Factory.cpp`, `ParticipantConfig.cpp`).

The factory configures the transports that are there for all three directions, enables the
socket transport, and then hands over the options of the user. A transport that is first
mentioned by an option is added, and enabled like any other unless an option says otherwise.
-/

namespace Rsb

open Library ParticipantConfig Transport

variable {π : Type} [Properties π]

/-- `lexical_cast` reads back what it has written. -/
structure Factory.Environment extends ParticipantConfig.Environment where
  printBool : Bool → Bytes
  lexicalCast_printBool (b : Bool) : lexicalCast (printBool b) = .ok b

namespace ParticipantConfig

namespace Transport

/-- `getAs<bool>("enabled", true)` -/
def isEnabled (env : Environment) (t : Transport π) : Except Fault Bool :=
  match Properties.find? t.options (bytes "enabled") with
  | none => .ok true
  | some value => env.lexicalCast value

def setEnabled (env : Factory.Environment) (t : Transport π) (value : Bool) : Transport π :=
  t.setOption (bytes "enabled") (env.printBool value)

/-- The constructor with both arguments. -/
def create (env : Factory.Environment) (name : Bytes) (enabled : Bool) :
    Except Fault (Transport π) := do
  let t ← Transport.new name
  return if enabled then t else t.setEnabled env false

end Transport

def addTransport (c : ParticipantConfig π) (t : Transport π) : ParticipantConfig π :=
  { c with transports := (c.transports.erase t.name).insert t.name t }

def mutableTransport (c : ParticipantConfig π) (name : Bytes) : Except Fault (Transport π) :=
  match c.transports.find? name with
  | none => .error (.thrown ⟨.noSuchObject, name⟩)
  | some t => .ok t

/-- The body of the loop of `getTransports`. Transports are ordered by their names. -/
def collect (env : Environment) (includeDisabled : Bool) (result : SortedMap Bytes (Transport π))
    (it : Bytes × Transport π) : Except Fault (SortedMap Bytes (Transport π)) := do
  let enabled ← it.2.isEnabled env
  if enabled || includeDisabled then
    return if result.find? it.2.name = none then result.insert it.2.name it.2 else result
  else return result

def getTransports (env : Environment) (c : ParticipantConfig π) (includeDisabled : Bool) :
    Except Fault (SortedMap Bytes (Transport π)) :=
  c.transports.entries.foldlM (collect env includeDisabled) .empty

end ParticipantConfig

namespace Factory

/-- The loop over the available transports. -/
def addTransports (env : Environment) (c : ParticipantConfig π) (available : List Bytes) :
    Except Fault (ParticipantConfig π) :=
  available.foldlM (fun c name => do
    let t ← Transport.create env name (name = bytes "socket")
    return c.addTransport t) c

/-- What is done if there is only one transport. -/
def enableOnly (env : Environment) (c : ParticipantConfig π) :
    Except Fault (ParticipantConfig π) := do
  let configured ← c.getTransports env.toEnvironment false
  match configured.entries with
  | [(_, only)] =>
      let t ← c.mutableTransport only.name
      return { c with transports := c.transports.insert only.name (t.setEnabled env true) }
  | _ => return c

/-- The default configuration before the options of the user. -/
def defaultConfig (env : Environment) (transports : Transports) :
    Except Fault (ParticipantConfig π) := do
  let available ← transports.getAvailableTransports
    (Direction.inPush.flag ||| Direction.inPull.flag ||| Direction.out.flag)
  let c ← addTransports env ParticipantConfig.new available.keys
  enableOnly env c

/-- The default configuration that participants get. -/
def configure (env : Environment) (transports : Transports) (options : List (Key × Bytes)) :
    Except Fault (ParticipantConfig π) := do
  let c ← defaultConfig env transports
  c.handleOptions env.toEnvironment options

end Factory

/-! ### Transports of a configuration -/

namespace ParticipantConfig

section

variable {env : Environment} {includeDisabled : Bool}

/-- Transports are held under their names. -/
def Named (c : ParticipantConfig π) : Prop :=
  ∀ name t, c.transports.find? name = some t → t.name = name

theorem collect_eq_ok {result result' : SortedMap Bytes (Transport π)}
    {it : Bytes × Transport π} (hname : it.2.name = it.1) (hfree : result.find? it.1 = none)
    (h : collect env includeDisabled result it = .ok result') :
    (∃ enabled, it.2.isEnabled env = .ok enabled) ∧
      ∀ name t, result'.find? name = some t ↔ result.find? name = some t ∨
        (name, t) = it ∧ (includeDisabled = true ∨ t.isEnabled env = .ok true) := by
  obtain ⟨enabled, henabled, h⟩ := bind_eq_ok_iff.mp h
  refine ⟨⟨enabled, henabled⟩, fun name t => ?_⟩
  obtain ⟨key, transport⟩ := it
  obtain rfl : transport.name = key := hname
  rw [if_pos hfree] at h
  split_ifs at h with hkeep
  · obtain rfl := Except.ok.inj h
    have hkept : includeDisabled = true ∨ transport.isEnabled env = .ok true := by
      rcases Bool.or_eq_true_iff.mp hkeep with rfl | hall
      · exact .inr henabled
      · exact .inl hall
    rw [SortedMap.find?_insert]
    by_cases hkey : name = transport.name
    · subst hkey
      rw [if_pos rfl, hfree, Option.some.injEq]
      constructor
      · rintro rfl
        exact .inr ⟨rfl, hkept⟩
      · rintro (hnone | ⟨heq, -⟩)
        · cases hnone
        · exact (Prod.mk.inj heq).2.symm
    · rw [if_neg hkey]
      refine (or_iff_left ?_).symm
      rintro ⟨heq, -⟩
      exact hkey (Prod.mk.inj heq).1
  · obtain rfl := Except.ok.inj h
    refine (or_iff_left ?_).symm
    rintro ⟨heq, hkept⟩
    obtain ⟨-, rfl⟩ := Prod.mk.inj heq
    rw [henabled, Except.ok.injEq] at hkept
    exact hkeep (Bool.or_eq_true_iff.mpr hkept.symm)

theorem foldlM_collect_eq_ok {l : List (Bytes × Transport π)}
    {result result' : SortedMap Bytes (Transport π)} (hname : ∀ it ∈ l, it.2.name = it.1)
    (hnodup : (l.map Prod.fst).Nodup) (hfree : ∀ it ∈ l, result.find? it.1 = none)
    (h : l.foldlM (collect env includeDisabled) result = .ok result') :
    (∀ it ∈ l, ∃ enabled, it.2.isEnabled env = .ok enabled) ∧
      ∀ name t, result'.find? name = some t ↔ result.find? name = some t ∨
        (name, t) ∈ l ∧ (includeDisabled = true ∨ t.isEnabled env = .ok true) := by
  induction l generalizing result with
  | nil =>
      obtain rfl := Except.ok.inj h
      simp
  | cons it l ih =>
      rw [List.foldlM_cons] at h
      obtain ⟨collected, hcollected, h⟩ := bind_eq_ok_iff.mp h
      rw [List.map_cons, List.nodup_cons] at hnodup
      rw [List.forall_mem_cons] at hname hfree
      obtain ⟨henabled, hfind⟩ := collect_eq_ok hname.1 hfree.1 hcollected
      have hfree' : ∀ it' ∈ l, collected.find? it'.1 = none := by
        intro it' hit'
        rw [Option.eq_none_iff_forall_ne_some]
        intro t ht
        rcases (hfind _ _).mp ht with hold | ⟨rfl, -⟩
        · rw [hfree.2 it' hit'] at hold
          cases hold
        · exact hnodup.1 (List.mem_map.mpr ⟨it', hit', rfl⟩)
      obtain ⟨hrest, hfind'⟩ := ih hname.2 hnodup.2 hfree' h
      refine ⟨List.forall_mem_cons.mpr ⟨henabled, hrest⟩, fun name t => ?_⟩
      rw [hfind', hfind, List.mem_cons, or_assoc, or_and_right]

theorem exists_foldlM_collect {l : List (Bytes × Transport π)}
    (h : ∀ it ∈ l, ∃ enabled, it.2.isEnabled env = .ok enabled)
    (result : SortedMap Bytes (Transport π)) :
    ∃ result', l.foldlM (collect env includeDisabled) result = .ok result' := by
  induction l generalizing result with
  | nil => exact ⟨result, rfl⟩
  | cons it l ih =>
      rw [List.forall_mem_cons] at h
      obtain ⟨⟨enabled, henabled⟩, hrest⟩ := h
      have hcollect : ∃ collected, collect env includeDisabled result it = .ok collected := by
        rw [collect, henabled]
        cases hkeep : enabled || includeDisabled with
        | true => exact ⟨_, if_pos hkeep⟩
        | false => exact ⟨_, if_neg (Bool.eq_false_iff.mp hkeep)⟩
      obtain ⟨collected, hcollected⟩ := hcollect
      rw [List.foldlM_cons, hcollected]
      exact ih hrest collected

/-- The enabled transports are found unless it cannot be said of one whether it is enabled. -/
theorem Named.exists_getTransports {c : ParticipantConfig π} (h : c.Named) :
    (∃ ts, c.getTransports env includeDisabled = .ok ts) ↔
      ∀ name t, c.transports.find? name = some t →
        ∃ enabled, t.isEnabled env = .ok enabled := by
  constructor
  · rintro ⟨ts, hts⟩ name t ht
    exact (foldlM_collect_eq_ok (fun it hit => h _ _ (SortedMap.find?_eq_some_iff.mpr hit))
      c.transports.nodup_keys (fun _ _ => rfl) hts).1 (name, t) (SortedMap.find?_eq_some_iff.mp ht)
  · exact fun hall => exists_foldlM_collect
      (fun it hit => hall it.1 it.2 (SortedMap.find?_eq_some_iff.mpr hit)) _

theorem Named.find?_getTransports {c : ParticipantConfig π} (h : c.Named)
    {ts : SortedMap Bytes (Transport π)} (hts : c.getTransports env includeDisabled = .ok ts)
    (name : Bytes) (t : Transport π) :
    ts.find? name = some t ↔ c.transports.find? name = some t ∧
      (includeDisabled = true ∨ t.isEnabled env = .ok true) := by
  rw [(foldlM_collect_eq_ok (fun it hit => h _ _ (SortedMap.find?_eq_some_iff.mpr hit))
    c.transports.nodup_keys (fun _ _ => rfl) hts).2, SortedMap.find?_empty,
    SortedMap.find?_eq_some_iff (m := c.transports)]
  simp

end

end ParticipantConfig

/-! ### The default configuration -/

namespace Factory

variable {env : Environment}

/-- What the default configuration says about an available transport at first. -/
def initial (env : Environment) (name : Bytes) : Transport π :=
  if name = bytes "socket" then ⟨name, .empty, Properties.empty⟩
  else ⟨name, .empty, Properties.set Properties.empty (bytes "enabled") (env.printBool false)⟩

theorem name_initial (env : Environment) (name : Bytes) :
    (initial env name : Transport π).name = name := by
  rw [initial]
  split_ifs <;> rfl

theorem create_eq (env : Environment) (name : Bytes) :
    Transport.create (π := π) env name (name = bytes "socket") =
      if name = [] then
        .error (invalidArgument (bytes "The name of a transport configuration cannot be empty."))
      else .ok (initial env name) := by
  rw [Transport.create, Transport.new, initial]
  by_cases hname : name = []
  · rw [if_pos hname, if_pos hname]
    rfl
  · rw [if_neg hname, if_neg hname]
    by_cases hsocket : name = bytes "socket"
    · simp [hsocket, bind, Except.bind, pure, Except.pure]
    · simp [hsocket, bind, Except.bind, pure, Except.pure, Transport.setEnabled,
        Transport.setOption]

omit [Properties π] in
theorem find?_addTransport (c : ParticipantConfig π) (t : Transport π) (name : Bytes) :
    (c.addTransport t).transports.find? name =
      if name = t.name then some t else c.transports.find? name := by
  rw [addTransport, SortedMap.find?_insert, SortedMap.find?_erase]
  split_ifs <;> rfl

theorem addTransports_eq_ok {c c' : ParticipantConfig π} {available : List Bytes}
    (h : addTransports env c available = .ok c') :
    [] ∉ available ∧ c' = { c with transports := c'.transports } ∧
      ∀ name, c'.transports.find? name =
        if name ∈ available then some (initial env name) else c.transports.find? name := by
  induction available generalizing c with
  | nil =>
      obtain rfl := Except.ok.inj h
      simp
  | cons first available ih =>
      rw [addTransports, List.foldlM_cons, create_eq] at h
      by_cases hempty : first = []
      · rw [if_pos hempty] at h
        cases h
      · rw [if_neg hempty] at h
        obtain ⟨hrest, hkept, hfind⟩ := ih h
        refine ⟨by simp [Ne.symm hempty, hrest], hkept, fun name => ?_⟩
        rw [hfind, find?_addTransport, name_initial]
        by_cases hname : name = first
        · subst hname
          simp
        · simp [hname]

theorem isEnabled_initial (env : Environment) (name : Bytes) :
    (initial env name : Transport π).isEnabled env.toEnvironment =
      .ok (decide (name = bytes "socket")) := by
  rw [initial, Transport.isEnabled]
  by_cases hsocket : name = bytes "socket"
  · simp [hsocket, Properties.find?_empty]
  · simp [hsocket, Properties.find?_set, env.lexicalCast_printBool]

/-- What the default configuration says about an available transport in the end. -/
def configured (env : Environment) (name : Bytes) : Transport π :=
  ⟨name, .empty,
    Properties.set Properties.empty (bytes "enabled") (env.printBool (name = bytes "socket"))⟩

theorem configured_of_ne {name : Bytes} (h : name ≠ bytes "socket") :
    (configured env name : Transport π) = initial env name := by
  rw [configured, initial, if_neg h, decide_eq_false h]

theorem setEnabled_initial_socket (env : Environment) :
    (initial env (bytes "socket") : Transport π).setEnabled env true =
      configured env (bytes "socket") := by
  simp [initial, configured, Transport.setEnabled, Transport.setOption]

/-- The socket transport is the only one that is enabled, so that it is enabled explicitly;
where it is not available, nothing is. -/
theorem enableOnly_eq_ok {c : ParticipantConfig π} {available : List Bytes}
    (h : ∀ name, c.transports.find? name =
      if name ∈ available then some (initial env name) else none) :
    ∃ c', enableOnly env c = .ok c' ∧ c' = { c with transports := c'.transports } ∧
      ∀ name, c'.transports.find? name =
        if name ∈ available then some (configured env name) else none := by
  have hmem : ∀ {name t}, c.transports.find? name = some t ↔
      name ∈ available ∧ initial env name = t := by
    intro name t
    rw [h]
    split_ifs with hname <;> simp [hname]
  have hnamed : c.Named := by
    intro name t ht
    rw [← (hmem.mp ht).2, name_initial]
  obtain ⟨ts, hts⟩ : ∃ ts, c.getTransports env.toEnvironment false = .ok ts := by
    refine hnamed.exists_getTransports.mpr fun name t ht => ?_
    rw [← (hmem.mp ht).2, isEnabled_initial]
    exact ⟨_, rfl⟩
  have hfind : ∀ name t, ts.find? name = some t ↔
      (name = bytes "socket" ∧ name ∈ available) ∧ initial env name = t := by
    intro name t
    rw [hnamed.find?_getTransports hts, hmem]
    constructor
    · rintro ⟨⟨hname, rfl⟩, hall | henabled⟩
      · cases hall
      · rw [isEnabled_initial, Except.ok.injEq, decide_eq_true_eq] at henabled
        exact ⟨⟨henabled, hname⟩, rfl⟩
    · rintro ⟨⟨hsocket, hname⟩, rfl⟩
      refine ⟨⟨hname, rfl⟩, .inr ?_⟩
      rw [isEnabled_initial, decide_eq_true hsocket]
  by_cases hsocket : bytes "socket" ∈ available
  · have hentries :
        ts = SortedMap.empty.insert (bytes "socket") (initial env (bytes "socket")) := by
      refine SortedMap.ext_find? fun name => Option.ext fun t => ?_
      rw [hfind, SortedMap.find?_insert, SortedMap.find?_empty]
      by_cases hname : name = bytes "socket"
      · subst hname
        simp [hsocket]
      · simp [hname]
    have hold : c.mutableTransport (bytes "socket") = .ok (initial env (bytes "socket")) := by
      rw [mutableTransport, h, if_pos hsocket]
    refine ⟨{ c with
      transports := c.transports.insert (bytes "socket") (configured env (bytes "socket")) },
      ?_, rfl, fun name => ?_⟩
    · rw [enableOnly, hts, hentries]
      change (c.mutableTransport (initial env (bytes "socket")).name >>= fun t => _) = _
      rw [name_initial, hold]
      exact congrArg (fun t => Except.ok { c with
        transports := c.transports.insert (bytes "socket") t }) (setEnabled_initial_socket env)
    · rw [SortedMap.find?_insert, h]
      by_cases hname : name = bytes "socket"
      · subst hname
        rw [if_pos rfl, if_pos hsocket]
      · rw [if_neg hname, configured_of_ne hname]
  · have hentries : ts = SortedMap.empty := by
      refine SortedMap.ext_find? fun name => Option.ext fun t => ?_
      rw [hfind, SortedMap.find?_empty]
      refine iff_of_false ?_ (by simp)
      rintro ⟨⟨rfl, hname⟩, -⟩
      exact hsocket hname
    refine ⟨c, ?_, rfl, fun name => ?_⟩
    · rw [enableOnly, hts, hentries]
      rfl
    · rw [h]
      by_cases hname : name ∈ available
      · rw [if_pos hname, if_pos hname, configured_of_ne fun heq => hsocket (heq ▸ hname)]
      · rw [if_neg hname, if_neg hname]

/-- The transport is available for all three directions. -/
def Everywhere (transports : Transports) (name : Bytes) : Prop :=
  ∀ d, (transports.find? d name).isSome = true

instance (transports : Transports) (name : Bytes) : Decidable (Everywhere transports name) :=
  decidable_of_iff (∀ d ∈ Direction.all, (transports.find? d name).isSome = true)
    (by simp [Everywhere])

theorem available_everywhere (transports : Transports) :
    ∃ available, transports.getAvailableTransports
        (Direction.inPush.flag ||| Direction.inPull.flag ||| Direction.out.flag) = .ok available ∧
      ∀ name, name ∈ available.keys ↔ Everywhere transports name := by
  have hsome : (7 : UInt32) ≠ 0 := by decide
  obtain ⟨available, havailable, hmem⟩ :=
    Transports.getAvailableTransports_of_ne_zero (t := transports) hsome
  have hrequired : ∀ d : Direction, d.RequiredBy 7 := by
    intro d
    cases d <;> decide
  refine ⟨available, havailable, fun name => ?_⟩
  rw [SortedSet.mem_keys, hmem]
  exact ⟨fun h d => h.2 d (hrequired d), fun h => ⟨⟨.out, h .out⟩, fun d _ => h d⟩⟩

/-- The default configuration has the transports that are available for all directions, and the
socket transport enabled. -/
theorem defaultConfig_eq_ok {transports : Transports} {c : ParticipantConfig π}
    (h : defaultConfig env transports = .ok c) :
    c = { ParticipantConfig.new with transports := c.transports } ∧
      ∀ name, c.transports.find? name =
        if Everywhere transports name then some (configured env name) else none := by
  obtain ⟨available, havailable, hmem⟩ := available_everywhere transports
  rw [defaultConfig, havailable] at h
  change (addTransports env ParticipantConfig.new available.keys >>= enableOnly env) = _ at h
  obtain ⟨added, hadded, h⟩ := bind_eq_ok_iff.mp h
  obtain ⟨-, hkept, hfind⟩ := addTransports_eq_ok hadded
  obtain ⟨c', hc', hkept', hfind'⟩ := enableOnly_eq_ok hfind
  rw [hc'] at h
  obtain rfl := Except.ok.inj h
  refine ⟨?_, fun name => ?_⟩
  · rw [hkept', hkept]
  · rw [hfind']
    exact if_congr (hmem name) rfl rfl

/-! ### With the options of the user -/

/-- Some option of the user is about the transport. -/
def Mentioned (options : List (Key × Bytes)) (name : Bytes) : Prop :=
  ∃ option ∈ options, option.1.take 2 = [bytes "transport", name]

instance (options : List (Key × Bytes)) (name : Bytes) : Decidable (Mentioned options name) :=
  inferInstanceAs (Decidable (∃ option ∈ options, option.1.take 2 = [bytes "transport", name]))

/-- The transport is enabled in the end. -/
def Enabled (env : Environment) (transports : Transports) (options : List (Key × Bytes))
    (name : Bytes) : Prop :=
  match lastValue [bytes "transport", name, bytes "enabled"] options with
  | some value => env.lexicalCast value = .ok true
  | none =>
      if Everywhere transports name then name = bytes "socket"
      else Mentioned options name

section

variable {transports : Transports} {options : List (Key × Bytes)} {c : ParticipantConfig π}

theorem transportName_configure (h : configure env transports options = .ok c) (name : Bytes) :
    transportName name c =
      if Everywhere transports name ∨ Mentioned options name then some name else none := by
  obtain ⟨start, hstart, h⟩ := bind_eq_ok_iff.mp h
  have hnames := (initializes_transportName name).run h
  have hsome :
      (lastWhere (fun key : Key => key.take 2 = [bytes "transport", name]) options).isSome = true ↔
        Mentioned options name := by
    rw [isSome_lastWhere]
    simp only [decide_eq_true_eq, Mentioned]
  rw [hnames, transportName, (defaultConfig_eq_ok hstart).2]
  by_cases heverywhere : Everywhere transports name
  · simp [heverywhere, configured]
  · simp only [heverywhere, if_false, Option.map_none, Option.none_or, false_or]
    exact if_congr hsome rfl rfl

theorem transportOption_configure (h : configure env transports options = .ok c) (name : Bytes) :
    transportOption name (bytes "enabled") c =
      (lastValue [bytes "transport", name, bytes "enabled"] options).or
        (if Everywhere transports name then some (env.printBool (name = bytes "socket"))
        else none) := by
  obtain ⟨start, hstart, h⟩ := bind_eq_ok_iff.mp h
  have hoptions := (overwrites_transportOption name (bytes "enabled")).run h
  rw [transportOption, (defaultConfig_eq_ok hstart).2] at hoptions
  rw [← lastValue] at hoptions
  cases hlast : lastValue [bytes "transport", name, bytes "enabled"] options with
  | some value =>
      rw [hlast] at hoptions
      exact (Option.some.inj hoptions).symm
  | none =>
      rw [hlast] at hoptions
      rw [← Option.some.inj hoptions, Option.none_or]
      by_cases heverywhere : Everywhere transports name
      · simp [heverywhere, configured, Properties.find?_set]
      · simp [heverywhere]

theorem named_configure (h : configure env transports options = .ok c) : c.Named := by
  intro name t ht
  have hname := transportName_configure h name
  rw [transportName, ht, Option.map_some] at hname
  split_ifs at hname
  exact Option.some.inj hname

theorem exists_transport_configure (h : configure env transports options = .ok c) (name : Bytes) :
    (∃ t, c.transports.find? name = some t) ↔
      Everywhere transports name ∨ Mentioned options name := by
  have hname := transportName_configure h name
  rw [transportName] at hname
  rw [← Option.isSome_iff_exists, ← Option.isSome_map (f := fun t : Transport π => t.name), hname]
  split_ifs with hthere
  · simp [hthere]
  · simp [hthere]

theorem isEnabled_configure (h : configure env transports options = .ok c) {name : Bytes}
    {t : Transport π} (ht : c.transports.find? name = some t) :
    t.isEnabled env.toEnvironment =
      match lastValue [bytes "transport", name, bytes "enabled"] options with
      | some value => env.lexicalCast value
      | none =>
          .ok (if Everywhere transports name then decide (name = bytes "socket") else true) := by
  have hoption := transportOption_configure h name
  rw [transportOption, ht, Option.bind_some] at hoption
  rw [Transport.isEnabled, hoption]
  cases lastValue [bytes "transport", name, bytes "enabled"] options with
  | some value => rfl
  | none =>
      by_cases heverywhere : Everywhere transports name
      · simp [heverywhere, env.lexicalCast_printBool]
      · simp [heverywhere]

/-- An option that is given last is one of the options of the transport. -/
theorem mentioned_of_lastValue {name value : Bytes}
    (h : lastValue [bytes "transport", name, bytes "enabled"] options = some value) :
    Mentioned options name := by
  obtain ⟨option, hmem, hkey⟩ := isSome_lastValue.mp (Option.isSome_of_eq_some h)
  exact ⟨option, hmem, by rw [hkey]; rfl⟩

/-- Which transports participants use by default: what the user says of a transport decides,
and otherwise the socket transport is used, and each transport that only the user mentions. -/
theorem enabled_transports (h : configure env transports options = .ok c) :
    ((∃ ts, c.getTransports env.toEnvironment false = .ok ts) ↔
      ∀ name value, lastValue [bytes "transport", name, bytes "enabled"] options = some value →
        ∃ enabled, env.lexicalCast value = .ok enabled) ∧
    ∀ ts, c.getTransports env.toEnvironment false = .ok ts →
      ∀ name, (∃ t, ts.find? name = some t) ↔ Enabled env transports options name := by
  refine ⟨?_, fun ts hts name => ?_⟩
  · rw [(named_configure h).exists_getTransports]
    constructor
    · intro hall name value hlast
      obtain ⟨t, ht⟩ := (exists_transport_configure h name).mpr
        (.inr (mentioned_of_lastValue hlast))
      have henabled := isEnabled_configure h ht
      rw [hlast] at henabled
      obtain ⟨enabled, hcast⟩ := hall name t ht
      exact ⟨enabled, henabled.symm.trans hcast⟩
    · intro hall name t ht
      rw [isEnabled_configure h ht]
      cases hlast : lastValue [bytes "transport", name, bytes "enabled"] options with
      | some value => exact hall name value hlast
      | none => exact ⟨_, rfl⟩
  · have hfind : (∃ t, ts.find? name = some t) ↔
        ∃ t, c.transports.find? name = some t ∧ t.isEnabled env.toEnvironment = .ok true := by
      simp [(named_configure h).find?_getTransports hts]
    rw [hfind, Enabled]
    cases hlast : lastValue [bytes "transport", name, bytes "enabled"] options with
    | some value =>
        constructor
        · rintro ⟨t, ht, henabled⟩
          rw [isEnabled_configure h ht, hlast] at henabled
          exact henabled
        · intro hcast
          obtain ⟨t, ht⟩ := (exists_transport_configure h name).mpr
            (.inr (mentioned_of_lastValue hlast))
          refine ⟨t, ht, ?_⟩
          rw [isEnabled_configure h ht, hlast]
          exact hcast
    | none =>
        have henabled : ∀ t, c.transports.find? name = some t →
            (t.isEnabled env.toEnvironment = .ok true ↔
              (Everywhere transports name → name = bytes "socket")) := by
          intro t ht
          rw [isEnabled_configure h ht, hlast, Except.ok.injEq]
          split_ifs with heverywhere <;> simp [heverywhere]
        have hthere := exists_transport_configure h name
        dsimp only
        split_ifs with heverywhere
        · obtain ⟨t, ht⟩ := hthere.mpr (.inl heverywhere)
          constructor
          · rintro ⟨t', ht', htrue⟩
            exact (henabled t' ht').mp htrue heverywhere
          · exact fun hsocket => ⟨t, ht, (henabled t ht).mpr fun _ => hsocket⟩
        · constructor
          · rintro ⟨t, ht, -⟩
            exact (hthere.mp ⟨t, ht⟩).resolve_left heverywhere
          · intro hmentioned
            obtain ⟨t, ht⟩ := hthere.mpr (.inr hmentioned)
            exact ⟨t, ht, (henabled t ht).mpr fun hall => absurd hall heverywhere⟩

end

/-- `lexical_cast` with `0` and `1`. -/
def sampleEnvironment : Environment where
  toEnvironment := ParticipantConfig.sampleEnvironment
  printBool b := if b then bytes "1" else bytes "0"
  lexicalCast_printBool b := by cases b <;> rfl

def sampleTransports : Transports :=
  (Transports.new.registerDefaultTransports true fun _ _ => .ok ()).1

/-- A transport that does not exist is used because of one of its options. -/
theorem enabled_transports_spread :
    ∃ (c : ParticipantConfig (SortedMap Bytes Bytes))
      (ts : SortedMap Bytes (Transport (SortedMap Bytes Bytes))),
      configure sampleEnvironment sampleTransports
        [([bytes "transport", bytes "spread", bytes "host"], bytes "localhost")] = .ok c ∧
      c.getTransports sampleEnvironment.toEnvironment false = .ok ts ∧
      (∃ t, ts.find? (bytes "spread") = some t) ∧
      ¬ ∃ t, ts.find? (bytes "inprocess") = some t := by
  obtain ⟨c, ts, hc, hts⟩ : ∃ (c : ParticipantConfig (SortedMap Bytes Bytes))
      (ts : SortedMap Bytes (Transport (SortedMap Bytes Bytes))),
      configure sampleEnvironment sampleTransports
        [([bytes "transport", bytes "spread", bytes "host"], bytes "localhost")] = .ok c ∧
      c.getTransports sampleEnvironment.toEnvironment false = .ok ts := ⟨_, _, rfl, rfl⟩
  have henabled := (enabled_transports hc).2 ts hts
  refine ⟨c, ts, hc, hts, (henabled _).mpr ⟨_, List.mem_singleton_self _, rfl⟩, fun hused => ?_⟩
  have hsocket : bytes "inprocess" = bytes "socket" := (henabled _).mp hused
  exact absurd hsocket (by decide)

end Factory

end Rsb
