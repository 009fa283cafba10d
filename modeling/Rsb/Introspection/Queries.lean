import Rsb.Introspection.Sender

/-!
Answering introspection queries (`QueryHandler` in `IntrospectionSender.cpp`).

The listener of the sender gives the handler every event on the participants scope and
below. What it does is decided by the type, the method and the data of the event; the
scope is looked at only for its last component. The scope of a pong is parsed from an
id alone, which is not a scope string, so no ping is ever answered.
-/

namespace Rsb.Introspection

open Library

/-! ### The handler -/

namespace QueryHandler

open IntrospectionSender

section

variable (env : Environment)

def handleSurvey (query : Event Data) : InPlace Fault IntrospectionSender Unit := do
  let s ← get
  forM s.participants fun participant => sendHello env participant (some query)

def handleRequest (query : Event Data) : InPlace Fault IntrospectionSender Unit :=
  match query.scope.getComponents.getLast? with
  -- the root scope has no component at `size() - 1`
  | none => throw .readPastEnd
  | some idString => do
      let id ← ofExcept ((env.parseId idString).mapError .thrown)
      let s ← get
      match s.participants.find? (fun p => p.id = id) with
      | none => pure ()
      | some participant => sendHello env participant (some query)

/-- The id is converted to a scope without a separator in front of it. -/
def sendPong (participant : ParticipantInfo) : InPlace Fault IntrospectionSender Unit := do
  let s ← get
  let child ← ofExcept (Scope.parse (env.getIdAsString participant.id))
  publish env ((((Event.new env.now : Event Data).setScope (s.informer.scope.concat child)).setType
    stringType).setData (some (.string (bytes "pong"))))

def handlePing : InPlace Fault IntrospectionSender Unit := do
  let s ← get
  forM s.participants fun participant => sendPong env participant

def handle (query : Event Data) : InPlace Fault IntrospectionSender Unit :=
  if query.type = voidType then
    if query.method = bytes "SURVEY" then handleSurvey env query
    else if query.method = bytes "REQUEST" then handleRequest env query
    else pure ()
  else if query.type = stringType then
    match query.content with
    | none => throw .nullPointer
    | some (.string s) => if s = bytes "ping" then handlePing env else pure ()
    -- the static cast takes what the data points to for a string
    | some _ => throw .readPastEnd
  else pure ()

end

/-! ### What queries ask for -/

def IsSurvey (query : Event Data) : Prop :=
  query.type = voidType ∧ query.method = bytes "SURVEY"

/-- A request, on whatever scope. -/
def HasRequestMethod (query : Event Data) : Prop :=
  query.type = voidType ∧ query.method = bytes "REQUEST"

/-- A request on the participants scope extended by an id. -/
def IsRequest (env : Environment) (query : Event Data) (id : UUID) : Prop :=
  HasRequestMethod query ∧ ∃ idString, env.parseId idString = .ok id ∧
    query.scope.getComponents = INTROSPECTION_PARTICIPANTS_SCOPE.getComponents ++ [idString]

def IsPing (query : Event Data) : Prop :=
  query.type = stringType ∧ query.content = some (.string (bytes "ping"))

/-- A hello for the participant in answer to the query. -/
structure IsHello (env : Environment) (s : IntrospectionSender) (query : Event Data)
    (participant : ParticipantInfo) (event : Event Data) : Prop where
  type : event.type = helloType
  content : event.content = some (.hello (s.hello participant))
  scope : event.scope = idScope env participant.id
  causes : ∃ id, query.id = some id ∧ id ∈ event.causes

structure IsPong (env : Environment) (participant : ParticipantInfo) (event : Event Data) :
    Prop where
  type : event.type = stringType
  content : event.content = some (.string (bytes "pong"))
  scope : event.scope = idScope env participant.id

/-- The handler returns after it has published one event for each of the participants. -/
def Publishes (s : IntrospectionSender) (participants : List ParticipantInfo)
    (answer : ParticipantInfo → Event Data → Prop)
    (result : EStateM.Result Fault IntrospectionSender Unit) : Prop :=
  ∃ s' events, result = .ok () s' ∧ s'.published = s.published ++ events ∧
    List.Forall₂ answer participants events

/-- Nothing is published, and no memory is accessed that must not be. -/
def Ignores (s : IntrospectionSender) (result : EStateM.Result Fault IntrospectionSender Unit) :
    Prop :=
  (InPlace.left result).published = s.published ∧
    ∀ f s', result = .error f s' → ∃ e, f = .thrown e

/-- The query is answered as introspection promises. -/
structure Answered (env : Environment) (s : IntrospectionSender) (query : Event Data) : Prop where
  survey : IsSurvey query →
    Publishes s s.participants (IsHello env s query) ((handle env query).run s)
  request : ∀ id, IsRequest env query id →
    Publishes s (s.participants.find? (fun p => p.id = id)).toList (IsHello env s query)
      ((handle env query).run s)
  ping : IsPing query → Publishes s s.participants (IsPong env) ((handle env query).run s)
  others : ¬IsSurvey query → (∀ id, ¬IsRequest env query id) → ¬IsPing query →
    Ignores s ((handle env query).run s)

/-- The participant a request finds by the last component of its scope. -/
def Finds (env : Environment) (s : IntrospectionSender) (query : Event Data)
    (participant : ParticipantInfo) : Prop :=
  ∃ idString id, query.scope.getComponents.getLast? = some idString ∧
    env.parseId idString = .ok id ∧ s.participants.find? (fun p => p.id = id) = some participant

/-- The queries the handler answers as promised: a survey or request that finds somebody
has an id, a request elsewhere has a scope that is not the root and finds nobody (or has
no id), nobody is there to answer a ping, and what is called a string is one. -/
structure Sound (env : Environment) (s : IntrospectionSender) (query : Event Data) : Prop where
  survey : IsSurvey query → s.participants ≠ [] → query.id.isSome
  request : ∀ id, IsRequest env query id → ∀ participant, Finds env s query participant →
    query.id.isSome
  elsewhere : HasRequestMethod query → (∀ id, ¬IsRequest env query id) →
    query.scope.getComponents ≠ [] ∧
      ∀ participant, Finds env s query participant → query.id = none
  ping : IsPing query → s.participants = []
  string : query.type = stringType → ∃ s, query.content = some (.string s)

variable {env : Environment} {s : IntrospectionSender} {query : Event Data}

/-! ### Which branch is taken -/

theorem handle_survey (h : IsSurvey query) : handle env query = handleSurvey env query := by
  rw [handle, if_pos h.1, if_pos h.2]

theorem handle_request (h : HasRequestMethod query) :
    handle env query = handleRequest env query := by
  have hmethod : query.method ≠ bytes "SURVEY" := h.2 ▸ (by decide)
  rw [handle, if_pos h.1, if_neg hmethod, if_pos h.2]

theorem not_void_of_string (h : query.type = stringType) : query.type ≠ voidType :=
  h ▸ (by decide)

theorem handle_ping (h : IsPing query) : handle env query = handlePing env := by
  simp only [handle, if_neg (not_void_of_string h.1), if_pos h.1, h.2, if_true]

theorem not_request_of_survey (h : IsSurvey query) : ¬HasRequestMethod query := by
  intro hrequest
  have hmethods := h.2.symm.trans hrequest.2
  exact absurd hmethods (by decide)

theorem getId_eq_ok {id : EventId} (h : query.id = some id) : query.getId = .ok id := by
  rw [Event.getId, h]

theorem getId_eq_error (h : query.id = none) : ∃ e, query.getId = .error (.thrown e) := by
  rw [Event.getId, h]
  exact ⟨_, rfl⟩

/-! ### Answering with hellos -/

theorem isHello_helloEvent {id : EventId} (h : query.id = some id) (participant : ParticipantInfo)
    (sender : UUID) (sequenceNumber : UInt32) :
    IsHello env s query participant
      ((helloEvent env s participant (SortedSet.add .empty id)).setId sender sequenceNumber) where
  type := rfl
  content := rfl
  scope := rfl
  causes := ⟨id, h, SortedSet.mem_add.mpr (.inl rfl)⟩

/-- The loop of `handleSurvey`. -/
theorem publishes_hellos {id : EventId} (h : query.id = some id)
    (participants : List ParticipantInfo) (s : IntrospectionSender) :
    Publishes s participants (IsHello env s query)
      ((forM participants fun participant => sendHello env participant (some query)).run s) := by
  induction participants generalizing s with
  | nil => exact ⟨s, [], rfl, (List.append_nil _).symm, .nil⟩
  | cons participant participants ih =>
      let event := helloEvent env s participant (SortedSet.add .empty id)
      obtain ⟨s', events, hrun, hpublished, hevents⟩ := ih (s.emit event)
      refine ⟨s', event.setId s.informerId s.currentSequenceNumber :: events, ?_, ?_, ?_⟩
      · rw [List.forM_cons, EStateM.run_bind, run_sendHello (getId_eq_ok h)]
        exact hrun
      · rw [hpublished, emit_published, List.append_assoc, List.singleton_append]
      · apply List.Forall₂.cons (isHello_helloEvent h participant _ _)
        exact hevents.imp fun _ _ hello => ⟨hello.type, hello.content, hello.scope, hello.causes⟩

/-- Without the id of the query the loop ends at the first participant. -/
theorem survey_error (env : Environment) (h : query.id = none)
    {participants : List ParticipantInfo} (hne : participants ≠ []) (s : IntrospectionSender) :
    ∃ e, (forM participants fun participant => sendHello env participant (some query)).run s =
      .error (.thrown e) s := by
  obtain ⟨participant, rest, rfl⟩ := List.exists_cons_of_ne_nil hne
  obtain ⟨e, he⟩ := getId_eq_error h
  refine ⟨e, ?_⟩
  rw [List.forM_cons, EStateM.run_bind, run_sendHello_error he]

theorem not_publishes_error {participants : List ParticipantInfo}
    {answer : ParticipantInfo → Event Data → Prop} {f : Fault} {s' : IntrospectionSender} :
    ¬Publishes s participants answer (.error f s') := by
  rintro ⟨_, _, h, -⟩
  cases h

theorem survey_iff (h : IsSurvey query) :
    Publishes s s.participants (IsHello env s query) ((handle env query).run s) ↔
      (s.participants ≠ [] → query.id.isSome) := by
  rw [handle_survey h]
  show Publishes s s.participants (IsHello env s query)
    ((forM s.participants fun participant => sendHello env participant (some query)).run s) ↔ _
  cases hid : query.id with
  | some id => simpa using publishes_hellos hid s.participants s
  | none =>
      by_cases hnil : s.participants = []
      · simp only [hnil, ne_eq, not_true_eq_false, false_implies, iff_true]
        exact ⟨s, [], rfl, (List.append_nil _).symm, .nil⟩
      · obtain ⟨e, he⟩ := survey_error env hid hnil s
        rw [he]
        simpa [hnil] using not_publishes_error

/-! ### Requests -/

theorem run_handleRequest {idString : Bytes} {id : UUID}
    (hlast : query.scope.getComponents.getLast? = some idString)
    (hid : env.parseId idString = .ok id) :
    (handleRequest env query).run s =
      match s.participants.find? (fun p => p.id = id) with
      | none => .ok () s
      | some participant => (sendHello env participant (some query)).run s := by
  simp only [handleRequest, hlast, hid, EStateM.run_bind, Except.mapError, InPlace.run_ofExcept,
    InPlace.result, EStateM.run_get]
  cases s.participants.find? (fun p => p.id = id) <;> rfl

theorem finds_iff {idString : Bytes} {id : UUID}
    (hlast : query.scope.getComponents.getLast? = some idString)
    (hid : env.parseId idString = .ok id) (participant : ParticipantInfo) :
    Finds env s query participant ↔
      s.participants.find? (fun p => p.id = id) = some participant := by
  constructor
  · rintro ⟨idString', id', hlast', hid', hfind⟩
    obtain rfl : idString = idString' := Option.some.inj (hlast.symm.trans hlast')
    obtain rfl : id = id' := Except.ok.inj (hid.symm.trans hid')
    exact hfind
  · intro hfind
    exact ⟨idString, id, hlast, hid, hfind⟩

/-- One hello, if the query has an id. -/
theorem run_request_found (env : Environment) (s : IntrospectionSender) (query : Event Data)
    (participant : ParticipantInfo) :
    (∃ id, query.id = some id ∧ (sendHello env participant (some query)).run s =
      .ok () (s.emit (helloEvent env s participant (SortedSet.add .empty id)))) ∨
    query.id = none ∧ ∃ e, (sendHello env participant (some query)).run s =
      .error (.thrown e) s := by
  cases hid : query.id with
  | some id => exact .inl ⟨id, rfl, run_sendHello (getId_eq_ok hid) participant s⟩
  | none =>
      obtain ⟨e, he⟩ := getId_eq_error hid
      exact .inr ⟨rfl, e, run_sendHello_error he participant s⟩

theorem request_iff {id : UUID} (h : IsRequest env query id) :
    Publishes s (s.participants.find? (fun p => p.id = id)).toList (IsHello env s query)
        ((handle env query).run s) ↔
      ∀ participant, Finds env s query participant → query.id.isSome := by
  obtain ⟨hrequest, idString, hid, hcomponents⟩ := h
  have hlast : query.scope.getComponents.getLast? = some idString := by
    rw [hcomponents, List.getLast?_concat]
  rw [handle_request hrequest, run_handleRequest hlast hid]
  simp only [finds_iff hlast hid]
  cases hfind : s.participants.find? (fun p => p.id = id) with
  | none =>
      simp only [reduceCtorEq, false_implies, implies_true, iff_true]
      exact ⟨s, [], rfl, (List.append_nil _).symm, .nil⟩
  | some participant =>
      rcases run_request_found env s query participant with
        ⟨causeId, hcause, hrun⟩ | ⟨hnone, e, hrun⟩
      · simp only [hrun, hcause, Option.isSome_some, implies_true, iff_true]
        exact ⟨_, _, rfl, rfl, .cons (isHello_helloEvent hcause participant _ _) .nil⟩
      · simpa [hrun, hnone] using not_publishes_error

/-- A request on any other scope. -/
theorem elsewhere_iff (h : HasRequestMethod query) :
    Ignores s ((handle env query).run s) ↔
      query.scope.getComponents ≠ [] ∧
        ∀ participant, Finds env s query participant → query.id = none := by
  rw [handle_request h]
  cases hlast : query.scope.getComponents.getLast? with
  | none =>
      have hnil := List.getLast?_eq_none_iff.mp hlast
      have hrun : (handleRequest env query).run s = .error .readPastEnd s := by
        simp only [handleRequest, hlast]
        rfl
      simp [hrun, Ignores, hnil]
  | some idString =>
      have hne : query.scope.getComponents ≠ [] := by
        intro hnil
        simp [hnil] at hlast
      cases hid : env.parseId idString with
      | error e =>
          have hrun : (handleRequest env query).run s = .error (.thrown e) s := by
            simp only [handleRequest, hlast, hid]
            rfl
          simp [hrun, Ignores, hne, Finds, hlast, hid, InPlace.left]
      | ok id =>
          rw [run_handleRequest hlast hid]
          simp only [finds_iff hlast hid]
          cases hfind : s.participants.find? (fun p => p.id = id) with
          | none => simp [Ignores, hne, InPlace.left]
          | some participant =>
              rcases run_request_found env s query participant with
                ⟨causeId, hcause, hrun⟩ | ⟨hnone, e, hrun⟩
              · simp [hrun, hcause, Ignores, InPlace.left]
              · simp [hrun, hnone, Ignores, InPlace.left, hne]

/-! ### Pings -/

/-- No pong gets as far as being published. -/
theorem run_sendPong (env : Environment) (participant : ParticipantInfo) (s : IntrospectionSender) :
    ∃ e, (sendPong env participant).run s = .error (.thrown e) s := by
  obtain ⟨what, hparse⟩ := Scope.parse_component_error (env.legal participant.id)
  refine ⟨⟨.invalidArgument, what⟩, ?_⟩
  simp only [sendPong, EStateM.run_bind, EStateM.run_get, hparse]
  rfl

theorem ping_iff (h : IsPing query) :
    Publishes s s.participants (IsPong env) ((handle env query).run s) ↔ s.participants = [] := by
  rw [handle_ping h]
  show Publishes s s.participants (IsPong env)
    ((forM s.participants fun participant => sendPong env participant).run s) ↔ _
  cases s.participants with
  | nil => exact iff_of_true ⟨s, [], rfl, (List.append_nil _).symm, .nil⟩ rfl
  | cons participant participants =>
      obtain ⟨e, he⟩ := run_sendPong env participant s
      rw [List.forM_cons, EStateM.run_bind, he]
      simpa using not_publishes_error

/-! ### Everything else -/

theorem not_ignores {f : Fault} (h : ∀ e, f ≠ .thrown e) :
    ¬Ignores s ((throw f : InPlace Fault IntrospectionSender Unit).run s) := by
  intro hignores
  obtain ⟨e, he⟩ := hignores.2 f s rfl
  exact h e he

theorem others_iff (hsurvey : ¬IsSurvey query) (hrequest : ¬HasRequestMethod query)
    (hping : ¬IsPing query) :
    Ignores s ((handle env query).run s) ↔
      (query.type = stringType → ∃ s, query.content = some (.string s)) := by
  have hnothing : Ignores s (.ok () s) := ⟨rfl, nofun⟩
  by_cases hvoid : query.type = voidType
  · have hstring : query.type ≠ stringType := hvoid ▸ (by decide)
    have hsurvey' : query.method ≠ bytes "SURVEY" := fun h => hsurvey ⟨hvoid, h⟩
    have hrequest' : query.method ≠ bytes "REQUEST" := fun h => hrequest ⟨hvoid, h⟩
    rw [handle, if_pos hvoid, if_neg hsurvey', if_neg hrequest']
    exact iff_of_true hnothing fun h => absurd h hstring
  · by_cases hstring : query.type = stringType
    · rw [handle, if_neg hvoid, if_pos hstring]
      simp only [hstring, true_implies]
      match hcontent : query.content with
      | none => exact iff_of_false (not_ignores nofun) (by simp)
      | some (.string s) =>
          have hne : s ≠ bytes "ping" := by
            rintro rfl
            exact hping ⟨hstring, hcontent⟩
          simpa [hne] using hnothing
      | some (.hello _) | some (.bye _) | some .other =>
          exact iff_of_false (not_ignores nofun) (by simp)
    · rw [handle, if_neg hvoid, if_neg hstring]
      exact iff_of_true hnothing fun h => absurd h hstring

/-- The handler does what introspection promises on exactly the sound queries. -/
theorem answered_iff (env : Environment) (s : IntrospectionSender) (query : Event Data) :
    Answered env s query ↔ Sound env s query := by
  constructor
  · intro h
    refine ⟨fun hs => (survey_iff hs).mp (h.survey hs),
      fun id hr => (request_iff hr).mp (h.request id hr),
      fun hr hnone => ?_, fun hp => (ping_iff hp).mp (h.ping hp), fun hstring => ?_⟩
    · have hping : ¬IsPing query := fun hp => not_void_of_string hp.1 hr.1
      exact (elsewhere_iff hr).mp (h.others (fun hs => not_request_of_survey hs hr) hnone hping)
    · have hvoid := not_void_of_string hstring
      have hsurvey : ¬IsSurvey query := fun hs => hvoid hs.1
      have hrequest : ¬HasRequestMethod query := fun hr => hvoid hr.1
      by_cases hping : IsPing query
      · exact ⟨_, hping.2⟩
      · exact (others_iff hsurvey hrequest hping).mp
          (h.others hsurvey (fun _ hr => hrequest hr.1) hping) hstring
  · intro h
    refine ⟨fun hs => (survey_iff hs).mpr (h.survey hs),
      fun id hr => (request_iff hr).mpr (h.request id hr),
      fun hp => (ping_iff hp).mpr (h.ping hp), fun hsurvey hnone hping => ?_⟩
    by_cases hr : HasRequestMethod query
    · exact (elsewhere_iff hr).mpr (h.elsewhere hr hnone)
    · exact (others_iff hsurvey hr hping).mpr h.string

/-! ### A ping -/

def sampleParticipant : ParticipantInfo where
  kind := bytes "listener"
  id := ⟨List.replicate 16 23, by decide⟩
  parentId := nilId
  scope := Scope.root
  type := bytes "TODO"
  transportURLs := .empty

def sampleSender : IntrospectionSender where
  processDisplayName := none
  participants := [sampleParticipant]
  process := ⟨1, bytes "program", [], 0, bytes "0.18", []⟩
  host := ⟨[], bytes "host", [], [], [], []⟩
  informerId := ⟨List.replicate 16 24, by decide⟩
  currentSequenceNumber := 0
  published := []

def samplePing : Event Data :=
  { (Event.new 1 : Event Data) with
    id := some ⟨⟨List.replicate 16 25, by decide⟩, 0⟩
    scope := INTROSPECTION_PARTICIPANTS_SCOPE
    content := some (.string (bytes "ping"))
    type := stringType }

theorem not_answered_ping : ¬Answered sampleEnvironment sampleSender samplePing := by
  intro h
  have hping : IsPing samplePing := ⟨rfl, rfl⟩
  have hnil := (ping_iff hping).mp (h.ping hping)
  exact absurd hnil (List.cons_ne_nil _ _)

end QueryHandler

end Rsb.Introspection
