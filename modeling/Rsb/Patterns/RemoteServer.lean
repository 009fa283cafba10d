import Rsb.Converter

/-!
Matching replies to calls (`RemoteServer::RemoteMethod` in `RemoteServer.cpp`).

`handle` looks up the first cause of an event among the calls in progress. The
causes are a set ordered by `EventId::operator<`, so the first cause is the
smallest one, whichever event it belongs to. Futures are named by elements of
`F`; what is set on a future is an `Outcome`. A payload is read as a string by
`asString` when the type of the event says that it is one.
-/

namespace Rsb.Patterns

open Library

variable {δ F : Type}

/-- What a future is given: `set` or `setError`. -/
inductive Outcome (δ : Type)
  | result (event : Event δ)
  | error (message : Bytes)

namespace RemoteMethod

/-- `*event->getCauses().begin()`, if the event is there and has causes. -/
def requestId : Option (Event δ) → Option EventId
  | none => none
  | some event => event.causes.first?

/-- The part of `handle` under the mutex. -/
def take (inprogress : SortedMap EventId F) (requestId : EventId) :
    SortedMap EventId F × Option F :=
  match inprogress.find? requestId with
  | none => (inprogress, none)
  | some result => (inprogress.erase requestId, some result)

def errorKey : Bytes := bytes "rsb:error?"

/-- What `handle` sets on the future it has taken. -/
def outcome (asString : δ → Bytes) (event : Event δ) : Except Fault (Outcome δ) :=
  if event.metaData.hasUserInfo errorKey then
    if event.type = stringType then
      match event.content with
      | none => .error .nullPointer
      | some message => .ok (.error (bytes "Error calling remote method '" ++
          bytes "TODO: obtain method name" ++ bytes "': " ++ asString message))
    -- `assert(event->getType() == typeName<string>())`
    else .error .assertion
  else .ok (.result event)

/-- `RemoteMethod::handle`, with the future it sets and what it sets on it. -/
def handle (asString : δ → Bytes) (inprogress : SortedMap EventId F) (event : Event δ) :
    SortedMap EventId F × Option (F × Except Fault (Outcome δ)) :=
  match requestId (some event) with
  | none => (inprogress, none)
  | some requestId =>
      let (inprogress, result) := take inprogress requestId
      (inprogress, result.map fun future => (future, outcome asString event))

/-- An event that says that it is an error carries a string. -/
def Presentable (event : Event δ) : Prop :=
  event.metaData.hasUserInfo errorKey = true → event.type = stringType ∧ event.content ≠ none

/-- The outcome an event stands for: the event itself, or an error. -/
def Answers (event : Event δ) : Outcome δ → Prop
  | .result e => event.metaData.hasUserInfo errorKey = false ∧ e = event
  | .error _ => event.metaData.hasUserInfo errorKey = true

theorem outcome_ok_iff (asString : δ → Bytes) {event : Event δ} :
    (∃ o, outcome asString event = .ok o ∧ Answers event o) ↔ Presentable event := by
  cases herror : event.metaData.hasUserInfo errorKey with
  | false => simp [outcome, Presentable, Answers, herror]
  | true =>
      by_cases htype : event.type = stringType
      · cases hcontent : event.content with
        | none => simp [outcome, Presentable, herror, htype, hcontent]
        | some message => simp [outcome, Presentable, Answers, herror, htype, hcontent]
      · simp [outcome, Presentable, herror, htype]

/-- Let exactly one of the causes of an event be the id of a request in progress.
Then `handle` removes that request and completes its future with what the event
stands for if and only if no other cause is smaller than the request's id, and
the event carries a string if it says that it is an error. -/
theorem handle_completes_iff (asString : δ → Bytes) (inprogress : SortedMap EventId F)
    (event : Event δ) (id : EventId) (future : F) (hcause : id ∈ event.causes)
    (hfind : inprogress.find? id = some future)
    (honly : ∀ id' ∈ event.causes, inprogress.find? id' ≠ none → id' = id) :
    (∃ o, handle asString inprogress event = (inprogress.erase id, some (future, .ok o)) ∧
        Answers event o) ↔
      (∀ id' ∈ event.causes, id ≤ id') ∧ Presentable event := by
  have hfirst : (∀ id' ∈ event.causes, id ≤ id') ↔ event.causes.first? = some id := by
    rw [SortedSet.first?_eq_some_iff, and_iff_right hcause]
  rw [hfirst, ← outcome_ok_iff asString]
  constructor
  · rintro ⟨o, hhandle, hanswers⟩
    cases hrequest : event.causes.first? with
    | none => exact absurd hcause (SortedSet.first?_eq_none_iff.mp hrequest id)
    | some first =>
        cases htake : inprogress.find? first with
        | none => simp [handle, requestId, take, hrequest, htake] at hhandle
        | some future' =>
            have hmem : first ∈ event.causes := (SortedSet.first?_eq_some_iff.mp hrequest).1
            obtain rfl := honly first hmem (by simp [htake])
            simp only [handle, requestId, take, hrequest, htake, Option.map_some, Prod.mk.injEq,
              Option.some.injEq] at hhandle
            exact ⟨rfl, o, hhandle.2.2, hanswers⟩
  · rintro ⟨hrequest, o, ho, hanswers⟩
    exact ⟨o, by simp [handle, requestId, take, hrequest, hfind, ho], hanswers⟩

/-! ### A reply with an older cause -/

def client : UUID := ⟨List.replicate 16 1, by decide⟩

def other : UUID := ⟨List.replicate 16 2, by decide⟩

/-- A reply to request 5 of the client, made from event 3 of another participant. -/
def derivedReply : Event Bytes :=
  (((Event.new 0).addCause ⟨other, 3⟩).setMethod (bytes "REPLY")).addCause ⟨client, 5⟩

def request : EventId := ⟨client, 5⟩

/-- The reply is overlooked, and the request stays in progress. -/
theorem not_completes_derivedReply :
    request ∈ derivedReply.causes ∧
      (∀ id' ∈ derivedReply.causes,
        (SortedMap.empty.insert request ()).find? id' ≠ none → id' = request) ∧
      handle (fun s => s) (SortedMap.empty.insert request ()) derivedReply =
        (SortedMap.empty.insert request (), none) := by
  refine ⟨rfl, fun id' _ h => ?_, rfl⟩
  by_contra hne
  exact h (by simp [SortedMap.find?_insert, hne])

/-- A reply that was caused by a newer event as well. -/
def forwardedReply : Event Bytes :=
  (((Event.new 0).addCause ⟨other, 7⟩).setMethod (bytes "REPLY")).addCause request

theorem mem_causes_forwardedReply {id : EventId} (h : id ∈ forwardedReply.causes) :
    id = request ∨ id = ⟨other, 7⟩ := by
  simpa [forwardedReply, Event.addCause, Event.setMethod, Event.new] using h

theorem presentable_forwardedReply : Presentable forwardedReply :=
  fun herror => absurd herror (by decide)

theorem handle_completes_forwardedReply :
    ∃ o, handle (fun s => s) (SortedMap.empty.insert request ()) forwardedReply =
        ((SortedMap.empty.insert request ()).erase request, some ((), .ok o)) ∧
      Answers forwardedReply o := by
  refine (handle_completes_iff _ _ _ request () rfl rfl fun id' h hfind => ?_).mpr
    ⟨fun id' h => ?_, presentable_forwardedReply⟩
  · rcases mem_causes_forwardedReply h with rfl | rfl
    · rfl
    · exact absurd rfl hfind
  · rcases mem_causes_forwardedReply h with rfl | rfl
    · exact le_rfl
    · decide

end RemoteMethod

end Rsb.Patterns
