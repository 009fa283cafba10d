import Rsb.Event

/-!
Publishing events (`Informer.cpp`).

`publish` checks the event against the informer, gives it an id and hands it to
the configurator; the model returns the event handed over. What the stream
operators write for pointers to events and scopes is a parameter.
-/

namespace Rsb

variable {δ : Type}

structure Printer (δ : Type) where
  event : Event δ → Bytes
  scope : Scope → Bytes

structure Informer where
  id : UUID
  scope : Scope
  type : Bytes
  currentSequenceNumber : UInt32

namespace Informer

/-- The number to use, and the informer with the next one. -/
def nextSequenceNumber (i : Informer) : UInt32 × Informer :=
  (i.currentSequenceNumber, { i with currentSequenceNumber := i.currentSequenceNumber + 1 })

def uncheckedPublish (i : Informer) (e : Event δ) : Informer × Event δ :=
  let (sequenceNumber, i) := i.nextSequenceNumber
  (i, e.setId i.id sequenceNumber)

def checkedPublish (print : Printer δ) (i : Informer) (e : Event δ) :
    Except Fault (Informer × Event δ) :=
  if e.type = [] then
    .error (invalidArgument (bytes "Event type cannot be empty: " ++ print.event e))
  else if i.type ≠ [] ∧ e.type ≠ i.type then
    .error (invalidArgument (bytes "Specified event type " ++ e.type ++
      bytes " does not match informer type " ++ i.type ++ bytes "."))
  else if e.scope ≠ i.scope ∧ !e.scope.isSubScopeOf i.scope then
    .error (invalidArgument (bytes "Specified event scope " ++ print.scope e.scope ++
      bytes " does not match informer scope " ++ print.scope i.scope ++ bytes "."))
  else .ok (i.uncheckedPublish e)

/-- An informer without a type publishes on its own scope whatever has a type. -/
theorem checkedPublish_eq_ok_iff {print : Printer δ} {i : Informer} (htype : i.type = [])
    {e : Event δ} (hscope : e.scope = i.scope) {r : Informer × Event δ} :
    i.checkedPublish print e = .ok r ↔ e.type ≠ [] ∧ i.uncheckedPublish e = r := by
  by_cases h : e.type = []
  · simp [checkedPublish, h]
  · simp [checkedPublish, h, htype, hscope]

end Informer

end Rsb
