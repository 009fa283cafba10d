import Mathlib.Data.Set.Insert
import Mathlib.Logic.Function.Basic
import Mathlib.Tactic.Common

/-!
Publishing and subscribing, as a client sees it.

A broker knows who has subscribed to what. A subscription names a topic, filters which all have
to let a message pass, and handlers. A message goes at once to all handlers of all subscriptions
that want it, and `received` is what has come to a handler so far. What a topic covers and what
a filter lets pass are parameters.
-/

namespace Rsb.Library

variable {C T F H M : Type}

structure Subscription (T F H : Type) where
  topic : T
  filters : Set F
  handlers : List H

structure Broker (C T F H M : Type) where
  subscriptions : C → Option (Subscription T F H)
  received : C → H → List M

/-- What clients do; a message is published by whoever likes to. -/
inductive Broker.Call (C T F H M : Type)
  | subscribe (c : C) (topic : T)
  | unsubscribe (c : C)
  | addFilter (c : C) (filter : F)
  | removeFilter (c : C) (filter : F)
  | addHandler (c : C) (handler : H)
  | removeHandler (c : C) (handler : H)
  | publish (message : M)

/-- The call is about the subscription of `c`. -/
def Broker.Call.Changes (c : C) : Broker.Call C T F H M → Prop
  | .subscribe c' _ | .unsubscribe c' | .addFilter c' _ | .removeFilter c' _
  | .addHandler c' _ | .removeHandler c' _ => c' = c
  | .publish _ => False

/-- The messages among the calls. -/
def Broker.Call.published : Broker.Call C T F H M → List M
  | .publish message => [message]
  | _ => []

namespace Broker

def empty : Broker C T F H M := ⟨fun _ => none, fun _ _ => []⟩

section

variable (covers : T → M → Prop) (passes : F → M → Prop)

def Wants (s : Subscription T F H) (message : M) : Prop :=
  covers s.topic message ∧ ∀ f ∈ s.filters, passes f message

variable [DecidableEq C] [DecidableEq H]

open Classical in
/-- What a message is to one handler: a handler that has been added twice is called twice. -/
noncomputable def deliveries (s : Option (Subscription T F H)) (handler : H) (message : M) :
    List M :=
  match s with
  | none => []
  | some s =>
      if Wants covers passes s message then List.replicate (s.handlers.count handler) message
      else []

def modify (b : Broker C T F H M) (c : C) (g : Subscription T F H → Subscription T F H) :
    Broker C T F H M :=
  { b with subscriptions := Function.update b.subscriptions c ((b.subscriptions c).map g) }

noncomputable def run (b : Broker C T F H M) : Call C T F H M → Broker C T F H M
  | .subscribe c topic =>
      { b with subscriptions := Function.update b.subscriptions c (some ⟨topic, ∅, []⟩) }
  | .unsubscribe c => { b with subscriptions := Function.update b.subscriptions c none }
  | .addFilter c filter => b.modify c fun s => { s with filters := insert filter s.filters }
  | .removeFilter c filter => b.modify c fun s => { s with filters := s.filters \ {filter} }
  | .addHandler c handler => b.modify c fun s => { s with handlers := s.handlers ++ [handler] }
  | .removeHandler c handler =>
      b.modify c fun s => { s with handlers := s.handlers.filter (· ≠ handler) }
  | .publish message =>
      { b with received := fun c handler =>
          b.received c handler ++ deliveries covers passes (b.subscriptions c) handler message }

noncomputable def runAll (b : Broker C T F H M) (calls : List (Call C T F H M)) :
    Broker C T F H M :=
  calls.foldl (run covers passes) b

variable {covers passes}

omit [DecidableEq C] in
theorem deliveries_of_wants {s : Subscription T F H} {message : M}
    (h : Wants covers passes s message) (handler : H) :
    deliveries covers passes (some s) handler message =
      List.replicate (s.handlers.count handler) message := if_pos h

omit [DecidableEq C] in
theorem deliveries_of_not_wants {s : Subscription T F H} {message : M}
    (h : ¬Wants covers passes s message) (handler : H) :
    deliveries covers passes (some s) handler message = [] := if_neg h

omit [DecidableEq H] in
theorem subscriptions_modify (b : Broker C T F H M) (c c' : C)
    (g : Subscription T F H → Subscription T F H) :
    (b.modify c g).subscriptions c' =
      if c' = c then (b.subscriptions c).map g else b.subscriptions c' := by
  simp only [modify, Function.update_apply]

theorem subscriptions_run {b : Broker C T F H M} {c : C} {call : Call C T F H M}
    (h : ¬call.Changes c) : (run covers passes b call).subscriptions c = b.subscriptions c := by
  cases call with
  | publish message => rfl
  | subscribe c' topic => exact Function.update_of_ne (Ne.symm h) ..
  | unsubscribe c' => exact Function.update_of_ne (Ne.symm h) ..
  | _ => exact (subscriptions_modify ..).trans (if_neg (Ne.symm h))

theorem received_run (b : Broker C T F H M) (call : Call C T F H M) (c : C) (handler : H) :
    (run covers passes b call).received c handler = b.received c handler ++
      call.published.flatMap (deliveries covers passes (b.subscriptions c) handler) := by
  cases call <;> simp [run, modify, Call.published]

/-- While the subscription of `c` stays as it is, its handlers receive the messages it wants, in
the order of their publication. -/
theorem received_runAll (b : Broker C T F H M) {c : C} {calls : List (Call C T F H M)}
    (h : ∀ call ∈ calls, ¬call.Changes c) (handler : H) :
    (b.runAll covers passes calls).received c handler = b.received c handler ++
      (calls.flatMap Call.published).flatMap
        (deliveries covers passes (b.subscriptions c) handler) := by
  induction calls generalizing b with
  | nil => simp [runAll]
  | cons call calls ih =>
      have hrest := ih (run covers passes b call) fun call' hcall' =>
        h call' (List.mem_cons_of_mem _ hcall')
      rw [subscriptions_run (h call List.mem_cons_self), received_run] at hrest
      rw [runAll, List.foldl_cons, List.flatMap_cons, List.flatMap_append, ← List.append_assoc]
      exact hrest

end

end Broker

end Rsb.Library
