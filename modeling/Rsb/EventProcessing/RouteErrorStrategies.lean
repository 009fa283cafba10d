import Rsb.Library.Runs
import Rsb.ParticipantConfig

/-!
The error strategy of a receive route (`PushInRouteConfigurator.cpp`).

The route has a strategy of its own, and it gives it to the event receiving strategy that it
creates and to its connectors when it is activated. `setErrorStrategy` gives both a strategy
again, but the connectors get the one that the route has had so far.
-/

namespace Rsb.EventProcessing

open Library
open ParticipantConfig (ErrorStrategy)

variable {C : Type} [LinearOrder C]

/-- A route with connectors that are known by their pointers. `given` is what the
connectors have been given last, and `eventReceivingStrategy` what the strategy for
receiving events has been given last, once there is one. -/
structure PushInRouteConfigurator (C : Type) [LinearOrder C] where
  connectors : SortedSet C
  eventReceivingStrategy : Option ErrorStrategy
  errorStrategy : ErrorStrategy
  given : C → Option ErrorStrategy

namespace PushInRouteConfigurator

/-- The constructor. -/
def new : PushInRouteConfigurator C := ⟨.empty, none, .log, fun _ => none⟩

/-- The loop over the connectors that calls their `setErrorStrategy`. -/
def giveAll (strategy : ErrorStrategy) :
    List C → (C → Option ErrorStrategy) → C → Option ErrorStrategy
  | [], given => given
  | it :: rest, given => giveAll strategy rest (Function.update given it (some strategy))

def addConnector (r : PushInRouteConfigurator C) (connector : C) : PushInRouteConfigurator C :=
  { r with connectors := r.connectors.add connector }

def activate (r : PushInRouteConfigurator C) : PushInRouteConfigurator C :=
  { r with
    eventReceivingStrategy := some r.errorStrategy
    given := giveAll r.errorStrategy r.connectors.keys r.given }

/-- The new strategy is stored when the connectors have been given the old one. -/
def setErrorStrategy (r : PushInRouteConfigurator C) (strategy : ErrorStrategy) :
    PushInRouteConfigurator C :=
  let r := { r with eventReceivingStrategy := r.eventReceivingStrategy.map fun _ => strategy }
  let r := { r with given := giveAll r.errorStrategy r.connectors.keys r.given }
  { r with errorStrategy := strategy }

inductive Call (C : Type)
  | addConnector (connector : C)
  | setErrorStrategy (strategy : ErrorStrategy)
  | activate

/-- A route is activated once, and its connectors are added before. -/
def step (r : PushInRouteConfigurator C) : Call C → Option (PushInRouteConfigurator C)
  | .addConnector connector =>
      if r.eventReceivingStrategy = none then some (r.addConnector connector) else none
  | .setErrorStrategy strategy => some (r.setErrorStrategy strategy)
  | .activate => if r.eventReceivingStrategy = none then some r.activate else none

/-- What a call does, and when there can be one. -/
theorem step_cases {r r' : PushInRouteConfigurator C} {call : Call C}
    (h : step r call = some r') :
    (∃ connector, call = .addConnector connector ∧ r.eventReceivingStrategy = none ∧
      r' = r.addConnector connector) ∨
    (∃ strategy, call = .setErrorStrategy strategy ∧ r' = r.setErrorStrategy strategy) ∨
    (call = .activate ∧ r.eventReceivingStrategy = none ∧ r' = r.activate) := by
  cases call with
  | addConnector connector =>
      obtain ⟨hinactive, h⟩ := Option.ite_none_right_eq_some.mp h
      exact .inl ⟨connector, rfl, hinactive, (Option.some.inj h).symm⟩
  | setErrorStrategy strategy =>
      exact .inr (.inl ⟨strategy, rfl, (Option.some.inj h).symm⟩)
  | activate =>
      obtain ⟨hinactive, h⟩ := Option.ite_none_right_eq_some.mp h
      exact .inr (.inr ⟨rfl, hinactive, (Option.some.inj h).symm⟩)

/-- The argument of the latest call of `setErrorStrategy`. -/
def latest (calls : List (Call C)) : ErrorStrategy :=
  calls.foldl (fun strategy call => match call with
    | .setErrorStrategy new => new
    | .addConnector _ | .activate => strategy) .log

/-- The whole route uses one strategy. -/
structure Consistent (strategy : ErrorStrategy) (r : PushInRouteConfigurator C) : Prop where
  own : r.errorStrategy = strategy
  receiving : r.eventReceivingStrategy = some strategy
  connectors : ∀ c ∈ r.connectors, r.given c = some strategy

/-- After activation, the strategy that is set is the one the route has already, unless the
route has no connectors. -/
def Repeats (r : PushInRouteConfigurator C) : Call C → Prop
  | .setErrorStrategy strategy =>
      r.eventReceivingStrategy ≠ none → strategy = r.errorStrategy ∨ ∀ c, ¬ c ∈ r.connectors
  | .addConnector _ | .activate => True

theorem giveAll_apply (strategy : ErrorStrategy) (connectors : List C)
    (given : C → Option ErrorStrategy) (c : C) :
    giveAll strategy connectors given c =
      if c ∈ connectors then some strategy else given c := by
  induction connectors generalizing given with
  | nil => rfl
  | cons it rest ih =>
      rw [giveAll, ih]
      by_cases hrest : c ∈ rest
      · rw [if_pos hrest, if_pos (List.mem_cons_of_mem _ hrest)]
      · rw [if_neg hrest, Function.update_apply]
        simp only [List.mem_cons, hrest, or_false]

/-- After a loop, the connectors have the strategy. -/
theorem giveAll_of_mem {strategy : ErrorStrategy} {r : PushInRouteConfigurator C} {c : C}
    (h : c ∈ r.connectors) : giveAll strategy r.connectors.keys r.given c = some strategy := by
  rw [giveAll_apply, if_pos (SortedSet.mem_keys.mpr h)]

omit [LinearOrder C] in
theorem latest_append (calls : List (Call C)) (call : Call C) :
    latest (calls ++ [call]) = match call with
      | .setErrorStrategy new => new
      | .addConnector _ | .activate => latest calls := by
  rw [latest, List.foldl_append]
  rfl

/-- The route itself always has the strategy that was set last. -/
theorem errorStrategy_eq_latest {calls : List (Call C)} {r : PushInRouteConfigurator C}
    (hrun : exec step new calls = some r) : r.errorStrategy = latest calls := by
  have hstep : ∀ past (r : PushInRouteConfigurator C) call r', r.errorStrategy = latest past →
      step r call = some r' → (r'.errorStrategy = latest (past ++ [call]) ↔ True) := by
    intro past r call r' h hcall
    rw [latest_append, iff_true]
    obtain ⟨_, rfl, -, rfl⟩ | ⟨_, rfl, rfl⟩ | ⟨rfl, -, rfl⟩ := step_cases hcall
    · exact h
    · rfl
    · exact h
  have halong : Along step (fun _ _ => True) (new : PushInRouteConfigurator C) calls :=
    along_of_forall (fun _ _ => trivial) _
  exact (along_iff_prefixes hstep (fun _ _ _ => trivial) [] rfl).mp halong calls
    List.prefix_rfl r hrun

/-- The route is consistent once it is activated. -/
structure Settled (strategy : ErrorStrategy) (r : PushInRouteConfigurator C) : Prop where
  own : r.errorStrategy = strategy
  consistent : r.eventReceivingStrategy ≠ none → Consistent strategy r

theorem settled_setErrorStrategy_iff (r : PushInRouteConfigurator C) (strategy : ErrorStrategy) :
    Settled strategy (r.setErrorStrategy strategy) ↔ Repeats r (.setErrorStrategy strategy) := by
  have hactive : (r.setErrorStrategy strategy).eventReceivingStrategy ≠ none ↔
      r.eventReceivingStrategy ≠ none := not_congr Option.map_eq_none_iff
  constructor
  · intro hnew hreceiving
    have hconsistent := hnew.consistent (hactive.mpr hreceiving)
    by_contra hdiffers
    obtain ⟨hstrategy, hsome⟩ := not_or.mp hdiffers
    obtain ⟨c, hc⟩ := not_forall_not.mp hsome
    -- the connector has been given the strategy from before
    have hgiven := hconsistent.connectors c hc
    exact hstrategy (Option.some.inj (hgiven.symm.trans (giveAll_of_mem hc)))
  · intro hrepeats
    refine ⟨rfl, fun hreceiving => ⟨rfl, ?_, fun c hc => ?_⟩⟩
    · obtain ⟨e, he⟩ := Option.ne_none_iff_exists'.mp (hactive.mp hreceiving)
      show r.eventReceivingStrategy.map (fun _ => strategy) = some strategy
      rw [he, Option.map_some]
    · rcases hrepeats (hactive.mp hreceiving) with rfl | hnone
      · exact giveAll_of_mem hc
      · exact absurd hc (hnone c)

/-- One call keeps a route consistent just when it repeats the strategy. -/
theorem settled_step_iff {past : List (Call C)} {r r' : PushInRouteConfigurator C} {call : Call C}
    (h : Settled (latest past) r) (hcall : step r call = some r') :
    Settled (latest (past ++ [call])) r' ↔ Repeats r call := by
  rw [latest_append]
  obtain ⟨_, rfl, hinactive, rfl⟩ | ⟨strategy, rfl, rfl⟩ | ⟨rfl, -, rfl⟩ := step_cases hcall
  · exact ⟨fun _ => trivial, fun _ => ⟨h.own, fun hactive => absurd hinactive hactive⟩⟩
  · exact settled_setErrorStrategy_iff r strategy
  · refine ⟨fun _ => trivial, fun _ => ⟨h.own, fun _ => ?_⟩⟩
    refine ⟨h.own, congrArg some h.own, fun c hc => ?_⟩
    show giveAll r.errorStrategy r.connectors.keys r.given c = some (latest past)
    rw [giveAll_of_mem (r := r) hc, h.own]

/-- A route is consistent in all states after its activation if, and only if, the strategy
is not changed any more then. -/
theorem consistent_iff_repeats (calls : List (Call C)) :
    (∀ front, front <+: calls → ∀ r, exec step new front = some r →
      r.eventReceivingStrategy ≠ none → Consistent (latest front) r) ↔
      Along step Repeats new calls := by
  have hrefused : ∀ (r : PushInRouteConfigurator C) call, step r call = none →
      Repeats r call := by
    intro r call h
    cases call with
    | addConnector connector => trivial
    | setErrorStrategy strategy => cases h
    | activate => trivial
  have hnew : Settled (latest ([] : List (Call C))) (new : PushInRouteConfigurator C) :=
    ⟨rfl, fun h => absurd rfl h⟩
  rw [along_iff_prefixes (I := fun past r => Settled (latest past) r)
    (fun _ _ _ _ => settled_step_iff) hrefused [] hnew]
  constructor
  · intro hall front hfront r hr
    exact ⟨errorStrategy_eq_latest hr, hall front hfront r hr⟩
  · intro hall front hfront r hr
    exact (hall front hfront r hr).consistent

/-- A route that is told to exit on errors when it is active already. -/
theorem consistent_fails :
    let calls : List (Call ℕ) := [.addConnector 0, .activate, .setErrorStrategy .exit]
    ∃ r, exec step new calls = some r ∧ r.eventReceivingStrategy = some (latest calls) ∧
      0 ∈ r.connectors ∧ r.given 0 = some .log ∧ ¬ Consistent (latest calls) r := by
  refine ⟨_, rfl, rfl, by decide, rfl, fun h => ?_⟩
  cases h.connectors 0 (by decide)

end PushInRouteConfigurator

end Rsb.EventProcessing
