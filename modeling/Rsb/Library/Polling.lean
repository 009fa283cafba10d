import Mathlib.Data.List.Basic
import Mathlib.Logic.Function.Basic

/-!
Queues that are polled in a fixed order.

Things are put into queues, one for each key. Who wants something asks the queues in the order
of a list of keys, each at its own time, and takes the first thing of the first queue that has
any, or nothing when it has found all of them empty. A call that blocks waits for the first
queue instead of asking the next one. `InTurn` is what this means for a history of puts and of
the steps of such calls.
-/

namespace Rsb.Library.Polling

variable {T C E : Type}

inductive Entry (T C E : Type)
  | put (c : C) (e : E)
  | started (t : T) (block : Bool)
  /-- The queue was found empty. -/
  | passed (t : T) (c : C)
  | took (t : T) (block : Bool) (c : C) (e : E)
  | nothing (t : T) (block : Bool)

def putIn [DecidableEq C] (c : C) (l : List (Entry T C E)) : List E :=
  l.filterMap fun
    | .put c' e => if c' = c then some e else none
    | _ => none

def takenFrom [DecidableEq C] (c : C) (l : List (Entry T C E)) : List E :=
  l.filterMap fun
    | .took _ _ c' e => if c' = c then some e else none
    | _ => none

/-- What has been put into the queue and not been taken from it. -/
def waiting [DecidableEq C] (c : C) (l : List (Entry T C E)) : List E :=
  (putIn c l).drop (takenFrom c l).length

def Entry.call [DecidableEq T] (t : T) (call : Option (Bool × List C)) :
    Entry T C E → Option (Bool × List C)
  | .put _ _ => call
  | .started t' block => if t' = t then some (block, []) else call
  | .passed t' c => if t' = t then call.map fun (block, cs) => (block, cs ++ [c]) else call
  | .took t' _ _ _ | .nothing t' _ => if t' = t then none else call

/-- Whether `t` is in a call, whether that blocks, and the queues found empty in it. -/
def inCall [DecidableEq T] (t : T) (l : List (Entry T C E)) : Option (Bool × List C) :=
  l.foldl (Entry.call t) none

variable [DecidableEq T] [DecidableEq C]

/-- What is expected of an entry after those before it. A call goes on only from an empty queue,
and not at all when it blocks; it takes the first thing of the queue that comes next; and it
takes nothing only when it has gone through all queues. -/
def Expected (order : List C) (before : List (Entry T C E)) : Entry T C E → Prop
  | .put _ _ => True
  | .started t _ => inCall t before = none
  | .passed t c => waiting c before = [] ∧
      ∃ front back, inCall t before = some (false, front) ∧ order = front ++ c :: back
  | .took t block c e => (waiting c before).head? = some e ∧
      ∃ front back, inCall t before = some (block, front) ∧ order = front ++ c :: back
  | .nothing t block => inCall t before = some (block, order)

/-- Each queue gives in the order of the puts, and each entry is as expected. -/
structure InTurn (order : List C) (l : List (Entry T C E)) : Prop where
  fifo : ∀ c, takenFrom c l <+: putIn c l
  expected : ∀ before x after, l = before ++ x :: after → Expected order before x

section

variable {order : List C} {l : List (Entry T C E)}

theorem inTurn_nil (order : List C) : InTurn order ([] : List (Entry T C E)) where
  fifo c := List.nil_prefix
  expected before x after h := by simp at h

omit [DecidableEq T] in
theorem putIn_append (c : C) (l l' : List (Entry T C E)) :
    putIn c (l ++ l') = putIn c l ++ putIn c l' := List.filterMap_append

omit [DecidableEq T] in
theorem takenFrom_append (c : C) (l l' : List (Entry T C E)) :
    takenFrom c (l ++ l') = takenFrom c l ++ takenFrom c l' := List.filterMap_append

omit [DecidableEq C] in
theorem inCall_append (t : T) (l : List (Entry T C E)) (x : Entry T C E) :
    inCall t (l ++ [x]) = x.call t (inCall t l) := by
  rw [inCall, List.foldl_append]
  rfl

theorem InTurn.putIn_eq (h : InTurn order l) (c : C) :
    putIn c l = takenFrom c l ++ waiting c l := by
  obtain ⟨rest, hrest⟩ := h.fifo c
  rw [waiting, ← hrest, List.drop_left]

theorem InTurn.waiting_put (h : InTurn order l) (c : C) (e : E) :
    (waiting · (l ++ [.put c e])) = Function.update (waiting · l) c (waiting c l ++ [e]) := by
  funext c'
  have htaken : takenFrom c' (l ++ [.put c e]) = takenFrom c' l := by
    simp [takenFrom]
  rw [waiting, htaken, putIn_append, List.drop_append_of_le_length (h.fifo c').length_le,
    Function.update_apply]
  by_cases hc : c' = c
  · subst hc
    simp [putIn, waiting]
  · simp [putIn, waiting, hc, Ne.symm hc]

omit [DecidableEq T] in
theorem waiting_took (t : T) (block : Bool) (c : C) (e : E) :
    (waiting · (l ++ [.took t block c e])) =
      Function.update (waiting · l) c (waiting c l).tail := by
  funext c'
  have hput : putIn c' (l ++ [.took t block c e]) = putIn c' l := by
    simp [putIn]
  rw [waiting, hput, takenFrom_append, Function.update_apply]
  by_cases hc : c' = c
  · subst hc
    simp [takenFrom, waiting]
  · simp [takenFrom, waiting, hc, Ne.symm hc]

/-- An entry that leaves the queues alone. -/
def Entry.Silent : Entry T C E → Prop
  | .put _ _ | .took _ _ _ _ => False
  | _ => True

omit [DecidableEq T] in
theorem waiting_silent (x : Entry T C E) (hx : x.Silent) (c : C) :
    waiting c (l ++ [x]) = waiting c l := by
  cases x <;> simp_all [waiting, putIn, takenFrom, Entry.Silent]

/-- What is taken has been put before. -/
theorem InTurn.fifo_append (h : InTurn order l) {x : Entry T C E} (hx : Expected order l x)
    (c : C) : takenFrom c (l ++ [x]) <+: putIn c (l ++ [x]) := by
  cases x with
  | put c' e =>
      rw [takenFrom_append, putIn_append]
      simpa [takenFrom] using (h.fifo c).trans (List.prefix_append _ _)
  | took t block c' e =>
      obtain ⟨rest, hrest⟩ := List.head?_eq_some_iff.mp hx.1
      have hput : putIn c' l = takenFrom c' l ++ e :: rest := hrest ▸ h.putIn_eq c'
      rw [takenFrom_append, putIn_append]
      by_cases hc : c' = c
      · subst hc
        have hnow : takenFrom c' [(.took t block c' e : Entry T C E)] = [e] := by
          simp [takenFrom]
        rw [hput, hnow]
        exact ⟨rest ++ putIn c' [.took t block c' e], by simp⟩
      · simpa [takenFrom, putIn, hc] using h.fifo c
  | started t block | passed t c' | nothing t block =>
      simpa [takenFrom, putIn] using h.fifo c

/-- One more entry. -/
theorem InTurn.append (h : InTurn order l) {x : Entry T C E} (hx : Expected order l x) :
    InTurn order (l ++ [x]) where
  fifo := h.fifo_append hx
  expected before y after heq := by
    rcases List.eq_nil_or_concat after with rfl | ⟨after', z, rfl⟩
    · obtain ⟨rfl, rfl⟩ := List.append_singleton_inj.mp heq
      exact hx
    · rw [List.concat_eq_append, ← List.cons_append, ← List.append_assoc] at heq
      exact h.expected before y after' (List.append_singleton_inj.mp heq).1

end

end Rsb.Library.Polling
