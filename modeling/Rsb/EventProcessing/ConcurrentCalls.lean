import Mathlib.Data.Fintype.Defs
import Mathlib.Data.List.Nodup
import Rsb.EventProcessing.ReceivingStrategies

/-!
Adding and removing handlers while events are handled
(`DirectEventReceivingStrategy.cpp`).

Calls of the direct strategy are interleaved step by step. All of them take the mutex of
the handlers in shared mode, those which change the list included. So an iteration may
go on while the list is changed: its iterator keeps its place, the pointer it has read
keeps the handler, and an entry that is taken out from under the iterator cannot be left
any more. A change reads the list in one step and writes it in another, since two
changes do not exclude each other either.

A call may be made by another thread or by a handler that is running; calls are known by
elements of `C`.
-/

namespace Rsb.EventProcessing.HandlerRemoval

open Library
open ParticipantConfig (ErrorStrategy)

variable {F H δ C : Type}

/-! ### The mutex -/

inductive Mode
  | shared | unique

/-- `boost::shared_mutex`: there are shared holders, or there is a unique one. -/
structure SharedMutex (C : Type) where
  shared : List C
  unique : Option C
  exclusive : unique = none ∨ shared = []

namespace SharedMutex

def init : SharedMutex C := ⟨[], none, .inl rfl⟩

/-- `none` if the call has to wait. -/
def lock (m : SharedMutex C) (c : C) : Mode → Option (SharedMutex C)
  | .shared =>
      if h : m.unique.isNone then some ⟨c :: m.shared, m.unique, .inl (by simpa using h)⟩ else none
  | .unique =>
      if h : m.unique.isNone ∧ m.shared.isEmpty then
        some ⟨m.shared, some c, .inr (by simpa using h.2)⟩
      else none

def unlock [DecidableEq C] (m : SharedMutex C) (c : C) : Mode → SharedMutex C
  | .shared => ⟨m.shared.erase c, m.unique, m.exclusive.imp_right fun h => by simp [h]⟩
  | .unique => ⟨m.shared, none, .inl rfl⟩

end SharedMutex

/-! ### Calls -/

/-- A node of the `std::list` of handlers. -/
structure Entry (H : Type) where
  node : ℕ
  handler : H
  deriving DecidableEq

/-- Where a call is. From `handling`, `adding` and `removing` on it holds the mutex. -/
inductive Point (H δ : Type)
  | idle
  | handle (event : Event δ)
  | handling (event : Event δ)
  /-- Before the test of the loop; `none` is the end of the list. -/
  | iterating (event : Event δ) (iterator : Option ℕ)
  /-- With the pointer of an entry, before and behind `handler->handle`. -/
  | delivering (event : Event δ) (node : ℕ) (handler : H)
  | running (event : Event δ) (node : ℕ) (handler : H)
  | add (handler : H)
  | adding (handler : H)
  | linking (handler : H) (found : List (Entry H))
  | added
  | remove (handler : H)
  | removing (handler : H)
  | unlinking (handler : H) (found : List (Entry H))
  | removed (handler : H)

/-- What a call of a thread is, and to let it go on. Nothing depends on the argument
`wait` of `addHandler` and `removeHandler`. -/
inductive Action (F H δ : Type)
  | handle (event : Event δ)
  | addHandler (handler : H)
  | removeHandler (handler : H)
  | addFilter (filter : F)
  | removeFilter (filter : F)
  | go

/-- What happens, as far as callers can tell: a call of `handle` begins, invokes a
handler, and ends after its loop; a handler is in the list or out of it; and a call of
`removeHandler` returns. -/
inductive Obs (H C : Type)
  | started (c : C)
  | invoked (c : C) (handler : H)
  | finished (c : C)
  | linked (handler : H)
  | unlinked (c : C) (handler : H)
  | removed (c : C) (handler : H)
  deriving DecidableEq

/-- The strategy with its calls. The log begins with what happened last; `undefined` is
set when an iterator is used whose entry is gone. -/
structure State (F H δ C : Type) [LinearOrder F] where
  call : C → Point H δ
  filters : SortedSet F
  entries : List (Entry H)
  nodes : ℕ
  errorStrategy : ErrorStrategy
  handlerMutex : SharedMutex C
  undefined : Bool
  log : List (Obs H C)

section

variable [LinearOrder F] [DecidableEq H] [DecidableEq C]

namespace State

def init (strategy : ErrorStrategy) : State F H δ C :=
  ⟨fun _ => .idle, .empty, [], 0, strategy, .init, false, []⟩

/-- The strategy as other calls find it. -/
def strategy (s : State F H δ C) : DirectEventReceivingStrategy F H :=
  ⟨s.filters, s.entries.map Entry.handler, s.errorStrategy⟩

def observe (s : State F H δ C) (o : Obs H C) : State F H δ C := { s with log := o :: s.log }

def setEntries (s : State F H δ C) (entries : List (Entry H)) (nodes : ℕ) : State F H δ C :=
  { s with entries, nodes }

def lock (s : State F H δ C) (c : C) (mode : Mode) : Option (State F H δ C) :=
  (s.handlerMutex.lock c mode).map fun m => { s with handlerMutex := m }

def unlock (s : State F H δ C) (c : C) (mode : Mode) : State F H δ C :=
  { s with handlerMutex := s.handlerMutex.unlock c mode }

end State

def begin (entries : List (Entry H)) : Option ℕ := entries.head?.map Entry.node

/-- The iterator behind a node that is in the list. -/
def successor (entries : List (Entry H)) (node : ℕ) : Option ℕ :=
  begin (entries.dropWhile fun x => x.node ≠ node).tail

variable (b : Behaviour F H δ) (now : UInt64)

/-- What a call does next, and where it is then. -/
def next (s : State F H δ C) (c : C) :
    Point H δ → Action F H δ → Option (State F H δ C × Point H δ)
  | .idle, .handle event => some (s.observe (.started c), .handle event)
  | .idle, .addHandler handler => some (s, .add handler)
  | .idle, .removeHandler handler => some (s, .remove handler)
  -- the filters have a mutex of their own, which changes take in unique mode
  | .idle, .addFilter filter => some ({ s with filters := s.filters.add filter }, .idle)
  | .idle, .removeFilter filter => some ({ s with filters := s.filters.erase filter }, .idle)
  | .handle event, .go => (s.lock c .shared).map fun s => (s, .handling event)
  | .handling event, .go =>
      let event := event.modifyMetaData (·.setDeliverTime now now)
      match s.strategy.filter b event with
      | none => none
      | some false => some (s.unlock c .shared, .idle)
      | some true => some (s, .iterating event (begin s.entries))
  | .iterating _ none, .go => some ((s.unlock c .shared).observe (.finished c), .idle)
  | .iterating event (some node), .go =>
      match s.entries.find? (fun x => x.node = node) with
      | none => some ({ s with undefined := true }, .idle)
      | some entry => some (s, .delivering event node entry.handler)
  | .delivering event node handler, .go =>
      some (s.observe (.invoked c handler), .running event node handler)
  | .running event node handler, .go =>
      match s.strategy.deliver b handler event with
      | none => none
      | some () =>
          if s.entries.any fun x => x.node = node then
            some (s, .iterating event (successor s.entries node))
          else some ({ s with undefined := true }, .idle)
  | .add handler, .go => (s.lock c .shared).map fun s => (s, .adding handler)
  | .adding handler, .go => some (s, .linking handler s.entries)
  | .linking handler found, .go =>
      some ((s.setEntries (found ++ [⟨s.nodes, handler⟩]) (s.nodes + 1)).observe
        (.linked handler), .added)
  | .added, .go => some (s.unlock c .shared, .idle)
  | .remove handler, .go => (s.lock c .shared).map fun s => (s, .removing handler)
  | .removing handler, .go => some (s, .unlinking handler s.entries)
  | .unlinking handler found, .go =>
      some ((s.setEntries (found.filter fun x => x.handler ≠ handler) s.nodes).observe
        (.unlinked c handler), .removed handler)
  | .removed handler, .go =>
      some ((s.unlock c .shared).observe (.removed c handler), .idle)
  | _, _ => none

/-- Nothing can be said about what follows an undefined step. -/
def step (s : State F H δ C) : C × Action F H δ → Option (State F H δ C)
  | (c, a) =>
      if s.undefined then none
      else (next b now s c (s.call c) a).map fun (s, p) =>
        { s with call := Function.update s.call c p }

end

/-! ### What callers are promised -/

/-- No handler is invoked after a call of `removeHandler` for it has returned, unless it
has been added again since it was taken out. -/
def NoneAfterRemoval (log : List (Obs H C)) : Prop :=
  ∀ (later between before : List (Obs H C)) (c k : C) (h : H),
    log = later ++ .invoked c h :: (between ++ .unlinked k h :: before) →
    .removed k h ∈ between → .linked h ∈ between

/-- A call of `handle` that gets to the end of its loop has invoked every handler which
was in the list when it began and has not been taken out. -/
def AllAfterAddition (log : List (Obs H C)) : Prop :=
  ∀ (later during between before : List (Obs H C)) (c : C) (h : H),
    log = later ++ .finished c :: (during ++ .started c :: (between ++ .linked h :: before)) →
    .started c ∉ during → (∀ k, .unlinked k h ∉ during ++ between) → .invoked c h ∈ during

/-- The call is in its loop, so the event has passed the filters. -/
def Point.looping : Point H δ → Bool
  | .iterating .. | .delivering .. | .running .. => true
  | _ => false

/-- A call that has passed the filters gets to the end of its loop if it is let run. -/
def Completes [LinearOrder F] [DecidableEq H] [DecidableEq C] (b : Behaviour F H δ)
    (now : UInt64) (s : State F H δ C) : Prop :=
  s.errorStrategy ≠ .exit → ∀ c, (s.call c).looping = true →
    ∃ n s', exec (step b now) s (List.replicate n (c, .go)) = some s' ∧ s'.call c = .idle ∧
      (∃ log, s'.log = .finished c :: log) ∧ AllAfterAddition s'.log

/-- The iterator of a call is at an entry of the handler. -/
def On (entries : List (Entry H)) (h : H) : Point H δ → Prop
  | .iterating _ (some node) => ∃ x ∈ entries, x.node = node ∧ x.handler = h
  | .delivering _ _ handler | .running _ _ handler => handler = h
  | _ => False

/-- The list is written as it was read, and no iterator is at an entry that is taken
out. -/
def CalmAt [LinearOrder F] (s : State F H δ C) : Point H δ → Prop
  | .linking _ found => s.entries = found
  | .unlinking handler found => s.entries = found ∧ ∀ k, ¬On s.entries handler (s.call k)
  | _ => True

def Calm [LinearOrder F] (s : State F H δ C) (l : C × Action F H δ) : Prop :=
  CalmAt s (s.call l.1)

instance [DecidableEq H] (entries : List (Entry H)) (h : H) :
    ∀ p : Point H δ, Decidable (On entries h p)
  | .iterating _ (some node) =>
      inferInstanceAs (Decidable (∃ x ∈ entries, x.node = node ∧ x.handler = h))
  | .delivering _ _ handler | .running _ _ handler => inferInstanceAs (Decidable (handler = h))
  | .iterating _ none | .idle | .handle _ | .handling _ | .add _ | .adding _ | .linking .. | .added
  | .remove _ | .removing _ | .unlinking .. | .removed _ => isFalse id

instance [LinearOrder F] [DecidableEq H] [Fintype C] (s : State F H δ C) :
    ∀ p, Decidable (CalmAt s p)
  | .linking _ found => inferInstanceAs (Decidable (s.entries = found))
  | .unlinking handler found =>
      inferInstanceAs (Decidable (s.entries = found ∧ ∀ k, ¬On s.entries handler (s.call k)))
  | .idle | .handle _ | .handling _ | .iterating .. | .delivering .. | .running .. | .add _
  | .adding _ | .added | .remove _ | .removing _ | .removed _ => isTrue trivial

instance [LinearOrder F] [DecidableEq H] [Fintype C] (s : State F H δ C) (l : C × Action F H δ) :
    Decidable (Calm s l) :=
  inferInstanceAs (Decidable (CalmAt s (s.call l.1)))

/-! ### The list behind an iterator -/

/-- The entries from an iterator to the end of the list. -/
def ahead (entries : List (Entry H)) : Option ℕ → List (Entry H)
  | none => []
  | some node => entries.dropWhile fun x => x.node ≠ node

theorem ahead_suffix (entries : List (Entry H)) (iterator : Option ℕ) :
    ahead entries iterator <:+ entries := by
  cases iterator with
  | none => exact List.nil_suffix
  | some node => exact List.dropWhile_suffix _

theorem ahead_eq_cons {entries : List (Entry H)} {node : ℕ} (h : ∃ x ∈ entries, x.node = node) :
    ∃ x rest, ahead entries (some node) = x :: rest ∧ x ∈ entries ∧ x.node = node := by
  induction entries with
  | nil => simp at h
  | cons y entries ih =>
      by_cases hy : y.node = node
      · exact ⟨y, entries, by simp [ahead, hy], List.mem_cons_self, hy⟩
      · obtain ⟨x, hx, hnode⟩ := h
        have hmem : x ∈ entries := (List.mem_cons.mp hx).resolve_left fun heq => hy (heq ▸ hnode)
        obtain ⟨z, rest, hz, hzmem, hznode⟩ := ih ⟨x, hmem, hnode⟩
        refine ⟨z, rest, ?_, List.mem_cons_of_mem y hzmem, hznode⟩
        simpa [ahead, hy] using hz

/-- An iterator that is set to the begin of a part of the list goes through that part. -/
theorem ahead_begin {entries part : List (Entry H)} (hnodup : (entries.map Entry.node).Nodup)
    (hpart : part <:+ entries) : ahead entries (begin part) = part := by
  cases part with
  | nil => rfl
  | cons x part =>
      obtain ⟨front, rfl⟩ := hpart
      have hfront : ∀ y ∈ front, y.node ≠ x.node := by
        intro y hy
        rw [List.map_append, List.nodup_append] at hnodup
        exact hnodup.2.2 _ (List.mem_map_of_mem hy) _ (by simp)
      show (front ++ x :: part).dropWhile (fun y => y.node ≠ x.node) = x :: part
      rw [List.dropWhile_append_of_pos (by simpa using hfront)]
      simp

/-- A new entry comes after the others. -/
theorem ahead_append {entries : List (Entry H)} {node : ℕ} (h : ∃ x ∈ entries, x.node = node)
    (new : List (Entry H)) :
    ahead (entries ++ new) (some node) = ahead entries (some node) ++ new := by
  obtain ⟨x, rest, hahead, -, -⟩ := ahead_eq_cons h
  show (entries ++ new).dropWhile _ = entries.dropWhile _ ++ new
  rw [List.dropWhile_append, if_neg]
  rw [show entries.dropWhile _ = x :: rest from hahead]
  simp

/-- Taking out the entries of a handler leaves the others behind an iterator that is at
none of them. -/
theorem ahead_filter [DecidableEq H] {entries : List (Entry H)} {node : ℕ} {handler : H}
    (h : ∀ x ∈ entries, x.node = node → x.handler ≠ handler) :
    ahead (entries.filter fun x => x.handler ≠ handler) (some node) =
      (ahead entries (some node)).filter fun x => x.handler ≠ handler := by
  induction entries with
  | nil => rfl
  | cons x entries ih =>
      have ih := ih fun y hy => h y (List.mem_cons_of_mem x hy)
      by_cases hx : x.node = node
      · have hkept := h x List.mem_cons_self hx
        simp [ahead, hx, hkept]
      · have hskip : ahead (x :: entries) (some node) = ahead entries (some node) := by
          simp [ahead, hx]
        rw [hskip, ← ih]
        by_cases hkept : x.handler = handler
        · simp [hkept]
        · simp [ahead, hx, hkept]

/-! ### What a call has still to do -/

/-- Whether a handler is in the list, as the log has it. -/
def Present (h : H) : List (Obs H C) → Prop
  | [] => False
  | .linked handler :: log => handler = h ∨ Present h log
  | .unlinked _ handler :: log => handler ≠ h ∧ Present h log
  | _ :: log => Present h log

/-- The handlers that were there when the call began and have not been taken out are
invoked already, or have entries in `left`. -/
def Owes (log : List (Obs H C)) (c : C) (left : List (Entry H)) : Prop :=
  ∀ during before h, log = during ++ .started c :: before → .started c ∉ during →
    Present h before → (∀ k, .unlinked k h ∉ during) →
    .invoked c h ∈ during ∨ ∃ x ∈ left, x.handler = h

section

variable {log before between during : List (Obs H C)} {c : C} {h : H}

theorem Present.linked_of_unlinked {k : C}
    (hpresent : Present h (between ++ .unlinked k h :: before)) : .linked h ∈ between := by
  induction between with
  | nil => exact absurd rfl hpresent.1
  | cons o between ih =>
      cases o with
      | linked handler =>
          rcases hpresent with rfl | hpresent
          · exact List.mem_cons_self
          · exact List.mem_cons_of_mem _ (ih hpresent)
      | unlinked k' handler => exact List.mem_cons_of_mem _ (ih hpresent.2)
      | _ => exact List.mem_cons_of_mem _ (ih hpresent)

theorem present_append (hpresent : Present h before) (hkept : ∀ k, .unlinked k h ∉ during) :
    Present h (during ++ before) := by
  induction during with
  | nil => exact hpresent
  | cons o during ih =>
      have ih := ih fun k hk => hkept k (List.mem_cons_of_mem o hk)
      cases o with
      | linked handler => exact .inr ih
      | unlinked k handler => exact ⟨fun heq => hkept k (heq ▸ List.mem_cons_self), ih⟩
      | _ => exact ih

theorem Owes.mono {left left' : List (Entry H)} (howes : Owes log c left)
    (hsub : ∀ x ∈ left, x ∈ left') : Owes log c left' := by
  intro during before h hlog hstart hpresent hkept
  refine (howes during before h hlog hstart hpresent hkept).imp_right ?_
  rintro ⟨x, hx, rfl⟩
  exact ⟨x, hsub x hx, rfl⟩

/-- Something happens, and an entry is no longer left only if its handler is invoked or
taken out by it. -/
theorem Owes.cons {left left' : List (Entry H)} {o : Obs H C} (howes : Owes log c left)
    (hstart : o ≠ .started c)
    (hsub : ∀ x ∈ left, o = .invoked c x.handler ∨ (∃ k, o = .unlinked k x.handler) ∨ x ∈ left') :
    Owes (o :: log) c left' := by
  intro during before h hlog hduring hpresent hkept
  cases during with
  | nil => exact absurd (List.cons.inj hlog).1 hstart
  | cons o' during =>
      obtain ⟨rfl, hrest⟩ := List.cons.inj hlog
      rcases howes during before h hrest (fun hmem => hduring (List.mem_cons_of_mem _ hmem))
        hpresent (fun k hk => hkept k (List.mem_cons_of_mem _ hk)) with hinvoked | ⟨x, hx, rfl⟩
      · exact .inl (List.mem_cons_of_mem _ hinvoked)
      · rcases hsub x hx with rfl | ⟨k, rfl⟩ | hleft
        · exact .inl List.mem_cons_self
        · exact absurd List.mem_cons_self (hkept k)
        · exact .inr ⟨x, hleft, rfl⟩

/-- A call that begins owes the event to every handler in the list. -/
theorem owes_started {left : List (Entry H)}
    (hmembers : ∀ h, Present h log → ∃ x ∈ left, x.handler = h) :
    Owes (.started c :: log) c left := by
  intro during before h hlog hduring hpresent _
  cases during with
  | nil =>
      obtain rfl := (List.cons.inj hlog).2
      exact .inr (hmembers h hpresent)
  | cons o during =>
      obtain ⟨rfl, -⟩ := List.cons.inj hlog
      exact absurd List.mem_cons_self hduring

end

/-! ### Where a call may be -/

/-- The entry that an iterator is at is in the list. -/
def At (entries : List (Entry H)) : Point H δ → Prop
  | .iterating _ (some node) => ∃ x ∈ entries, x.node = node
  | .delivering _ node handler | .running _ node handler => ⟨node, handler⟩ ∈ entries
  | _ => True

/-- The entries that a call of `handle` has before it. -/
def left (entries : List (Entry H)) : Point H δ → Option (List (Entry H))
  | .handle _ | .handling _ => some entries
  | .iterating _ iterator => some (ahead entries iterator)
  | .delivering _ node _ => some (ahead entries (some node))
  | .running _ node _ => some (ahead entries (some node)).tail
  | _ => none

structure Valid (entries : List (Entry H)) (log : List (Obs H C)) (c : C) (p : Point H δ) :
    Prop where
  place : At entries p
  owes : ∀ l, left entries p = some l → Owes log c l

section

variable {entries : List (Entry H)} {log : List (Obs H C)} {c : C} {p : Point H δ}

theorem at_begin {part : List (Entry H)} (hpart : part <:+ entries) {event : Event δ} :
    At entries (.iterating event (begin part)) := by
  cases part with
  | nil => trivial
  | cons x part => exact ⟨x, hpart.subset List.mem_cons_self, rfl⟩

theorem begin_ahead {iterator : Option ℕ} {event : Event δ}
    (hplace : At entries (.iterating event iterator)) : begin (ahead entries iterator) = iterator := by
  cases iterator with
  | none => rfl
  | some node =>
      obtain ⟨x, rest, hahead, -, rfl⟩ := ahead_eq_cons hplace
      rw [hahead]
      rfl

theorem Valid.cons {o : Obs H C} (hvalid : Valid entries log c p) (hstart : o ≠ .started c) :
    Valid entries (o :: log) c p where
  place := hvalid.place
  owes l hl := (hvalid.owes l hl).cons hstart fun _ hx => .inr (.inr hx)

theorem Valid.append (hvalid : Valid entries log c p) (new : List (Entry H)) :
    Valid (entries ++ new) log c p := by
  obtain ⟨hplace, howes⟩ := hvalid
  have hsub : ∀ x ∈ entries, x ∈ entries ++ new := fun x hx => List.mem_append_left new hx
  cases p with
  | handle event | handling event =>
      refine ⟨trivial, ?_⟩
      rintro l ⟨⟩
      exact (howes _ rfl).mono hsub
  | iterating event iterator =>
      cases iterator with
      | none => exact ⟨trivial, howes⟩
      | some node =>
          refine ⟨hplace.imp fun x hx => ⟨hsub x hx.1, hx.2⟩, ?_⟩
          rintro l ⟨⟩
          refine (howes _ rfl).mono fun x hx => ?_
          rw [ahead_append hplace]
          exact List.mem_append_left new hx
  | delivering event node handler =>
      refine ⟨hsub _ hplace, ?_⟩
      rintro l ⟨⟩
      refine (howes _ rfl).mono fun x hx => ?_
      rw [ahead_append ⟨_, hplace, rfl⟩]
      exact List.mem_append_left new hx
  | running event node handler =>
      refine ⟨hsub _ hplace, ?_⟩
      rintro l ⟨⟩
      refine (howes _ rfl).mono fun x hx => ?_
      obtain ⟨y, rest, hahead, -, -⟩ := ahead_eq_cons ⟨_, hplace, rfl⟩
      rw [hahead] at hx
      rw [ahead_append ⟨_, hplace, rfl⟩, hahead]
      exact List.mem_append_left new hx
  | _ => exact ⟨trivial, nofun⟩

variable [DecidableEq H]

theorem Valid.filter {handler : H} {k : C} (hvalid : Valid entries log c p)
    (hnodup : (entries.map Entry.node).Nodup) (hoff : ¬On entries handler p) :
    Valid (entries.filter fun x => x.handler ≠ handler) (.unlinked k handler :: log) c p := by
  obtain ⟨hplace, howes⟩ := hvalid
  have others : ∀ {node : ℕ} {handler' : H}, ⟨node, handler'⟩ ∈ entries → handler' ≠ handler →
      ∀ x ∈ entries, x.node = node → x.handler ≠ handler := by
    intro node handler' hmem hne x hx hnode heq
    obtain rfl := List.inj_on_of_nodup_map hnodup hx hmem hnode
    exact hne heq
  -- an entry that is left is taken out by this step or is still there
  have hcons : ∀ l, Owes log c l → Owes (.unlinked k handler :: log) c
      (l.filter fun x => x.handler ≠ handler) := by
    intro l hl
    refine hl.cons (by simp) fun x hx => ?_
    by_cases hx' : x.handler = handler
    · exact .inr (.inl ⟨k, by rw [hx']⟩)
    · exact .inr (.inr (List.mem_filter.mpr ⟨hx, by simpa using hx'⟩))
  cases p with
  | handle event | handling event =>
      refine ⟨trivial, ?_⟩
      rintro l ⟨⟩
      exact hcons _ (howes _ rfl)
  | iterating event iterator =>
      cases iterator with
      | none =>
          refine ⟨trivial, ?_⟩
          rintro l ⟨⟩
          exact hcons _ (howes _ rfl)
      | some node =>
          have hother : ∀ x ∈ entries, x.node = node → x.handler ≠ handler :=
            fun x hx hnode heq => hoff ⟨x, hx, hnode, heq⟩
          refine ⟨?_, ?_⟩
          · obtain ⟨x, hx, hnode⟩ := hplace
            exact ⟨x, List.mem_filter.mpr ⟨hx, by simpa using hother x hx hnode⟩, hnode⟩
          · rintro l ⟨⟩
            rw [ahead_filter hother]
            exact hcons _ (howes _ rfl)
  | delivering event node handler' =>
      have hother := others hplace hoff
      refine ⟨List.mem_filter.mpr ⟨hplace, by simpa using hother _ hplace rfl⟩, ?_⟩
      rintro l ⟨⟩
      rw [ahead_filter hother]
      exact hcons _ (howes _ rfl)
  | running event node handler' =>
      have hother := others hplace hoff
      refine ⟨List.mem_filter.mpr ⟨hplace, by simpa using hother _ hplace rfl⟩, ?_⟩
      rintro l ⟨⟩
      obtain ⟨x, rest, hahead, hx, hnode⟩ := ahead_eq_cons ⟨_, hplace, rfl⟩
      have howes := howes _ rfl
      rw [hahead] at howes
      rw [ahead_filter hother, hahead, List.filter_cons_of_pos (by simpa using hother x hx hnode)]
      exact hcons _ howes
  | _ => exact ⟨trivial, nofun⟩

end

end Rsb.EventProcessing.HandlerRemoval
