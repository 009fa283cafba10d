import Rsb.Informer
import Rsb.Library.Locks
import Rsb.Patterns.RemoteServer

/-!
Calls and replies under any schedule (`RemoteMethod::call`, `RemoteMethod::handle`).

Threads call methods of `M` and handle events for them. Publishing a request and
recording it are two steps, both under the mutex of the method; a reply is looked
up under the same mutex and set on the future afterwards. Futures are numbered in
the order of the calls.

A request is an object that `publish` hands on. The id under which it is recorded is read
from the object afterwards, whatever others have done to it.

The argument follows the futures: each one is in at most one place, with a
thread, among the calls in progress, or completed, and a step moves at most one
of them.
-/

namespace Rsb.Patterns.Calls

open Library Library.Program

variable {M T δ : Type}

inductive Point (M δ : Type)
  | idle
  /-- `call` before the mutex, before `publish`, and before `insert`. -/
  | call (m : M) (future : ℕ) (request : Event δ)
  | publishing (m : M) (future : ℕ) (request : Event δ)
  | recording (m : M) (future : ℕ) (request : Event δ)
  /-- `handle` before the mutex, before `find`, and with the future it took. -/
  | lookup (m : M) (event : Event δ) (requestId : EventId)
  | looking (m : M) (event : Event δ) (requestId : EventId)
  | completing (event : Event δ) (future : ℕ)

inductive Action (M δ : Type)
  | call (m : M) (request : Event δ)
  | handle (m : M) (event : Option (Event δ))
  | go
  /-- The configurator throws while it publishes. -/
  | throws
  /-- Somebody whom `publish` has handed the request changes it. -/
  | change (event : Event δ)

structure Completion (δ : Type) where
  future : ℕ
  event : Event δ
  outcome : Outcome δ

/-- `requests` remembers what was published by the call that made a future. -/
structure Data (M δ : Type) where
  informer : M → Informer
  inprogress : M → SortedMap EventId ℕ
  futures : ℕ
  requests : ℕ → Option (M × EventId)
  completions : List (Completion δ)

/-- `std::map::insert`, which keeps an entry that is there. -/
def insertNew (inprogress : SortedMap EventId ℕ) (id : EventId) (future : ℕ) :
    SortedMap EventId ℕ :=
  match inprogress.find? id with
  | some _ => inprogress
  | none => inprogress.insert id future

section

variable [DecidableEq M] (print : Printer δ) (asString : δ → Bytes)

/-- `getInformer()->publish(request)` in `call`. -/
def publish (d : Data M δ) (m : M) (request : Event δ) : Except Fault (Informer × Event δ) :=
  (d.informer m).checkedPublish print
    ((request.setScope (d.informer m).scope).setMethod (bytes "REQUEST"))

def next (d : Data M δ) : Point M δ → Action M δ → Option (Point M δ × Data M δ)
  | .idle, .call m request =>
      some (.call m d.futures request, { d with futures := d.futures + 1 })
  | .call m future request, .go => some (.publishing m future request, d)
  | .publishing m future request, .go =>
      match publish print d m request with
      -- the exception leaves `call`, and nobody gets the future
      | .error _ => some (.idle, d)
      | .ok (informer, request) => some (.recording m future request, { d with
          informer := Function.update d.informer m informer
          requests := Function.update d.requests future (request.id.map fun id => (m, id)) })
  | .publishing m _ request, .throws =>
      match publish print d m request with
      | .error _ => none
      | .ok (informer, _) => some (.idle, { d with
          informer := Function.update d.informer m informer })
  | .recording m future _, .change event => some (.recording m future event, d)
  | .recording m future request, .go =>
      match request.getId with
      | .error _ => some (.idle, d)
      | .ok id => some (.idle, { d with
          inprogress := Function.update d.inprogress m (insertNew (d.inprogress m) id future) })
  | .idle, .handle m event =>
      match event, RemoteMethod.requestId event with
      | some event, some requestId => some (.lookup m event requestId, d)
      | _, _ => some (.idle, d)
  | .lookup m event requestId, .go => some (.looking m event requestId, d)
  | .looking m event requestId, .go =>
      match RemoteMethod.take (d.inprogress m) requestId with
      | (_, none) => some (.idle, d)
      | (inprogress, some future) => some (.completing event future, { d with
          inprogress := Function.update d.inprogress m inprogress })
  | .completing event future, .go =>
      match RemoteMethod.outcome asString event with
      -- a failed assertion ends the process
      | .error _ => none
      | .ok outcome => some (.idle, { d with
          completions := d.completions ++ [⟨future, event, outcome⟩] })
  | _, _ => none

end

def holds : Point M δ → List M
  | .publishing m _ _ | .recording m _ _ | .looking m _ _ => [m]
  | .idle | .call _ _ _ | .lookup _ _ _ | .completing _ _ => []

def wants : Point M δ → Option M
  | .call m _ _ | .lookup m _ _ => some m
  | _ => none

/-- The threads of the processes that call the methods. -/
def client [DecidableEq M] (print : Printer δ) (asString : δ → Bytes) :
    Program (Point M δ) (Data M δ) (Action M δ) M :=
  ⟨next print asString, holds, wants⟩

abbrev State (M T δ : Type) := Program.State (Point M δ) (Data M δ) M T

/-- Before the first call. -/
def init (informer : M → Informer) : State M T δ :=
  ⟨fun _ => .idle, ⟨informer, fun _ => .empty, 0, fun _ => none, []⟩, fun _ => none⟩

/-! ### Where a future is -/

/-- The future a thread has in hand. -/
def carries : Point M δ → Option ℕ
  | .call _ future _ | .publishing _ future _ | .recording _ future _ | .completing _ future =>
      some future
  | .idle | .lookup _ _ _ | .looking _ _ _ => none

inductive Place (M T : Type)
  | thread (t : T)
  | inprogress (m : M) (id : EventId)
  | completed (index : ℕ)

def At (s : State M T δ) (future : ℕ) : Place M T → Prop
  | .thread t => carries (s.pc t) = some future
  | .inprogress m id => (s.data.inprogress m).find? id = some future
  | .completed index => (s.data.completions[index]?).map (·.future) = some future

/-- The future has been taken for completion. -/
def Taken (s : State M T δ) (future : ℕ) : Prop :=
  (∃ t event, s.pc t = .completing event future) ∨ ∃ c ∈ s.data.completions, c.future = future

/-- The future moves from one place to another; `none` is no place at all. -/
def Moved (s s' : State M T δ) (future : ℕ) (a b : Option (Place M T)) : Prop :=
  ∀ k p, At s' k p ↔ At s k p ∧ a ≠ some p ∨ k = future ∧ b = some p

/-- No future is in two places. -/
def Single (s : State M T δ) : Prop := ∀ k p p', At s k p → At s k p' → p = p'

theorem Single.moved {s s' : State M T δ} {future : ℕ} {a b : Option (Place M T)}
    (h : Single s) (hmoved : Moved s s' future a b)
    (hfrom : ∀ p, At s future p → a = some p) : Single s' := by
  have hto : ∀ p, At s' future p → b = some p := by
    intro p hp
    rcases (hmoved future p).mp hp with ⟨hold, hne⟩ | ⟨-, hb⟩
    · exact absurd (hfrom p hold) hne
    · exact hb
  intro k p p' hp hp'
  by_cases hk : k = future
  · subst hk
    exact Option.some.inj ((hto p hp).symm.trans (hto p' hp'))
  · have hold : ∀ p, At s' k p → At s k p := fun p hp =>
      (((hmoved k p).mp hp).resolve_right fun h => hk h.1).1
    exact h k p p' (hold p hp) (hold p' hp')

/-! ### What a step can do -/

/-- What a thread knows of the future in its hand. -/
def Fits (d : Data M δ) : Point M δ → Prop
  | .call _ future _ | .publishing _ future _ => d.requests future = none
  | .recording m future request =>
      ∃ id, request.id = some id ∧ d.requests future = some (m, id)
  | .lookup _ event requestId | .looking _ event requestId => requestId ∈ event.causes
  | .completing event future =>
      ∃ m id, d.requests future = some (m, id) ∧ id ∈ event.causes
  | .idle => True

variable [DecidableEq M]

/-- The steps of a thread, by what they do to its future. -/
inductive Move (d : Data M δ) (a : Action M δ) : Point M δ → Point M δ → Data M δ → Prop
  | stay {p p' : Point M δ} (hcarries : carries p' = carries p) (hfits : Fits d p')
      (hleft : ∀ event future, p ≠ .completing event future)
      (hentered : ∀ event future, p' ≠ .completing event future) : Move d a p p' d
  | create (m : M) (request : Event δ) :
      Move d a .idle (.call m d.futures request) { d with futures := d.futures + 1 }
  | publish {m : M} {future : ℕ} {request published : Event δ} {informer : Informer} {id : EventId}
      (hgo : a = .go) (hid : published.id = some id)
      (hnext : id = ⟨(d.informer m).id, (d.informer m).currentSequenceNumber⟩) :
      Move d a (.publishing m future request) (.recording m future published) { d with
        informer := Function.update d.informer m informer
        requests := Function.update d.requests future (some (m, id)) }
  | change {m : M} {future : ℕ} {request event : Event δ} (ha : a = .change event) :
      Move d a (.recording m future request) (.recording m future event) d
  | drop {m : M} {future : ℕ} {request : Event δ} (informer : M → Informer) :
      Move d a (.publishing m future request) .idle { d with informer := informer }
  | record {m : M} {future : ℕ} {request : Event δ} {id : EventId}
      (hid : d.requests future = some (m, id)) :
      Move d a (.recording m future request) .idle { d with
        inprogress := Function.update d.inprogress m (insertNew (d.inprogress m) id future) }
  | take {m : M} {event : Event δ} {requestId : EventId} {future : ℕ}
      (hfind : (d.inprogress m).find? requestId = some future)
      (hcause : requestId ∈ event.causes) :
      Move d a (.looking m event requestId) (.completing event future) { d with
        inprogress := Function.update d.inprogress m ((d.inprogress m).erase requestId) }
  | complete {event : Event δ} {future : ℕ} (outcome : Outcome δ) :
      Move d a (.completing event future) .idle { d with
        completions := d.completions ++ [⟨future, event, outcome⟩] }

omit [DecidableEq M] in
theorem publish_eq_ok {print : Printer δ} {d : Data M δ} {m : M} {request published : Event δ}
    {informer : Informer} (h : publish print d m request = .ok (informer, published)) :
    published.id = some ⟨(d.informer m).id, (d.informer m).currentSequenceNumber⟩ := by
  simp only [publish, Informer.checkedPublish] at h
  split_ifs at h
  obtain ⟨-, rfl⟩ := Prod.mk.inj (Except.ok.inj h)
  rfl

theorem next_move {print : Printer δ} {asString : δ → Bytes} {d d' : Data M δ} {p p' : Point M δ}
    {a : Action M δ} (hfits : Fits d p) (h : next print asString d p a = some (p', d')) :
    Move d a p p' d' := by
  cases p with
  | idle =>
      cases a with
      | call m request =>
          cases h
          exact .create m request
      | handle m event =>
          simp only [next] at h
          split at h
          · next event requestId hrequest =>
              cases h
              have hcause : requestId ∈ event.causes :=
                (SortedSet.first?_eq_some_iff.mp hrequest).1
              exact .stay rfl hcause (by simp) (by simp)
          · cases h
            exact .stay rfl trivial (by simp) (by simp)
      | go | throws | change _ => simp [next] at h
  | call m future request =>
      cases a <;> simp only [next, reduceCtorEq, Option.some.injEq, Prod.mk.injEq] at h
      obtain ⟨rfl, rfl⟩ := h
      exact .stay rfl hfits (by simp) (by simp)
  | publishing m future request =>
      cases a with
      | go =>
          simp only [next] at h
          split at h
          · cases h
            exact .drop d.informer
          · next informer published hpublish =>
              cases h
              have hid := publish_eq_ok hpublish
              rw [hid, Option.map_some]
              exact .publish rfl hid rfl
      | throws =>
          simp only [next] at h
          split at h
          · cases h
          · cases h
            exact .drop _
      | call _ _ | handle _ _ | change _ => simp [next] at h
  | recording m future request =>
      obtain ⟨id, hid, hrequest⟩ := hfits
      cases a with
      | go =>
          simp only [next, Event.getId, hid, Option.some.injEq, Prod.mk.injEq] at h
          obtain ⟨rfl, rfl⟩ := h
          exact .record hrequest
      | change event =>
          cases h
          exact .change rfl
      | call _ _ | handle _ _ | throws => simp [next] at h
  | lookup m event requestId =>
      cases a <;> simp only [next, reduceCtorEq, Option.some.injEq, Prod.mk.injEq] at h
      obtain ⟨rfl, rfl⟩ := h
      exact .stay rfl hfits (by simp) (by simp)
  | looking m event requestId =>
      cases a <;> simp only [next, RemoteMethod.take, reduceCtorEq] at h
      cases hfind : (d.inprogress m).find? requestId with
      | none =>
          simp only [hfind, Option.some.injEq, Prod.mk.injEq] at h
          obtain ⟨rfl, rfl⟩ := h
          exact .stay rfl trivial (by simp) (by simp)
      | some future =>
          simp only [hfind, Option.some.injEq, Prod.mk.injEq] at h
          obtain ⟨rfl, rfl⟩ := h
          exact .take hfind hfits
  | completing event future =>
      cases a <;> simp only [next, reduceCtorEq] at h
      split at h
      · cases h
      · next outcome houtcome =>
          cases h
          exact .complete outcome

/-! ### The invariant -/

structure Consistent (s : State M T δ) : Prop where
  single : Single s
  created : ∀ k p, At s k p → k < s.data.futures
  requested : ∀ k, s.data.requests k ≠ none → k < s.data.futures
  /-- A request is not forgotten before its future is completed. -/
  present : ∀ k, s.data.requests k ≠ none → ∃ p, At s k p
  injective : ∀ k k' m m' id,
    s.data.requests k = some (m, id) → s.data.requests k' = some (m', id) → k = k'
  fits : ∀ t, Fits s.data (s.pc t)
  recorded : ∀ m id k, (s.data.inprogress m).find? id = some k → s.data.requests k = some (m, id)
  completed : ∀ c ∈ s.data.completions,
    ∃ m id, s.data.requests c.future = some (m, id) ∧ id ∈ c.event.causes

omit [DecidableEq M] in
theorem at_unique {s : State M T δ} {k k' : ℕ} {p : Place M T} (h : At s k p) (h' : At s k' p) :
    k = k' := by
  cases p with
  | thread t => exact Option.some.inj (h.symm.trans h')
  | inprogress m id => exact Option.some.inj (h.symm.trans h')
  | completed index => exact Option.some.inj (h.symm.trans h')

omit [DecidableEq M] in
/-- What a thread knows depends on the request of its own future only. -/
theorem Fits.congr {d d' : Data M δ} {p : Point M δ} (h : Fits d p)
    (hrequests : ∀ k, carries p = some k → d'.requests k = d.requests k) : Fits d' p := by
  cases p <;> simp_all [Fits, carries]

omit [DecidableEq M] in
theorem consistent_init (informer : M → Informer) : Consistent (init informer : State M T δ) := by
  have hnone : ∀ k p, ¬ At (init informer : State M T δ) k p := by
    intro k p
    cases p <;> simp [At, init, carries]
  exact ⟨fun k p _ h => absurd h (hnone k p), fun k p h => absurd h (hnone k p),
    by simp [init], by simp [init], by simp [init], fun _ => trivial, by simp [init],
    by simp [init]⟩

variable [DecidableEq T]

section

variable {s : State M T δ} {t : T} {p' : Point M δ} {d' : Data M δ} {owner : M → Option T}
  {k : ℕ} {a b : Option (Place M T)}

omit [DecidableEq M] in
/-- A step of `t` moves a future if its hand, the calls in progress and the
completed ones change accordingly. -/
theorem moved_of (ha : ∀ t', a = some (.thread t') → t' = t)
    (hb : ∀ t', b = some (.thread t') → t' = t)
    (hthread : ∀ k', carries p' = some k' ↔
      carries (s.pc t) = some k' ∧ a ≠ some (.thread t) ∨ k' = k ∧ b = some (.thread t))
    (hinprogress : ∀ m id k', (d'.inprogress m).find? id = some k' ↔
      (s.data.inprogress m).find? id = some k' ∧ a ≠ some (.inprogress m id) ∨
        k' = k ∧ b = some (.inprogress m id))
    (hcompletions : ∀ i k', (d'.completions[i]?).map (·.future) = some k' ↔
      (s.data.completions[i]?).map (·.future) = some k' ∧ a ≠ some (.completed i) ∨
        k' = k ∧ b = some (.completed i)) :
    Moved s ⟨Function.update s.pc t p', d', owner⟩ k a b := by
  intro k' p
  cases p with
  | thread t' =>
      by_cases ht : t' = t
      · subst ht
        simpa [At] using hthread k'
      · have ha' : a ≠ some (.thread t') := fun h => ht (ha t' h)
        have hb' : b ≠ some (.thread t') := fun h => ht (hb t' h)
        simp [At, Function.update_of_ne ht, ha', hb']
  | inprogress m id => exact hinprogress m id k'
  | completed i => exact hcompletions i k'

omit [DecidableEq M] in
/-- The invariant after a step of `t` that moves the future `k`. -/
theorem Consistent.of_moved (h : Consistent s)
    (hmoved : Moved s ⟨Function.update s.pc t p', d', owner⟩ k a b)
    (hfrom : ∀ p, At s k p ↔ a = some p) (ha : ∀ t', a = some (.thread t') → t' = t)
    (hfutures : s.data.futures ≤ d'.futures) (hk : b ≠ none → k < d'.futures)
    (hrequests : ∀ k', k' ≠ k → d'.requests k' = s.data.requests k')
    (hrequest : d'.requests k = s.data.requests k ∨
      ∃ m id, d'.requests k = some (m, id) ∧ ∀ k' m', s.data.requests k' ≠ some (m', id))
    (hpresent : d'.requests k ≠ none → b ≠ none) (hfits : Fits d' p')
    (hrecorded : ∀ m id k, (d'.inprogress m).find? id = some k → d'.requests k = some (m, id))
    (hcompleted : ∀ c ∈ d'.completions,
      ∃ m id, d'.requests c.future = some (m, id) ∧ id ∈ c.event.causes) :
    Consistent (⟨Function.update s.pc t p', d', owner⟩ : State M T δ) where
  single := h.single.moved hmoved fun p => (hfrom p).mp
  created k' p hp := by
    rcases (hmoved k' p).mp hp with ⟨hold, -⟩ | ⟨rfl, hb⟩
    · exact (h.created k' p hold).trans_le hfutures
    · exact hk (by simp [hb])
  requested k' hk' := by
    by_cases heq : k' = k
    · subst heq
      exact hk (hpresent hk')
    · exact (h.requested k' (hrequests k' heq ▸ hk')).trans_le hfutures
  present k' hk' := by
    by_cases heq : k' = k
    · subst heq
      obtain ⟨p, hp⟩ := Option.ne_none_iff_exists'.mp (hpresent hk')
      exact ⟨p, (hmoved k' p).mpr (.inr ⟨rfl, hp⟩)⟩
    · obtain ⟨p, hp⟩ := h.present k' (hrequests k' heq ▸ hk')
      have hne : a ≠ some p := fun hap => heq (at_unique hp ((hfrom p).mpr hap))
      exact ⟨p, (hmoved k' p).mpr (.inl ⟨hp, hne⟩)⟩
  injective := by
    have hnew : ∀ k' m m' id, k' ≠ k → d'.requests k = some (m, id) →
        d'.requests k' ≠ some (m', id) := by
      intro k' m m' id hne hreq hreq'
      rw [hrequests k' hne] at hreq'
      rcases hrequest with hold | ⟨m'', id'', hreq'', hfresh⟩
      · exact hne (h.injective k' k m' m id hreq' (hold ▸ hreq))
      · obtain ⟨rfl, rfl⟩ := Prod.mk.inj (Option.some.inj (hreq''.symm.trans hreq))
        exact hfresh k' m' hreq'
    intro k₁ k₂ m m' id h₁ h₂
    by_contra hne
    by_cases heq₁ : k₁ = k
    · subst heq₁
      exact hnew k₂ m m' id (Ne.symm hne) h₁ h₂
    · by_cases heq₂ : k₂ = k
      · subst heq₂
        exact hnew k₁ m' m id hne h₂ h₁
      · rw [hrequests k₁ heq₁] at h₁
        rw [hrequests k₂ heq₂] at h₂
        exact hne (h.injective k₁ k₂ m m' id h₁ h₂)
  fits t' := by
    by_cases ht : t' = t
    · subst ht
      simpa using hfits
    · simp only [Function.update_of_ne ht]
      refine (h.fits t').congr fun k' hk' => hrequests k' ?_
      rintro rfl
      exact ht (ha t' ((hfrom _).mp hk'))
  recorded := hrecorded
  completed := hcompleted

end

/-- The id that a request is about to get is not that of an earlier one, and it stays the id of
the request until that is recorded. -/
def Fresh (s : State M T δ) : T × Action M δ → Prop
  | (t, .go) =>
      match s.pc t with
      | .publishing m _ _ => ∀ k m', s.data.requests k ≠
          some (m', ⟨(s.data.informer m).id, (s.data.informer m).currentSequenceNumber⟩)
      | _ => True
  | (t, .change event) =>
      match s.pc t with
      | .recording _ _ request => event.id = request.id
      | _ => True
  | _ => True

/-- Recording a request adds one entry. -/
theorem find?_record {inprogress : M → SortedMap EventId ℕ} {m : M} {id : EventId}
    (hnew : (inprogress m).find? id = none) (future : ℕ) (m' : M) (id' : EventId) (k : ℕ) :
    ((Function.update inprogress m (insertNew (inprogress m) id future)) m').find? id' = some k ↔
      (inprogress m').find? id' = some k ∨ k = future ∧ m = m' ∧ id = id' := by
  by_cases hm : m' = m
  · subst hm
    by_cases hid' : id' = id
    · simp [insertNew, hnew, hid', eq_comm]
    · simp [insertNew, hnew, SortedMap.find?_insert, hid', Ne.symm hid']
  · simp [Function.update_of_ne hm, Ne.symm hm]

/-- Taking a request out removes one entry. -/
theorem find?_take (inprogress : M → SortedMap EventId ℕ) (m : M) (id : EventId) (m' : M)
    (id' : EventId) (k : ℕ) :
    ((Function.update inprogress m ((inprogress m).erase id)) m').find? id' = some k ↔
      (inprogress m').find? id' = some k ∧ (m = m' → id ≠ id') := by
  by_cases hm : m' = m
  · subst hm
    by_cases hid' : id' = id
    · simp [SortedMap.find?_erase, hid']
    · simp [SortedMap.find?_erase, hid', Ne.symm hid']
  · simp [Function.update_of_ne hm, Ne.symm hm]

/-- The last completion is that of its own future. -/
theorem future_append_singleton (completions : List (Completion δ)) (c : Completion δ) (i k : ℕ) :
    ((completions ++ [c])[i]?).map (·.future) = some k ↔
      (completions[i]?).map (·.future) = some k ∨ k = c.future ∧ completions.length = i := by
  rcases lt_trichotomy i completions.length with hi | rfl | hi
  · simp [List.getElem?_append_left hi, hi.ne']
  · simp [eq_comm]
  · have hnone : completions[i]? = none := List.getElem?_eq_none hi.le
    simp [List.getElem?_append_right hi.le, hnone, hi.ne, Nat.sub_ne_zero_of_lt hi]

omit [DecidableEq M] in
/-- The invariant after a step of `t` that moves no future. -/
theorem Consistent.of_still {s : State M T δ} (h : Consistent s) {t : T} {p' : Point M δ}
    {owner : M → Option T} (hcarries : carries p' = carries (s.pc t)) (hfits : Fits s.data p') :
    Consistent (⟨Function.update s.pc t p', s.data, owner⟩ : State M T δ) := by
  have hcreated : ∀ p, ¬At s s.data.futures p := fun p hp =>
    absurd (h.created _ p hp) (lt_irrefl _)
  refine h.of_moved (k := s.data.futures) (a := none) (b := none) ?_ ?_ ?_ le_rfl ?_
    (fun _ _ => rfl) (.inl rfl) ?_ hfits h.recorded h.completed
  · refine moved_of ?_ ?_ ?_ ?_ ?_ <;> simp [hcarries]
  · simpa using hcreated
  · simp
  · simp
  · exact fun hk => absurd (h.requested _ hk) (lt_irrefl _)

theorem Consistent.step {print : Printer δ} {asString : δ → Bytes} {s s' : State M T δ}
    {label : T × Action M δ} (h : Consistent s) (hfresh : Fresh s label)
    (hstep : (client print asString).step s label = some s') : Consistent s' := by
  obtain ⟨t, a⟩ := label
  obtain ⟨p', d', hnext, -, rfl⟩ := step_eq_some hstep
  have hmove := next_move (h.fits t) hnext
  have hcreated : ∀ p, ¬ At s s.data.futures p := fun p hp =>
    absurd (h.created _ p hp) (lt_irrefl _)
  generalize hpc : s.pc t = p at hmove
  have hplace : ∀ k, carries p = some k → ∀ p', At s k p' ↔ some (Place.thread t) = some p' := by
    intro k hk p'
    have hat : At s k (.thread t) := by rw [At, hpc, hk]
    exact ⟨fun hp => congrArg some (h.single k _ _ hat hp), fun hp => Option.some.inj hp ▸ hat⟩
  cases hmove with
  | stay hcarries hfits _ _ => exact h.of_still (hpc ▸ hcarries) hfits
  | create m request =>
      refine h.of_moved (k := s.data.futures) (a := none) (b := some (.thread t)) ?_ ?_ ?_ ?_ ?_
        (fun _ _ => rfl) (.inl rfl) ?_ ?_ h.recorded h.completed
      · refine moved_of ?_ ?_ ?_ ?_ ?_ <;> simp [carries, hpc, eq_comm]
      · simpa using hcreated
      · simp
      · simp
      · simp
      · simp
      · by_contra hk
        exact absurd (h.requested _ hk) (lt_irrefl _)
  | @publish m future request published informer id hgo hid hnew =>
      have hnone : s.data.requests future = none := by simpa [hpc, Fits] using h.fits t
      have hkept : ∀ k r, s.data.requests k = some r →
          Function.update s.data.requests future (some (m, id)) k = some r := by
        intro k r hk
        rwa [Function.update_of_ne fun heq => by simp [heq, hnone] at hk]
      have hat : At s future (.thread t) := by rw [At, hpc, carries]
      refine h.of_moved (k := future) (a := some (.thread t)) (b := some (.thread t)) ?_
        (hplace future rfl) ?_ le_rfl ?_ ?_ ?_ ?_ ?_ ?_ ?_
      · refine moved_of ?_ ?_ ?_ ?_ ?_ <;> simp [carries, eq_comm]
      · simp [eq_comm]
      · exact fun _ => h.created _ _ hat
      · exact fun k' hk' => Function.update_of_ne hk' _ _
      · subst hgo hnew
        simp only [Fresh, hpc] at hfresh
        exact .inr ⟨m, _, by simp, hfresh⟩
      · simp
      · exact ⟨id, hid, by simp⟩
      · exact fun m' id' k hk => hkept k _ (h.recorded m' id' k hk)
      · intro c hc
        obtain ⟨m', id', hrequest, hcause⟩ := h.completed c hc
        exact ⟨m', id', hkept _ _ hrequest, hcause⟩
  | @change m future request event ha =>
      have hfits : Fits s.data (.recording m future event) := by
        obtain ⟨id, hid, hrequest⟩ : ∃ id, request.id = some id ∧
            s.data.requests future = some (m, id) := by simpa [hpc, Fits] using h.fits t
        subst ha
        simp only [Fresh, hpc] at hfresh
        exact ⟨id, hfresh.trans hid, hrequest⟩
      exact h.of_still (by rw [hpc]; rfl) hfits
  | @drop m future request informer =>
      have hnone : s.data.requests future = none := by simpa [hpc, Fits] using h.fits t
      refine h.of_moved (k := future) (a := some (.thread t)) (b := none) ?_
        (hplace future rfl) ?_ le_rfl ?_ (fun _ _ => rfl) (.inl rfl) ?_ trivial h.recorded
        h.completed
      · refine moved_of ?_ ?_ ?_ ?_ ?_ <;> simp [carries, eq_comm]
      · simp [eq_comm]
      · simp
      · simp [hnone]
  | @record m future request id hid =>
      have hat : At s future (.thread t) := by rw [At, hpc, carries]
      -- an entry for the id would hold the future that the thread has in hand
      have hnew : (s.data.inprogress m).find? id = none := by
        apply Option.eq_none_iff_forall_ne_some.mpr
        intro k hk
        obtain rfl := h.injective k future m m id (h.recorded m id k hk) hid
        exact absurd ((hplace k rfl (.inprogress m id)).mp hk) (by simp)
      have hfind := find?_record hnew future
      refine h.of_moved (k := future) (a := some (.thread t)) (b := some (.inprogress m id)) ?_
        (hplace future rfl) ?_ le_rfl ?_ (fun _ _ => rfl) (.inl rfl) ?_ trivial ?_ h.completed
      · refine moved_of ?_ ?_ ?_ ?_ ?_ <;> simp [carries, hpc, hfind]
      · simp [eq_comm]
      · exact fun _ => h.created _ _ hat
      · simp
      · intro m' id' k hk
        rcases (hfind m' id' k).mp hk with hold | ⟨rfl, rfl, rfl⟩
        · exact h.recorded m' id' k hold
        · exact hid
  | @take m event requestId future hfind hcause =>
      have hat : At s future (.inprogress m requestId) := hfind
      have hrequest := h.recorded m requestId future hfind
      have herase := find?_take s.data.inprogress m requestId
      refine h.of_moved (k := future) (a := some (.inprogress m requestId))
        (b := some (.thread t)) ?_ (fun p => ?_) ?_ le_rfl ?_ (fun _ _ => rfl) (.inl rfl) ?_ ?_ ?_
        h.completed
      · refine moved_of ?_ ?_ ?_ ?_ ?_ <;> simp [carries, hpc, herase, eq_comm]
      · exact ⟨fun hp => congrArg some (h.single _ _ _ hat hp), fun hp => Option.some.inj hp ▸ hat⟩
      · simp
      · exact fun _ => h.created _ _ hat
      · simp
      · exact ⟨m, requestId, hrequest, hcause⟩
      · exact fun m' id' k hk => h.recorded m' id' k ((herase m' id' k).mp hk).1
  | @complete event future outcome =>
      have hat : At s future (.thread t) := by rw [At, hpc, carries]
      obtain ⟨m, id, hrequest, hcause⟩ : ∃ m id, s.data.requests future = some (m, id) ∧
          id ∈ event.causes := by simpa [hpc, Fits] using h.fits t
      have hlast := future_append_singleton s.data.completions ⟨future, event, outcome⟩
      refine h.of_moved (k := future) (a := some (.thread t))
        (b := some (.completed s.data.completions.length)) ?_ (hplace future rfl) ?_ le_rfl ?_
        (fun _ _ => rfl) (.inl rfl) ?_ trivial h.recorded ?_
      · refine moved_of ?_ ?_ ?_ ?_ fun i k => (hlast i k).trans ?_ <;> simp [carries, hpc]
      · simp [eq_comm]
      · exact fun _ => h.created _ _ hat
      · simp
      · intro c hc
        rcases List.mem_append.mp hc with hold | hlast
        · exact h.completed c hold
        · obtain rfl := List.mem_singleton.mp hlast
          exact ⟨m, id, hrequest, hcause⟩

end Rsb.Patterns.Calls
