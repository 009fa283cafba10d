import Rsb.Patterns.Calls
import Mathlib.Data.List.Nodup

/-!
What callers can rely on.

In every run a future is completed at most once, by an event that names its
request as a cause, and the calls in progress are those whose future has not
been taken. That no reply is lost holds as long as the request in progress among
the causes of a reply is the first cause, which is the one `handle` looks up.
-/

namespace Rsb.Patterns.Calls

open Library Library.Program

variable {M T δ : Type}

theorem holds_eq_or_wants [DecidableEq M] {print : Printer δ} {asString : δ → Bytes} :
    (client print asString : Program (Point M δ) _ _ _).WellLocked := by
  intro d p a p' d' h l hl
  simp only [client] at h hl ⊢
  unfold next at h
  split at h <;> (try split at h) <;> cases h <;> simp_all [holds, wants]

/-! ### Safety -/

theorem Consistent.completions_nodup {s : State M T δ} (h : Consistent s) :
    (s.data.completions.map (·.future)).Nodup := by
  rw [List.nodup_iff_getElem?_ne_getElem?]
  intro i j hij hj heq
  rw [List.length_map] at hj
  have hcompleted : At s (s.data.completions[j]).future (.completed j) := by
    simp [At, List.getElem?_eq_getElem hj]
  have hcompleted' : At s (s.data.completions[j]).future (.completed i) := by
    rw [List.getElem?_map, List.getElem?_map, List.getElem?_eq_getElem hj] at heq
    exact heq
  have hplace := h.single _ _ _ hcompleted' hcompleted
  injection hplace with hindex
  omega

theorem Consistent.not_taken {s : State M T δ} (h : Consistent s) {m : M} {id : EventId} {k : ℕ}
    (hfind : (s.data.inprogress m).find? id = some k) : ¬ Taken s k := by
  have hat : At s k (.inprogress m id) := hfind
  rintro (⟨t, event, hpc⟩ | ⟨c, hc, rfl⟩)
  · have hthread : At s k (.thread t) := by rw [At, hpc, carries]
    cases h.single k _ _ hat hthread
  · obtain ⟨i, hi⟩ := List.mem_iff_getElem?.mp hc
    have hcompleted : At s c.future (.completed i) := by simp [At, hi]
    cases h.single _ _ _ hat hcompleted

/-- A request that is not being recorded is among the calls in progress until
its future is taken. -/
theorem Consistent.inprogress_of_not_taken {s : State M T δ} (h : Consistent s) {m : M}
    {id : EventId} {k : ℕ} (hrequest : s.data.requests k = some (m, id)) (htaken : ¬ Taken s k)
    (hrecording : ∀ t request, s.pc t ≠ .recording m k request) :
    (s.data.inprogress m).find? id = some k := by
  obtain ⟨p, hp⟩ := h.present k (by simp [hrequest])
  cases p with
  | thread t =>
      have hfits := h.fits t
      cases hpc : s.pc t with
      | call m' k' request | publishing m' k' request =>
          obtain rfl : k' = k := by simpa [At, hpc, carries] using hp
          simp [hpc, Fits, hrequest] at hfits
      | recording m' k' request =>
          obtain rfl : k' = k := by simpa [At, hpc, carries] using hp
          obtain ⟨id', -, hrequest'⟩ : ∃ id', request.id = some id' ∧
              s.data.requests k' = some (m', id') := by simpa [hpc, Fits] using hfits
          obtain ⟨rfl, -⟩ := Prod.mk.inj (Option.some.inj (hrequest.symm.trans hrequest'))
          exact absurd hpc (hrecording t request)
      | completing event k' =>
          obtain rfl : k' = k := by simpa [At, hpc, carries] using hp
          exact absurd (.inl ⟨t, event, hpc⟩) htaken
      | idle | lookup _ _ _ | looking _ _ _ => simp [At, hpc, carries] at hp
  | inprogress m' id' =>
      have hrequest' := h.recorded m' id' k hp
      obtain ⟨rfl, rfl⟩ := Prod.mk.inj (Option.some.inj (hrequest.symm.trans hrequest'))
      exact hp
  | completed i =>
      obtain ⟨c, hc, hfuture⟩ := Option.map_eq_some_iff.mp hp
      exact absurd (.inr ⟨c, List.mem_of_getElem? hc, hfuture⟩) htaken

/-- The map of a method whose mutex is free. -/
theorem Consistent.inprogress_iff [DecidableEq M] {print : Printer δ} {asString : δ → Bytes}
    {s : State M T δ} (h : Consistent s) (howned : (client print asString).Owned s) {m : M}
    (hfree : s.owner m = none) (id : EventId) (k : ℕ) :
    (s.data.inprogress m).find? id = some k ↔
      s.data.requests k = some (m, id) ∧ ¬ Taken s k := by
  constructor
  · exact fun hfind => ⟨h.recorded m id k hfind, h.not_taken hfind⟩
  · rintro ⟨hrequest, htaken⟩
    apply h.inprogress_of_not_taken hrequest htaken
    intro t request hpc
    have howner : s.owner m = some t := (howned m t).mpr (by simp [client, hpc, holds])
    simp [hfree] at howner

/-! ### No reply is lost -/

/-- The request in progress among the causes of an event is its first cause, and
an event that says that it is an error carries a string. -/
def Matched (s : State M T δ) : T × Action M δ → Prop
  | (t, _) =>
      match s.pc t with
      | .looking m event requestId =>
          (∀ id ∈ event.causes, (s.data.inprogress m).find? id ≠ none → id = requestId) ∧
            ((s.data.inprogress m).find? requestId ≠ none → RemoteMethod.Presentable event)
      | _ => True

/-- The thread handles `event` and has not looked it up. -/
def Handling (m : M) (event : Event δ) : Point M δ → Prop
  | .lookup m' event' _ | .looking m' event' _ => m' = m ∧ event' = event
  | _ => False

section

variable [DecidableEq M] [DecidableEq T] {print : Printer δ} {asString : δ → Bytes}
  {s s' : State M T δ} {label : T × Action M δ}

theorem requests_step (h : Consistent s) (hstep : (client print asString).step s label = some s')
    {k : ℕ} {r : M × EventId} (hrequest : s.data.requests k = some r) :
    s'.data.requests k = some r := by
  obtain ⟨t, a⟩ := label
  obtain ⟨p', d', hnext, -, rfl⟩ := step_eq_some hstep
  have hfits := h.fits t
  have hmove := next_move hfits hnext
  generalize s.pc t = p at hmove hfits
  cases hmove with
  | @publish m future =>
      have hnone : s.data.requests future = none := hfits
      have hne : k ≠ future := fun heq => by simp [heq, hnone] at hrequest
      simpa [Function.update_of_ne hne] using hrequest
  | stay | create | change | drop | record | take | complete => exact hrequest

theorem Taken.step (h : Consistent s) (hstep : (client print asString).step s label = some s')
    {k : ℕ} (htaken : Taken s k) : Taken s' k := by
  obtain ⟨t, a⟩ := label
  obtain ⟨p', d', hnext, -, rfl⟩ := step_eq_some hstep
  have hmove := next_move (h.fits t) hnext
  rcases htaken with ⟨t', event, hpc⟩ | ⟨c, hc, hfuture⟩
  · by_cases ht : t' = t
    · subst ht
      rw [hpc] at hmove
      cases hmove with
      | stay _ _ hleft _ => exact absurd rfl (hleft event k)
      | complete outcome => exact .inr ⟨⟨k, event, outcome⟩, by simp, rfl⟩
    · exact .inl ⟨t', event, by simpa [Function.update_of_ne ht] using hpc⟩
  · refine .inr ⟨c, ?_, hfuture⟩
    generalize s.pc t = p at hmove
    cases hmove with
    | complete => exact List.mem_append_left _ hc
    | stay | create | publish | change | drop | record | take => exact hc

/-- From the arrival of a reply on, it is being handled or the future is taken. -/
theorem handling_step (h : Consistent s) (howned : (client print asString).Owned s)
    (hmatched : Matched s label) (hstep : (client print asString).step s label = some s')
    {t : T} {m : M} {event : Event δ} {k : ℕ} {id : EventId}
    (hrequest : s.data.requests k = some (m, id)) (hcause : id ∈ event.causes)
    (hpending : Handling m event (s.pc t) ∨ Taken s k) :
    Handling m event (s'.pc t) ∨ Taken s' k := by
  by_cases htaken : Taken s k
  · exact .inr (htaken.step h hstep)
  have hhandling := hpending.resolve_right htaken
  obtain ⟨t', a⟩ := label
  obtain ⟨p', d', hnext, -, rfl⟩ := step_eq_some hstep
  by_cases ht : t = t'
  · subst ht
    simp only [client] at hnext
    simp only [Function.update_self]
    cases hpc : s.pc t with
    | lookup m' event' requestId =>
        rw [hpc] at hhandling hnext
        cases a <;> simp only [next, reduceCtorEq, Option.some.injEq, Prod.mk.injEq] at hnext
        obtain ⟨rfl, -⟩ := hnext
        exact .inl hhandling
    | looking m' event' requestId =>
        rw [hpc] at hhandling
        obtain ⟨rfl, rfl⟩ := hhandling
        have hrecording : ∀ t' request, s.pc t' ≠ .recording m' k request := by
          intro t' request hpc'
          have hsame : t = t' := howned.exclusive (l := m')
            (by simp [client, hpc, holds]) (by simp [client, hpc', holds])
          rw [← hsame, hpc] at hpc'
          cases hpc'
        have hfind := h.inprogress_of_not_taken hrequest htaken hrecording
        simp only [Matched, hpc] at hmatched
        obtain rfl := hmatched.1 id hcause (by simp [hfind])
        rw [hpc] at hnext
        cases a <;> simp only [next, RemoteMethod.take, hfind, reduceCtorEq, Option.some.injEq,
          Prod.mk.injEq] at hnext
        obtain ⟨rfl, -⟩ := hnext
        exact .inr (.inl ⟨t, event', by simp⟩)
    | idle | call _ _ _ | publishing _ _ _ | recording _ _ _ | completing _ _ =>
        simp [hpc, Handling] at hhandling
  · exact .inl (by simpa [Function.update_of_ne ht] using hhandling)

/-- What a thread completes a future with can be set on it. -/
def Completable (s : State M T δ) : Prop :=
  ∀ t event future, s.pc t = .completing event future → RemoteMethod.Presentable event

theorem Completable.step (h : Completable s) (hs : Consistent s) (hmatched : Matched s label)
    (hstep : (client print asString).step s label = some s') : Completable s' := by
  obtain ⟨t, a⟩ := label
  obtain ⟨p', d', hnext, -, rfl⟩ := step_eq_some hstep
  have hmove := next_move (hs.fits t) hnext
  intro t' event future hpc'
  by_cases ht : t' = t
  · subst ht
    simp only [Function.update_self] at hpc'
    subst hpc'
    generalize hpc : s.pc t' = p at hmove
    cases hmove with
    | stay _ _ _ hentered => exact absurd rfl (hentered event future)
    | take hfind _ =>
        simp only [Matched, hpc] at hmatched
        exact hmatched.2 (by simp [hfind])
  · simp only [Function.update_of_ne ht] at hpc'
    exact h t' event future hpc'

theorem Completable.exists_step (h : Completable s) {t : T} {event : Event δ} {future : ℕ}
    (hpc : s.pc t = .completing event future) :
    ∃ s', (client print asString).step s (t, .go) = some s' := by
  obtain ⟨outcome, houtcome, -⟩ :=
    (RemoteMethod.outcome_ok_iff asString).mpr (h t event future hpc)
  simp [Program.step, client, hpc, next, houtcome, wants]

theorem handling_arrival {t : T} {m : M} {event : Event δ} {id : EventId}
    (hcause : id ∈ event.causes)
    (hstep : (client print asString).step s (t, .handle m (some event)) = some s') :
    Handling m event (s'.pc t) := by
  obtain ⟨p', d', hnext, -, rfl⟩ := step_eq_some hstep
  simp only [client] at hnext
  cases hpc : s.pc t with
  | idle =>
      rw [hpc] at hnext
      cases hfirst : event.causes.first? with
      | none => exact absurd hcause (SortedSet.first?_eq_none_iff.mp hfirst id)
      | some requestId =>
          simp only [next, RemoteMethod.requestId, hfirst, Option.some.injEq,
            Prod.mk.injEq] at hnext
          obtain ⟨rfl, -⟩ := hnext
          simp [Handling]
  | call _ _ _ | publishing _ _ _ | recording _ _ _ | lookup _ _ _ | looking _ _ _
  | completing _ _ => simp [hpc, next] at hnext

/-- What holds after every run. -/
structure Sound (print : Printer δ) (asString : δ → Bytes) (s : State M T δ) : Prop where
  owned : (client print asString).Owned s
  consistent : Consistent s

omit [DecidableEq T] in
theorem sound_init (informer : M → Informer) :
    Sound print asString (init informer : State M T δ) :=
  ⟨fun _ _ => by simp [init, client, holds], consistent_init informer⟩

theorem Sound.step (h : Sound print asString s) (hfresh : Fresh s label)
    (hstep : (client print asString).step s label = some s') : Sound print asString s' :=
  ⟨h.owned.step holds_eq_or_wants hstep, h.consistent.step hfresh hstep⟩

end

/-- Let the ids of the published requests be distinct, and let the requests keep them until they
are recorded. Then every future is completed at most once, by an event that has the id of its
request among the causes, and while the mutex of a method is free its calls in progress are the
requests whose futures have not been taken. If furthermore the request in progress among the
causes of an event that is looked up is always the first cause, and error events carry strings,
then from the arrival of a reply on, whether or not the call has recorded its request, the reply
is being handled or the future has been taken, and nothing keeps a future that has been taken
from being completed. -/
theorem calls_matched [DecidableEq M] [DecidableEq T] (print : Printer δ) (asString : δ → Bytes)
    (informer : M → Informer) :
    (∀ (s : State M T δ) (labels : List (T × Action M δ)),
      Along (client print asString).step Fresh (init informer) labels →
        exec (client print asString).step (init informer) labels = some s →
          (s.data.completions.map (·.future)).Nodup ∧
          (∀ c ∈ s.data.completions,
            ∃ m id, s.data.requests c.future = some (m, id) ∧ id ∈ c.event.causes) ∧
          ∀ m, s.owner m = none → ∀ id future, (s.data.inprogress m).find? id = some future ↔
            s.data.requests future = some (m, id) ∧ ¬ Taken s future) ∧
    ∀ (s₀ s : State M T δ) (before after : List (T × Action M δ)) (t : T) (m : M)
      (event : Event δ) (future : ℕ) (id : EventId),
      Along (client print asString).step (fun s label => Fresh s label ∧ Matched s label)
          (init informer) (before ++ (t, .handle m (some event)) :: after) →
        exec (client print asString).step (init informer) before = some s₀ →
        exec (client print asString).step s₀ ((t, .handle m (some event)) :: after) = some s →
        s₀.data.requests future = some (m, id) → id ∈ event.causes →
          (Handling m event (s.pc t) ∨ Taken s future) ∧
          ∀ t' event', s.pc t' = .completing event' future →
            ∃ s', (client print asString).step s (t', .go) = some s' := by
  constructor
  · intro s labels halong hrun
    have hs : Sound print asString s :=
      exec_invariant_along (fun _ _ _ h hfresh => h.step hfresh) (sound_init informer) halong hrun
    exact ⟨hs.consistent.completions_nodup, hs.consistent.completed,
      fun m hfree => hs.consistent.inprogress_iff hs.owned hfree⟩
  · intro s₀ s before after t m event future id halong hbefore hafter hrequest hcause
    obtain ⟨halong, hrest⟩ := along_append.mp halong
    have hstep : ∀ (s : State M T δ) label s', Sound print asString s ∧ Completable s →
        Fresh s label ∧ Matched s label → (client print asString).step s label = some s' →
          Sound print asString s' ∧ Completable s' := fun _ _ _ h hcond hstep =>
      ⟨h.1.step hcond.1 hstep, h.2.step h.1.consistent hcond.2 hstep⟩
    have hs₀ : Sound print asString s₀ ∧ Completable s₀ :=
      exec_invariant_along hstep
        ⟨sound_init informer, fun t event future h => by simp [init] at h⟩ halong hbefore
    obtain ⟨hcond, hrest⟩ := hrest s₀ hbefore
    obtain ⟨s₁, harrival, hafter⟩ := exec_cons_eq_some.mp hafter
    have hs₁ := hstep _ _ _ hs₀ hcond harrival
    have hpending : (Sound print asString s ∧ Completable s) ∧
        s.data.requests future = some (m, id) ∧
        (Handling m event (s.pc t) ∨ Taken s future) := by
      refine exec_invariant_along (I := fun s => (Sound print asString s ∧ Completable s) ∧
        s.data.requests future = some (m, id) ∧ (Handling m event (s.pc t) ∨ Taken s future))
        ?_ ⟨hs₁, requests_step hs₀.1.consistent harrival hrequest,
          .inl (handling_arrival hcause harrival)⟩ (hrest s₁ harrival) hafter
      rintro s label s' ⟨hs, hrequest, hpending⟩ hcond hlabel
      exact ⟨hstep _ _ _ hs hcond hlabel, requests_step hs.1.consistent hlabel hrequest,
        handling_step hs.1.consistent hs.1.owned hcond.2 hlabel hrequest hcause hpending⟩
    exact ⟨hpending.2.2, fun t' event' hpc => hpending.1.2.exists_step hpc⟩

/-! ### A reply that arrives before its request is recorded -/

def printer : Printer Bytes := ⟨fun _ => [], Scope.toString⟩

/-- One method, whose next request gets the id `RemoteMethod.request`. -/
def fresh : State Unit Bool Bytes := init fun _ => ⟨RemoteMethod.client, Scope.root, [], 5⟩

def stepOne : State Unit Bool Bytes → Bool × Action Unit Bytes → Option (State Unit Bool Bytes) :=
  (client printer fun s => s).step

/-- A call up to the point where its request is published. -/
def callRun : List (Bool × Action Unit Bytes) :=
  [(false, .call () ((Event.new 0).setType stringType)), (false, .go), (false, .go)]

/-- The call has published its request and waits to record it when a reply that
was also caused by an older event arrives. The reply is looked up after the
request is recorded, and nobody takes the future. -/
theorem not_taken_derivedReply :
    ∃ s₀ s : State Unit Bool Bytes, exec stepOne fresh callRun = some s₀ ∧
      s₀.data.requests 0 = some ((), RemoteMethod.request) ∧
      (∀ k, s₀.data.requests k ≠ none → k = 0) ∧
      (s₀.data.inprogress ()).find? RemoteMethod.request = none ∧
      RemoteMethod.request ∈ RemoteMethod.derivedReply.causes ∧
      exec stepOne s₀ [(true, .handle () (some RemoteMethod.derivedReply)), (false, .go),
        (true, .go), (true, .go)] = some s ∧
      (∀ t, s.pc t = .idle) ∧ ¬ Taken s 0 := by
  obtain ⟨s₀, hs₀⟩ : ∃ s₀, exec stepOne fresh callRun = some s₀ := ⟨_, rfl⟩
  obtain ⟨s, hs⟩ : ∃ s, exec stepOne s₀ [(true, .handle () (some RemoteMethod.derivedReply)),
      (false, .go), (true, .go), (true, .go)] = some s := by
    obtain rfl := Option.some.inj hs₀
    exact ⟨_, rfl⟩
  have hidle : (∀ t, s.pc t = .idle) ∧ s.data.completions = [] := by
    obtain rfl := Option.some.inj hs₀
    obtain rfl := Option.some.inj hs
    exact ⟨fun t => by cases t <;> rfl, rfl⟩
  refine ⟨s₀, s, hs₀, ?_, ?_, ?_, rfl, hs, hidle.1, ?_⟩
  · obtain rfl := Option.some.inj hs₀
    rfl
  · obtain rfl := Option.some.inj hs₀
    intro k hk
    by_contra hne
    exact hk (Function.update_of_ne hne _ _)
  · obtain rfl := Option.some.inj hs₀
    rfl
  · rintro (⟨t, event, hpc⟩ | ⟨c, hc, -⟩)
    · simp [hidle.1 t] at hpc
    · simp [hidle.2] at hc

/-- A reply whose first cause is the request, at the same moment. -/
theorem taken_forwardedReply :
    ∃ s₀ s : State Unit Bool Bytes, exec stepOne fresh callRun = some s₀ ∧
      exec stepOne s₀ [(true, .handle () (some RemoteMethod.forwardedReply)), (false, .go),
        (true, .go), (true, .go), (true, .go)] = some s ∧ Taken s 0 := by
  obtain ⟨s₀, hs₀⟩ : ∃ s₀, exec stepOne fresh callRun = some s₀ := ⟨_, rfl⟩
  obtain ⟨s, hs⟩ : ∃ s, exec stepOne s₀ [(true, .handle () (some RemoteMethod.forwardedReply)),
      (false, .go), (true, .go), (true, .go), (true, .go)] = some s := by
    obtain rfl := Option.some.inj hs₀
    exact ⟨_, rfl⟩
  have halong : Along stepOne (fun s label => Fresh s label ∧ Matched s label) fresh
      (callRun ++ (true, .handle () (some RemoteMethod.forwardedReply)) ::
        [(false, .go), (true, .go), (true, .go), (true, .go)]) := by
    refine (along_cons rfl).mpr ⟨⟨trivial, trivial⟩, ?_⟩
    refine (along_cons rfl).mpr ⟨⟨trivial, trivial⟩, ?_⟩
    refine (along_cons rfl).mpr ⟨⟨fun _ _ => nofun, trivial⟩, ?_⟩
    refine (along_cons rfl).mpr ⟨⟨trivial, trivial⟩, ?_⟩
    refine (along_cons rfl).mpr ⟨⟨trivial, trivial⟩, ?_⟩
    refine (along_cons rfl).mpr ⟨⟨trivial, trivial⟩, ?_⟩
    refine (along_cons rfl).mpr ⟨⟨trivial, fun id hcause hfind => ?_,
      fun _ => RemoteMethod.presentable_forwardedReply⟩, ?_⟩
    · rcases RemoteMethod.mem_causes_forwardedReply hcause with rfl | rfl
      · rfl
      · exact absurd rfl hfind
    · exact (along_cons rfl).mpr ⟨⟨trivial, trivial⟩, trivial⟩
  have hrequest : s₀.data.requests 0 = some ((), RemoteMethod.request) := by
    obtain rfl := Option.some.inj hs₀
    rfl
  have hidle : s.pc true = .idle := by
    obtain rfl := Option.some.inj hs₀
    obtain rfl := Option.some.inj hs
    rfl
  refine ⟨s₀, s, hs₀, hs, ?_⟩
  have hpending := ((calls_matched printer (fun s => s) _).2 s₀ s callRun _ true ()
    RemoteMethod.forwardedReply 0 RemoteMethod.request halong hs₀ hs hrequest rfl).1
  rw [hidle] at hpending
  exact hpending.resolve_left id

end Rsb.Patterns.Calls
