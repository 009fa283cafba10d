import Rsb.Library.NestedCalls
import Rsb.Patterns.Calls
import Rsb.Patterns.LocalServer

/-!
Calls under a transport that delivers in the publishing thread
(`RemoteMethod::call`, `RemoteMethod::handle`, `LocalMethod::handle`).

`call` publishes the request while it holds the mutex of its method. What connectors,
buses and receiving strategies do with an event is left open: the code outside of the
two classes may deliver any event, to any method of a client or a server, in any
thread, and so also inside of `publish`. The in-process transport does so with the
direct receiving strategy: the server replies inside of the client's `publish`, and its
reply is delivered there as well.

The published request is the caller's object, and whoever is given it may change it. The
changes show when `call` reads the id afterwards.
-/

namespace Rsb.Patterns.NestedCalls

open Library Calls

variable {M S T δ : Type}

/-- What the modelled functions are given by the rest of the program. -/
structure Config (δ : Type) where
  typeName : Exception → Bytes
  ofString : Bytes → δ
  asString : δ → Bytes
  print : Printer δ
  now : UInt64

/-- Where a call is. `outside` is code that does not belong to the two classes: an
application, a transport, a receiving strategy. -/
inductive Frame (M S δ : Type)
  | outside
  /-- `call` before the mutex, before `publish`, and in `publish` or behind it. -/
  | call (m : M) (future : ℕ) (request : Event δ)
  | publishing (m : M) (future : ℕ) (request : Event δ)
  | recording (m : M) (future : ℕ) (request : Event δ)
  /-- `RemoteMethod::handle` before the mutex, before `find`, and with the future. -/
  | lookup (m : M) (event : Event δ) (requestId : EventId)
  | looking (m : M) (event : Event δ) (requestId : EventId)
  | completing (event : Event δ) (future : ℕ)
  /-- `LocalMethod::handle`. -/
  | serving (j : S) (event : Event δ)

inductive Action (M S δ : Type)
  | call (m : M) (request : Event δ)
  | handle (m : M) (event : Option (Event δ))
  | serve (j : S) (event : Event δ)
  | done
  | go
  /-- A connector throws, or the participant that `publish` belongs to cannot be made. -/
  | throws
  /-- Somebody whom `publish` has handed the request has changed it. -/
  | change (event : Event δ)

namespace Frame

def holds : Frame M S δ → List M
  | publishing m _ _ | recording m _ _ | looking m _ _ => [m]
  | _ => []

def wants : Frame M S δ → Option M
  | call m _ _ | lookup m _ _ => some m
  | _ => none

end Frame

/-- A request that has been published, for a future. -/
structure Request (M : Type) where
  method : M
  id : EventId
  future : ℕ

/-- `transmitted` are the events given to connectors, and `aborted` the futures of calls
which threw after that. -/
structure Data (M S δ : Type) where
  informer : M → Informer
  inprogress : M → SortedMap EventId ℕ
  futures : ℕ
  requests : List (Request M)
  aborted : List ℕ
  completions : List (Completion δ)
  servers : S → LocalMethod δ
  transmitted : List (Event δ)

section

variable [DecidableEq M] [DecidableEq S] (config : Config δ)

def next (d : Data M S δ) :
    Frame M S δ → Action M S δ → Option (Effect (Frame M S δ) (Data M S δ))
  | .outside, .call m request =>
      some (.call .outside (.call m d.futures request) { d with futures := d.futures + 1 })
  | .outside, .handle m event =>
      match event, RemoteMethod.requestId event with
      | some event, some requestId => some (.call .outside (.lookup m event requestId) d)
      | _, _ => some (.goto .outside d)
  | .outside, .serve j event => some (.call .outside (.serving j event) d)
  | .outside, .done => some (.ret d)
  | .call m future request, .go => some (.goto (.publishing m future request) d)
  | .publishing m future request, .go =>
      match (d.informer m).checkedPublish config.print
          ((request.setScope (d.informer m).scope).setMethod (bytes "REQUEST")) with
      | .error _ => some (.ret d)
      | .ok (informer, request) =>
          -- the connectors run inside of `publish`
          some (.call (.recording m future request) .outside { d with
            informer := Function.update d.informer m informer
            requests := d.requests ++ (request.id.map fun id => ⟨m, id, future⟩).toList
            transmitted := d.transmitted ++ [request] })
  | .recording m future request, .go =>
      match request.getId with
      | .error _ => some (.ret d)
      | .ok id => some (.ret { d with
          inprogress := Function.update d.inprogress m (insertNew (d.inprogress m) id future) })
  | .recording m future _, .change event => some (.goto (.recording m future event) d)
  | .recording _ future _, .throws => some (.ret { d with aborted := d.aborted ++ [future] })
  | .lookup m event requestId, .go => some (.goto (.looking m event requestId) d)
  | .looking m event requestId, .go =>
      match RemoteMethod.take (d.inprogress m) requestId with
      | (_, none) => some (.ret d)
      | (inprogress, some future) => some (.goto (.completing event future) { d with
          inprogress := Function.update d.inprogress m inprogress })
  | .completing event future, .go =>
      match RemoteMethod.outcome config.asString event with
      -- a failed assertion ends the process
      | .error _ => none
      | .ok outcome => some (.ret { d with
          completions := d.completions ++ [⟨future, event, outcome⟩] })
  | .serving j event, .go =>
      match ((d.servers j).handle config.typeName config.ofString config.print .works
          config.now event).outcome with
      | .error (.fault (.thrown _)) | .error .foreign | .ok none => some (.ret d)
      | .error (.fault _) => none
      -- nothing follows `publish`, inside of which the connectors run
      | .ok (some (informer, reply)) => some (.goto .outside { d with
          servers := Function.update d.servers j { d.servers j with
            currentSequenceNumber := informer.currentSequenceNumber }
          transmitted := d.transmitted ++ [reply] })
  -- the informer of the method cannot be made
  | .serving _ _, .throws => some (.ret d)
  | _, _ => none

/-- Clients and servers that share their threads. -/
def program : Nested (Frame M S δ) (Data M S δ) (Action M S δ) M where
  next := next config
  holds := Frame.holds
  wants := Frame.wants

end

abbrev State (M S T δ : Type) := Nested.State (Frame M S δ) (Data M S δ) M T

/-- Before the first call. -/
def init (informer : M → Informer) (servers : S → LocalMethod δ) : State M S T δ where
  stack _ := [.outside]
  data := ⟨informer, fun _ => .empty, 0, [], [], [], servers, []⟩
  owner _ := none

/-- A request that is about to be recorded has the id of no other request in progress. -/
def Fresh (d : Data M S δ) : List (Frame M S δ) → Prop
  | .recording m _ request :: _ => ∀ id ∈ request.id, (d.inprogress m).find? id = none
  | _ => True

/-- The published request keeps its id. -/
def KeepsId (event : Event δ) : List (Frame M S δ) → Prop
  | .recording _ _ request :: _ => event.id = request.id
  | _ => True

/-- A thread which is inside of `publish` for a method neither calls that method nor has
it handle an event with causes, and nobody gives the request another id. -/
def Proper (s : State M S T δ) : T × Action M S δ → Prop
  | (t, .call m _) => s.owner m ≠ some t
  | (t, .handle m event) => RemoteMethod.requestId event ≠ none → s.owner m ≠ some t
  | (t, .go) => Fresh s.data (s.stack t)
  | (t, .change event) => KeepsId event (s.stack t)
  | _ => True

instance (d : Data M S δ) : ∀ stack, Decidable (Fresh d stack)
  | .recording m _ request :: _ =>
      inferInstanceAs (Decidable (∀ id ∈ request.id, (d.inprogress m).find? id = none))
  | [] | .outside :: _ | .call _ _ _ :: _ | .publishing _ _ _ :: _ | .lookup _ _ _ :: _
  | .looking _ _ _ :: _ | .completing _ _ :: _ | .serving _ _ :: _ => isTrue trivial

instance (event : Event δ) : ∀ stack : List (Frame M S δ), Decidable (KeepsId event stack)
  | .recording _ _ request :: _ => inferInstanceAs (Decidable (event.id = request.id))
  | [] | .outside :: _ | .call _ _ _ :: _ | .publishing _ _ _ :: _ | .lookup _ _ _ :: _
  | .looking _ _ _ :: _ | .completing _ _ :: _ | .serving _ _ :: _ => isTrue trivial

instance [DecidableEq T] (s : State M S T δ) : ∀ label, Decidable (Proper s label)
  | (t, .call m _) => inferInstanceAs (Decidable (s.owner m ≠ some t))
  | (t, .handle m event) =>
      inferInstanceAs (Decidable (RemoteMethod.requestId event ≠ none → s.owner m ≠ some t))
  | (t, .go) => inferInstanceAs (Decidable (Fresh s.data (s.stack t)))
  | (t, .change event) => inferInstanceAs (Decidable (KeepsId event (s.stack t)))
  | (_, .serve _ _) | (_, .done) | (_, .throws) => isTrue trivial

/-! ### One step -/

/-- What a frame can do. -/
inductive Transition [DecidableEq M] (d : Data M S δ) :
    Action M S δ → Frame M S δ → Effect (Frame M S δ) (Data M S δ) → Prop
  | calls (m : M) (request : Event δ) : Transition d (.call m request) .outside
      (.call .outside (.call m d.futures request) { d with futures := d.futures + 1 })
  | delivers (m : M) {event : Event δ} {requestId : EventId}
      (hrequest : RemoteMethod.requestId (some event) = some requestId) :
      Transition d (.handle m (some event)) .outside
        (.call .outside (.lookup m event requestId) d)
  | overlooks {a} : Transition d a .outside (.goto .outside d)
  | serves {a} (j : S) (event : Event δ) :
      Transition d a .outside (.call .outside (.serving j event) d)
  | leaves {a} : Transition d a .outside (.ret d)
  | begins {a m future request} :
      Transition d a (.call m future request) (.goto (.publishing m future request) d)
  | refuses {a m future request} : Transition d a (.publishing m future request) (.ret d)
  | publishes {a m future request} {published : Event δ} {informer : M → Informer} {id : EventId}
      (hid : published.id = some id) : Transition d a (.publishing m future request)
        (.call (.recording m future published) .outside { d with
          informer := informer
          requests := d.requests ++ [⟨m, id, future⟩]
          transmitted := d.transmitted ++ [published] })
  | records {m future} {request : Event δ} {id : EventId} (hid : request.id = some id) :
      Transition d .go (.recording m future request) (.ret { d with
        inprogress := Function.update d.inprogress m (insertNew (d.inprogress m) id future) })
  | loses {a m future} {request : Event δ} (hid : request.id = none) :
      Transition d a (.recording m future request) (.ret d)
  | changes {a m future request} {event : Event δ} (ha : a = .change event) :
      Transition d a (.recording m future request) (.goto (.recording m future event) d)
  | aborts {a m future request} : Transition d a (.recording m future request)
      (.ret { d with aborted := d.aborted ++ [future] })
  | looks {a m event requestId} :
      Transition d a (.lookup m event requestId) (.goto (.looking m event requestId) d)
  | misses {a m event requestId} : Transition d a (.looking m event requestId) (.ret d)
  | takes {a m event requestId future}
      (hfind : (d.inprogress m).find? requestId = some future) :
      Transition d a (.looking m event requestId) (.goto (.completing event future) { d with
        inprogress := Function.update d.inprogress m ((d.inprogress m).erase requestId) })
  | completes {a event future} (outcome : Outcome δ) : Transition d a (.completing event future)
      (.ret { d with completions := d.completions ++ [⟨future, event, outcome⟩] })
  | answers {a j event} (servers : S → LocalMethod δ) (reply : Event δ) :
      Transition d a (.serving j event) (.goto .outside { d with
        servers := servers
        transmitted := d.transmitted ++ [reply] })
  | returns {a j event} : Transition d a (.serving j event) (.ret d)

section

variable [DecidableEq M] [DecidableEq S] {config : Config δ}

omit [DecidableEq M] [DecidableEq S] in
theorem id_of_publish {print : Printer δ} {i informer : Informer} {event published : Event δ}
    (h : i.checkedPublish print event = .ok (informer, published)) :
    ∃ id, published.id = some id := by
  simp only [Informer.checkedPublish] at h
  split_ifs at h
  obtain ⟨-, rfl⟩ := Prod.mk.inj (Except.ok.inj h)
  exact ⟨_, rfl⟩

theorem transition_of_next {d : Data M S δ} {f : Frame M S δ} {a : Action M S δ}
    {e : Effect (Frame M S δ) (Data M S δ)} (h : next config d f a = some e) :
    Transition d a f e := by
  unfold next at h
  split at h
  · obtain rfl := Option.some.inj h
    exact .calls _ _
  · split at h
    · next hrequest =>
        obtain rfl := Option.some.inj h
        exact .delivers _ hrequest
    · obtain rfl := Option.some.inj h
      exact .overlooks
  · obtain rfl := Option.some.inj h
    exact .serves _ _
  · obtain rfl := Option.some.inj h
    exact .leaves
  · obtain rfl := Option.some.inj h
    exact .begins
  · split at h
    · obtain rfl := Option.some.inj h
      exact .refuses
    · next hpublish =>
        obtain ⟨id, hid⟩ := id_of_publish hpublish
        simp only [hid] at h
        obtain rfl := Option.some.inj h
        exact .publishes hid
  · next request =>
      cases hid : request.id with
      | none =>
          simp only [Event.getId, hid] at h
          obtain rfl := Option.some.inj h
          exact .loses hid
      | some id =>
          simp only [Event.getId, hid] at h
          obtain rfl := Option.some.inj h
          exact .records hid
  · obtain rfl := Option.some.inj h
    exact .changes rfl
  · obtain rfl := Option.some.inj h
    exact .aborts
  · obtain rfl := Option.some.inj h
    exact .looks
  · next m event requestId =>
      cases hfind : (d.inprogress m).find? requestId with
      | none =>
          simp only [RemoteMethod.take, hfind] at h
          obtain rfl := Option.some.inj h
          exact .misses
      | some future =>
          simp only [RemoteMethod.take, hfind] at h
          obtain rfl := Option.some.inj h
          exact .takes hfind
  · split at h
    · exact absurd h (by simp)
    · obtain rfl := Option.some.inj h
      exact .completes _
  · split at h
    · obtain rfl := Option.some.inj h
      exact .returns
    · obtain rfl := Option.some.inj h
      exact .returns
    · obtain rfl := Option.some.inj h
      exact .returns
    · exact absurd h (by simp)
    · obtain rfl := Option.some.inj h
      exact .answers _ _
  · obtain rfl := Option.some.inj h
    exact .returns
  · exact absurd h (by simp)

theorem wellLocked : (program config : Nested (Frame M S δ) _ _ M).WellLocked := by
  constructor
  · intro d f a e h
    cases transition_of_next h <;> simp [program, Frame.holds, Frame.wants, Effect.frames]
  · intro d f a g c d' h
    cases transition_of_next h <;> rfl

/-! ### No thread waits for itself -/

theorem owned_init {informer : M → Informer} {servers : S → LocalMethod δ} :
    (program config).Owned (init informer servers : State M S T δ) where
  held l t := by simp [init, program, Frame.holds]
  once t := List.pairwise_singleton _ _

variable [DecidableEq T]

/-- What may run while a thread holds the mutex of a method. -/
def Inside (m : M) (f : Frame M S δ) : Prop := f.wants ≠ some m

omit [DecidableEq T] in
theorem keeps_of_next {s : State M S T δ} {t : T} {f : Frame M S δ} {rest : List (Frame M S δ)}
    {a : Action M S δ} {e : Effect (Frame M S δ) (Data M S δ)} (hproper : Proper s (t, a))
    (hnext : (program config).next s.data f a = some e) :
    (program config).Keeps Inside s t f rest e := by
  have htransition := transition_of_next hnext
  constructor
  · intro l howner _ _
    cases htransition with
    | calls m request =>
        have hm : m ≠ l := fun heq => hproper (heq ▸ howner)
        simp [Effect.frames, Inside, Frame.wants, hm]
    | delivers m hrequest =>
        have hm : m ≠ l := fun heq => hproper (by simp [hrequest]) (heq ▸ howner)
        simp [Effect.frames, Inside, Frame.wants, hm]
    | _ => simp [Effect.frames, Inside, Frame.wants]
  · rintro g c d rfl l hl
    cases htransition <;> simp_all [program, Frame.holds, Inside, Frame.wants]

/-- The invariant behind the first half of the claim. -/
theorem not_selfWait {informer : M → Informer} {servers : S → LocalMethod δ}
    {labels : List (T × Action M S δ)} {s : State M S T δ}
    (hrun : exec (program config).step (init informer servers) labels = some s)
    (hproper : Along (program config).step Proper (init informer servers) labels) (t : T) :
    ¬(program config).SelfWait s t := by
  have hinv : (program config).Owned s ∧ (program config).Guarded Inside s := by
    refine exec_invariant_along (I := fun s => (program config).Owned s ∧
      (program config).Guarded Inside s) ?_ ⟨owned_init, fun t => ?_⟩ hproper hrun
    · rintro s ⟨t, a⟩ s' ⟨howned, hguarded⟩ hlabel hstep
      exact ⟨howned.step wellLocked hstep,
        hguarded.step howned hstep fun f rest e _ hnext => keeps_of_next hlabel hnext⟩
    · exact List.pairwise_singleton _ _
  apply Nested.Guarded.not_selfWait hinv.1 hinv.2
  intro f l hwants
  cases f with
  | call | lookup => exact ⟨List.not_mem_nil, fun hinside => hinside hwants⟩
  | _ => exact absurd hwants (by simp [program, Frame.wants])

/-- A thread that holds the mutex of a method and enters a call which wants it waits, and
takes no further step. -/
theorem selfWait_of_entered {s s' : State M S T δ} {t : T} {rest : List (Frame M S δ)} {m : M}
    {callee : Frame M S δ} {a : Action M S δ} {d : Data M S δ}
    (hstack : s.stack t = .outside :: rest) (howner : s.owner m = some t)
    (hwants : callee.wants = some m)
    (hnext : next config s.data .outside a = some (.call .outside callee d))
    (hstep : (program config).step s (t, a) = some s') :
    (program config).SelfWait s' t ∧ ∀ a', (program config).step s' (t, a') = none := by
  obtain ⟨f, rest', e, hstack', hnext', -, hs'⟩ := Nested.step_eq_some.mp hstep
  obtain ⟨rfl, rfl⟩ := List.cons.inj (hstack.symm.trans hstack')
  obtain rfl : Effect.call .outside callee d = e := Option.some.inj (hnext.symm.trans hnext')
  have hwait : (program config).SelfWait s' t := by
    subst hs'
    refine ⟨callee, .outside :: rest, m, Function.update_self .., hwants, ?_⟩
    have houtside : (Frame.outside : Frame M S δ).holds = [] := rfl
    simp [program, houtside, howner]
  exact ⟨hwait, fun a' => hwait.stuck a'⟩

/-! ### Replies complete futures -/

/-- The future of a request is in progress, completed, or given up. -/
def Settled (d : Data M S δ) (r : Request M) : Prop :=
  (d.inprogress r.method).find? r.id = some r.future ∨
    (∃ c ∈ d.completions, c.future = r.future) ∨ r.future ∈ d.aborted

/-- A frame is about to record the request, or to complete its future. -/
def InHand (r : Request M) : Frame M S δ → Prop
  | .recording m future request => m = r.method ∧ future = r.future ∧ request.id = some r.id
  | .completing _ future => future = r.future
  | _ => False

/-- No future of a request is lost. -/
def Accounted (s : State M S T δ) : Prop :=
  ∀ r ∈ s.data.requests, Settled s.data r ∨ ∃ t, ∃ f ∈ s.stack t, InHand r f

omit [DecidableEq S] [DecidableEq T] in
theorem Transition.accounts {d : Data M S δ} {a : Action M S δ} {f : Frame M S δ}
    {e : Effect (Frame M S δ) (Data M S δ)} (h : Transition d a f e)
    (hfresh : ∀ m future request id, a = .go → f = .recording m future request →
      request.id = some id → (d.inprogress m).find? id = none)
    (hkeeps : ∀ m future request event, a = .change event → f = .recording m future request →
      event.id = request.id)
    {r : Request M} (hr : r ∈ e.data.requests) :
    (∃ g ∈ e.frames, InHand r g) ∨
      r ∈ d.requests ∧ (Settled d r ∨ InHand r f → Settled e.data r ∨ ∃ g ∈ e.frames, InHand r g) := by
  cases h with
  | publishes hid =>
      rcases List.mem_append.mp hr with hr | hr
      · exact .inr ⟨hr, fun hsettled => .inl (hsettled.resolve_right id)⟩
      · obtain rfl := List.mem_singleton.mp hr
        exact .inl ⟨_, List.mem_cons_of_mem _ List.mem_cons_self, rfl, rfl, hid⟩
  | @records m future request id hid =>
      refine .inr ⟨hr, fun hsettled => .inl ?_⟩
      have hfind := find?_record (hfresh m future request id rfl rfl hid) future
      rcases hsettled with (hprogress | hdone) | ⟨rfl, rfl, hid'⟩
      · exact .inl ((hfind _ _ _).mpr (.inl hprogress))
      · exact .inr hdone
      · exact .inl ((hfind _ _ _).mpr (.inr ⟨rfl, rfl, Option.some.inj (hid.symm.trans hid')⟩))
  | loses hid =>
      refine .inr ⟨hr, fun hsettled => .inl (hsettled.resolve_right ?_)⟩
      rintro ⟨-, -, hid'⟩
      exact absurd (hid.symm.trans hid') (by simp)
  | changes ha =>
      refine .inr ⟨hr, fun hsettled => hsettled.imp_right ?_⟩
      rintro ⟨hm, hfuture, hid⟩
      exact ⟨_, List.mem_cons_self, hm, hfuture, (hkeeps _ _ _ _ ha rfl).trans hid⟩
  | aborts =>
      refine .inr ⟨hr, fun hsettled => .inl ?_⟩
      rcases hsettled with (hprogress | hdone | haborted) | ⟨-, rfl, -⟩
      · exact .inl hprogress
      · exact .inr (.inl hdone)
      · exact .inr (.inr (List.mem_append_left _ haborted))
      · exact .inr (.inr (List.mem_append_right _ List.mem_cons_self))
  | @takes _ m event requestId future hfind =>
      refine .inr ⟨hr, fun hsettled => ?_⟩
      rcases hsettled.resolve_right id with hprogress | hdone
      · by_cases hsame : m = r.method ∧ requestId = r.id
        · obtain ⟨rfl, rfl⟩ := hsame
          exact .inr ⟨_, List.mem_cons_self, Option.some.inj (hfind.symm.trans hprogress)⟩
        · exact .inl (.inl ((find?_take _ _ _ _ _ _).mpr
            ⟨hprogress, fun hm hid => hsame ⟨hm, hid⟩⟩))
      · exact .inl (.inr hdone)
  | completes outcome =>
      refine .inr ⟨hr, fun hsettled => .inl ?_⟩
      rcases hsettled with (hprogress | ⟨c, hc, hfuture⟩ | haborted) | hfuture
      · exact .inl hprogress
      · exact .inr (.inl ⟨c, List.mem_append_left _ hc, hfuture⟩)
      · exact .inr (.inr haborted)
      · exact .inr (.inl ⟨_, List.mem_append_right _ List.mem_cons_self, hfuture⟩)
  | _ => exact .inr ⟨hr, fun hsettled => .inl (hsettled.resolve_right id)⟩

theorem Accounted.step {s s' : State M S T δ} {label : T × Action M S δ} (h : Accounted s)
    (hproper : Proper s label) (hstep : (program config).step s label = some s') :
    Accounted s' := by
  obtain ⟨t, a⟩ := label
  obtain ⟨f, rest, e, hstack, hnext, -, rfl⟩ := Nested.step_eq_some.mp hstep
  have hfresh : ∀ m future request id, a = .go → f = .recording m future request →
      request.id = some id → (s.data.inprogress m).find? id = none := by
    rintro m future request id rfl rfl hid
    simp only [Proper, hstack] at hproper
    exact hproper id hid
  have hkeeps : ∀ m future request event, a = .change event →
      f = .recording m future request → event.id = request.id := by
    rintro m future request event rfl rfl
    simpa only [Proper, hstack, KeepsId] using hproper
  intro r hr
  have hnew : (∃ g ∈ e.frames, InHand r g) → ∃ t', ∃ g ∈ Function.update s.stack t
      (e.frames ++ rest) t', InHand r g := fun ⟨g, hg, hhand⟩ =>
    ⟨t, g, by rw [Function.update_self]; exact List.mem_append_left _ hg, hhand⟩
  rcases (transition_of_next hnext).accounts hfresh hkeeps hr with hhand | ⟨hold, hmoved⟩
  · exact .inr (hnew hhand)
  · rcases h r hold with hsettled | ⟨t', g, hg, hhand⟩
    · exact (hmoved (.inl hsettled)).imp_right hnew
    · by_cases ht : t' = t
      · subst ht
        rcases List.mem_cons.mp (hstack ▸ hg) with rfl | hrest
        · exact (hmoved (.inr hhand)).imp_right hnew
        · refine .inr ⟨t', g, ?_, hhand⟩
          simpa using .inr hrest
      · refine .inr ⟨t', g, ?_, hhand⟩
        simpa [Function.update_of_ne ht] using hg

/-- The future has been completed, is about to be, or its call has thrown. -/
def Given (s : State M S T δ) (future : ℕ) : Prop :=
  (∃ c ∈ s.data.completions, c.future = future) ∨ future ∈ s.data.aborted ∨
    ∃ t event, .completing event future ∈ s.stack t

/-- A thread that looks for a published request under the mutex finds its future, unless
that has been given something before, and completes it with the event. -/
def Completes (config : Config δ) (s : State M S T δ) : Prop :=
  ∀ t m event id rest, s.stack t = .looking m event id :: rest →
    ∀ r ∈ s.data.requests, r.method = m → r.id = id →
      Given s r.future ∨ (RemoteMethod.Presentable event →
        ∃ s' outcome, exec (program config).step s [(t, .go), (t, .go)] = some s' ∧
          s'.data.completions = s.data.completions ++ [⟨r.future, event, outcome⟩] ∧
          RemoteMethod.Answers event outcome)

omit [DecidableEq T] in
theorem found_or_given {s : State M S T δ} (howned : (program config).Owned s)
    (haccounted : Accounted s) {t : T} {m : M} {event : Event δ} {id : EventId}
    {rest : List (Frame M S δ)} (hstack : s.stack t = .looking m event id :: rest)
    {r : Request M} (hr : r ∈ s.data.requests) (hm : r.method = m) (hid : r.id = id) :
    Given s r.future ∨ (s.data.inprogress m).find? id = some r.future := by
  subst hm hid
  rcases haccounted r hr with (hprogress | hdone | haborted) | ⟨t', f, hf, hhand⟩
  · exact .inr hprogress
  · exact .inl (.inl hdone)
  · exact .inl (.inr (.inl haborted))
  · cases f with
    | recording m' future request =>
        -- the call of the request would hold the mutex as well
        obtain ⟨rfl, -, -⟩ := hhand
        have hmutex : r.method ∈ (Frame.looking r.method event r.id : Frame M S δ).holds :=
          List.mem_cons_self
        have hexclusive := howned.exclusive hstack hmutex
        have hholds : r.method ∈ (Frame.recording r.method future request : Frame M S δ).holds :=
          List.mem_cons_self
        by_cases ht : t' = t
        · subst ht
          rcases List.mem_cons.mp (hstack ▸ hf) with heq | hrest
          · exact absurd heq (by simp)
          · exact absurd hholds (hexclusive.1 _ hrest)
        · exact absurd hholds (hexclusive.2 t' ht _ hf)
    | completing event' future =>
        obtain rfl : future = r.future := hhand
        exact .inl (.inr (.inr ⟨t', event', hf⟩))
    | _ => exact hhand.elim

/-- The two steps of a thread that has found the future. -/
theorem exec_completing {s : State M S T δ} {t : T} {m : M} {event : Event δ} {id : EventId}
    {rest : List (Frame M S δ)} (hstack : s.stack t = .looking m event id :: rest) {future : ℕ}
    (hfind : (s.data.inprogress m).find? id = some future)
    (hpresentable : RemoteMethod.Presentable event) :
    ∃ s' outcome, exec (program config).step s [(t, .go), (t, .go)] = some s' ∧
      s'.data.completions = s.data.completions ++ [⟨future, event, outcome⟩] ∧
      RemoteMethod.Answers event outcome := by
  obtain ⟨outcome, houtcome, hanswers⟩ :=
    (RemoteMethod.outcome_ok_iff config.asString).mpr hpresentable
  obtain ⟨s₁, hstep₁, hstack₁, hdata₁⟩ : ∃ s₁, (program config).step s (t, .go) = some s₁ ∧
      s₁.stack t = .completing event future :: rest ∧ s₁.data = { s.data with
        inprogress := Function.update s.data.inprogress m ((s.data.inprogress m).erase id) } := by
    refine ⟨_, Nested.step_eq_some.mpr ⟨_, rest, .goto (.completing event future) { s.data with
      inprogress := Function.update s.data.inprogress m ((s.data.inprogress m).erase id) },
      hstack, ?_, by simp [program, Frame.wants], rfl⟩, Function.update_self .., rfl⟩
    simp [program, next, RemoteMethod.take, hfind]
  obtain ⟨s₂, hstep₂, hdata₂⟩ : ∃ s₂, (program config).step s₁ (t, .go) = some s₂ ∧
      s₂.data = { s₁.data with
        completions := s₁.data.completions ++ [⟨future, event, outcome⟩] } := by
    refine ⟨_, Nested.step_eq_some.mpr ⟨_, rest, .ret { s₁.data with
      completions := s₁.data.completions ++ [⟨future, event, outcome⟩] },
      hstack₁, ?_, by simp [program, Frame.wants], rfl⟩, rfl⟩
    simp [program, next, houtcome]
  refine ⟨s₂, outcome, ?_, ?_, hanswers⟩
  · exact exec_cons_eq_some.mpr ⟨s₁, hstep₁, exec_cons_eq_some.mpr ⟨s₂, hstep₂, rfl⟩⟩
  · simp [hdata₂, hdata₁]

end

/-! ### A reply in the thread of the call and in another one -/

def sampleConfig : Config Bytes where
  typeName _ := bytes "exception"
  ofString := id
  asString := id
  print := ⟨fun _ => [], fun _ => []⟩
  now := 0

/-- A method that takes a string and returns it, and the informer of its client. -/
def echo : LocalMethod Bytes where
  scope := Scope.ofComponents [bytes "s", bytes "echo"] (by decide)
  name := bytes "echo"
  callback := .typed stringType stringType fun _ data => .ok data
  informerId := ⟨List.replicate 16 32, by decide⟩
  currentSequenceNumber := 0

def echoClient : Informer := ⟨⟨List.replicate 16 33, by decide⟩, echo.scope, [], 0⟩

def sampleRequest : Event Bytes :=
  ((Event.new 0 : Event Bytes).setType stringType).setData (some (bytes "hello"))

/-- The request as the client publishes it, and what the server publishes for it. -/
def publishedRequest : Event Bytes :=
  ((sampleRequest.setScope echo.scope).setMethod (bytes "REQUEST")).setId echoClient.id 0

def publishedReply : Option (Event Bytes) :=
  (echo.handle sampleConfig.typeName sampleConfig.ofString sampleConfig.print .works
    sampleConfig.now publishedRequest).published

/-- The client publishes, and inside of that the server answers and publishes as well. -/
def answered {T : Type} (t : T) : List (T × Action Unit Unit Bytes) :=
  [(t, .call () sampleRequest), (t, .go), (t, .go), (t, .serve () publishedRequest), (t, .go)]

/-- The reply comes back to the client before `publish` has returned. -/
def deliveredInside : List (Unit × Action Unit Unit Bytes) :=
  answered () ++ [((), .handle () publishedReply)]

/-- Another thread has the reply, and waits until the request is recorded. -/
def deliveredOutside : List (Bool × Action Unit Unit Bytes) :=
  answered false ++ [(true, .handle () publishedReply), (false, .done), (false, .done),
    (false, .go), (true, .go)]

/-- The id that a frame looks for under the mutex. -/
def Frame.sought : Frame M S δ → Option EventId
  | looking _ _ requestId => some requestId
  | _ => none

end Rsb.Patterns.NestedCalls
