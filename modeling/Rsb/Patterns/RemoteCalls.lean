import Rsb.Patterns.Matching
import Rsb.Patterns.Serving

/-!
Remote procedure calls (`RemoteServer.cpp`, `LocalServer.cpp`).

Threads call remote methods, whose requests go over a bus to local methods, and the replies of
these come back. The bus may deliver what has been published late, more than once or not at all;
an event that is published while a connector throws may have been sent or not. Other
participants publish events that are neither requests nor replies.

What all this is for says `Returns`: a future is given what the callback of a local method
returned for the argument of the call.
-/

namespace Rsb.Patterns.RemoteCalls

open Library

variable {M L T δ : Type}

/-- The remote methods `M`, by the informers they start with, the local methods `L`, and what is
taken from elsewhere. -/
structure Environment (M L δ : Type) where
  informer : M → Informer
  method : L → LocalMethod δ
  typeName : Exception → Bytes
  ofString : Bytes → δ
  asString : δ → Bytes
  print : Printer δ

/-- `events` are all that have been published, in any order of time; `asked` remembers what the
call that made a future was given. -/
structure State (M L T δ : Type) where
  client : Calls.State M T δ
  numbers : L → UInt32
  events : List (Event δ)
  asked : ℕ → Option (M × Event δ)

inductive Label (M L T δ : Type)
  /-- A thread calls a method, goes on with a call or with a reply, or a connector throws. -/
  | client (t : T) (a : Calls.Action M δ)
  /-- The `n`-th event reaches the remote method `m` in the thread `t`. -/
  | deliver (t : T) (m : M) (n : ℕ)
  /-- The `n`-th event reaches the local method `l`. -/
  | serve (l : L) (n : ℕ) (now : UInt64)
  | other (event : Event δ)

/-- The filter that `RemoteMethod::makeListener` adds. -/
def replyFilter : MethodFilter := ⟨bytes "REPLY", false⟩

section

variable (env : Environment M L δ)

/-- The local method as it is now. -/
def State.method (s : State M L T δ) (l : L) : LocalMethod δ :=
  { env.method l with currentSequenceNumber := s.numbers l }

def init : State M L T δ :=
  ⟨Calls.init env.informer, fun l => (env.method l).currentSequenceNumber, [], fun _ => none⟩

/-- The event that an action of a thread publishes. -/
def published (c : Calls.State M T δ) (t : T) (a : Calls.Action M δ) : List (Event δ) :=
  match c.pc t, a with
  | .publishing m _ request, .go | .publishing m _ request, .throws =>
      match Calls.publish env.print c.data m request with
      | .ok (_, event) => [event]
      | .error _ => []
  | _, _ => []

def remember (s : State M L T δ) : Calls.Action M δ → ℕ → Option (M × Event δ)
  | .call m request => Function.update s.asked s.client.data.futures (some (m, request))
  | _ => s.asked

variable [DecidableEq M] [DecidableEq L] [DecidableEq T]

def step (s : State M L T δ) : Label M L T δ → Option (State M L T δ)
  -- events come from the bus only, and keep what has been published
  | .client _ (.handle _ _) | .client _ (.change _) => none
  | .client t a =>
      ((Calls.client env.print env.asString).step s.client (t, a)).map fun client =>
        { s with client
                 events := s.events ++ published env s.client t a
                 asked := remember s a }
  | .deliver t m n =>
      match s.events[n]? with
      | none => none
      | some event =>
          if replyFilter.match event && (s.client.data.informer m).scope.covers event.scope then
            ((Calls.client env.print env.asString).step s.client (t, .handle m (some event))).map
              fun client => { s with client }
          else none
  | .serve l n now =>
      match s.events[n]? with
      | none => none
      | some event =>
          if LocalMethod.filter.match event && (env.method l).scope.covers event.scope then
            match ((s.method env l).handle env.typeName env.ofString env.print .works now
                event).outcome with
            | .ok (some (informer, reply)) =>
                some { s with
                  numbers := Function.update s.numbers l informer.currentSequenceNumber
                  events := s.events ++ [reply] }
            | _ => some s
          else none
  | .other event =>
      if event.method = bytes "REQUEST" ∨ event.method = bytes "REPLY" then none
      else some { s with events := s.events ++ [event] }

end

/-! ### What a call means -/

/-- What a request is to the one who serves it. -/
structure IsRequest (env : Environment M L δ) (m : M) (request x : Event δ) : Prop where
  method : x.method = bytes "REQUEST"
  scope : x.scope = (env.informer m).scope
  type : x.type = request.type
  content : x.content = request.content

/-- The future of a call is given what the callback returns for the request, or the error it
ends with. -/
def Returns (env : Environment M L δ) (l : L) (x : Event δ) (outcome : Outcome δ) : Prop :=
  ∃ now, (∃ reply e, (env.method l).callback.intlCall now (env.method l).name x = .ok (some reply) ∧
      outcome = .result e ∧ e.type = reply.type ∧ e.content = reply.content) ∨
    ∃ e, (env.method l).callback.intlCall now (env.method l).name x = .error (.fault (.thrown e)) ∧
      outcome = .error (bytes "Error calling remote method '" ++
        bytes "TODO: obtain method name" ++ bytes "': " ++
          env.asString (env.ofString (env.typeName e ++ bytes ": " ++ e.what)))

/-- A callback does not change the id of its request, and if it makes its own reply event it
gives it no causes and no sign of an error. -/
def Plain : Callback δ → Prop
  | .event call leaves => ∀ name x, (leaves name x).id = x.id ∧
      ∀ reply, call name x = .ok (some reply) →
        reply.causes = .empty ∧ reply.metaData.hasUserInfo LocalMethod.errorKey = false
  | .anyReplyType _ _ | .typed _ _ _ => True

/-- The id that a request is about to get is not that of an event there has been. -/
def Fresh (s : State M L T δ) : Label M L T δ → Prop
  | .client t _ =>
      match s.client.pc t with
      | .publishing m _ _ => ∀ e ∈ s.events, e.id ≠
          some ⟨(s.client.data.informer m).id, (s.client.data.informer m).currentSequenceNumber⟩
      | _ => True
  | _ => True

/-! ### Replies -/

section

variable {env : Environment M L δ}

/-- A reply with what the callback has made of the request. -/
structure IsReply (env : Environment M L δ) (l : L) (x p : Event δ) : Prop where
  method : p.method = bytes "REPLY"
  covers : (env.method l).scope.covers x.scope = true
  accepts : (env.method l).Accepts x
  made : ∃ id now reply, ((env.method l).callback.left (env.method l).name x).id = some id ∧
    (env.method l).reply env.typeName env.ofString now x = .ok reply ∧ p.type = reply.type ∧
    p.content = reply.content ∧ p.causes = reply.causes.add id ∧
    p.metaData.userInfos = reply.metaData.userInfos

/-- What a local method publishes is a reply. -/
theorem isReply_of_published {s : State M L T δ} {l : L} {now : UInt64} {x p : Event δ}
    {informer : Informer} (hcovers : (env.method l).scope.covers x.scope = true)
    (houtcome : ((s.method env l).handle env.typeName env.ofString env.print .works now
      x).outcome = .ok (some (informer, p))) : IsReply env l x p := by
  by_cases haccepts : (s.method env l).Accepts x
  · rw [LocalMethod.handle, if_pos haccepts] at houtcome
    have hanswer : (s.method env l).answer env.typeName env.ofString env.print .works now x =
        .ok (informer, p) := by
      cases h : (s.method env l).answer env.typeName env.ofString env.print .works now x with
      | error escape => simp [h, Except.map] at houtcome
      | ok r => simpa [h, Except.map] using houtcome
    obtain ⟨id, hid⟩ := LocalMethod.exists_id_of_answer hanswer
    obtain ⟨reply, hreply, -, -, hpublish, -⟩ := (LocalMethod.answer_eq_ok_iff hid).mp hanswer
    obtain rfl := congrArg Prod.snd hpublish
    exact ⟨rfl, hcovers, haccepts, id, now, reply, hid, hreply, rfl, rfl, rfl, rfl⟩
  · rw [LocalMethod.handle, if_neg haccepts] at houtcome
    simp at houtcome

theorem exists_of_map_eq_ok {ε α β : Type} {x : Except ε α} {f : α → β} {b : β}
    (h : x.map f = .ok b) : ∃ a, x = .ok a ∧ f a = b := by
  cases x with
  | error e => cases h
  | ok a => exact ⟨a, rfl, Except.ok.inj h⟩

/-- What a callback returns says nothing but its data. -/
theorem Plain.reply {callback : Callback δ} (h : Plain callback) {now : UInt64} {name : Bytes}
    {x reply : Event δ} (hcall : callback.intlCall now name x = .ok (some reply)) :
    reply.causes = .empty ∧ reply.metaData.hasUserInfo LocalMethod.errorKey = false := by
  cases callback with
  | event call leaves => exact (h name x).2 reply hcall
  | anyReplyType requestType call =>
      obtain ⟨result, -, hreply⟩ := exists_of_map_eq_ok hcall
      obtain rfl := Option.some.inj hreply
      exact ⟨rfl, rfl⟩
  | typed requestType replyType call =>
      obtain ⟨result, -, hreply⟩ := exists_of_map_eq_ok hcall
      obtain rfl := Option.some.inj hreply
      exact ⟨rfl, rfl⟩

theorem Plain.keepsId {callback : Callback δ} (h : Plain callback) : callback.KeepsId := by
  cases callback with
  | event call leaves => exact fun name x => (h name x).1
  | anyReplyType _ _ | typed _ _ _ => exact fun _ _ => rfl

/-- The outcome of a reply is what the callback has returned, and its only cause is the request. -/
theorem IsReply.returns {l : L} {x p : Event δ} (h : IsReply env l x p)
    (hplain : Plain (env.method l).callback) {outcome : Outcome δ}
    (houtcome : RemoteMethod.outcome env.asString p = .ok outcome) :
    Returns env l x outcome ∧ ∀ id ∈ p.causes, x.id = some id := by
  obtain ⟨id, now, reply, hid, hreply, htype, hcontent, hcauses, hinfos⟩ := h.made
  rw [hplain.keepsId] at hid
  have herror : p.metaData.hasUserInfo RemoteMethod.errorKey =
      reply.metaData.hasUserInfo LocalMethod.errorKey := by
    simp only [MetaData.hasUserInfo, hinfos]
    rfl
  have honly (hnone : reply.causes = .empty) : ∀ id ∈ p.causes, x.id = some id := by
    intro id' hid'
    rw [hcauses, hnone, SortedSet.mem_add] at hid'
    rw [hid, hid'.resolve_right (SortedSet.not_mem_empty _)]
  rw [LocalMethod.reply] at hreply
  split at hreply
  · next result hcall =>
      obtain rfl := Except.ok.inj hreply
      have hreplies := hplain.reply hcall
      rw [RemoteMethod.outcome, herror, hreplies.2] at houtcome
      obtain rfl := Except.ok.inj houtcome
      exact ⟨⟨now, .inl ⟨result, p, hcall, rfl, htype, hcontent⟩⟩, honly hreplies.1⟩
  · cases hreply
  · next e hcall =>
      obtain rfl := Except.ok.inj hreply
      have hyes : p.metaData.hasUserInfo RemoteMethod.errorKey = true := herror.trans rfl
      have hstring : p.type = stringType := htype
      have hmessage : p.content =
          some (env.ofString (env.typeName e ++ bytes ": " ++ e.what)) := hcontent
      rw [RemoteMethod.outcome, if_pos hyes, if_pos hstring, hmessage] at houtcome
      obtain rfl := Except.ok.inj houtcome
      exact ⟨⟨now, .inr ⟨e, hcall, rfl⟩⟩, honly rfl⟩
  · cases hreply

end

/-! ### What has been published -/

/-- Requests have ids of their own, and a reply is one to a request. -/
structure Orderly (env : Environment M L δ) (events : List (Event δ)) : Prop where
  unique : ∀ x ∈ events, ∀ y ∈ events, x.method = bytes "REQUEST" → y.method = bytes "REQUEST" →
    x.id = y.id → x = y
  replies : ∀ p ∈ events, p.method = bytes "REPLY" →
    ∃ l, ∃ x ∈ events, x.method = bytes "REQUEST" ∧ IsReply env l x p

section

variable {env : Environment M L δ}

theorem orderly_nil : Orderly env [] := ⟨by simp, by simp⟩

theorem Orderly.append {events : List (Event δ)} (h : Orderly env events) {event : Event δ}
    (hrequest : event.method = bytes "REQUEST" → ∀ e ∈ events, e.id ≠ event.id)
    (hreply : event.method = bytes "REPLY" →
      ∃ l, ∃ x ∈ events, x.method = bytes "REQUEST" ∧ IsReply env l x event) :
    Orderly env (events ++ [event]) := by
  refine ⟨fun x hx y hy hxrequest hyrequest hid => ?_, fun p hp hpreply => ?_⟩
  · rcases List.mem_append.mp hx with hxold | hxnew <;>
      rcases List.mem_append.mp hy with hyold | hynew
    · exact h.unique x hxold y hyold hxrequest hyrequest hid
    · obtain rfl := List.mem_singleton.mp hynew
      exact absurd hid (hrequest hyrequest x hxold)
    · obtain rfl := List.mem_singleton.mp hxnew
      exact absurd hid.symm (hrequest hxrequest y hyold)
    · rw [List.mem_singleton.mp hxnew, List.mem_singleton.mp hynew]
  · have hold : ∃ l, ∃ x ∈ events, x.method = bytes "REQUEST" ∧ IsReply env l x p := by
      rcases List.mem_append.mp hp with hp | hp
      · exact h.replies p hp hpreply
      · obtain rfl := List.mem_singleton.mp hp
        exact hreply hpreply
    obtain ⟨l, x, hx, hmade⟩ := hold
    exact ⟨l, x, List.mem_append_left _ hx, hmade⟩

/-- What a call publishes. -/
theorem isRequest_of_publish {d : Calls.Data M δ} {m : M} {request x : Event δ}
    {informer : Informer} (hscope : (d.informer m).scope = (env.informer m).scope)
    (hpublish : Calls.publish env.print d m request = .ok (informer, x)) :
    IsRequest env m request x ∧ informer.scope = (d.informer m).scope := by
  simp only [Calls.publish, Informer.checkedPublish] at hpublish
  split_ifs at hpublish
  obtain ⟨rfl, rfl⟩ := Prod.mk.inj (Except.ok.inj hpublish)
  exact ⟨⟨rfl, hscope, rfl, rfl⟩, rfl⟩

end

/-! ### The invariant -/

/-- What a thread knows of its call, or of the reply in its hand. -/
def Knows (asked : ℕ → Option (M × Event δ)) (events : List (Event δ)) : Calls.Point M δ → Prop
  | .call m future request | .publishing m future request => asked future = some (m, request)
  | .lookup _ event _ | .looking _ event _ | .completing event _ =>
      event ∈ events ∧ event.method = bytes "REPLY"
  | .recording _ _ _ | .idle => True

/-- The request of a future is among the events. -/
def Requested (env : Environment M L δ) (asked : ℕ → Option (M × Event δ))
    (events : List (Event δ)) (k : ℕ) (m : M) (id : EventId) : Prop :=
  ∃ request x, asked k = some (m, request) ∧ x ∈ events ∧ x.id = some id ∧
    IsRequest env m request x

/-- A future has been given what a reply says. -/
def Completed (env : Environment M L δ) (events : List (Event δ)) (c : Calls.Completion δ) :
    Prop :=
  c.event ∈ events ∧ c.event.method = bytes "REPLY" ∧
    RemoteMethod.outcome env.asString c.event = .ok c.outcome

structure Sound (env : Environment M L δ) (s : State M L T δ) : Prop where
  consistent : Calls.Consistent s.client
  scopes : ∀ m, (s.client.data.informer m).scope = (env.informer m).scope
  orderly : Orderly env s.events
  knows : ∀ t, Knows s.asked s.events (s.client.pc t)
  requested : ∀ k m id, s.client.data.requests k = some (m, id) →
    Requested env s.asked s.events k m id
  completed : ∀ c ∈ s.client.data.completions, Completed env s.events c

section

variable {env : Environment M L δ}

theorem sound_init : Sound env (init env : State M L T δ) :=
  ⟨Calls.consistent_init _, fun _ => rfl, orderly_nil, fun _ => trivial,
    fun _ _ _ h => (by cases h), fun _ h => (by cases h)⟩

theorem Knows.mono {asked asked' : ℕ → Option (M × Event δ)} {events events' : List (Event δ)}
    {p : Calls.Point M δ} (h : Knows asked events p)
    (hasked : ∀ k, Calls.carries p = some k → asked' k = asked k) (hevents : events ⊆ events') :
    Knows asked' events' p := by
  cases p with
  | call m k request => exact (hasked k rfl).trans h
  | publishing m k request => exact (hasked k rfl).trans h
  | lookup _ _ _ | looking _ _ _ | completing _ _ => exact ⟨hevents h.1, h.2⟩
  | recording _ _ _ | idle => trivial

variable [DecidableEq T]

/-- A step of the thread `t`. -/
theorem Sound.of_step {s : State M L T δ} (h : Sound env s) {t : T} {p : Calls.Point M δ}
    {d : Calls.Data M δ} {owner : M → Option T} {numbers : L → UInt32} {events : List (Event δ)}
    {asked : ℕ → Option (M × Event δ)}
    (hconsistent : Calls.Consistent (⟨Function.update s.client.pc t p, d, owner⟩ :
      Calls.State M T δ))
    (hscopes : ∀ m, (d.informer m).scope = (s.client.data.informer m).scope)
    (hasked : ∀ k < s.client.data.futures, asked k = s.asked k) (hevents : s.events ⊆ events)
    (horderly : Orderly env events) (hknows : Knows asked events p)
    (hrequested : ∀ k m id, d.requests k = some (m, id) →
      s.client.data.requests k = some (m, id) ∨ Requested env asked events k m id)
    (hcompleted : ∀ c ∈ d.completions, c ∈ s.client.data.completions ∨ Completed env events c) :
    Sound env (⟨⟨Function.update s.client.pc t p, d, owner⟩, numbers, events, asked⟩ :
      State M L T δ) where
  consistent := hconsistent
  scopes m := (hscopes m).trans (h.scopes m)
  orderly := horderly
  knows t' := by
    simp only [Function.update_apply]
    split_ifs with ht
    · exact hknows
    · exact (h.knows t').mono
        (fun k hk => hasked k (h.consistent.created k (.thread t') hk)) hevents
  requested k m id hk := by
    rcases hrequested k m id hk with hold | hnew
    · obtain ⟨request, x, hrequest, hx, hrest⟩ := h.requested k m id hold
      have hlt := h.consistent.requested k (by simp [hold])
      exact ⟨request, x, (hasked k hlt).trans hrequest, hevents hx, hrest⟩
    · exact hnew
  completed c hc := by
    rcases hcompleted c hc with hold | hnew
    · obtain ⟨hmem, hrest⟩ := h.completed c hold
      exact ⟨hevents hmem, hrest⟩
    · exact hnew

/-- A step that publishes nothing and asks for nothing. -/
theorem Sound.of_silent {s : State M L T δ} (h : Sound env s) {t : T} {p : Calls.Point M δ}
    {d : Calls.Data M δ} {owner : M → Option T}
    (hconsistent : Calls.Consistent (⟨Function.update s.client.pc t p, d, owner⟩ :
      Calls.State M T δ))
    (hinformer : d.informer = s.client.data.informer)
    (hrequests : d.requests = s.client.data.requests)
    (hknows : Knows s.asked s.events p)
    (hcompleted : ∀ c ∈ d.completions, c ∈ s.client.data.completions ∨ Completed env s.events c) :
    Sound env { s with client := ⟨Function.update s.client.pc t p, d, owner⟩ } :=
  h.of_step hconsistent (fun m => by rw [hinformer]) (fun _ _ => rfl) (List.Subset.refl _) h.orderly
    hknows (fun k m id hk => .inl (hrequests ▸ hk)) hcompleted

variable [DecidableEq M]

omit [DecidableEq T] [DecidableEq M] in
theorem published_eq_nil {c : Calls.State M T δ} {t : T} {a : Calls.Action M δ}
    (h : ∀ m k request, c.pc t ≠ .publishing m k request) : published env c t a = [] := by
  unfold published
  split
  · exact absurd ‹c.pc t = _› (h _ _ _)
  · exact absurd ‹c.pc t = _› (h _ _ _)
  · rfl

omit [DecidableEq T] [DecidableEq M] in
/-- The next request of a method, with an id that no event has. -/
theorem Sound.orderly_publish {s : State M L T δ} (h : Sound env s) {m : M} {request x : Event δ}
    {informer : Informer}
    (hfresh : ∀ e ∈ s.events, e.id ≠
      some ⟨(s.client.data.informer m).id, (s.client.data.informer m).currentSequenceNumber⟩)
    (hpublish : Calls.publish env.print s.client.data m request = .ok (informer, x)) :
    Orderly env (s.events ++ [x]) := by
  obtain ⟨hrequest, -⟩ := isRequest_of_publish (h.scopes m) hpublish
  have hid := Calls.publish_eq_ok hpublish
  refine h.orderly.append (fun _ e he => hid ▸ hfresh e he) fun hreply => ?_
  exact absurd (hrequest.method.symm.trans hreply) (by decide)

omit [DecidableEq T] [DecidableEq M] in
theorem Sound.calls_fresh {s : State M L T δ} (h : Sound env s) {t : T} {a : Calls.Action M δ}
    (ha : ∀ event, a ≠ .change event) (hfresh : Fresh s (.client t a)) :
    Calls.Fresh s.client (t, a) := by
  cases a with
  | go =>
      rw [Calls.Fresh]
      rw [Fresh] at hfresh
      split
      · next m k request hpc =>
          rw [hpc] at hfresh
          intro k' m' hk
          obtain ⟨-, x, -, hx, hid, -⟩ := h.requested k' m' _ hk
          exact hfresh x hx hid
      · trivial
  | call _ _ | handle _ _ | throws => trivial
  | change event => exact absurd rfl (ha event)

/-- A thread calls a method or goes on with what it does. -/
theorem Sound.client {s : State M L T δ} (h : Sound env s) {t : T} {a : Calls.Action M δ}
    {client : Calls.State M T δ} (ha : ∀ m event, a ≠ .handle m event)
    (hkeeps : ∀ event, a ≠ .change event)
    (hfresh : Fresh s (.client (L := L) t a))
    (hstep : (Calls.client env.print env.asString).step s.client (t, a) = some client) :
    Sound env { s with client, events := s.events ++ published env s.client t a,
                       asked := remember s a } := by
  have hconsistent := h.consistent.step (h.calls_fresh hkeeps hfresh) hstep
  obtain ⟨p, d, hnext, -, rfl⟩ := Program.step_eq_some hstep
  have hknows := h.knows t
  simp only [Calls.client] at hnext
  generalize hpc : s.client.pc t = q at hnext hknows
  cases q with
  | idle =>
      cases a with
      | call m request =>
          cases hnext
          rw [published_eq_nil (by simp [hpc]), List.append_nil]
          refine h.of_step hconsistent (fun _ => rfl) (fun k hk => ?_) (List.Subset.refl _)
            h.orderly (Function.update_self ..) (fun _ _ _ hk => .inl hk) fun _ hc => .inl hc
          exact Function.update_of_ne hk.ne _ _
      | handle m event => exact absurd rfl (ha m event)
      | go | throws | change _ => simp [Calls.next] at hnext
  | call m k request =>
      cases a <;> simp only [Calls.next, reduceCtorEq, Option.some.injEq, Prod.mk.injEq] at hnext
      obtain ⟨rfl, rfl⟩ := hnext
      rw [published_eq_nil (by simp [hpc]), List.append_nil]
      exact h.of_silent hconsistent rfl rfl hknows fun _ hc => .inl hc
  | publishing m k request =>
      simp only [Fresh, hpc] at hfresh
      cases hpublish : Calls.publish env.print s.client.data m request with
      | error f =>
          cases a <;> simp only [Calls.next, hpublish, reduceCtorEq, Option.some.injEq,
            Prod.mk.injEq] at hnext
          obtain ⟨rfl, rfl⟩ := hnext
          have hsilent : published env s.client t .go = [] := by simp [published, hpc, hpublish]
          rw [hsilent, List.append_nil]
          exact h.of_silent hconsistent rfl rfl trivial fun _ hc => .inl hc
      | ok r =>
          obtain ⟨informer, x⟩ := r
          obtain ⟨hrequest, hscope⟩ := isRequest_of_publish (h.scopes m) hpublish
          have hscopes (m' : M) : (Function.update s.client.data.informer m informer m').scope =
              (s.client.data.informer m').scope := by
            rw [Function.update_apply]
            split_ifs with hm
            · rw [hm, hscope]
            · rfl
          have horderly := h.orderly_publish hfresh hpublish
          cases a with
          | go =>
              simp only [Calls.next, hpublish, Option.some.injEq, Prod.mk.injEq] at hnext
              obtain ⟨rfl, rfl⟩ := hnext
              have hone : published env s.client t .go = [x] := by simp [published, hpc, hpublish]
              rw [hone]
              refine h.of_step hconsistent hscopes (fun _ _ => rfl) (List.subset_append_left _ _)
                horderly trivial (fun k' m' id hk => ?_) fun _ hc => .inl hc
              simp only [Function.update_apply] at hk
              split_ifs at hk with heq
              · obtain ⟨id', hid, hpair⟩ := Option.map_eq_some_iff.mp hk
                obtain ⟨rfl, rfl⟩ := Prod.mk.inj hpair
                exact .inr ⟨request, x, heq ▸ hknows, by simp, hid, hrequest⟩
              · exact .inl hk
          | throws =>
              simp only [Calls.next, hpublish, Option.some.injEq, Prod.mk.injEq] at hnext
              obtain ⟨rfl, rfl⟩ := hnext
              have hone : published env s.client t .throws = [x] := by
                simp [published, hpc, hpublish]
              rw [hone]
              exact h.of_step hconsistent hscopes (fun _ _ => rfl) (List.subset_append_left _ _)
                horderly trivial (fun _ _ _ hk => .inl hk) fun _ hc => .inl hc
          | call _ _ | handle _ _ | change _ => simp [Calls.next] at hnext
  | recording m k request =>
      cases a with
      | go =>
          simp only [Calls.next] at hnext
          rw [published_eq_nil (by simp [hpc]), List.append_nil]
          split at hnext <;> cases hnext <;>
            exact h.of_silent hconsistent rfl rfl trivial fun _ hc => .inl hc
      | change event => exact absurd rfl (hkeeps event)
      | call _ _ | handle _ _ | throws => simp [Calls.next] at hnext
  | lookup m event id =>
      cases a <;> simp only [Calls.next, reduceCtorEq, Option.some.injEq, Prod.mk.injEq] at hnext
      obtain ⟨rfl, rfl⟩ := hnext
      rw [published_eq_nil (by simp [hpc]), List.append_nil]
      exact h.of_silent hconsistent rfl rfl hknows fun _ hc => .inl hc
  | looking m event id =>
      cases a <;> simp only [Calls.next, reduceCtorEq] at hnext
      rw [published_eq_nil (by simp [hpc]), List.append_nil]
      split at hnext <;> cases hnext
      · exact h.of_silent hconsistent rfl rfl trivial fun _ hc => .inl hc
      · exact h.of_silent hconsistent rfl rfl hknows fun _ hc => .inl hc
  | completing event k =>
      cases a <;> simp only [Calls.next, reduceCtorEq] at hnext
      rw [published_eq_nil (by simp [hpc]), List.append_nil]
      split at hnext
      · cases hnext
      · next outcome houtcome =>
          cases hnext
          refine h.of_silent hconsistent rfl rfl trivial fun c hc => ?_
          rcases List.mem_append.mp hc with hold | hnew
          · exact .inl hold
          · obtain rfl := List.mem_singleton.mp hnew
            exact .inr ⟨hknows.1, hknows.2, houtcome⟩

/-- A reply reaches a remote method. -/
theorem Sound.deliver {s : State M L T δ} (h : Sound env s) {t : T} {m : M} {event : Event δ}
    {client : Calls.State M T δ} (hevent : event ∈ s.events)
    (hreply : event.method = bytes "REPLY")
    (hstep : (Calls.client env.print env.asString).step s.client (t, .handle m (some event)) =
      some client) : Sound env { s with client } := by
  have hfresh : Calls.Fresh s.client (t, .handle m (some event)) := trivial
  have hconsistent := h.consistent.step hfresh hstep
  obtain ⟨p, d, hnext, -, rfl⟩ := Program.step_eq_some hstep
  simp only [Calls.client] at hnext
  generalize s.client.pc t = q at hnext
  cases q with
  | idle =>
      simp only [Calls.next] at hnext
      split at hnext
      · next e id heq _ =>
          obtain rfl := Option.some.inj heq
          cases hnext
          exact h.of_silent hconsistent rfl rfl ⟨hevent, hreply⟩ fun _ hc => .inl hc
      · cases hnext
        exact h.of_silent hconsistent rfl rfl trivial fun _ hc => .inl hc
  | _ => simp [Calls.next] at hnext

omit [DecidableEq T] [DecidableEq M] in
/-- An event is published by somebody else than a thread with a call. -/
theorem Sound.append {s : State M L T δ} (h : Sound env s) {event : Event δ}
    (hevent : Orderly env (s.events ++ [event])) (numbers : L → UInt32) :
    Sound env { s with numbers, events := s.events ++ [event] } where
  consistent := h.consistent
  scopes := h.scopes
  orderly := hevent
  knows t := (h.knows t).mono (fun _ _ => rfl) (List.subset_append_left _ _)
  requested k m id hk := by
    obtain ⟨request, x, hasked, hx, hrest⟩ := h.requested k m id hk
    exact ⟨request, x, hasked, List.mem_append_left _ hx, hrest⟩
  completed c hc := by
    obtain ⟨hmem, hrest⟩ := h.completed c hc
    exact ⟨List.mem_append_left _ hmem, hrest⟩

theorem match_eq_true {method : Bytes} {event : Event δ} :
    (⟨method, false⟩ : MethodFilter).match event = true ↔ event.method = method := by
  show (method == event.method) = true ↔ event.method = method
  rw [beq_iff_eq, eq_comm]

theorem Sound.step [DecidableEq L] {s s' : State M L T δ} {label : Label M L T δ} (h : Sound env s)
    (hfresh : Fresh s label) (hstep : RemoteCalls.step env s label = some s') : Sound env s' := by
  cases label with
  | client t a =>
      cases a with
      | handle m event => cases hstep
      | change event => cases hstep
      | call _ _ | go | throws =>
          obtain ⟨client, hclient, rfl⟩ := Option.map_eq_some_iff.mp hstep
          exact h.client (by simp) (by simp) hfresh hclient
  | deliver t m n =>
      simp only [RemoteCalls.step] at hstep
      split at hstep
      · cases hstep
      · next event hevent =>
          split_ifs at hstep with hguard
          rw [Bool.and_eq_true] at hguard
          obtain ⟨client, hclient, rfl⟩ := Option.map_eq_some_iff.mp hstep
          exact h.deliver (List.mem_of_getElem? hevent) (match_eq_true.mp hguard.1) hclient
  | serve l n now =>
      simp only [RemoteCalls.step] at hstep
      split at hstep
      · cases hstep
      · next event hevent =>
          split_ifs at hstep with hguard
          rw [Bool.and_eq_true] at hguard
          split at hstep
          · next informer reply houtcome =>
              cases hstep
              have hreply := isReply_of_published hguard.2 houtcome
              refine h.append (h.orderly.append (fun hrequest => ?_) fun _ => ?_) _
              · exact absurd (hreply.method.symm.trans hrequest) (by decide)
              · exact ⟨l, event, List.mem_of_getElem? hevent, match_eq_true.mp hguard.1, hreply⟩
          · cases hstep
            exact h
  | other event =>
      simp only [RemoteCalls.step] at hstep
      split_ifs at hstep with hguard
      obtain ⟨hrequest, hreply⟩ := not_or.mp hguard
      cases hstep
      exact h.append (h.orderly.append (fun hr => absurd hr hrequest) fun hr => absurd hr hreply) _

/-- What comes back from a remote call is what the callback of a local method on the scope of the
remote method, or above it, returned for the argument of this call, or the error it ended with;
and nothing comes back twice. -/
theorem calls_return [DecidableEq L] (env : Environment M L δ)
    (hplain : ∀ l, Plain (env.method l).callback) {s : State M L T δ}
    {labels : List (Label M L T δ)}
    (hfresh : Along (RemoteCalls.step env) Fresh (init env) labels)
    (hrun : exec (RemoteCalls.step env) (init env) labels = some s) :
    (s.client.data.completions.map (·.future)).Nodup ∧
      ∀ c ∈ s.client.data.completions, ∃ m request x l,
        s.asked c.future = some (m, request) ∧ IsRequest env m request x ∧
        (env.method l).scope.covers x.scope = true ∧ (env.method l).Accepts x ∧
        Returns env l x c.outcome := by
  have h : Sound env s :=
    exec_invariant_along (fun _ _ _ hs hf hstep => hs.step hf hstep) sound_init hfresh hrun
  refine ⟨h.consistent.completions_nodup, fun c hc => ?_⟩
  obtain ⟨hevent, hreply, houtcome⟩ := h.completed c hc
  obtain ⟨l, x, hx, hrequest, hmade⟩ := h.orderly.replies c.event hevent hreply
  obtain ⟨m, id, hid, hcause⟩ := h.consistent.completed c hc
  obtain ⟨hreturns, hcauses⟩ := hmade.returns (hplain l) houtcome
  obtain ⟨request, y, hasked, hy, hyid, hyrequest⟩ := h.requested c.future m id hid
  -- the request that the reply answers is the one of this call, since it has its id
  obtain rfl := h.orderly.unique x hx y hy hrequest hyrequest.method
    ((hcauses id hcause).trans hyid.symm)
  exact ⟨m, request, x, l, hasked, hyrequest, hmade.covers, hmade.accepts, hreturns⟩

end

/-- The method that returns the string it is given, and one that calls it. -/
def echo : Environment Unit Unit Bytes where
  informer _ := ⟨RemoteMethod.client, LocalMethod.innerMethod.scope, [], 5⟩
  method _ := LocalMethod.innerMethod
  typeName _ := bytes "exception"
  ofString s := s
  asString s := s
  print := Calls.printer

theorem calls_return_echo :
    ∃ (s : State Unit Unit Unit Bytes) (c : Calls.Completion Bytes) (x : Event Bytes),
      Reachable (step echo) (init echo) s ∧ s.client.data.completions = [c] ∧
        x.content = some (bytes "hi") ∧ Returns echo () x c.outcome := by
  let request : Event Bytes :=
    ((Event.new 0 : Event Bytes).setType stringType).setData (some (bytes "hi"))
  let labels : List (Label Unit Unit Unit Bytes) :=
    [.client () (.call () request), .client () .go, .client () .go, .client () .go, .serve () 0 9,
      .deliver () () 1, .client () .go, .client () .go, .client () .go]
  obtain ⟨s, c, hs, hcompletions, hasked⟩ : ∃ s c, exec (step echo) (init echo) labels = some s ∧
      s.client.data.completions = [c] ∧ s.asked c.future = some ((), request) :=
    ⟨_, _, rfl, rfl, rfl⟩
  have hfresh : Along (step echo) Fresh (init echo) labels := by
    refine (along_cons rfl).mpr ⟨trivial, ?_⟩
    refine (along_cons rfl).mpr ⟨trivial, ?_⟩
    refine (along_cons rfl).mpr ⟨fun e he => absurd he List.not_mem_nil, ?_⟩
    refine (along_cons rfl).mpr ⟨trivial, ?_⟩
    refine (along_cons rfl).mpr ⟨trivial, ?_⟩
    refine (along_cons rfl).mpr ⟨trivial, ?_⟩
    refine (along_cons rfl).mpr ⟨trivial, ?_⟩
    refine (along_cons rfl).mpr ⟨trivial, ?_⟩
    exact (along_cons rfl).mpr ⟨trivial, trivial⟩
  obtain ⟨-, hreturns⟩ := calls_return echo (fun _ => trivial) hfresh hs
  obtain ⟨m, request', x, l, hasked', hrequest, -, -, hreturn⟩ :=
    hreturns c (hcompletions ▸ List.mem_cons_self)
  obtain ⟨-, rfl⟩ := Prod.mk.inj (Option.some.inj (hasked.symm.trans hasked'))
  exact ⟨s, c, x, ⟨_, hs⟩, hcompletions, hrequest.content, hreturn⟩

end Rsb.Patterns.RemoteCalls
