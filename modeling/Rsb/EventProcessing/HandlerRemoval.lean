import Rsb.EventProcessing.ConcurrentCalls

/-!
What a run of calls of the direct strategy keeps.

If no iterator is at an entry that is taken out and changes do not overlap, then handlers
are invoked exactly as callers expect. The mutex sees to neither: a handler may be
removed while another call has its pointer.
-/

namespace Rsb.EventProcessing.HandlerRemoval

open Library
open ParticipantConfig (ErrorStrategy)

variable {F H δ C : Type}

/-! ### The invariant -/

structure Inv [LinearOrder F] (s : State F H δ C) : Prop where
  defined : s.undefined = false
  nodup : (s.entries.map Entry.node).Nodup
  fresh : ∀ x ∈ s.entries, x.node < s.nodes
  members : ∀ h, Present h s.log ↔ ∃ x ∈ s.entries, x.handler = h
  calls : ∀ c, Valid s.entries s.log c (s.call c)
  /-- Who is invoked is in the list. -/
  registered : ∀ c h before, .invoked c h :: before <:+ s.log → Present h before
  /-- Who has got to the end owes nothing. -/
  reached : ∀ c before, .finished c :: before <:+ s.log → Owes before c []

variable [LinearOrder F]

theorem inv_init (strategy : ErrorStrategy) : Inv (State.init strategy : State F H δ C) where
  defined := rfl
  nodup := List.nodup_nil
  fresh := nofun
  members h := by simp [State.init, Present]
  calls c := ⟨trivial, nofun⟩
  registered c h before hsuffix := by simp [State.init] at hsuffix
  reached c before hsuffix := by simp [State.init] at hsuffix

variable [DecidableEq C]

section

variable {s s' : State F H δ C} {c : C} {p : Point H δ}

/-- A call goes on and nothing of note happens. -/
theorem Inv.goto (hinv : Inv s) (hdefined : s'.undefined = s.undefined)
    (hentries : s'.entries = s.entries) (hnodes : s'.nodes = s.nodes) (hlog : s'.log = s.log)
    (hcall : s'.call = Function.update s.call c p) (hvalid : Valid s.entries s.log c p) :
    Inv s' := by
  refine ⟨hdefined.trans hinv.defined, hentries ▸ hinv.nodup, ?_, ?_, fun k => ?_, ?_, ?_⟩
  · rw [hentries, hnodes]; exact hinv.fresh
  · rw [hentries, hlog]; exact hinv.members
  · rw [hentries, hlog, hcall]
    by_cases hk : k = c
    · subst hk
      rwa [Function.update_self]
    · rw [Function.update_of_ne hk]
      exact hinv.calls k
  · rw [hlog]; exact hinv.registered
  · rw [hlog]; exact hinv.reached

/-- A call goes on and something is observed. -/
theorem Inv.record (hinv : Inv s) {o : Obs H C} (hdefined : s'.undefined = s.undefined)
    (hlog : s'.log = o :: s.log) (hcall : s'.call = Function.update s.call c p)
    (hnodup : (s'.entries.map Entry.node).Nodup) (hfresh : ∀ x ∈ s'.entries, x.node < s'.nodes)
    (hmembers : ∀ h, Present h (o :: s.log) ↔ ∃ x ∈ s'.entries, x.handler = h)
    (hothers : ∀ k, k ≠ c → Valid s'.entries (o :: s.log) k (s.call k))
    (hvalid : Valid s'.entries (o :: s.log) c p)
    (hinvoked : ∀ k h, o = .invoked k h → Present h s.log)
    (hfinished : ∀ k, o = .finished k → Owes s.log k []) : Inv s' := by
  refine ⟨hdefined.trans hinv.defined, hnodup, hfresh, ?_, fun k => ?_, ?_, ?_⟩
  · rw [hlog]; exact hmembers
  · rw [hlog, hcall]
    by_cases hk : k = c
    · subst hk
      rwa [Function.update_self]
    · rw [Function.update_of_ne hk]
      exact hothers k hk
  · intro k h before hsuffix
    rw [hlog, List.suffix_cons_iff] at hsuffix
    rcases hsuffix with heq | hsuffix
    · obtain ⟨rfl, rfl⟩ := List.cons.inj heq
      exact hinvoked k h rfl
    · exact hinv.registered k h before hsuffix
  · intro k before hsuffix
    rw [hlog, List.suffix_cons_iff] at hsuffix
    rcases hsuffix with heq | hsuffix
    · obtain ⟨rfl, rfl⟩ := List.cons.inj heq
      exact hfinished k rfl
    · exact hinv.reached k before hsuffix

/-- A call goes on and something is observed that leaves the list as it is. -/
theorem Inv.observe (hinv : Inv s) {o : Obs H C} (hdefined : s'.undefined = s.undefined)
    (hlog : s'.log = o :: s.log) (hcall : s'.call = Function.update s.call c p)
    (hentries : s'.entries = s.entries) (hnodes : s'.nodes = s.nodes)
    (hpresent : ∀ h, Present h (o :: s.log) ↔ Present h s.log)
    (hstart : ∀ k, o = .started k → k = c) (hvalid : Valid s.entries (o :: s.log) c p)
    (hinvoked : ∀ k h, o = .invoked k h → Present h s.log)
    (hfinished : ∀ k, o = .finished k → Owes s.log k []) : Inv s' := by
  refine hinv.record hdefined hlog hcall ?_ ?_ ?_ ?_ ?_ hinvoked hfinished
  · exact hentries ▸ hinv.nodup
  · rw [hentries, hnodes]; exact hinv.fresh
  · intro h
    rw [hentries, hpresent]
    exact hinv.members h
  · intro k hk
    rw [hentries]
    exact (hinv.calls k).cons fun heq => hk (hstart k heq)
  · rwa [hentries]

/-- A new handler at the end of the list. -/
theorem Inv.link (hinv : Inv s) {handler : H} :
    Inv { (s.setEntries (s.entries ++ [⟨s.nodes, handler⟩]) (s.nodes + 1)).observe
      (.linked handler) with call := Function.update s.call c .added } := by
  refine hinv.record rfl rfl rfl ?_ ?_ ?_ (fun k _ => ?_) ⟨trivial, nofun⟩ nofun nofun
  · show ((s.entries ++ [_]).map Entry.node).Nodup
    rw [List.map_append, List.nodup_append]
    refine ⟨hinv.nodup, List.nodup_singleton _, fun node hnode node' hnew => ?_⟩
    obtain ⟨x, hx, rfl⟩ := List.mem_map.mp hnode
    obtain rfl := List.mem_singleton.mp hnew
    exact (hinv.fresh x hx).ne
  · intro x hx
    show x.node < s.nodes + 1
    rcases List.mem_append.mp hx with hold | hnew
    · exact (hinv.fresh x hold).trans (Nat.lt_succ_self _)
    · obtain rfl := List.mem_singleton.mp hnew
      exact Nat.lt_succ_self _
  · intro h
    show handler = h ∨ Present h s.log ↔ ∃ x ∈ s.entries ++ [⟨s.nodes, handler⟩], x.handler = h
    simp [hinv.members, or_and_right, exists_or, or_comm]
  · exact ((hinv.calls k).append _).cons nofun

end

section

variable [DecidableEq H] {b : Behaviour F H δ} {now : UInt64} {s s' : State F H δ C}

theorem go_of_next {c : C} {q : Point H δ} {a : Action F H δ} {r : State F H δ C × Point H δ}
    (hq : q ≠ .idle) (hnext : next b now s c q a = some r) : a = .go := by
  unfold next at hnext
  split at hnext <;> first | rfl | exact absurd rfl hq | cases hnext

/-- The steps of a call of `handle`. -/
theorem Inv.step_handle (hinv : Inv s) {c : C} {q p : Point H δ} {l : List (Entry H)}
    (hcall : s.call c = q) (hleft : left s.entries q = some l) {s₁ : State F H δ C}
    (hnext : next b now s c q .go = some (s₁, p)) :
    Inv { s₁ with call := Function.update s₁.call c p } := by
  obtain ⟨hplace, howes⟩ := hcall ▸ hinv.calls c
  cases q with
  | handle event =>
      obtain ⟨s₂, hlock, heq⟩ := Option.map_eq_some_iff.mp hnext
      obtain ⟨rfl, rfl⟩ := Prod.mk.inj heq
      obtain ⟨m, -, rfl⟩ := Option.map_eq_some_iff.mp hlock
      exact hinv.goto rfl rfl rfl rfl rfl ⟨trivial, howes⟩
  | handling event =>
      simp only [next] at hnext
      split at hnext
      · simp at hnext
      · obtain ⟨rfl, rfl⟩ := Prod.mk.inj (Option.some.inj hnext)
        exact hinv.goto rfl rfl rfl rfl rfl ⟨trivial, nofun⟩
      · obtain ⟨rfl, rfl⟩ := Prod.mk.inj (Option.some.inj hnext)
        refine hinv.goto rfl rfl rfl rfl rfl ⟨?_, ?_⟩
        · exact at_begin List.suffix_rfl
        · rintro l ⟨⟩
          rw [ahead_begin hinv.nodup List.suffix_rfl]
          exact howes _ rfl
  | iterating event iterator =>
      cases iterator with
      | none =>
          obtain ⟨rfl, rfl⟩ := Prod.mk.inj (Option.some.inj hnext)
          refine hinv.observe rfl rfl rfl rfl rfl (fun _ => Iff.rfl) nofun ⟨trivial, nofun⟩ nofun ?_
          rintro k ⟨⟩
          exact howes _ rfl
      | some node =>
          simp only [next] at hnext
          split at hnext
          · next hfind =>
              -- the place of the iterator is in the list
              obtain ⟨x, hx, hnode⟩ := hplace
              exact absurd hnode (by simpa using List.find?_eq_none.mp hfind x hx)
          · next entry hfind =>
              obtain ⟨rfl, rfl⟩ := Prod.mk.inj (Option.some.inj hnext)
              obtain rfl : entry.node = node := by simpa using List.find?_some hfind
              exact hinv.goto rfl rfl rfl rfl rfl ⟨List.mem_of_find?_eq_some hfind, howes⟩
  | delivering event node handler =>
      obtain ⟨rfl, rfl⟩ := Prod.mk.inj (Option.some.inj hnext)
      have howes := howes _ rfl
      obtain ⟨x, rest, hahead, hx, hnode⟩ := ahead_eq_cons ⟨_, hplace, rfl⟩
      obtain rfl := List.inj_on_of_nodup_map hinv.nodup hx hplace hnode
      refine hinv.observe rfl rfl rfl rfl rfl (fun _ => Iff.rfl) nofun ⟨hplace, ?_⟩ ?_ nofun
      · rintro l ⟨⟩
        rw [hahead] at howes ⊢
        refine howes.cons nofun fun y hy => ?_
        rcases List.mem_cons.mp hy with rfl | hrest
        · exact .inl rfl
        · exact .inr (.inr hrest)
      · rintro k h ⟨⟩
        exact (hinv.members handler).mpr ⟨_, hplace, rfl⟩
  | running event node handler =>
      simp only [next] at hnext
      split at hnext
      · simp at hnext
      · rw [if_pos (List.any_eq_true.mpr ⟨_, hplace, by simp⟩)] at hnext
        obtain ⟨rfl, rfl⟩ := Prod.mk.inj (Option.some.inj hnext)
        have hpart : (ahead s.entries (some node)).tail <:+ s.entries :=
          (List.tail_suffix _).trans (ahead_suffix _ _)
        refine hinv.goto rfl rfl rfl rfl rfl ⟨at_begin hpart, ?_⟩
        rintro l ⟨⟩
        exact (ahead_begin hinv.nodup hpart).symm ▸ howes _ rfl
  | _ => simp [left] at hleft

/-- A handler is taken out that no call in progress is about to invoke. -/
theorem Inv.unlink (hinv : Inv s) {c : C} {handler : H}
    (hoff : ∀ k, ¬On s.entries handler (s.call k)) :
    Inv { (s.setEntries (s.entries.filter fun x => x.handler ≠ handler) s.nodes).observe
      (.unlinked c handler) with call := Function.update s.call c (.removed handler) } := by
  refine hinv.record rfl rfl rfl ?_ ?_ ?_ (fun k _ => ?_) ⟨trivial, nofun⟩ nofun nofun
  · exact hinv.nodup.sublist (List.filter_sublist.map _)
  · exact fun x hx => hinv.fresh x (List.mem_of_mem_filter hx)
  · intro h
    show handler ≠ h ∧ Present h s.log ↔
      ∃ x ∈ s.entries.filter (fun x => x.handler ≠ handler), x.handler = h
    rw [hinv.members]
    constructor
    · rintro ⟨hne, x, hx, rfl⟩
      exact ⟨x, List.mem_filter.mpr ⟨hx, by simpa using Ne.symm hne⟩, rfl⟩
    · rintro ⟨x, hx, rfl⟩
      obtain ⟨hx, hne⟩ := List.mem_filter.mp hx
      exact ⟨by simpa using Ne.symm (of_decide_eq_true hne), x, hx, rfl⟩
  · exact (hinv.calls k).filter hinv.nodup (hoff k)

/-- A step that is calm keeps the invariant. -/
theorem Inv.step (hinv : Inv s) {l : C × Action F H δ} (hcalm : Calm s l)
    (hstep : HandlerRemoval.step b now s l = some s') : Inv s' := by
  obtain ⟨c, a⟩ := l
  simp only [HandlerRemoval.step, hinv.defined] at hstep
  obtain ⟨⟨s₁, p⟩, hnext, rfl⟩ := Option.map_eq_some_iff.mp hstep
  cases hq : s.call c with
  | idle =>
      rw [hq] at hnext
      cases a with
      | handle event =>
          obtain ⟨rfl, rfl⟩ := Prod.mk.inj (Option.some.inj hnext)
          refine hinv.observe rfl rfl rfl rfl rfl (fun _ => Iff.rfl) ?_ ⟨trivial, ?_⟩ nofun nofun
          · rintro k ⟨⟩; rfl
          · rintro l ⟨⟩
            exact owes_started fun h => (hinv.members h).mp
      | go => simp [next] at hnext
      | _ =>
          obtain ⟨rfl, rfl⟩ := Prod.mk.inj (Option.some.inj hnext)
          exact hinv.goto rfl rfl rfl rfl rfl ⟨trivial, nofun⟩
  | handle event | handling event | iterating event iterator | delivering event node handler
  | running event node handler =>
      rw [hq] at hnext
      obtain rfl := go_of_next (by simp) hnext
      exact hinv.step_handle hq rfl hnext
  | linking handler found =>
      rw [hq] at hnext
      obtain rfl := go_of_next (by simp) hnext
      obtain rfl : s.entries = found := by simpa [Calm, CalmAt, hq] using hcalm
      obtain ⟨rfl, rfl⟩ := Prod.mk.inj (Option.some.inj hnext)
      exact hinv.link
  | unlinking handler found =>
      rw [hq] at hnext
      obtain rfl := go_of_next (by simp) hnext
      obtain ⟨rfl, hoff⟩ : s.entries = found ∧ ∀ k, ¬On s.entries handler (s.call k) := by
        simpa [Calm, CalmAt, hq] using hcalm
      obtain ⟨rfl, rfl⟩ := Prod.mk.inj (Option.some.inj hnext)
      exact hinv.unlink hoff
  | removed handler =>
      rw [hq] at hnext
      obtain rfl := go_of_next (by simp) hnext
      obtain ⟨rfl, rfl⟩ := Prod.mk.inj (Option.some.inj hnext)
      exact hinv.observe rfl rfl rfl rfl rfl (fun _ => Iff.rfl) nofun ⟨trivial, nofun⟩ nofun nofun
  | adding | added | removing =>
      rw [hq] at hnext
      obtain rfl := go_of_next (by simp) hnext
      obtain ⟨rfl, rfl⟩ := Prod.mk.inj (Option.some.inj hnext)
      exact hinv.goto rfl rfl rfl rfl rfl ⟨trivial, nofun⟩
  | add | remove =>
      rw [hq] at hnext
      obtain rfl := go_of_next (by simp) hnext
      obtain ⟨s₂, hlock, heq⟩ := Option.map_eq_some_iff.mp hnext
      obtain ⟨rfl, rfl⟩ := Prod.mk.inj heq
      obtain ⟨m, -, rfl⟩ := Option.map_eq_some_iff.mp hlock
      exact hinv.goto rfl rfl rfl rfl rfl ⟨trivial, nofun⟩

end

/-! ### A call that is let run -/

section

variable {s : State F H δ C}

/-- What stays as it is while a call goes through the list. -/
structure Same (s s' : State F H δ C) : Prop where
  inv : Inv s'
  entries : s'.entries = s.entries
  strategy : s'.strategy = s.strategy

omit [DecidableEq C] in
theorem Same.exit {s' : State F H δ C} (h : Same s s') (hexit : s.errorStrategy ≠ .exit) :
    s'.errorStrategy ≠ .exit := by
  have hstrategy : s'.errorStrategy = s.errorStrategy :=
    congrArg DirectEventReceivingStrategy.errorStrategy h.strategy
  rwa [hstrategy]

variable [DecidableEq H] (b : Behaviour F H δ) (now : UInt64) {c : C}

theorem step_eq_some {q p : Point H δ} {a : Action F H δ} {s₁ : State F H δ C}
    (hdefined : s.undefined = false) (hcall : s.call c = q)
    (hnext : next b now s c q a = some (s₁, p)) :
    HandlerRemoval.step b now s (c, a) =
      some { s₁ with call := Function.update s₁.call c p } := by
  simp [HandlerRemoval.step, hdefined, hcall, hnext]

theorem step_running (hinv : Inv s) (hexit : s.errorStrategy ≠ .exit) {event : Event δ}
    {node : ℕ} {handler : H} (hcall : s.call c = .running event node handler) :
    ∃ s', HandlerRemoval.step b now s (c, .go) = some s' ∧ Same s s' ∧ s'.log = s.log ∧
      s'.call c = .iterating event (successor s.entries node) := by
  obtain ⟨hplace, -⟩ := hcall ▸ hinv.calls c
  have hdeliver : s.strategy.deliver b handler event = some () :=
    DirectEventReceivingStrategy.deliver_eq b hexit handler event
  have hany : s.entries.any (fun x => x.node = node) = true :=
    List.any_eq_true.mpr ⟨_, hplace, by simp⟩
  have hnext : next b now s c (.running event node handler) .go =
      some (s, .iterating event (successor s.entries node)) := by
    simp [next, hdeliver, hany]
  have hstep := step_eq_some b now hinv.defined hcall hnext
  exact ⟨_, hstep, ⟨hinv.step (by simp [Calm, CalmAt, hcall]) hstep, rfl, rfl⟩, rfl,
    Function.update_self ..⟩

theorem exec_delivering (hinv : Inv s) (hexit : s.errorStrategy ≠ .exit) {event : Event δ}
    {node : ℕ} {handler : H} (hcall : s.call c = .delivering event node handler) :
    ∃ s', exec (HandlerRemoval.step b now) s (List.replicate 2 (c, .go)) = some s' ∧ Same s s' ∧
      s'.log = .invoked c handler :: s.log ∧
      s'.call c = .iterating event (successor s.entries node) := by
  have hstep := step_eq_some b now (a := .go) hinv.defined hcall rfl
  have hinv₁ := hinv.step (by simp [Calm, CalmAt, hcall]) hstep
  obtain ⟨s', hstep', hsame, hlog, hcall'⟩ :=
    step_running b now hinv₁ hexit (Function.update_self ..)
  refine ⟨s', ?_, ⟨hsame.inv, hsame.entries, hsame.strategy⟩, hlog, hcall'⟩
  exact exec_cons_eq_some.mpr ⟨_, hstep, exec_cons_eq_some.mpr ⟨_, hstep', rfl⟩⟩

/-- From an entry to the next one. -/
theorem exec_entry (hinv : Inv s) (hexit : s.errorStrategy ≠ .exit) {event : Event δ}
    {x : Entry H} {rest : List (Entry H)} (hpart : x :: rest <:+ s.entries)
    (hcall : s.call c = .iterating event (begin (x :: rest))) :
    ∃ s', exec (HandlerRemoval.step b now) s (List.replicate 3 (c, .go)) = some s' ∧ Same s s' ∧
      s'.log = .invoked c x.handler :: s.log ∧ s'.call c = .iterating event (begin rest) := by
  have hx : x ∈ s.entries := hpart.subset List.mem_cons_self
  have hfind : s.entries.find? (fun y => y.node = x.node) = some x := by
    cases hfind : s.entries.find? (fun y => y.node = x.node) with
    | none => simpa using List.find?_eq_none.mp hfind x hx
    | some y =>
        have hnode : y.node = x.node := by simpa using List.find?_some hfind
        rw [List.inj_on_of_nodup_map hinv.nodup (List.mem_of_find?_eq_some hfind) hx hnode]
  have hnext : next b now s c (.iterating event (begin (x :: rest))) .go =
      some (s, .delivering event x.node x.handler) := by
    simp [next, begin, hfind]
  have hstep := step_eq_some b now hinv.defined hcall hnext
  have hinv₁ := hinv.step (by simp [Calm, CalmAt, hcall]) hstep
  obtain ⟨s', hrun, hsame, hlog, hcall'⟩ :=
    exec_delivering b now hinv₁ hexit (Function.update_self ..)
  have hsuccessor : successor s.entries x.node = begin rest := by
    have hahead : ahead s.entries (some x.node) = x :: rest := ahead_begin hinv.nodup hpart
    exact congrArg (fun l => begin l.tail) hahead
  exact ⟨s', exec_cons_eq_some.mpr ⟨_, hstep, hrun⟩,
    ⟨hsame.inv, hsame.entries, hsame.strategy⟩, hlog, hcall'.trans (by rw [← hsuccessor])⟩

/-- What is invoked for a part of the list, the last first. -/
def invocations (c : C) (part : List (Entry H)) : List (Obs H C) :=
  (part.map fun x => .invoked c x.handler).reverse

/-- The loop to its end. -/
theorem exec_iterating (hinv : Inv s) (hexit : s.errorStrategy ≠ .exit) {event : Event δ}
    {part : List (Entry H)} (hpart : part <:+ s.entries)
    (hcall : s.call c = .iterating event (begin part)) :
    ∃ n s', exec (HandlerRemoval.step b now) s (List.replicate n (c, .go)) = some s' ∧ Inv s' ∧
      s'.log = .finished c :: (invocations c part ++ s.log) ∧ s'.call c = .idle := by
  induction part generalizing s with
  | nil =>
      have hstep := step_eq_some b now (a := .go) hinv.defined hcall rfl
      exact ⟨1, _, exec_cons_eq_some.mpr ⟨_, hstep, rfl⟩,
        hinv.step (by simp [Calm, CalmAt, hcall]) hstep, rfl, Function.update_self ..⟩
  | cons x part ih =>
      obtain ⟨s₁, hrun₁, hsame, hlog₁, hcall₁⟩ :=
        exec_entry b now hinv hexit hpart hcall
      have hpart₁ : part <:+ s₁.entries := hsame.entries ▸ (List.suffix_cons x part).trans hpart
      obtain ⟨n, s', hrun, hinv', hlog, hcall'⟩ :=
        ih hsame.inv (hsame.exit hexit) hpart₁ hcall₁
      refine ⟨3 + n, s', ?_, hinv', ?_, hcall'⟩
      · rw [List.replicate_add]
        exact exec_append hrun₁ hrun
      · simp [hlog, hlog₁, invocations]

theorem step_handle (hinv : Inv s) (hfree : s.handlerMutex.unique = none) {event : Event δ}
    (hcall : s.call c = .handle event) :
    ∃ s', HandlerRemoval.step b now s (c, .go) = some s' ∧ Same s s' ∧ s'.log = s.log ∧
      s'.call c = .handling event := by
  obtain ⟨m, hm⟩ : ∃ m, s.handlerMutex.lock c .shared = some m := ⟨_, dif_pos (by simp [hfree])⟩
  have hnext : next b now s c (.handle event) .go =
      some ({ s with handlerMutex := m }, .handling event) := by
    simp [next, State.lock, hm]
  have hstep := step_eq_some b now hinv.defined hcall hnext
  exact ⟨_, hstep, ⟨hinv.step (by simp [Calm, CalmAt, hcall]) hstep, rfl, rfl⟩, rfl,
    Function.update_self ..⟩

theorem step_handling (hinv : Inv s) {event : Event δ} (hcall : s.call c = .handling event)
    (hfilter : s.strategy.filter b (event.modifyMetaData (·.setDeliverTime now now)) =
      some true) :
    ∃ s', HandlerRemoval.step b now s (c, .go) = some s' ∧ Same s s' ∧ s'.log = s.log ∧
      s'.call c = .iterating (event.modifyMetaData (·.setDeliverTime now now))
        (begin s.entries) := by
  have hnext : next b now s c (.handling event) .go = some (s, .iterating
      (event.modifyMetaData (·.setDeliverTime now now)) (begin s.entries)) := by
    simp [next, hfilter]
  have hstep := step_eq_some b now hinv.defined hcall hnext
  exact ⟨_, hstep, ⟨hinv.step (by simp [Calm, CalmAt, hcall]) hstep, rfl, rfl⟩, rfl,
    Function.update_self ..⟩

/-- Uninterrupted calls do what the strategy does without locks. -/
theorem exec_handle (hinv : Inv s) (hexit : s.errorStrategy ≠ .exit)
    (hfree : s.handlerMutex.unique = none) (hidle : s.call c = .idle) {event : Event δ}
    (hfilter : s.strategy.filter b (event.modifyMetaData (·.setDeliverTime now now)) =
      some true) :
    ∃ n s', exec (HandlerRemoval.step b now) s
        ((c, .handle event) :: List.replicate n (c, .go)) = some s' ∧
      s'.log = .finished c :: (((s.strategy.handle b now event).map (.invoked c)).reverse ++
        .started c :: s.log) ∧ s'.call c = .idle := by
  have hstep₁ := step_eq_some b now (a := .handle event) hinv.defined hidle rfl
  have hinv₁ := hinv.step (by simp [Calm, CalmAt, hidle]) hstep₁
  obtain ⟨s₂, hstep₂, hsame₂, hlog₂, hcall₂⟩ :=
    step_handle b now hinv₁ hfree (Function.update_self ..)
  obtain ⟨s₃, hstep₃, hsame₃, hlog₃, hcall₃⟩ :=
    step_handling b now hsame₂.inv hcall₂ (hsame₂.strategy ▸ hfilter)
  have hpart : s₂.entries <:+ s₃.entries := hsame₃.entries ▸ List.suffix_rfl
  obtain ⟨n, s', hrun, -, hlog, hcall⟩ := exec_iterating b now hsame₃.inv
    (hsame₃.exit (hsame₂.exit hexit)) hpart hcall₃
  refine ⟨2 + n, s', ?_, ?_, hcall⟩
  · exact exec_cons_eq_some.mpr ⟨_, hstep₁, by
      rw [List.replicate_add]
      exact exec_append (exec_cons_eq_some.mpr ⟨_, hstep₂,
        exec_cons_eq_some.mpr ⟨_, hstep₃, rfl⟩⟩) hrun⟩
  · have hhandle : s.strategy.handle b now event = s.entries.map Entry.handler := by
      rw [DirectEventReceivingStrategy.handle, hfilter]
      exact DirectEventReceivingStrategy.deliverAll_eq b hexit _ _
    rw [hlog, hlog₃, hlog₂, hhandle, invocations, hsame₂.entries, List.map_map]
    rfl

end

/-! ### The promises -/

section

variable {s : State F H δ C}

omit [DecidableEq C] in
theorem Inv.noneAfterRemoval (hinv : Inv s) : NoneAfterRemoval s.log := by
  intro later between before c k h hlog _
  have hpresent := hinv.registered c h _ (hlog ▸ List.suffix_append later _)
  exact hpresent.linked_of_unlinked

omit [DecidableEq C] in
theorem Inv.allAfterAddition (hinv : Inv s) : AllAfterAddition s.log := by
  intro later during between before c h hlog hstart hkept
  have howes := hinv.reached c _ (hlog ▸ List.suffix_append later _)
  have hpresent : Present h (between ++ .linked h :: before) :=
    present_append (.inl rfl) fun k hk => hkept k (List.mem_append_right _ hk)
  have hserved := howes during _ h rfl hstart hpresent
    fun k hk => hkept k (List.mem_append_left _ hk)
  simpa using hserved

variable [DecidableEq H] {b : Behaviour F H δ} {now : UInt64}

theorem Inv.completes (hinv : Inv s) : Completes b now s := by
  intro hexit c hloop
  obtain ⟨n₁, s₁, event, part, hrun₁, hsame, hpart, hcall₁⟩ :
      ∃ n₁ s₁ event part, exec (HandlerRemoval.step b now) s (List.replicate n₁ (c, .go)) =
        some s₁ ∧ Same s s₁ ∧ part <:+ s.entries ∧ s₁.call c = .iterating event (begin part) := by
    cases hcall : s.call c with
    | iterating event iterator =>
        obtain ⟨hplace, -⟩ := hcall ▸ hinv.calls c
        refine ⟨0, s, event, ahead s.entries iterator, rfl, ⟨hinv, rfl, rfl⟩, ahead_suffix _ _, ?_⟩
        rw [begin_ahead hplace, hcall]
    | delivering event node handler =>
        obtain ⟨s₁, hrun, hsame, -, hcall₁⟩ :=
          exec_delivering b now hinv hexit hcall
        exact ⟨2, s₁, event, _, hrun, hsame, (List.tail_suffix _).trans (ahead_suffix _ (some node)),
          hcall₁⟩
    | running event node handler =>
        obtain ⟨s₁, hstep, hsame, -, hcall₁⟩ :=
          step_running b now hinv hexit hcall
        exact ⟨1, s₁, event, _, exec_cons_eq_some.mpr ⟨s₁, hstep, rfl⟩, hsame,
          (List.tail_suffix _).trans (ahead_suffix _ (some node)), hcall₁⟩
    | _ => rw [hcall] at hloop; cases hloop
  obtain ⟨n, s', hrun, hinv', hlog, hcall'⟩ := exec_iterating b now hsame.inv
    (hsame.exit hexit) (hsame.entries ▸ hpart) hcall₁
  refine ⟨n₁ + n, s', ?_, hcall', ⟨_, hlog⟩, hinv'.allAfterAddition⟩
  rw [List.replicate_add]
  exact exec_append hrun₁ hrun

/-- In a run whose steps are calm, who has been removed is not invoked, who has been
added is, and no iterator is used whose entry is gone. -/
theorem calm_handlers_exact (b : Behaviour F H δ) (now : UInt64)
    {strategy : ErrorStrategy} {labels : List (C × Action F H δ)} {s : State F H δ C}
    (hrun : exec (HandlerRemoval.step b now) (State.init strategy) labels = some s)
    (hcalm : Along (HandlerRemoval.step b now) Calm (State.init strategy) labels) :
    NoneAfterRemoval s.log ∧ AllAfterAddition s.log ∧ Completes b now s ∧
      s.undefined = false := by
  have hinv : Inv s :=
    exec_invariant_along (fun _ _ _ hinv hl hstep => hinv.step hl hstep) (inv_init strategy)
      hcalm hrun
  exact ⟨hinv.noneAfterRemoval, hinv.allAfterAddition, hinv.completes, hinv.defined⟩

/-- A call that has the pointer of a handler invokes it after it is removed. -/
theorem not_noneAfterRemoval {c k : C} (hck : k ≠ c) (hdefined : s.undefined = false)
    {event : Event δ} {node : ℕ} {h : H} {found : List (Entry H)}
    (hc : s.call c = .unlinking h found) (hk : s.call k = .delivering event node h) :
    ∃ s', exec (HandlerRemoval.step b now) s [(c, .go), (c, .go), (k, .go)] = some s' ∧
      ¬NoneAfterRemoval s'.log := by
  obtain ⟨s₁, hstep₁, hdefined₁, hc₁, hk₁, hlog₁⟩ : ∃ s₁,
      HandlerRemoval.step b now s (c, .go) = some s₁ ∧ s₁.undefined = false ∧
        s₁.call c = .removed h ∧ s₁.call k = .delivering event node h ∧
        s₁.log = .unlinked c h :: s.log :=
    ⟨_, step_eq_some b now hdefined hc rfl, hdefined, Function.update_self ..,
      (Function.update_of_ne hck ..).trans hk, rfl⟩
  obtain ⟨s₂, hstep₂, hdefined₂, hk₂, hlog₂⟩ : ∃ s₂,
      HandlerRemoval.step b now s₁ (c, .go) = some s₂ ∧ s₂.undefined = false ∧
        s₂.call k = .delivering event node h ∧ s₂.log = .removed c h :: s₁.log :=
    ⟨_, step_eq_some b now hdefined₁ hc₁ rfl, hdefined₁, (Function.update_of_ne hck ..).trans hk₁, rfl⟩
  obtain ⟨s₃, hstep₃, hlog₃⟩ : ∃ s₃,
      HandlerRemoval.step b now s₂ (k, .go) = some s₃ ∧ s₃.log = .invoked k h :: s₂.log :=
    ⟨_, step_eq_some b now hdefined₂ hk₂ rfl, rfl⟩
  refine ⟨s₃, ?_, fun hnone => ?_⟩
  · exact exec_cons_eq_some.mpr ⟨_, hstep₁, exec_cons_eq_some.mpr ⟨_, hstep₂,
      exec_cons_eq_some.mpr ⟨_, hstep₃, rfl⟩⟩⟩
  · have hlinked := hnone [] [.removed c h] s.log k c h (by rw [hlog₃, hlog₂, hlog₁]; rfl) (by simp)
    simp at hlinked

end

/-! ### A removal during an iteration, and one beside it -/

/-- Filters that match and handlers that return. -/
def willing : Behaviour Unit Bool Bytes where
  filterMatch _ _ := .ok true
  methods _ := .empty
  handle _ _ := .ok ()

def addition {H : Type} (h : H) : List (Bool × Action Unit H Bytes) :=
  (false, .addHandler h) :: List.replicate 4 (false, .go)

def removal {H : Type} (h : H) : List (Bool × Action Unit H Bytes) :=
  (false, .removeHandler h) :: List.replicate 4 (false, .go)

/-- One call has read the pointer of the handler when another one removes it. -/
def removedInside : List (Bool × Action Unit Bool Bytes) :=
  addition true ++ (true, .handle (Event.new 0)) :: List.replicate 3 (true, .go) ++
    removal true ++ [(true, .go)]

theorem not_noneAfterRemoval_removedInside :
    ∃ s, exec (HandlerRemoval.step willing 0) (State.init .log) removedInside = some s ∧
      ¬NoneAfterRemoval s.log := by
  have hrun : (exec (HandlerRemoval.step willing 0) (State.init .log) removedInside).map
      State.log = some [.invoked true true, .removed false true, .unlinked false true,
        .started true, .linked true] := by
    decide +kernel
  obtain ⟨s, hrun, hlog⟩ := Option.map_eq_some_iff.mp hrun
  refine ⟨s, hrun, fun hnone => ?_⟩
  have hlinked := hnone [] [.removed false true] [.started true, .linked true] true false true
    hlog (by simp)
  simp at hlinked

/-- The call has not got to the handler that is removed, and there is one it invokes. -/
def removedBeside : List (Bool × Action Unit Bool Bytes) :=
  addition false ++ addition true ++
    (true, .handle (Event.new 0)) :: List.replicate 3 (true, .go) ++
    removal true ++ List.replicate 2 (true, .go)

theorem calm_handlers_exact_removedBeside :
    ∃ s, exec (HandlerRemoval.step willing 0) (State.init .log) removedBeside = some s ∧
      NoneAfterRemoval s.log ∧ AllAfterAddition s.log ∧ Completes willing 0 s ∧
      s.undefined = false := by
  have hcalm : Along (HandlerRemoval.step willing 0) Calm (State.init .log) removedBeside := by
    decide +kernel
  have hrun : (exec (HandlerRemoval.step willing 0) (State.init .log) removedBeside).isSome := by
    decide +kernel
  obtain ⟨s, hrun⟩ := Option.isSome_iff_exists.mp hrun
  exact ⟨s, hrun, calm_handlers_exact willing 0 hrun hcalm⟩

end Rsb.EventProcessing.HandlerRemoval
