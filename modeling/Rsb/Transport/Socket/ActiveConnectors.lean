import Rsb.Transport.Socket.ConnectorLifetime

/-!
Connectors of the socket transport are active while they are called.

A connector is turned on before it is registered with its bus and turned off after it has been
removed, both with the lock of the bus. So whatever exists and is registered is active, a
loop over the sinks has the lock, and the pointer it holds keeps the destructor away. Every
step is of one of a few kinds, and each kind keeps the invariant.
-/

namespace Rsb.Transport.Socket.ConnectorLifetime

open Library Library.Program

variable {C B T : Type} {driver : C → T} {d d' : Data C B T} {t : T} {c₀ : Option C}
  {b₀ : Option B}

section

variable [DecidableEq C] [DecidableEq T]

/-! ### The kinds of steps -/

variable {old new below : List (Frame C B)} {c : C}

/-- Only the frames change. -/
theorem Does.goto (hlinked : Linked d) (hheld : ∀ c, held old c = held new c)
    (hframes : StackOk driver d t below → StackOk driver d t (new ++ below)) :
    Does driver t d old new below d none none where
  change := ⟨fun _ h => h, fun _ _ => ⟨rfl, rfl, fun _ h => h⟩, fun _ _ _ h => .inr h⟩
  drives _ h := by cases h
  unlists _ h := by cases h
  frames := hframes
  counted c t' := by rw [hheld]
  linked := hlinked
  refused := rfl

/-- A connector that is registered, if it exists, is not turned off or moved. -/
theorem Does.modify {change : Connector B → Connector B} (hlinked : Linked d)
    (hdrives : Expired d c ∨ (driver c = t ∧ below = []))
    (hkeeps : ¬ Expired d c → (∃ b, Registered d b c) →
      (change (d.connectors c)).active = true ∧
      (change (d.connectors c)).bus = (d.connectors c).bus ∧
      (change (d.connectors c)).scope = (d.connectors c).scope)
    (hheld : ∀ c, held old c = held new c)
    (hframes : StackOk driver (d.modify c change) t below →
      StackOk driver (d.modify c change) t (new ++ below)) :
    Does driver t d old new below (d.modify c change) (some c) none where
  change := by
    refine ⟨fun _ h => h, fun c' hc' => ⟨?_, rfl, fun _ h => h⟩, fun _ _ _ h => .inr h⟩
    exact Function.update_of_ne (fun heq => hc' (congrArg some heq.symm)) _ _
  drives c' h := by
    obtain rfl := Option.some.inj h
    exact hdrives
  unlists _ h := by cases h
  frames := hframes
  counted c' t' := by
    rw [hheld]
    rfl
  linked := by
    intro b scope c' hmem hexpired
    have hbefore := hlinked b scope c' hmem hexpired
    by_cases hc : c' = c
    · subst hc
      obtain ⟨hactive, hbus, hscope⟩ := hkeeps hexpired ⟨b, scope, hmem⟩
      simp only [Data.modify, Function.update_self]
      exact ⟨hactive, hbus.trans hbefore.2.1, hscope.trans hbefore.2.2⟩
    · simpa only [Data.modify, Function.update_of_ne hc] using hbefore
  refused := rfl

/-- A loop gets a pointer to a connector that exists. -/
theorem Does.lock (hlinked : Linked d) (hexpired : ¬ Expired d c)
    (hheld : ∀ c', held new c' = held old c' + if c = c' then 1 else 0)
    (hframes : StackOk driver (d.lock t c) t below →
      StackOk driver (d.lock t c) t (new ++ below)) :
    Does driver t d old new below (d.lock t c) none none where
  change := by
    refine ⟨fun c' h => ?_, fun _ _ => ⟨rfl, rfl, fun _ h => h⟩, fun _ _ _ h => .inr h⟩
    have hne : c' ≠ c := fun heq => hexpired (heq ▸ h)
    exact (Function.update_of_ne hne _ _).trans h
  drives _ h := by cases h
  unlists _ h := by cases h
  frames := hframes
  counted c' t' := by
    have howned : ownedBy driver (d.lock t c) c' t' = ownedBy driver d c' t' := rfl
    rw [hheld, howned]
    by_cases hc : c' = c
    · subst hc
      by_cases ht : t' = t
      · subst ht
        simp only [Data.lock, Function.update_self, List.count_cons_self, if_true]
        omega
      · have hcount := List.count_cons_of_ne (Ne.symm ht) (l := d.references c')
        simp only [Data.lock, Function.update_self, hcount, ht, if_false]
    · simp only [Data.lock, Function.update_of_ne hc, Ne.symm hc, if_false, Nat.add_zero]
  linked := by
    intro b scope c' hmem hexpired'
    refine hlinked b scope c' hmem fun h => hexpired' ?_
    have hne : c' ≠ c := fun heq => hexpired (heq ▸ h)
    exact (Function.update_of_ne hne _ _).trans h
  refused := rfl

theorem count_release (h : t ∈ d.references c) (c' : C) (t' : T) :
    ((d.release t c).references c').count t' + (if t' = t then if c = c' then 1 else 0 else 0) =
      (d.references c').count t' := by
  have hpos := List.count_pos_iff.mpr h
  by_cases hc : c' = c
  · subst hc
    by_cases ht : t' = t
    · subst ht
      simp only [Data.release, Function.update_self, List.count_erase_self, if_true]
      omega
    · have hcount := List.count_erase_of_ne ht (l := d.references c')
      simp only [Data.release, Function.update_self, ht, if_false]
      omega
  · simp only [Data.release, Function.update_of_ne hc, Ne.symm hc, if_false, ite_self,
      Nat.add_zero]

theorem expired_release (h : Expired d c) (c' : C) : Expired (d.release t c') c := by
  by_cases hc : c = c'
  · subst hc
    simp only [Expired, Data.release, Function.update_self] at h ⊢
    rw [h, List.erase_nil]
  · exact (Function.update_of_ne hc _ _).trans h

omit [DecidableEq T] in
theorem held_released (d : Data C B T) (frames : List (Frame C B)) (c' : C) :
    held (released d c frames).1 c' = held frames c' := by
  rw [released]
  split_ifs
  · exact held_cons _ _ _
  · rfl

omit [DecidableEq C] [DecidableEq T] in
theorem stackOk_released (frames below : List (Frame C B))
    (h : StackOk driver d t (frames ++ below)) :
    StackOk driver d t ((released d c frames).1 ++ below) := by
  rw [released]
  split_ifs with hexpired
  · exact ⟨FrameOk.of_drives rfl rfl (.inl hexpired), h⟩
  · exact h

/-- A pointer is given up, and the destructor runs if it was the last one. -/
theorem Does.release {frames : List (Frame C B)} (hlinked : Linked d)
    (hreference : t ∈ d.references c)
    (hheld : ∀ c', held old c' = held frames c' + if c = c' then 1 else 0)
    (hframes : StackOk driver (d.release t c) t below →
      StackOk driver (d.release t c) t (frames ++ below)) :
    Does driver t d old (released (d.release t c) c frames).1 below (d.release t c) none none where
  change := ⟨fun _ h => expired_release h c, fun _ _ => ⟨rfl, rfl, fun _ h => h⟩,
    fun _ _ _ h => .inr h⟩
  drives _ h := by cases h
  unlists _ h := by cases h
  frames h := stackOk_released frames below (hframes h)
  counted c' t' := by
    have hcount := count_release hreference c' t'
    have howned : ownedBy driver (d.release t c) c' t' = ownedBy driver d c' t' := rfl
    rw [held_released, hheld, howned]
    split_ifs at hcount ⊢ <;> omega
  linked := fun b scope c' hmem hexpired =>
    hlinked b scope c' hmem fun h => hexpired (expired_release h c)
  refused := rfl

/-- The driver gives up its pointer. -/
theorem Does.reset (hlinked : Linked d) (hdriver : driver c = t) (howned : d.owned c = true)
    (hreference : t ∈ d.references c) :
    let d' := { d with owned := Function.update d.owned c false }.release t c
    Does driver t d [] (released d' c []).1 [] d' (some c) none := by
  intro d'
  have hexpired : ∀ c', Expired d c' → Expired d' c' := fun c' h =>
    expired_release (d := { d with owned := Function.update d.owned c false }) h c
  exact {
    change := by
      refine ⟨hexpired, fun c' hc' => ⟨rfl, ?_, fun _ h => h⟩, fun _ _ _ h => .inr h⟩
      exact Function.update_of_ne (fun heq => hc' (congrArg some heq.symm)) _ _
    drives := by
      intro c' h
      obtain rfl := Option.some.inj h
      exact .inr ⟨hdriver, rfl⟩
    unlists := fun _ h => by cases h
    frames := stackOk_released [] []
    counted := by
      intro c' t'
      have hcount := count_release hreference c' t'
      have hreferences : d'.references = (d.release t c).references := rfl
      rw [held_released, held_nil, hreferences]
      by_cases hc : c' = c
      · subst hc
        have hafter : ownedBy driver d' c' t' = 0 := by
          simp [ownedBy, d', Data.release]
        have hbefore : ownedBy driver d c' t' = if t' = t then 1 else 0 := by
          simp [ownedBy, howned, hdriver, eq_comm]
        rw [hafter, hbefore]
        by_cases ht : t' = t
        · simp only [ht, if_true] at hcount ⊢
          omega
        · simp only [ht, if_false] at hcount ⊢
          omega
      · have hsame : ownedBy driver d' c' t' = ownedBy driver d c' t' := by
          simp only [ownedBy, d', Data.release, Function.update_of_ne hc]
        rw [hsame]
        simp only [Ne.symm hc, if_false, ite_self, Nat.add_zero] at hcount ⊢
        omega
    linked := fun b scope c' hmem h => hlinked b scope c' hmem fun h' => h (hexpired c' h')
    refused := rfl }

end

section

variable [DecidableEq C] [DecidableEq B] [DecidableEq T] {old new below : List (Frame C B)} {c : C}
  {b : B}

omit [DecidableEq C] [DecidableEq T] in
theorem entries_setSinks (d : Data C B T) (b : B) (sinks : WeakScopeDispatcher C) (b' : B)
    (scope : Scope) : ((d.setSinks b sinks).sinkDispatcher b').entries scope =
      if b' = b then sinks.entries scope else (d.sinkDispatcher b').entries scope :=
  WeakScopeDispatcher.entries_update d.sinkDispatcher b sinks b' scope

/-- A bus gets a pointer to a connector that is active on it. -/
theorem Does.addSink (hlinked : Linked d)
    (hdriven : Expired d c ∨ (driver c = t ∧ below = [] ∧
      (d.connectors c).active = true ∧ (d.connectors c).bus = some b)) :
    Does driver t d [.adding c b] [] below
      (d.setSinks b ((d.sinkDispatcher b).addSink (d.connectors c).scope c)) (some c) none := by
  have hmem : ∀ b' scope c',
      c' ∈ (((d.setSinks b ((d.sinkDispatcher b).addSink (d.connectors c).scope c)).sinkDispatcher
        b').entries scope) ↔ c' ∈ (d.sinkDispatcher b').entries scope ∨
          (b' = b ∧ scope = (d.connectors c).scope ∧ c' = c) := by
    intro b' scope c'
    rw [entries_setSinks]
    split_ifs with hb
    · subst hb
      rw [WeakScopeDispatcher.entries_addSink, List.mem_append]
      split_ifs with hscope
      · simp [hscope]
      · simp [Ne.symm hscope]
    · simp [hb]
  exact {
    change := by
      refine ⟨fun _ h => h, fun c' hc' => ⟨rfl, rfl, ?_⟩, ?_⟩
      · rintro b' ⟨scope, hscope⟩
        rcases (hmem b' scope c').mp hscope with hbefore | ⟨-, -, rfl⟩
        · exact ⟨scope, hbefore⟩
        · exact absurd rfl hc'
      · rintro b' c' - ⟨scope, hscope⟩
        exact .inr ⟨scope, (hmem b' scope c').mpr (.inl hscope)⟩
    drives := by
      intro c' h
      obtain rfl := Option.some.inj h
      exact hdriven.imp_right fun h => ⟨h.1, h.2.1⟩
    unlists := fun _ h => by cases h
    frames := fun h => h
    counted := fun _ _ => rfl
    linked := by
      intro b' scope c' hscope hexpired
      rcases (hmem b' scope c').mp hscope with hbefore | ⟨rfl, rfl, rfl⟩
      · exact hlinked b' scope c' hbefore hexpired
      · rcases hdriven with h | ⟨-, -, hactive, hbus⟩
        · exact absurd h hexpired
        · exact ⟨hactive, hbus, rfl⟩
    refused := rfl }

section

variable {sinks : WeakScopeDispatcher C}
  (hremove : (d.sinkDispatcher b).removeSink (fun p => !decide (Expired d p))
    (d.connectors c).scope c = .ok sinks)

include hremove

omit [DecidableEq T] in
/-- What a list has after a removal it had before, and the sink is not in its own list. -/
theorem mem_entries_of_removeSink {b' : B} {scope : Scope} {c' : C}
    (hmem : c' ∈ ((d.setSinks b sinks).sinkDispatcher b').entries scope) :
    c' ∈ (d.sinkDispatcher b').entries scope ∧
      ¬ (b' = b ∧ scope = (d.connectors c).scope ∧ c' = c) := by
  rw [entries_setSinks] at hmem
  split_ifs at hmem with hb
  · subst hb
    rw [WeakScopeDispatcher.entries_removeSink hremove] at hmem
    split_ifs at hmem with hscope
    · obtain ⟨hbefore, hkept⟩ := List.mem_filter.mp hmem
      refine ⟨hbefore, ?_⟩
      rintro ⟨-, -, rfl⟩
      simp at hkept
    · exact ⟨hmem, fun h => hscope h.2.1⟩
  · exact ⟨hmem, fun h => hb h.1⟩

omit [DecidableEq T] in
/-- Other sinks that exist stay registered. -/
theorem Registered.removeSink {b' : B} {c' : C} (h : Registered d b' c') (hexpired : ¬ Expired d c')
    (hother : c' ≠ c ∨ b' ≠ b) : Registered (d.setSinks b sinks) b' c' := by
  obtain ⟨scope, hmem⟩ := h
  refine ⟨scope, ?_⟩
  rw [entries_setSinks]
  split_ifs with hb
  · subst hb
    have hne : c' ≠ c := hother.resolve_right (fun h => h rfl)
    rw [WeakScopeDispatcher.entries_removeSink hremove]
    split_ifs
    · exact List.mem_filter.mpr ⟨hmem, by simp [hexpired, hne]⟩
    · exact hmem
  · exact hmem

/-- A bus loses its pointers to a connector, and those that dangle. -/
theorem Does.removeSink (hlinked : Linked d)
    (hdriven : FrameOk driver d t (.removing c b) below) :
    ∃ b₀, Does driver t d [.removing c b] [.stopping c] below (d.setSinks b sinks) none b₀ := by
  -- a connector that is destroyed takes no other one with it that exists
  refine ⟨if Expired d c then none else some b, ?_⟩
  exact {
    change := by
      refine ⟨fun _ h => h, fun c' _ => ⟨rfl, rfl, ?_⟩, ?_⟩
      · rintro b' ⟨scope, hmem⟩
        exact ⟨scope, (mem_entries_of_removeSink hremove hmem).1⟩
      · intro b' c' hb' hregistered
        by_cases hexpired' : Expired d c'
        · exact .inl hexpired'
        · refine .inr (hregistered.removeSink hremove hexpired' ?_)
          by_cases hexpired : Expired d c
          · exact .inl fun heq => hexpired' (heq ▸ hexpired)
          · rw [if_neg hexpired] at hb'
            exact .inr fun heq => hb' (congrArg some heq.symm)
    drives := fun _ h => by cases h
    unlists := by
      intro b' hb'
      split_ifs at hb' with hexpired
      obtain rfl := Option.some.inj hb'
      rcases hdriven.driven c rfl with h | ⟨-, -, hbelow, -⟩
      · exact absurd h hexpired
      · exact ⟨⟨_, List.mem_singleton_self _, rfl⟩, hbelow⟩
    frames := by
      refine fun h => ⟨FrameOk.of_drives rfl rfl ?_, h⟩
      by_cases hexpired : Expired d c
      · exact .inl hexpired
      · obtain ⟨howned, hdriver, hbelow, hbus⟩ := (hdriven.driven c rfl).resolve_left hexpired
        refine .inr ⟨howned, hdriver, hbelow, ?_⟩
        rintro b' ⟨scope, hmem⟩
        obtain ⟨hbefore, hnot⟩ := mem_entries_of_removeSink hremove hmem
        obtain ⟨-, hbus', hscope⟩ := hlinked b' scope c hbefore hexpired
        exact hnot ⟨Option.some.inj (hbus'.symm.trans hbus), hscope.symm, rfl⟩
    counted := fun _ _ => rfl
    linked := fun b' scope c' hmem => hlinked b' scope c' (mem_entries_of_removeSink hremove hmem).1
    refused := rfl }

end

/-! ### Every step -/

/-- The steps of `activate`. -/
theorem activate_does {a : Action C B} {f : Frame C B}
    (hcall : f = .activating c b ∨ f = .addSink c b ∨ f = .adding c b)
    (hnext : f.next t d a = some (new, d')) (hlinked : Linked d)
    (hf : FrameOk driver d t f below) : ∃ c₀ b₀, Does driver t d [f] new below d' c₀ b₀ := by
  rcases hcall with rfl | rfl | rfl
  · cases a with
    | go =>
        obtain ⟨rfl, rfl⟩ := Prod.mk.inj (Option.some.inj hnext)
        refine ⟨some c, none, Does.modify hlinked ?_ (fun _ _ => ⟨rfl, rfl, rfl⟩) (fun _ => rfl)
          fun h => ⟨hf.next rfl rfl rfl id rfl fun _ hbus => ?_, h⟩⟩
        · exact (hf.driven c rfl).imp_right fun h => ⟨h.2.1, h.2.2.1⟩
        · simp only [Frame.Progress, Data.modify, Function.update_self]
          exact ⟨trivial, hbus⟩
    | _ => cases hnext
  · cases a with
    | go =>
        obtain ⟨rfl, rfl⟩ := Prod.mk.inj (Option.some.inj hnext)
        exact ⟨none, none, Does.goto hlinked (fun _ => rfl) fun h =>
          ⟨hf.next rfl rfl rfl id rfl fun _ => id, h⟩⟩
    | _ => cases hnext
  · cases a with
    | go =>
        obtain ⟨rfl, rfl⟩ := Prod.mk.inj (Option.some.inj hnext)
        exact ⟨some c, none, Does.addSink hlinked ((hf.driven c rfl).imp_right fun h => h.2)⟩
    | _ => cases hnext

/-- `deactivate` up to the lock of the bus. -/
theorem deactivate_does {a : Action C B} {f : Frame C B}
    (hcall : f = .deactivate c ∨ ∃ b, f = .removeSink c b)
    (hnext : f.next t d a = some (new, d')) (hlinked : Linked d)
    (hf : FrameOk driver d t f below) : ∃ c₀ b₀, Does driver t d [f] new below d' c₀ b₀ := by
  rcases hcall with rfl | ⟨b, rfl⟩
  · cases a with
    | go =>
        simp only [Frame.next] at hnext
        split at hnext
        · next hbus =>
            obtain ⟨rfl, rfl⟩ := Prod.mk.inj (Option.some.inj hnext)
            refine ⟨none, none, Does.goto hlinked (fun _ => rfl) fun h =>
              ⟨hf.next rfl rfl rfl id rfl ?_, h⟩⟩
            rintro hexpired - b' ⟨scope, hmem⟩
            obtain ⟨-, hbus', -⟩ := hlinked b' scope c hmem hexpired
            simp [hbus] at hbus'
        · next b' hbus =>
            obtain ⟨rfl, rfl⟩ := Prod.mk.inj (Option.some.inj hnext)
            exact ⟨none, none, Does.goto hlinked (fun _ => rfl) fun h =>
              ⟨hf.next rfl rfl rfl id rfl fun _ _ => hbus, h⟩⟩
    | _ => cases hnext
  · cases a with
    | go =>
        obtain ⟨rfl, rfl⟩ := Prod.mk.inj (Option.some.inj hnext)
        exact ⟨none, none, Does.goto hlinked (fun _ => rfl) fun h =>
          ⟨hf.next rfl rfl rfl id rfl fun _ => id, h⟩⟩
    | _ => cases hnext

/-- The loop of `removeSink`. -/
theorem removing_does {a : Action C B} {f : Frame C B}
    (hcall : f = .removing c b ∨ ∃ pointer, f = .examining c b pointer)
    (hnext : f.next t d a = some (new, d')) (hlinked : Linked d)
    (hf : FrameOk driver d t f below) (hheld : ∀ c, f.pointer? = some c → t ∈ d.references c) :
    ∃ c₀ b₀, Does driver t d [f] new below d' c₀ b₀ := by
  rcases hcall with rfl | ⟨pointer, rfl⟩
  · cases a with
    | go =>
        simp only [Frame.next] at hnext
        split at hnext
        · next sinks hremove =>
            obtain ⟨rfl, rfl⟩ := Prod.mk.inj (Option.some.inj hnext)
            obtain ⟨b₀, hdoes⟩ := Does.removeSink hremove hlinked hf
            exact ⟨none, b₀, hdoes⟩
        · obtain ⟨rfl, rfl⟩ := Prod.mk.inj (Option.some.inj hnext)
          exact ⟨none, none, Does.goto hlinked (fun _ => rfl) id⟩
    | examine pointer =>
        obtain ⟨⟨-, hexpired⟩, hnext⟩ := Option.ite_none_right_eq_some.mp hnext
        obtain ⟨rfl, rfl⟩ := Prod.mk.inj (Option.some.inj hnext)
        refine ⟨none, none, Does.lock hlinked hexpired (fun c' => ?_) fun h => ⟨?_, h⟩⟩
        · simp [held_cons, Frame.pointer?]
        · refine hf.next rfl rfl rfl (fun h => ?_) rfl fun _ => id
          have hne : c ≠ pointer := fun heq => hexpired (heq ▸ h)
          exact (Function.update_of_ne hne _ _).trans h
    | throws =>
        obtain ⟨rfl, rfl⟩ := Prod.mk.inj (Option.some.inj hnext)
        exact ⟨none, none, Does.goto hlinked (fun _ => rfl) id⟩
    | _ => cases hnext
  · cases a with
    | go =>
        obtain ⟨rfl, rfl⟩ := Prod.mk.inj (Option.some.inj hnext)
        refine ⟨none, none, Does.release hlinked (hheld pointer rfl) (fun c' => ?_) fun h =>
          ⟨hf.next rfl rfl rfl (fun h => expired_release h _) rfl fun _ => id, h⟩⟩
        simp [held_cons, Frame.pointer?]
    | _ => cases hnext

/-- What is turned off is registered nowhere. -/
theorem stopping_does {a : Action C B} {f : Frame C B}
    (hcall : f = .stopping c ∨ f = .resetting c)
    (hnext : f.next t d a = some (new, d')) (hlinked : Linked d)
    (hf : FrameOk driver d t f below) : ∃ c₀ b₀, Does driver t d [f] new below d' c₀ b₀ := by
  have hdriven : f.drives = some c := by rcases hcall with rfl | rfl <;> rfl
  have hprogress : f.Progress d ↔ ∀ b, ¬ Registered d b c := by
    rcases hcall with rfl | rfl <;> rfl
  have hdrives := (hf.driven c hdriven).imp_right fun h => And.intro h.2.1 h.2.2.1
  have hkeeps : ¬ Expired d c → (∃ b, Registered d b c) → False := by
    rintro hexpired ⟨b, hb⟩
    exact hprogress.mp ((hf.driven c hdriven).resolve_left hexpired).2.2.2 b hb
  rcases hcall with rfl | rfl
  · cases a with
    | go =>
        obtain ⟨rfl, rfl⟩ := Prod.mk.inj (Option.some.inj hnext)
        exact ⟨some c, none, Does.modify hlinked hdrives (fun h h' => (hkeeps h h').elim)
          (fun _ => rfl) fun h => ⟨hf.next rfl rfl rfl id rfl fun _ => id, h⟩⟩
    | _ => cases hnext
  · cases a with
    | go =>
        obtain ⟨rfl, rfl⟩ := Prod.mk.inj (Option.some.inj hnext)
        exact ⟨some c, none, Does.modify hlinked hdrives (fun h h' => (hkeeps h h').elim)
          (fun _ => rfl) id⟩
    | _ => cases hnext

/-- Destructors only run when no pointer is left. -/
theorem destructor_does {a : Action C B} {f : Frame C B}
    (hcall : f = .destructor c ∨ f = .baseDestructor c)
    (hnext : f.next t d a = some (new, d')) (hlinked : Linked d)
    (hf : FrameOk driver d t f below) : ∃ c₀ b₀, Does driver t d [f] new below d' c₀ b₀ := by
  have hexpired : Expired d c := by
    rcases hcall with rfl | rfl
    · exact (hf.driven c rfl).resolve_right fun h => h.2.2.2
    · exact (hf.driven c rfl).resolve_right fun h => h.2.2.2
  have hok : ∀ {g : Frame C B} {below}, g.drives = some c → g.loop? = none →
      FrameOk driver d t g below := fun hg hloop => FrameOk.of_drives hg hloop (.inl hexpired)
  rcases hcall with rfl | rfl
  · cases a with
    | go =>
        simp only [Frame.next] at hnext
        split_ifs at hnext
        · obtain ⟨rfl, rfl⟩ := Prod.mk.inj (Option.some.inj hnext)
          exact ⟨none, none, Does.goto hlinked (fun _ => rfl) fun h =>
            ⟨hok rfl rfl, hok rfl rfl, h⟩⟩
        · obtain ⟨rfl, rfl⟩ := Prod.mk.inj (Option.some.inj hnext)
          exact ⟨none, none, Does.goto hlinked (fun _ => rfl) fun h => ⟨hok rfl rfl, h⟩⟩
    | _ => cases hnext
  · cases a with
    | go =>
        simp only [Frame.next] at hnext
        split_ifs at hnext
        · obtain ⟨rfl, rfl⟩ := Prod.mk.inj (Option.some.inj hnext)
          exact ⟨none, none, Does.goto hlinked (fun _ => rfl) fun h => ⟨hok rfl rfl, h⟩⟩
        · obtain ⟨rfl, rfl⟩ := Prod.mk.inj (Option.some.inj hnext)
          exact ⟨none, none, Does.goto hlinked (fun _ => rfl) id⟩
    | _ => cases hnext

omit [DecidableEq C] [DecidableEq B] [DecidableEq T] in
/-- What a loop is about to call is active. -/
theorem active_of_calling {f : Frame C B} {l : List C} (hlinked : Linked d)
    (hf : FrameOk driver d t f below) (hloop : f.loop? = some (b, c :: l))
    (hreference : t ∈ d.references c) : (d.connectors c).active = true := by
  have hexpired : ¬ Expired d c := List.ne_nil_of_mem hreference
  obtain ⟨scope, hmem⟩ := (hf.listed b _ hloop c List.mem_cons_self).resolve_left hexpired
  exact (hlinked b scope c hmem hexpired).1

/-- The loop of `mapSinks`, outside the calls of sinks. -/
theorem mapSinks_does {a : Action C B} {f : Frame C B}
    (hcall : (∃ scope, f = .dispatch b scope) ∨ ∃ rest, f = .mapSinks b rest)
    (hnext : f.next t d a = some (new, d')) (hlinked : Linked d)
    (hf : FrameOk driver d t f below) : ∃ c₀ b₀, Does driver t d [f] new below d' c₀ b₀ := by
  rcases hcall with ⟨scope, rfl⟩ | ⟨rest, rfl⟩
  · cases a with
    | go =>
        obtain ⟨rfl, rfl⟩ := Prod.mk.inj (Option.some.inj hnext)
        refine ⟨none, none, Does.goto hlinked (fun _ => rfl) fun h =>
          ⟨FrameOk.of_loop rfl rfl fun c hc => .inr ?_, h⟩⟩
        obtain ⟨s, -, hmem⟩ := List.mem_flatMap.mp hc
        exact ⟨s, hmem⟩
    | _ => cases hnext
  · cases rest with
    | nil =>
        cases a with
        | go | throws =>
            obtain ⟨rfl, rfl⟩ := Prod.mk.inj (Option.some.inj hnext)
            exact ⟨none, none, Does.goto hlinked (fun _ => rfl) id⟩
        | _ => cases hnext
    | cons pointer rest =>
        cases a with
        | go =>
            simp only [Frame.next] at hnext
            split_ifs at hnext with hexpired
            · obtain ⟨rfl, rfl⟩ := Prod.mk.inj (Option.some.inj hnext)
              exact ⟨none, none, Does.goto hlinked (fun _ => rfl) fun h =>
                ⟨hf.loop_next rfl rfl rfl (List.subset_cons_self _ _) (fun _ => id) fun _ => id, h⟩⟩
            · obtain ⟨rfl, rfl⟩ := Prod.mk.inj (Option.some.inj hnext)
              refine ⟨none, none, Does.lock hlinked hexpired (fun c' => ?_) fun h =>
                ⟨hf.loop_next rfl rfl rfl (List.Subset.refl _) (fun c' hc' => ?_) fun _ => id, h⟩⟩
              · simp [held_cons, Frame.pointer?]
              · have hne : c' ≠ pointer := fun heq => hexpired (heq ▸ hc')
                exact (Function.update_of_ne hne _ _).trans hc'
        | throws =>
            obtain ⟨rfl, rfl⟩ := Prod.mk.inj (Option.some.inj hnext)
            exact ⟨none, none, Does.goto hlinked (fun _ => rfl) id⟩
        | _ => cases hnext

/-- A call of a sink. It is never refused. -/
theorem calling_does {a : Action C B} {f : Frame C B} {pointer : C} {rest : List C}
    (hcall : f = .calling b pointer rest ∨ f = .handling b pointer rest)
    (hnext : f.next t d a = some (new, d')) (hlinked : Linked d)
    (hf : FrameOk driver d t f below) (hreference : t ∈ d.references pointer) :
    ∃ c₀ b₀, Does driver t d [f] new below d' c₀ b₀ := by
  have hloop : f.loop? = some (b, pointer :: rest) := by rcases hcall with rfl | rfl <;> rfl
  have hactive := active_of_calling hlinked hf hloop hreference
  have hreleased : ∀ {g : Frame C B} {l}, g.drives = none → g.loop? = some (b, l) →
      l ⊆ pointer :: rest → FrameOk driver (d.release t pointer) t g below :=
    fun hg hl hsub => hf.loop_next hloop hg hl hsub (fun _ h => expired_release h _) fun _ => id
  rcases hcall with rfl | rfl
  · cases a with
    | go =>
        simp only [Frame.next, hactive, if_true] at hnext
        obtain ⟨rfl, rfl⟩ := Prod.mk.inj (Option.some.inj hnext)
        exact ⟨none, none, Does.goto hlinked (fun _ => rfl) fun h =>
          ⟨hf.loop_next hloop rfl rfl (List.Subset.refl _) (fun _ => id) fun _ => id, h⟩⟩
    | _ => cases hnext
  · cases a with
    | dispatch b' scope =>
        obtain ⟨rfl, rfl⟩ := Prod.mk.inj (Option.some.inj hnext)
        exact ⟨none, none, Does.goto hlinked (fun _ => rfl) fun h =>
          ⟨FrameOk.dispatch, hf, h⟩⟩
    | go =>
        obtain ⟨rfl, rfl⟩ := Prod.mk.inj (Option.some.inj hnext)
        refine ⟨none, none, Does.release hlinked hreference (fun c' => ?_) fun h =>
          ⟨hreleased rfl rfl (List.subset_cons_self _ _), h⟩⟩
        simp [held_cons, Frame.pointer?]
    | throws =>
        obtain ⟨rfl, rfl⟩ := Prod.mk.inj (Option.some.inj hnext)
        refine ⟨none, none, Does.release hlinked hreference (fun c' => ?_) fun h =>
          ⟨hreleased rfl rfl (List.nil_subset _), h⟩⟩
        simp [held_cons, Frame.pointer?]
    | _ => cases hnext

omit [DecidableEq B] in
/-- What a thread begins at its outermost level. -/
theorem begin_does {a : Action C B} (hnext : begin driver t d a = some (new, d'))
    (hlinked : Linked d) (hreference : ∀ c, driver c = t → d.owned c = true → t ∈ d.references c) :
    ∃ c₀ b₀, Does driver t d [] new [] d' c₀ b₀ := by
  have hinactive : ∀ {c}, (d.connectors c).active = false → ¬ Expired d c →
      (∃ b, Registered d b c) → False := by
    rintro c hactive hexpired ⟨b, scope, hmem⟩
    simp [(hlinked b scope c hmem hexpired).1] at hactive
  cases a with
  | setScope c scope =>
      obtain ⟨⟨hdriver, -⟩, hnext⟩ := Option.ite_none_right_eq_some.mp hnext
      split_ifs at hnext with hactive
      · obtain ⟨rfl, rfl⟩ := Prod.mk.inj (Option.some.inj hnext)
        exact ⟨none, none, Does.goto hlinked (fun _ => rfl) id⟩
      · obtain ⟨rfl, rfl⟩ := Prod.mk.inj (Option.some.inj hnext)
        have hactive' : (d.connectors c).active = false := by simpa using hactive
        exact ⟨some c, none, Does.modify hlinked (.inr ⟨hdriver, rfl⟩)
          (fun h h' => (hinactive hactive' h h').elim) (fun _ => rfl) id⟩
  | activate c bus =>
      obtain ⟨⟨hdriver, howned, hactive⟩, hnext⟩ := Option.ite_none_right_eq_some.mp hnext
      cases bus with
      | none =>
          obtain ⟨rfl, rfl⟩ := Prod.mk.inj (Option.some.inj hnext)
          exact ⟨none, none, Does.goto hlinked (fun _ => rfl) id⟩
      | some b =>
          obtain ⟨rfl, rfl⟩ := Prod.mk.inj (Option.some.inj hnext)
          refine ⟨some c, none, Does.modify hlinked (.inr ⟨hdriver, rfl⟩)
            (fun h h' => (hinactive hactive h h').elim) (fun _ => rfl) fun h =>
              ⟨FrameOk.of_drives rfl rfl (.inr ⟨howned, hdriver, rfl, ?_⟩), h⟩⟩
          simp only [Frame.Progress, Data.modify, Function.update_self]
  | deactivate c =>
      obtain ⟨⟨hdriver, howned⟩, hnext⟩ := Option.ite_none_right_eq_some.mp hnext
      obtain ⟨rfl, rfl⟩ := Prod.mk.inj (Option.some.inj hnext)
      exact ⟨none, none, Does.goto hlinked (fun _ => rfl) fun h =>
        ⟨FrameOk.of_drives rfl rfl (.inr ⟨howned, hdriver, rfl, trivial⟩), h⟩⟩
  | reset c =>
      obtain ⟨⟨hdriver, howned⟩, hnext⟩ := Option.ite_none_right_eq_some.mp hnext
      obtain ⟨rfl, rfl⟩ := Prod.mk.inj (Option.some.inj hnext)
      exact ⟨some c, none, Does.reset hlinked hdriver howned (hreference c hdriver howned)⟩
  | dispatch b scope =>
      obtain ⟨rfl, rfl⟩ := Prod.mk.inj (Option.some.inj hnext)
      exact ⟨none, none, Does.goto hlinked (fun _ => rfl) fun h => ⟨FrameOk.dispatch, h⟩⟩
  | _ => cases hnext

theorem Frame.next_does {a : Action C B} {f : Frame C B}
    (hnext : f.next t d a = some (new, d')) (hlinked : Linked d)
    (hf : FrameOk driver d t f below) (hheld : ∀ c, f.pointer? = some c → t ∈ d.references c) :
    ∃ c₀ b₀, Does driver t d [f] new below d' c₀ b₀ := by
  cases f with
  | activating c b => exact activate_does (.inl rfl) hnext hlinked hf
  | addSink c b => exact activate_does (.inr (.inl rfl)) hnext hlinked hf
  | adding c b => exact activate_does (.inr (.inr rfl)) hnext hlinked hf
  | deactivate c => exact deactivate_does (.inl rfl) hnext hlinked hf
  | removeSink c b => exact deactivate_does (.inr ⟨b, rfl⟩) hnext hlinked hf
  | removing c b => exact removing_does (.inl rfl) hnext hlinked hf hheld
  | examining c b pointer => exact removing_does (.inr ⟨pointer, rfl⟩) hnext hlinked hf hheld
  | stopping c => exact stopping_does (.inl rfl) hnext hlinked hf
  | resetting c => exact stopping_does (.inr rfl) hnext hlinked hf
  | destructor c => exact destructor_does (.inl rfl) hnext hlinked hf
  | baseDestructor c => exact destructor_does (.inr rfl) hnext hlinked hf
  | dispatch b scope => exact mapSinks_does (.inl ⟨scope, rfl⟩) hnext hlinked hf
  | mapSinks b rest => exact mapSinks_does (.inr ⟨rest, rfl⟩) hnext hlinked hf
  | calling b pointer rest => exact calling_does (.inl rfl) hnext hlinked hf (hheld pointer rfl)
  | handling b pointer rest => exact calling_does (.inr rfl) hnext hlinked hf (hheld pointer rfl)

/-- A frame is entered with the locks that the one before it holds or wants. -/
theorem Frame.next_lock {a : Action C B} {f g : Frame C B} {b : B}
    (hnext : f.next t d a = some (new, d')) (hg : g ∈ new) (hlock : g.lock = some b) :
    f.lock = some b ∨ f.wants = some b := by
  revert hnext
  fun_cases Frame.next t d f a <;> intro hnext <;> grind [Frame.lock, Frame.wants, released]

omit [DecidableEq B] in
theorem begin_lock {a : Action C B} {g : Frame C B}
    (hnext : begin driver t d a = some (new, d')) (hg : g ∈ new) : g.lock = none := by
  revert hnext
  fun_cases begin driver t d a <;> intro hnext <;> grind [Frame.lock, released]

/-! ### Every run -/

theorem wellLocked (driver : C → T) : (program (B := B) driver).WellLocked := by
  intro d p a p' d' hnext l hl
  obtain ⟨g, hg, hlock⟩ := List.mem_filterMap.mp hl
  simp only [program] at hnext
  split at hnext
  · obtain ⟨⟨new, d''⟩, hbegin, heq⟩ := Option.map_eq_some_iff.mp hnext
    obtain ⟨rfl, rfl⟩ := Prod.mk.inj heq
    simp [begin_lock hbegin hg] at hlock
  · next f below hstack =>
      obtain ⟨⟨new, d''⟩, hframe, heq⟩ := Option.map_eq_some_iff.mp hnext
      obtain ⟨rfl, rfl⟩ := Prod.mk.inj heq
      simp only [program, hstack]
      rcases List.mem_append.mp hg with hnew | hbelow
      · rcases Frame.next_lock hframe hnew hlock with hold | hwants
        · exact .inl (List.mem_filterMap.mpr ⟨f, List.mem_cons_self, hold⟩)
        · exact .inr hwants
      · exact .inl (List.mem_filterMap.mpr ⟨g, List.mem_cons_of_mem _ hbelow, hlock⟩)

theorem Inv.step {s s' : State (Control C B T) (Data C B T) B T} {t : T} {a : Action C B}
    (h : Inv driver s) (hstep : (program driver).step s (t, a) = some s') : Inv driver s' := by
  have hlocks := h.locks.step (wellLocked driver) hstep
  obtain ⟨p, d', hnext, -, rfl⟩ := step_eq_some hstep
  have hcounted := fun c => h.counted c t
  simp only [program] at hnext
  split at hnext
  · next hstack =>
      obtain ⟨⟨new, d''⟩, hbegin, heq⟩ := Option.map_eq_some_iff.mp hnext
      obtain ⟨rfl, rfl⟩ := Prod.mk.inj heq
      have hreference : ∀ c, driver c = t → s.data.owned c = true → t ∈ s.data.references c := by
        intro c hdriver howned
        apply List.count_pos_iff.mp
        rw [hcounted c, ownedBy, if_pos ⟨howned, hdriver⟩]
        omega
      rw [h.self t] at hbegin
      obtain ⟨c₀, b₀, hdoes⟩ := begin_does hbegin h.linked hreference
      exact h.of_does hstack (List.append_nil new).symm hdoes hlocks
  · next f below hstack =>
      obtain ⟨⟨new, d''⟩, hframe, heq⟩ := Option.map_eq_some_iff.mp hnext
      obtain ⟨rfl, rfl⟩ := Prod.mk.inj heq
      have hframes := h.frames t
      have hheld : ∀ c, f.pointer? = some c → t ∈ s.data.references c := by
        intro c hc
        apply List.count_pos_iff.mp
        rw [hcounted c, hstack, held_cons, if_pos hc]
        omega
      rw [h.self t] at hframe
      rw [hstack] at hframes
      obtain ⟨c₀, b₀, hdoes⟩ := Frame.next_does hframe h.linked hframes.1 hheld
      exact h.of_does hstack rfl hdoes hlocks

theorem inv_init (driver : C → T) : Inv (B := B) driver (init driver) where
  self _ := rfl
  locks b t := by simp [init, program]
  counted c t := by
    simp only [init, ownedBy, held_nil, List.count_singleton, Nat.add_zero, true_and,
      beq_iff_eq]
  frames _ := trivial
  linked b scope c hmem := by
    simp [init, WeakScopeDispatcher.entries, WeakScopeDispatcher.empty] at hmem
  refused := rfl

/-- The connectors that a dispatching thread is calling, in the call that is the innermost
one or in those around it. -/
def Calls (s : State (Control C B T) (Data C B T) B T) (t : T) (c : C) : Prop :=
  ∃ f ∈ (s.pc t).stack, ∃ b rest, f = .calling b c rest ∨ f = .handling b c rest

/-- A connector is registered and called, while its driver waits for the lock. -/
def waitingDriver : List (ℕ × Action ℕ ℕ) :=
  [(0, .activate 0 (some 0)), (0, .go), (0, .go), (0, .go), (1, .dispatch 0 .root), (1, .go),
    (0, .deactivate 0), (1, .go), (0, .go)]

end

end Rsb.Transport.Socket.ConnectorLifetime
