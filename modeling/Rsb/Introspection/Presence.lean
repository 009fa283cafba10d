import Rsb.Introspection.Observer

/-!
What the observer of the introspection plugin achieves.

`Present` relates the observer to the signals it has handled, whichever threads they
come from: there is a sender as long as there is a participant to know about, and each
participant is announced once and taken back once. `Transition` lists what a frame of
the observer can do; the invariants are read off it. The mutex is not recursive, and
what runs below a frame that holds it are calls for participants of the sender, which
return before they come to it.
-/

namespace Rsb.Introspection

open Library

/-! ### What the observer has done -/

namespace Observer

/-- Everything published so far. Nobody has asked for any of it. -/
def messages (d : Observer) : List (Event Data) :=
  d.past ++ match d.sender with
    | none => []
    | some (s, _) => s.published

/-- The observer has done what the signals ask for. -/
structure Present (d : Observer) : Prop where
  exists_iff : d.sender.isSome ↔ remaining d.log ≠ []
  participants : ∀ s m, d.sender = some (s, m) → s.participants = remaining d.log
  messages : ∀ id, notesAbout id d.messages = story id d.log

/-- The sender has said hello for one more participant. -/
structure Added (s s' : IntrospectionSender) (info : ParticipantInfo) : Prop where
  participants : s'.participants = s.participants ++ [info]
  published : ∃ event, s'.published = s.published ++ [event] ∧
    noteOf event = some (.hello info.id.data)

/-- The sender has said bye for a participant. -/
structure Removed (s s' : IntrospectionSender) (id : UUID) : Prop where
  known : ∃ info ∈ s.participants, info.id = id
  participants : s'.participants = s.participants.eraseP fun info => info.id = id
  published : ∃ event, s'.published = s.published ++ [event] ∧ noteOf event = some (.bye id.data)

theorem add_eq (setup : Setup) (d : Observer) (s : IntrospectionSender) (m : Members)
    (p : Participant) (parent : Option Participant) :
    ∃ s', d.add setup s m p parent =
        some { d.record (.created p parent) with sender := some (s', m) } ∧
      Added s s' (p.info parent) := by
  rw [add, IntrospectionSender.run_addParticipant]
  exact ⟨_, rfl, rfl, _, rfl, rfl⟩

theorem removeParticipant_eq (setup : Setup) (s : IntrospectionSender) (id : UUID) :
    ∃ s', (IntrospectionSender.removeParticipant setup.env id).run s =
        .ok (!s'.participants.isEmpty) s' ∧
      ((s' = s ∧ ∀ info ∈ s.participants, info.id ≠ id) ∨ Removed s s' id) := by
  rw [IntrospectionSender.run_removeParticipant]
  cases hfind : s.participants.find? (fun p => p.id = id) with
  | none => exact ⟨s, rfl, .inl ⟨rfl, by simpa using List.find?_eq_none.mp hfind⟩⟩
  | some info =>
      obtain rfl : info.id = id := by simpa using List.find?_some hfind
      have hknown : ∃ known ∈ s.participants, known.id = info.id :=
        ⟨info, List.mem_of_find?_eq_some hfind, rfl⟩
      let s' := { s.emit (IntrospectionSender.byeEvent setup.env info) with
        participants := s.participants.eraseP fun p => p.id = info.id }
      exact ⟨s', rfl, .inr ⟨hknown, rfl, _, rfl, rfl⟩⟩

theorem Present.add {d : Observer} (h : Present d) {p : Participant} {parent : Option Participant}
    (hp : p.ignored = false) (hdistinct : Distinct (d.log ++ [.created p parent]))
    {s s' : IntrospectionSender} (hs : s.participants = remaining d.log)
    (hpublished : d.past ++ s.published = d.messages) (hadded : Added s s' (p.info parent))
    (m : Members) : Present { d.record (.created p parent) with sender := some (s', m) } := by
  have hremaining : remaining (d.log ++ [.created p parent]) = remaining d.log ++ [p.info parent] := by
    rw [remaining_created, if_neg (by simp [hp])]
  refine ⟨?_, ?_, ?_⟩
  · simp [record, hremaining]
  · intro s₀ m₀ heq
    obtain ⟨rfl, rfl⟩ := Prod.mk.inj (Option.some.inj heq)
    exact hadded.participants.trans (hs ▸ hremaining.symm)
  · intro id
    obtain ⟨event, hevent, hnote⟩ := hadded.published
    show notesAbout id (d.past ++ s'.published) = story id (d.log ++ [.created p parent])
    rw [hevent, ← List.append_assoc, hpublished, notesAbout_append, h.messages id,
      notesAbout_singleton hnote]
    by_cases hid : p.id = id
    · subst hid
      rw [story_of_not_created hdistinct.created_new, story_created hp parent hdistinct.created_new]
      exact if_pos rfl
    · have hdata : (p.info parent).id.data ≠ id.data := fun heq => hid (UUID.data_injective heq)
      rw [story_append_of rfl (by simp [story, hid])]
      simp [Note.id, hdata]

/-- A signal that makes no difference. -/
theorem Present.record {d : Observer} (h : Present d) {signal : Signal}
    (hremaining : remaining (d.log ++ [signal]) = remaining d.log)
    (hstory : ∀ id, story id (d.log ++ [signal]) = story id d.log) : Present (d.record signal) where
  exists_iff := h.exists_iff.trans (by rw [Observer.record, hremaining])
  participants s m heq := (h.participants s m heq).trans hremaining.symm
  messages id := (h.messages id).trans (hstory id).symm

theorem Present.created_ignored {d : Observer} (h : Present d) {p : Participant}
    (hp : p.ignored = true) (parent : Option Participant) : Present (d.record (.created p parent)) := by
  apply h.record
  · simp [remaining_created, hp]
  · intro id
    exact story_append_of rfl (by simp [story, hp]) d.log

/-- The end of a participant that the sender does not know. -/
theorem Present.destroyed_unknown {d : Observer} (h : Present d) {p : Participant}
    (hdistinct : Distinct (d.log ++ [.destroyed p]))
    (hunknown : ∀ info ∈ remaining d.log, info.id ≠ p.id) : Present (d.record (.destroyed p)) := by
  apply h.record
  · rw [remaining_destroyed]
    exact List.filter_eq_self.mpr (by simpa using hunknown)
  · intro id
    by_cases hid : p.id = id
    · subst hid
      rw [story_destroyed, if_neg]
      rw [story_eq_hello_iff hdistinct.of_append.created]
      rintro ⟨info, hmem, hid⟩
      exact hunknown info hmem hid
    · exact story_append_of (by simp [Signal.destroys, hid]) rfl d.log

theorem Removed.participants_eq {d : Observer} {p : Participant}
    (hdistinct : Distinct (d.log ++ [.destroyed p])) {s s' : IntrospectionSender}
    (hs : s.participants = remaining d.log) (h : Removed s s' p.id) :
    s'.participants = remaining (d.log ++ [.destroyed p]) := by
  rw [h.participants, remaining_destroyed, hs,
    eraseP_eq_filter (nodup_ids_remaining hdistinct.of_append)]

theorem Removed.messages_eq {d : Observer} (hpresent : Present d) {p : Participant}
    (hdistinct : Distinct (d.log ++ [.destroyed p])) {s s' : IntrospectionSender}
    (hs : s.participants = remaining d.log) (hpublished : d.past ++ s.published = d.messages)
    (h : Removed s s' p.id) (id : UUID) :
    notesAbout id (d.past ++ s'.published) = story id (d.log ++ [.destroyed p]) := by
  obtain ⟨event, hevent, hnote⟩ := h.published
  rw [hevent, ← List.append_assoc, hpublished, notesAbout_append, hpresent.messages id,
    notesAbout_singleton hnote]
  by_cases hid : p.id = id
  · subst hid
    have hhello := (story_eq_hello_iff hdistinct.of_append.created).mpr (hs ▸ h.known)
    rw [story_destroyed, if_pos hhello, hhello]
    simp [Note.id]
  · have hdata : p.id.data ≠ id.data := fun heq => hid (UUID.data_injective heq)
    rw [story_append_of (by simp [Signal.destroys, hid]) rfl]
    simp [Note.id, hdata]

/-- The end of a participant that the sender knows, when others remain. -/
theorem Present.removed {d : Observer} (h : Present d) {p : Participant}
    (hdistinct : Distinct (d.log ++ [.destroyed p])) {s s' : IntrospectionSender} {m : Members}
    (hsender : d.sender = some (s, m)) (hremoved : Removed s s' p.id)
    (hsome : s'.participants ≠ []) :
    Present { d.record (.destroyed p) with sender := some (s', m) } := by
  have hs := h.participants s m hsender
  have hparticipants := hremoved.participants_eq hdistinct hs
  refine ⟨?_, ?_, ?_⟩
  · simpa [Observer.record, ← hparticipants] using hsome
  · intro s₀ m₀ heq
    obtain ⟨rfl, rfl⟩ := Prod.mk.inj (Option.some.inj heq)
    exact hparticipants
  · exact hremoved.messages_eq h hdistinct hs (by simp [Observer.messages, hsender])

/-- The last one is gone. -/
theorem Present.reset {d : Observer} (h : Present d) {p : Participant}
    (hdistinct : Distinct (d.log ++ [.destroyed p])) {s s' : IntrospectionSender} {m : Members}
    (hsender : d.sender = some (s, m)) (hremoved : Removed s s' p.id)
    (hnone : s'.participants = []) :
    Present { d.record (.destroyed p) with sender := none, past := d.past ++ s'.published } := by
  have hs := h.participants s m hsender
  have hparticipants := hremoved.participants_eq hdistinct hs
  refine ⟨?_, ?_, ?_⟩
  · simp [Observer.record, ← hparticipants, hnone]
  · intro s₀ m₀ heq
    simp at heq
  · intro id
    show notesAbout id (d.past ++ s'.published ++ []) = _
    rw [List.append_nil]
    exact hremoved.messages_eq h hdistinct hs (by simp [Observer.messages, hsender]) id

/-- A request for the echo method changes the members only. -/
theorem Present.echo {d : Observer} (h : Present d) {s : IntrospectionSender} {m : Members}
    (hsender : d.sender = some (s, m)) (m' : Members) :
    Present { d with sender := some (s, m') } where
  exists_iff := by simpa [hsender] using h.exists_iff
  participants s₀ m₀ heq := by
    obtain ⟨rfl, -⟩ := Prod.mk.inj (Option.some.inj heq)
    exact h.participants s m hsender
  messages id := by
    have hmessages := h.messages id
    simpa [Observer.messages, hsender] using hmessages

/-! ### One step -/

/-- What a frame can do. -/
inductive Transition (setup : Setup) (d : Observer) : Frame → Effect Frame Observer → Prop
  | signalCreated (p : Participant) (parent : Option Participant) :
      Transition setup d .outside (.call .outside (.created p parent) d)
  | signalDestroyed (p : Participant) :
      Transition setup d .outside (.call .outside (.destroyed p) d)
  | echo {s m} (hsender : d.sender = some (s, m)) (informer : Internal) (m' : Members) :
      Transition setup d .outside (.call .outside (.created informer (some m.method))
        { d with sender := some (s, m') })
  | createdIgnored {p parent} (hp : p.ignored = true) :
      Transition setup d (.created p parent) (.ret (d.record (.created p parent)))
  | enterCreating {p parent} (hp : p.ignored = false) :
      Transition setup d (.created p parent) (.goto (.creating p parent) d)
  | make {p parent} (hsender : d.sender = none) (ids : MemberIds) :
      Transition setup d (.creating p parent)
        (.goto (.making p parent ids (setup.members ids).created) d)
  | add {p parent s m s'} (hsender : d.sender = some (s, m))
      (hadded : Added s s' (p.info parent)) :
      Transition setup d (.creating p parent)
        (.ret { d.record (.created p parent) with sender := some (s', m) })
  | member {p parent ids member memberParent remaining} :
      Transition setup d (.making p parent ids ((member, memberParent) :: remaining))
        (.call (.making p parent ids remaining) (.created member memberParent) d)
  | made {p parent ids s'} (hadded : Added (setup.sender ids) s' (p.info parent)) :
      Transition setup d (.making p parent ids [])
        (.ret { d.record (.created p parent) with sender := some (s', setup.members ids) })
  | destroyedIgnored {p} (hp : p.ignored = true) :
      Transition setup d (.destroyed p) (.ret (d.record (.destroyed p)))
  | enterDestroying {p} (hp : p.ignored = false) :
      Transition setup d (.destroyed p) (.goto (.destroying p) d)
  | noSender {p} (hsender : d.sender = none) :
      Transition setup d (.destroying p) (.ret (d.record (.destroyed p)))
  | remove {p s m s'} (hsender : d.sender = some (s, m))
      (hremoved : (s' = s ∧ ∀ info ∈ s.participants, info.id ≠ p.id) ∨ Removed s s' p.id)
      (hsome : s'.participants ≠ []) :
      Transition setup d (.destroying p)
        (.ret { d.record (.destroyed p) with sender := some (s', m) })
  | reset {p s m s'} (hsender : d.sender = some (s, m))
      (hremoved : (s' = s ∧ ∀ info ∈ s.participants, info.id ≠ p.id) ∨ Removed s s' p.id)
      (hnone : s'.participants = []) :
      Transition setup d (.destroying p) (.goto (.resetting m.destroyed)
        { d.record (.destroyed p) with sender := none, past := d.past ++ s'.published })
  | resetMember {member remaining} :
      Transition setup d (.resetting (member :: remaining))
        (.call (.resetting remaining) (.destroyed member) d)
  | resetDone : Transition setup d (.resetting []) (.ret d)

theorem transition_of_next {setup : Setup} {d : Observer} {f : Frame} {a : Action}
    {e : Effect Frame Observer} (h : next setup d f a = some e) : Transition setup d f e := by
  unfold next at h
  split at h
  · obtain rfl := Option.some.inj h
    exact .signalCreated _ _
  · obtain rfl := Option.some.inj h
    exact .signalDestroyed _
  · split at h
    · exact absurd h (by simp)
    · next hsender =>
        split_ifs at h
        obtain rfl := Option.some.inj h
        exact .echo hsender _ _
  · split_ifs at h with hp
    · obtain rfl := Option.some.inj h
      exact .createdIgnored hp
    · obtain rfl := Option.some.inj h
      exact .enterCreating (by simpa using hp)
  · split at h
    · next hsender =>
        obtain rfl := Option.some.inj h
        exact .make hsender _
    · next p parent _ _ s m hsender =>
        obtain ⟨s', hadd, hadded⟩ := add_eq setup d s m p parent
        rw [hadd] at h
        obtain rfl := Option.some.inj h
        exact .add hsender hadded
  · obtain rfl := Option.some.inj h
    exact .member
  · next p parent ids _ =>
      obtain ⟨s', hadd, hadded⟩ := add_eq setup d (setup.sender ids) (setup.members ids) p parent
      rw [hadd] at h
      obtain rfl := Option.some.inj h
      exact .made hadded
  · split_ifs at h with hp
    · obtain rfl := Option.some.inj h
      exact .destroyedIgnored hp
    · obtain rfl := Option.some.inj h
      exact .enterDestroying (by simpa using hp)
  · next p _ =>
      split at h
      · next hsender =>
          obtain rfl := Option.some.inj h
          exact .noSender hsender
      · next s m hsender =>
          obtain ⟨s', hrun, hremoved⟩ := removeParticipant_eq setup s p.id
          rw [hrun] at h
          cases hempty : s'.participants with
          | nil =>
              simp only [hempty] at h
              obtain rfl := Option.some.inj h
              exact .reset hsender hremoved hempty
          | cons info infos =>
              simp only [hempty] at h
              obtain rfl := Option.some.inj h
              exact .remove hsender hremoved (by simp [hempty])
  · obtain rfl := Option.some.inj h
    exact .resetMember
  · obtain rfl := Option.some.inj h
    exact .resetDone
  · exact absurd h (by simp)

theorem wellLocked (setup : Setup) : (program setup).WellLocked := by
  constructor
  · intro d f a e h
    cases transition_of_next h <;> simp [program, Frame.holds, Frame.wants, Effect.frames]
  · intro d f a g c d' h
    cases transition_of_next h <;> rfl

/-- What a frame relies on. -/
def Fits (d : Observer) : Frame → Prop
  | .creating p _ | .destroying p => p.ignored = false
  | .making p _ _ _ => p.ignored = false ∧ d.sender = none
  | _ => True

theorem Fits.of_sender {d d' : Observer} {f : Frame} (h : Fits d f)
    (hsender : d.sender ≠ none ∨ d'.sender = none ∨ Mutex.senderMutex ∉ f.holds) : Fits d' f := by
  cases f with
  | making p parent ids members =>
      rcases hsender with hsome | hnone | hholds
      · exact absurd h.2 hsome
      · exact ⟨h.1, hnone⟩
      · exact absurd List.mem_cons_self hholds
  | _ => exact h

/-- A sender appears where there was none only under the mutex. -/
theorem Transition.sender {setup : Setup} {d : Observer} {f : Frame} {e : Effect Frame Observer}
    (h : Transition setup d f e) :
    d.sender ≠ none ∨ e.data.sender = none ∨ Mutex.senderMutex ∈ f.holds := by
  by_cases hsender : d.sender = none
  · cases h <;> simp_all [Effect.data, record, Frame.holds]
  · exact .inl hsender

theorem Transition.log {setup : Setup} {d : Observer} {f : Frame} {e : Effect Frame Observer}
    (h : Transition setup d f e) : ∃ log, e.data.log = d.log ++ log := by
  cases h <;> first | exact ⟨[], (List.append_nil _).symm⟩ | exact ⟨_, rfl⟩

theorem Transition.fits {setup : Setup} {d : Observer} {f : Frame} {e : Effect Frame Observer}
    (h : Transition setup d f e) (hf : Fits d f) : ∀ g ∈ e.frames, Fits e.data g := by
  cases h <;> simp_all [Effect.frames, Effect.data, Fits]

theorem Transition.present {setup : Setup} {d : Observer} {f : Frame} {e : Effect Frame Observer}
    (h : Transition setup d f e) (hf : Fits d f) (hpresent : Present d)
    (hdistinct : Distinct e.data.log) : Present e.data := by
  have hnone : d.sender = none → remaining d.log = [] := fun hsender => by
    simpa [hsender] using hpresent.exists_iff
  cases h with
  | signalCreated | signalDestroyed | enterCreating | make | member | enterDestroying
  | resetMember | resetDone => exact hpresent
  | echo hsender informer m' => exact hpresent.echo hsender m'
  | createdIgnored hp => exact hpresent.created_ignored hp _
  | add hsender hadded =>
      exact hpresent.add hf hdistinct (hpresent.participants _ _ hsender)
        (by simp [Observer.messages, hsender]) hadded _
  | made hadded =>
      exact hpresent.add hf.1 hdistinct (hnone hf.2).symm
        (by simp [Observer.messages, hf.2, Setup.sender]) hadded _
  | destroyedIgnored hp =>
      exact hpresent.destroyed_unknown hdistinct (Distinct.remaining_ne hdistinct hp)
  | noSender hsender =>
      exact hpresent.destroyed_unknown hdistinct (by simp [hnone hsender])
  | @remove p s m s' hsender hremoved hsome =>
      rcases hremoved with ⟨rfl, hunknown⟩ | hremoved
      · rw [hpresent.participants _ _ hsender] at hunknown
        have hrecord := hpresent.destroyed_unknown hdistinct hunknown
        have heq : { d.record (.destroyed p) with sender := some (s', m) } =
            d.record (.destroyed p) := by rw [← hsender]; rfl
        show Present { d.record (.destroyed p) with sender := some (s', m) }
        exact heq ▸ hrecord
      · exact hpresent.removed hdistinct hsender hremoved hsome
  | @reset p s m s' hsender hremoved hempty =>
      rcases hremoved with ⟨rfl, -⟩ | hremoved
      · have hremaining := hpresent.exists_iff.mp (by simp [hsender])
        exact absurd (hempty ▸ hpresent.participants _ _ hsender).symm hremaining
      · exact hpresent.reset hdistinct hsender hremoved hempty

/-! ### Runs -/

section

variable {setup : Setup} {T : Type} [DecidableEq T]

/-- The invariant of a run. -/
structure Sound (setup : Setup) (s : Nested.State Frame Observer Mutex T) : Prop where
  owned : (program setup).Owned s
  fits : ∀ t, ∀ f ∈ s.stack t, Fits s.data f
  present : Present s.data

omit [DecidableEq T] in
theorem sound_initial : Sound setup (initial T) where
  owned := ⟨fun l t => by simp [initial, program, Frame.holds], fun t => List.pairwise_singleton _ _⟩
  fits t f hf := by
    obtain rfl := List.mem_singleton.mp hf
    trivial
  present := ⟨by simp [initial, remaining], fun s m heq => by simp [initial] at heq, fun id => rfl⟩

theorem log_step {s s' : Nested.State Frame Observer Mutex T} {label : T × Action}
    (hstep : (program setup).step s label = some s') : ∃ log, s'.data.log = s.data.log ++ log := by
  obtain ⟨f, rest, e, hstack, hnext, hfree, rfl⟩ := Nested.step_eq_some.mp hstep
  exact (transition_of_next hnext).log

theorem Sound.step {s s' : Nested.State Frame Observer Mutex T} {label : T × Action}
    (h : Sound setup s) (hstep : (program setup).step s label = some s')
    (hdistinct : Distinct s'.data.log) : Sound setup s' := by
  have howned := h.owned.step (wellLocked setup) hstep
  obtain ⟨f, rest, e, hstack, hnext, hfree, rfl⟩ := Nested.step_eq_some.mp hstep
  have htransition := transition_of_next hnext
  have hfits : ∀ g ∈ f :: rest, Fits s.data g := hstack ▸ h.fits label.1
  -- frames that do not take part hold the mutex only if this one does not
  have hothers : ∀ g, Fits s.data g → (Mutex.senderMutex ∈ f.holds → Mutex.senderMutex ∉ g.holds) →
      Fits e.data g := fun g hg hholds =>
    hg.of_sender (htransition.sender.imp_right (Or.imp_right hholds))
  refine ⟨howned, fun t g hg => ?_, ?_⟩
  · by_cases ht : t = label.1
    · subst ht
      simp only [Function.update_self] at hg
      rcases List.mem_append.mp hg with hnew | hrest
      · exact htransition.fits (hfits f List.mem_cons_self) g hnew
      · exact hothers g (hfits g (List.mem_cons_of_mem f hrest)) fun hl =>
          (h.owned.exclusive hstack hl).1 g hrest
    · simp only [Function.update_of_ne ht] at hg
      exact hothers g (h.fits t g hg) fun hl => (h.owned.exclusive hstack hl).2 t ht g hg
  · exact htransition.present (hfits f List.mem_cons_self) h.present hdistinct

theorem sound_exec {labels : List (T × Action)} {s s' : Nested.State Frame Observer Mutex T}
    (h : Sound setup s) (hrun : exec (program setup).step s labels = some s')
    (hdistinct : Distinct s'.data.log) : Sound setup s' := by
  -- the log only grows, so that its ids are distinct all along
  refine exec_invariant (I := fun s => Distinct s.data.log → Sound setup s) ?_ (fun _ => h) hrun
    hdistinct
  intro s label s' hsound hstep hdistinct
  obtain ⟨log, hlog⟩ := log_step hstep
  exact (hsound (hlog ▸ hdistinct).of_append).step hstep hdistinct

/-- What runs while the sender is made or destroyed. -/
def Inside (_ : Mutex) : Frame → Prop
  | .created p _ | .destroyed p => p.ignored = true
  | _ => False

omit [DecidableEq T] in
theorem keeps_of_next {s : Nested.State Frame Observer Mutex T} {t : T} {f : Frame}
    {rest : List Frame} {a : Action} {e : Effect Frame Observer}
    (hnext : (program setup).next s.data f a = some e) :
    (program setup).Keeps Inside s t f rest e := by
  have htransition := transition_of_next hnext
  constructor
  · rintro l - - hinside
    cases htransition <;> simp_all [Inside, Effect.frames]
  · rintro g c d rfl l hl
    cases htransition with
    | @member _ _ _ member => exact member.ignored
    | @resetMember member => exact member.ignored
    | _ => exact absurd hl List.not_mem_nil

/-- No call of the observer comes back to the mutex that it holds. -/
theorem not_selfWait {labels : List (T × Action)} {s : Nested.State Frame Observer Mutex T}
    (hrun : exec (program setup).step (initial T) labels = some s) (t : T) :
    ¬(program setup).SelfWait s t := by
  have hinv : (program setup).Owned s ∧ (program setup).Guarded Inside s := by
    refine exec_invariant (I := fun s => (program setup).Owned s ∧
      (program setup).Guarded Inside s) ?_ ⟨sound_initial.owned, fun t => ?_⟩ hrun
    · rintro s ⟨t, a⟩ s' ⟨howned, hguarded⟩ hstep
      exact ⟨howned.step (wellLocked setup) hstep,
        hguarded.step howned hstep fun f rest e _ hnext => keeps_of_next hnext⟩
    · exact List.pairwise_singleton _ _
  apply Nested.Guarded.not_selfWait hinv.1 hinv.2
  intro f l hwants
  cases f with
  | creating | destroying => exact ⟨List.not_mem_nil, id⟩
  | _ => exact absurd hwants (by simp [program, Frame.wants])

/-! ### Every signal is handled -/

/-- In `s'` the thread has handled the signal. Apart from it, the log has grown only by
signals about the members of the sender. -/
structure Handled (s s' : Nested.State Frame Observer Mutex T) (t : T) (signal : Signal) : Prop where
  stack : s'.stack t = [.outside]
  owner : s'.owner .senderMutex = none
  log : ∃ before after, s'.data.log = s.data.log ++ (before ++ signal :: after) ∧
    ∀ other ∈ before ++ after, other.participant.scope.isSubScopeOf INTROSPECTION_SCOPE = true

/-- The observer after signals that it ignores. -/
def recordAll (o : Observer) (signals : List Signal) : Observer :=
  { o with log := o.log ++ signals }

theorem recordAll_map {X : Type} (signal : X → Signal) (o : Observer) (xs : List X) :
    o.recordAll (xs.map signal) = xs.foldl (fun o x => o.record (signal x)) o := by
  induction xs generalizing o with
  | nil => simp [recordAll]
  | cons x xs ih =>
    rw [List.map_cons, List.foldl_cons, ← ih]
    simp [recordAll, record]

variable {s : Nested.State Frame Observer Mutex T} {t : T}

/-- The signals of new members are ignored one after the other. -/
theorem members_created (setup : Setup) {p : Participant} {parent : Option Participant}
    {ids : MemberIds} {rest : List Frame} {remaining : List (Internal × Option Participant)}
    (hstack : s.stack t = .making p parent ids remaining :: rest)
    (howner : s.owner .senderMutex = some t) :
    ∃ s', (program setup).Alone t s s' ∧ s'.stack t = .making p parent ids [] :: rest ∧
      s'.data = s.data.recordAll (remaining.map fun m => .created m.1 m.2) := by
  obtain ⟨s', hrun, hstack', hdata, -⟩ := Nested.exists_alone_calls (program setup)
    (fun remaining => .making p parent ids remaining) (fun m => .created m.1.val m.2)
    (fun d m => d.record (.created m.1.val m.2)) (a := .run ids) (fun _ _ _ => rfl)
    (fun _ m => if_pos (Internal.ignored m.1)) (fun _ => ⟨rfl, rfl⟩) (fun _ => ⟨rfl, rfl⟩) hstack
    (List.forall_mem_singleton.mpr howner)
  exact ⟨s', hrun, hstack', by rw [hdata, ← recordAll_map]⟩

theorem members_destroyed (setup : Setup) (ids : MemberIds) {rest : List Frame}
    {remaining : List Internal} (hstack : s.stack t = .resetting remaining :: rest)
    (howner : s.owner .senderMutex = some t) :
    ∃ s', (program setup).Alone t s s' ∧ s'.stack t = .resetting [] :: rest ∧
      s'.data = s.data.recordAll (remaining.map fun m => .destroyed m.val) := by
  obtain ⟨s', hrun, hstack', hdata, -⟩ := Nested.exists_alone_calls (program setup)
    (fun remaining => .resetting remaining) (fun m : Internal => .destroyed m.val)
    (fun d m => d.record (.destroyed m.val)) (a := .run ids) (fun _ _ _ => rfl)
    (fun _ m => if_pos (Internal.ignored m)) (fun _ => ⟨rfl, rfl⟩) (fun _ => ⟨rfl, rfl⟩) hstack
    (List.forall_mem_singleton.mpr howner)
  exact ⟨s', hrun, hstack', by rw [hdata, ← recordAll_map]⟩

/-- A call that has come to its last step, without or with the mutex. -/
theorem handled_of_ret {s₁ : Nested.State Frame Observer Mutex T} {f : Frame} {signal : Signal}
    {a : Action} {d : Observer} (hrun : (program setup).Alone t s s₁)
    (hstack : s₁.stack t = [f, .outside]) (hnext : next setup s₁.data f a = some (.ret d))
    (howner : s₁.owner .senderMutex = none ∨ Mutex.senderMutex ∈ f.holds ∧ f.wants = none)
    (hlog : ∃ before after, d.log = s.data.log ++ (before ++ signal :: after) ∧
      ∀ other ∈ before ++ after,
        other.participant.scope.isSubScopeOf INTROSPECTION_SCOPE = true) :
    ∃ s', (program setup).Alone t s s' ∧ Handled s s' t signal := by
  obtain ⟨s', hrun', hstack', hdata', howner'⟩ := Nested.exists_alone (program setup)
    hstack hnext (by
      rintro ⟨⟩ hwants
      rcases howner with hnone | ⟨-, hnone⟩
      · exact hnone
      · exact absurd (hwants.symm.trans hnone) (by simp))
  refine ⟨s', hrun.trans hrun', hstack', ?_, hdata' ▸ hlog⟩
  rw [howner']
  rcases howner with hnone | ⟨hholds, -⟩
  · simp [Effect.frames, hnone]
  · simp [Effect.frames, program, hholds]

/-- A call that has been made, before it looks at the participant. -/
theorem exists_called (setup : Setup) {callee : Frame} {a : Action} (hstack : s.stack t = [.outside])
    (howner : s.owner .senderMutex = none) (hholds : callee.holds = [])
    (hnext : next setup s.data .outside a = some (.call .outside callee s.data)) :
    ∃ s', (program setup).Alone t s s' ∧ s'.stack t = [callee, .outside] ∧ s'.data = s.data ∧
      s'.owner .senderMutex = none := by
  obtain ⟨s', hrun, hstack', hdata, howner'⟩ := Nested.exists_alone (program setup)
    hstack hnext (by simp [program, Frame.wants])
  refine ⟨s', hrun, hstack', hdata, ?_⟩
  have houtside : Frame.outside.holds = [] := rfl
  rw [howner']
  simp [program, Effect.frames, houtside, hholds, howner]

/-- The step from before the lock to behind it. -/
theorem exists_locked {s₁ : Nested.State Frame Observer Mutex T} {f g : Frame} {a : Action}
    {d : Observer} (hrun : (program setup).Alone t s s₁) (hstack : s₁.stack t = [f, .outside])
    (howner : s₁.owner .senderMutex = none) (hnext : next setup s₁.data f a = some (.goto g d)) :
    ∃ s', (program setup).Alone t s s' ∧ s'.stack t = [g, .outside] ∧ s'.data = d ∧
      s'.owner .senderMutex = if Mutex.senderMutex ∈ g.holds then some t else none := by
  obtain ⟨s', hrun', hstack', hdata', howner'⟩ := Nested.exists_alone (program setup)
    hstack hnext (by
      rintro ⟨⟩ -
      exact howner)
  refine ⟨s', hrun.trans hrun', hstack', hdata', ?_⟩
  rw [howner']
  simp [program, Effect.frames, howner]

theorem created_handled (ids : MemberIds) (hstack : s.stack t = [.outside])
    (howner : s.owner .senderMutex = none) (p : Participant) (parent : Option Participant) :
    ∃ s', (program setup).Alone t s s' ∧ Handled s s' t (.created p parent) := by
  obtain ⟨s₁, hrun₁, hstack₁, hdata₁, howner₁⟩ := exists_called setup
    (a := .created p parent) hstack howner rfl rfl
  by_cases hp : p.ignored = true
  · exact handled_of_ret (a := .run ids) hrun₁ hstack₁ (if_pos hp) (.inl howner₁)
      ⟨[], [], by simp [record, hdata₁], by simp⟩
  obtain ⟨s₂, hrun₂, hstack₂, hdata₂, howner₂⟩ := exists_locked (a := .run ids) hrun₁ hstack₁
    howner₁ (if_neg hp)
  cases hsender : s₂.data.sender with
  | some sender =>
      obtain ⟨s', hadd, -⟩ := add_eq setup s₂.data sender.1 sender.2 p parent
      have hnext : next setup s₂.data (.creating p parent) (.run ids) = some (.ret
          { s₂.data.record (.created p parent) with sender := some (s', sender.2) }) := by
        simp [next, hsender, hadd]
      exact handled_of_ret hrun₂ hstack₂ hnext (.inl howner₂)
        ⟨[], [], by simp [record, hdata₂, hdata₁], by simp⟩
  | none =>
      have hmake : next setup s₂.data (.creating p parent) (.run ids) = some (.goto
          (.making p parent ids (setup.members ids).created) s₂.data) := by
        simp [next, hsender]
      obtain ⟨s₃, hrun₃, hstack₃, hdata₃, howner₃⟩ := exists_locked hrun₂ hstack₂ howner₂ hmake
      obtain ⟨s₄, hrun₄, hstack₄, hdata₄⟩ := members_created setup hstack₃ howner₃
      obtain ⟨s', hadd, -⟩ := add_eq setup s₄.data (setup.sender ids) (setup.members ids) p parent
      have hnext : next setup s₄.data (.making p parent ids []) (.run ids) = some (.ret
          { s₄.data.record (.created p parent) with
            sender := some (s', setup.members ids) }) := by
        simp [next, hadd]
      refine handled_of_ret (hrun₃.trans hrun₄) hstack₄ hnext
        (.inr ⟨List.mem_cons_self, rfl⟩)
        ⟨(setup.members ids).created.map fun m => .created m.1 m.2, [], ?_, ?_⟩
      · simp [record, recordAll, hdata₄, hdata₃, hdata₂, hdata₁]
      · intro other hother
        obtain ⟨member, -, rfl⟩ := List.mem_map.mp (List.append_nil _ ▸ hother)
        exact member.1.property

theorem destroyed_handled (ids : MemberIds) (hstack : s.stack t = [.outside])
    (howner : s.owner .senderMutex = none) (p : Participant) :
    ∃ s', (program setup).Alone t s s' ∧ Handled s s' t (.destroyed p) := by
  obtain ⟨s₁, hrun₁, hstack₁, hdata₁, howner₁⟩ := exists_called setup
    (a := .destroyed p) hstack howner rfl rfl
  by_cases hp : p.ignored = true
  · exact handled_of_ret (a := .run ids) hrun₁ hstack₁ (if_pos hp) (.inl howner₁)
      ⟨[], [], by simp [record, hdata₁], by simp⟩
  obtain ⟨s₂, hrun₂, hstack₂, hdata₂, howner₂⟩ := exists_locked (a := .run ids) hrun₁ hstack₁
    howner₁ (if_neg hp)
  cases hsender : s₂.data.sender with
  | none =>
      have hnext : next setup s₂.data (.destroying p) (.run ids) =
          some (.ret (s₂.data.record (.destroyed p))) := by
        simp [next, hsender]
      exact handled_of_ret hrun₂ hstack₂ hnext (.inl howner₂)
        ⟨[], [], by simp [record, hdata₂, hdata₁], by simp⟩
  | some sender =>
      obtain ⟨s', hremove, -⟩ := removeParticipant_eq setup sender.1 p.id
      by_cases hempty : s'.participants.isEmpty = true
      · have hreset : next setup s₂.data (.destroying p) (.run ids) = some (.goto
            (.resetting sender.2.destroyed) { s₂.data.record (.destroyed p) with
              sender := none, past := s₂.data.past ++ s'.published }) := by
          simp [next, hsender, hremove, hempty]
        obtain ⟨s₃, hrun₃, hstack₃, hdata₃, howner₃⟩ := exists_locked hrun₂ hstack₂ howner₂ hreset
        obtain ⟨s₄, hrun₄, hstack₄, hdata₄⟩ := members_destroyed setup ids hstack₃ howner₃
        have hnext : next setup s₄.data (.resetting []) (.run ids) = some (.ret s₄.data) := rfl
        refine handled_of_ret (hrun₃.trans hrun₄) hstack₄ hnext
          (.inr ⟨List.mem_cons_self, rfl⟩)
          ⟨[], sender.2.destroyed.map fun m => .destroyed m.val, ?_, ?_⟩
        · simp [record, recordAll, hdata₄, hdata₃, hdata₂, hdata₁]
        · intro other hother
          obtain ⟨member, -, rfl⟩ := List.mem_map.mp hother
          exact member.property
      · have hnext : next setup s₂.data (.destroying p) (.run ids) = some (.ret
            { s₂.data.record (.destroyed p) with sender := some (s', sender.2) }) := by
          simp [next, hsender, hremove, hempty]
        exact handled_of_ret hrun₂ hstack₂ hnext (.inl howner₂)
          ⟨[], [], by simp [record, hdata₂, hdata₁], by simp⟩

end

def sampleSetup : Setup where
  env := sampleEnvironment
  processDisplayName := none
  process := ⟨1, bytes "program", [], 0, bytes "0.18", []⟩
  host := ⟨[], bytes "host", [], [], [], []⟩
  hostScope := Scope.ofComponents [bytes "host", bytes "1"] (by decide)
  listenerURLs := .empty
  informerURLs := .empty
  introspectionEnabled := true

def sampleListener : Participant where
  kind := bytes "listener"
  id := ⟨List.replicate 16 26, by decide⟩
  scope := Scope.root
  transportURLs := .empty
  introspectionEnabled := true

def sampleIds : MemberIds where
  listener := ⟨List.replicate 16 27, by decide⟩
  informer := ⟨List.replicate 16 28, by decide⟩
  server := ⟨List.replicate 16 29, by decide⟩
  method := ⟨List.replicate 16 30, by decide⟩
  methodListener := ⟨List.replicate 16 31, by decide⟩

/-- A thread creates a listener, for which a sender is made. -/
def sampleRun : List (Bool × Action) :=
  (false, .created sampleListener none) :: List.replicate 13 (false, .run sampleIds)

end Observer

end Rsb.Introspection
