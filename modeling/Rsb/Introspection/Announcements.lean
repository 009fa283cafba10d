import Rsb.Introspection.Sender

/-!
What introspection has to tell about the participants of a process.

The factory signals every participant it creates and every one that is destroyed.
`remaining` and `story` say what a list of such signals asks for: which participants
are known at its end, and what has been told about each of them.
-/

namespace Rsb.Introspection

open Library

/-- A participant as far as the observer looks at it. -/
structure Participant where
  kind : Bytes
  id : UUID
  scope : Scope
  transportURLs : SortedSet Bytes
  introspectionEnabled : Bool

namespace Participant

/-- The test at the beginning of both handlers. -/
def ignored (p : Participant) : Bool :=
  p.scope.isSubScopeOf INTROSPECTION_SCOPE || !p.introspectionEnabled

/-- The information `addParticipant` takes from a participant and its parent. -/
def info (p : Participant) (parent : Option Participant) : ParticipantInfo where
  kind := p.kind
  id := p.id
  parentId := (parent.map Participant.id).getD nilId
  scope := p.scope
  type := bytes "TODO"
  transportURLs := p.transportURLs

end Participant

inductive Signal
  | created (p : Participant) (parent : Option Participant)
  | destroyed (p : Participant)

/-! ### What signals ask for -/

namespace Signal

def createdId : Signal → Option UUID
  | created p _ => some p.id
  | destroyed _ => none

/-- The signal is about the end of the participant with the id. -/
def destroys (id : UUID) : Signal → Bool
  | created _ _ => false
  | destroyed p => p.id = id

def participant : Signal → Participant
  | created p _ | destroyed p => p

end Signal

/-- No participant is created twice, and an id stands for one participant. -/
structure Distinct (log : List Signal) : Prop where
  created : (log.filterMap Signal.createdId).Nodup
  identifies : ∀ a ∈ log, ∀ b ∈ log, a.participant.id = b.participant.id →
    a.participant = b.participant

/-- The participants announced and not destroyed since. -/
def remaining : List Signal → List ParticipantInfo
  | [] => []
  | .created p parent :: log =>
      if p.ignored || log.any (Signal.destroys p.id) then remaining log
      else p.info parent :: remaining log
  | .destroyed _ :: log => remaining log

inductive Note
  | hello (id : Bytes)
  | bye (id : Bytes)
  deriving DecidableEq

def Note.id : Note → Bytes
  | hello id | bye id => id

/-- The message in an event. -/
def noteOf (event : Event Data) : Option Note :=
  match event.content with
  | some (.hello hello) => some (.hello hello.id)
  | some (.bye bye) => some (.bye bye.id)
  | _ => none

/-- The messages about the participant with the id. -/
def notesAbout (id : UUID) (events : List (Event Data)) : List Note :=
  (events.filterMap noteOf).filter fun note => note.id = id.data

/-- What others have to be told about a participant: nothing before it is announced,
then one hello, and one bye when it is destroyed after that. -/
def story (id : UUID) : List Signal → List Note
  | [] => []
  | .created p _ :: log =>
      if p.id = id ∧ p.ignored = false then
        .hello id.data :: (if log.any (Signal.destroys id) then [.bye id.data] else [])
      else story id log
  | .destroyed _ :: log => story id log

theorem remaining_created (log : List Signal) (p : Participant) (parent : Option Participant) :
    remaining (log ++ [.created p parent]) =
      remaining log ++ if p.ignored then [] else [p.info parent] := by
  induction log with
  | nil => simp [remaining]
  | cons signal log ih =>
      cases signal with
      | created q _ =>
          have hany : [Signal.created p parent].any (Signal.destroys q.id) = false := rfl
          rw [List.cons_append, remaining, List.any_append, hany, Bool.or_false, remaining, ih]
          split_ifs <;> rfl
      | destroyed q => exact ih

theorem remaining_destroyed (log : List Signal) (q : Participant) :
    remaining (log ++ [.destroyed q]) = (remaining log).filter fun info => info.id ≠ q.id := by
  induction log with
  | nil => rfl
  | cons signal log ih =>
      cases signal with
      | created p parent =>
          have hid : (p.info parent).id = p.id := rfl
          by_cases hgone : (p.ignored || log.any (Signal.destroys p.id)) = true
          · simp [remaining, hgone, ih, ← Bool.or_assoc]
          · by_cases hq : q.id = p.id
            · simp [remaining, hgone, ih, Signal.destroys, hq, hid]
            · simp [remaining, hgone, ih, Signal.destroys, hq, hid, Ne.symm hq]
      | destroyed p => exact ih

theorem mem_remaining {log : List Signal} {info : ParticipantInfo} (h : info ∈ remaining log) :
    ∃ p parent, Signal.created p parent ∈ log ∧ p.ignored = false ∧ info = p.info parent := by
  induction log with
  | nil => exact absurd h List.not_mem_nil
  | cons signal log ih =>
      have hlater : info ∈ remaining log → ∃ p parent,
          Signal.created p parent ∈ signal :: log ∧ p.ignored = false ∧ info = p.info parent := by
        intro hmem
        obtain ⟨p, parent, hcreated, hp⟩ := ih hmem
        exact ⟨p, parent, List.mem_cons_of_mem _ hcreated, hp⟩
      cases signal with
      | created p parent =>
          rw [remaining] at h
          split_ifs at h with hgone
          · exact hlater h
          · rcases List.mem_cons.mp h with rfl | h
            · exact ⟨p, parent, List.mem_cons_self, by simp_all, rfl⟩
            · exact hlater h
      | destroyed p => exact hlater h

theorem ids_remaining (log : List Signal) :
    ((remaining log).map ParticipantInfo.id).Sublist (log.filterMap Signal.createdId) := by
  induction log with
  | nil => exact List.Sublist.slnil
  | cons signal log ih =>
      cases signal with
      | created p parent =>
          rw [remaining]
          split_ifs
          · exact List.Sublist.cons p.id ih
          · exact List.Sublist.cons_cons p.id ih
      | destroyed p => exact ih

theorem story_of_not_created {id : UUID} {log : List Signal}
    (h : id ∉ log.filterMap Signal.createdId) : story id log = [] := by
  induction log with
  | nil => rfl
  | cons signal log ih =>
      cases signal with
      | created p parent =>
          have hids : p.id ≠ id ∧ id ∉ log.filterMap Signal.createdId := by
            simpa [Signal.createdId, eq_comm] using h
          rw [story, if_neg (fun hp => hids.1 hp.1), ih hids.2]
      | destroyed p => exact ih h

/-- A signal that does not concern the participant. -/
theorem story_append_of {id : UUID} {signal : Signal} (h : signal.destroys id = false)
    (hstory : story id [signal] = []) (log : List Signal) :
    story id (log ++ [signal]) = story id log := by
  induction log with
  | nil => exact hstory
  | cons first log ih =>
      cases first with
      | created p parent => simp [story, ih, h]
      | destroyed p => exact ih

theorem story_created {p : Participant} (hp : p.ignored = false) (parent : Option Participant)
    {log : List Signal} (h : p.id ∉ log.filterMap Signal.createdId) :
    story p.id (log ++ [.created p parent]) = [.hello p.id.data] := by
  induction log with
  | nil => simp [story, hp]
  | cons first log ih =>
      cases first with
      | created q parent' =>
          have hids : q.id ≠ p.id ∧ p.id ∉ log.filterMap Signal.createdId := by
            simpa [Signal.createdId, eq_comm] using h
          rw [List.cons_append, story, if_neg (fun hq => hids.1 hq.1), ih hids.2]
      | destroyed q => exact ih h

/-- The end of a participant is told if its beginning has been, and only once. -/
theorem story_destroyed (q : Participant) (log : List Signal) :
    story q.id (log ++ [.destroyed q]) =
      if story q.id log = [.hello q.id.data] then [.hello q.id.data, .bye q.id.data]
      else story q.id log := by
  induction log with
  | nil => simp [story]
  | cons first log ih =>
      cases first with
      | created p parent =>
          rw [List.cons_append, story, story]
          split_ifs with hp hany hgone <;> simp_all [Signal.destroys]
      | destroyed p => exact ih

/-- The participants that remain are those of which no more than the hello is told. -/
theorem story_eq_hello_iff {id : UUID} {log : List Signal}
    (h : (log.filterMap Signal.createdId).Nodup) :
    story id log = [.hello id.data] ↔ ∃ info ∈ remaining log, info.id = id := by
  induction log with
  | nil => simp [story, remaining]
  | cons first log ih =>
      cases first with
      | created p parent =>
          have hnodup : p.id ∉ log.filterMap Signal.createdId ∧
              (log.filterMap Signal.createdId).Nodup := by
            simpa [Signal.createdId] using h
          have hnone : ¬∃ info ∈ remaining log, info.id = p.id := by
            rintro ⟨info, hmem, hid⟩
            exact hnodup.1 ((ids_remaining log).subset (hid ▸ List.mem_map_of_mem hmem))
          have hinfo : (p.info parent).id = p.id := rfl
          rw [story, remaining]
          by_cases hid : p.id = id
          · subst hid
            by_cases hp : p.ignored = true
            · simp [hp, ih hnodup.2]
            · by_cases hany : log.any (Signal.destroys p.id) = true
              · simpa [hp, hany] using hnone
              · simp [hp, hany, hinfo]
          · rw [if_neg (fun hp => hid hp.1), ih hnodup.2]
            split_ifs <;> simp [hinfo, hid]
      | destroyed p => exact ih h

theorem nodup_ids_remaining {log : List Signal} (h : Distinct log) :
    ((remaining log).map ParticipantInfo.id).Nodup :=
  h.created.sublist (ids_remaining log)

/-- Where ids are different, erasing one is filtering it out. -/
theorem eraseP_eq_filter {infos : List ParticipantInfo} (h : (infos.map ParticipantInfo.id).Nodup)
    (id : UUID) :
    infos.eraseP (fun info => info.id = id) = infos.filter fun info => info.id ≠ id := by
  induction infos with
  | nil => rfl
  | cons info infos ih =>
      rw [List.map_cons, List.nodup_cons] at h
      by_cases hid : info.id = id
      · have hothers : ∀ other ∈ infos, other.id ≠ id := by
          rintro other hmem rfl
          exact h.1 (hid ▸ List.mem_map_of_mem hmem)
        rw [List.eraseP_cons_of_pos (by simpa using hid), List.filter_cons_of_neg (by simpa using hid)]
        exact (List.filter_eq_self.mpr (by simpa using hothers)).symm
      · rw [List.eraseP_cons_of_neg (by simpa using hid), List.filter_cons_of_pos (by simpa using hid),
          ih h.2]

theorem notesAbout_append (id : UUID) (events events' : List (Event Data)) :
    notesAbout id (events ++ events') = notesAbout id events ++ notesAbout id events' := by
  simp [notesAbout]

theorem notesAbout_singleton {event : Event Data} {note : Note} (h : noteOf event = some note)
    (id : UUID) : notesAbout id [event] = if note.id = id.data then [note] else [] := by
  simp [notesAbout, h, List.filter_singleton]

theorem Distinct.of_append {log log' : List Signal} (h : Distinct (log ++ log')) : Distinct log where
  created := by
    have hcreated := h.created
    rw [List.filterMap_append] at hcreated
    exact hcreated.of_append_left
  identifies a ha b hb :=
    h.identifies a (List.mem_append_left _ ha) b (List.mem_append_left _ hb)

/-- A new participant has a new id. -/
theorem Distinct.created_new {log : List Signal} {p : Participant} {parent : Option Participant}
    (h : Distinct (log ++ [.created p parent])) : p.id ∉ log.filterMap Signal.createdId := by
  have hcreated := h.created
  rw [List.filterMap_append, List.nodup_append] at hcreated
  intro hmem
  exact hcreated.2.2 _ hmem p.id (by simp [Signal.createdId]) rfl

/-- What is ignored does not remain. -/
theorem Distinct.remaining_ne {log : List Signal} {p : Participant}
    (h : Distinct (log ++ [.destroyed p])) (hp : p.ignored = true) :
    ∀ info ∈ remaining log, info.id ≠ p.id := by
  intro info hmem hid
  obtain ⟨q, parent, hcreated, hq, rfl⟩ := mem_remaining hmem
  have heq : q = p := h.identifies (.created q parent) (List.mem_append_left _ hcreated)
    (.destroyed p) (List.mem_append_right _ List.mem_cons_self) hid
  rw [heq, hp] at hq
  exact absurd hq (by simp)

end Rsb.Introspection
