import Rsb.Event
import Rsb.Library.InPlace

/-!
Setting timestamps in place (`MetaData.cpp`).

Each setter hands a reference to one timestamp and the proposed time to
`checkedTimeStampSet`, which throws before it writes. The setters of the framework
times are atomic for this reason. The setter of the user times is not: it erases the
entry of the key, and `operator[]` adds a new one, before the time is looked at.
-/

namespace Rsb.MetaData.InPlace

open Library Library.InPlace

/-- The overloads of the setters, by the type of their argument. A `ptime` is given by
the microseconds from `UNIX_EPOCH` to it; the infinities are the least and the greatest
number. -/
inductive Time
  | micros (time : UInt64)
  | seconds (time : Float)
  | date (sinceEpoch : Int64)

/-- The time lies before 1970. -/
def Time.Rejected : Time → Prop
  | .micros _ => False
  | .seconds time => time < 0
  | .date sinceEpoch => sinceEpoch < 0

instance : ∀ time : Time, Decidable time.Rejected
  | .micros _ => inferInstanceAs (Decidable False)
  | .seconds time => inferInstanceAs (Decidable (time < 0))
  | .date sinceEpoch => inferInstanceAs (Decidable (sinceEpoch < 0))

/-- Where the product does not fit into 64 bits the source leaves its conversion open. -/
def checkedTimeStampSet (now : UInt64) : Time → InPlace Fault UInt64 Unit
  | .micros time => set (MetaData.checkedTimeStampSet now time)
  | .seconds time =>
      if time < 0 then throw (invalidArgument (bytes "Timestamps must be >= 0"))
      else if time < 0.000001 then set now
      else set (time * 1000000 + 0.5).toUInt64
  | .date sinceEpoch =>
      if sinceEpoch < 0 then
        throw (invalidArgument (bytes "Specified time is not a unix timestamp"))
      else set sinceEpoch.toUInt64

def setCreateTime (now : UInt64) (time : Time) : InPlace Fault MetaData Unit :=
  onPart createTime (fun m t => { m with createTime := t }) (checkedTimeStampSet now time)

def setSendTime (now : UInt64) (time : Time) : InPlace Fault MetaData Unit :=
  onPart sendTime (fun m t => { m with sendTime := t }) (checkedTimeStampSet now time)

def setReceiveTime (now : UInt64) (time : Time) : InPlace Fault MetaData Unit :=
  onPart receiveTime (fun m t => { m with receiveTime := t }) (checkedTimeStampSet now time)

def setDeliverTime (now : UInt64) (time : Time) : InPlace Fault MetaData Unit :=
  onPart deliverTime (fun m t => { m with deliverTime := t }) (checkedTimeStampSet now time)

def setUserTime (key : Bytes) (now : UInt64) (time : Time) : InPlace Fault MetaData Unit := do
  modify fun m => { m with userTimes := m.userTimes.erase key }
  -- `userTimes[key]`, before the call
  modify fun m => { m with userTimes := m.userTimes.insert key 0 }
  onPart (fun m => (m.userTimes.find? key).getD 0)
    (fun m t => { m with userTimes := m.userTimes.insert key t }) (checkedTimeStampSet now time)

inductive Setter
  | setCreateTime | setSendTime | setReceiveTime | setDeliverTime
  | setUserTime (key : Bytes)

def Setter.call (now : UInt64) (time : Time) : Setter → InPlace Fault MetaData Unit
  | .setCreateTime => InPlace.setCreateTime now time
  | .setSendTime => InPlace.setSendTime now time
  | .setReceiveTime => InPlace.setReceiveTime now time
  | .setDeliverTime => InPlace.setDeliverTime now time
  | .setUserTime key => InPlace.setUserTime key now time

/-! ### What is set -/

/-- The timestamp that is stored for a time. -/
def timestamp (now : UInt64) (time : Time) : Except Fault UInt64 :=
  match (checkedTimeStampSet now time).run 0 with
  | .ok () t => .ok t
  | .error e _ => .error e

/-- The old value of a timestamp plays no part. -/
theorem realizes_checkedTimeStampSet (now : UInt64) (time : Time) :
    Realizes (checkedTimeStampSet now time) fun _ => timestamp now time := by
  intro t
  cases time with
  | micros time => rfl
  | seconds time =>
      rw [timestamp, checkedTimeStampSet]
      split_ifs
      · rfl
      · rfl
      · rfl
  | date sinceEpoch =>
      rw [timestamp, checkedTimeStampSet]
      split_ifs
      · rfl
      · rfl

/-- What is thrown is always `std::invalid_argument`. -/
theorem timestamp_eq_error_iff {now : UInt64} {time : Time} :
    (∃ what, timestamp now time = .error (invalidArgument what)) ↔ time.Rejected := by
  cases time with
  | micros time => exact iff_of_false (fun ⟨_, h⟩ => by cases h) id
  | seconds time =>
      rw [timestamp, checkedTimeStampSet]
      split_ifs with hnegative
      · exact iff_of_true ⟨_, rfl⟩ hnegative
      · exact iff_of_false (fun ⟨_, h⟩ => by cases h) hnegative
      · exact iff_of_false (fun ⟨_, h⟩ => by cases h) hnegative
  | date sinceEpoch =>
      rw [timestamp, checkedTimeStampSet]
      split_ifs with hnegative
      · exact iff_of_true ⟨_, rfl⟩ hnegative
      · exact iff_of_false (fun ⟨_, h⟩ => by cases h) hnegative

/-- A framework time is replaced, or nothing happens. -/
theorem realizes_onPart_checkedTimeStampSet {part : MetaData → UInt64}
    {put : MetaData → UInt64 → MetaData} (hput : ∀ m, put m (part m) = m) (now : UInt64)
    (time : Time) :
    Realizes (onPart part put (checkedTimeStampSet now time))
      fun m => timestamp now time >>= fun t => .ok (put m t) :=
  realizes_onPart hput (realizes_checkedTimeStampSet now time)

/-- A setter of a framework time that throws has done nothing. -/
theorem unchanged_of_error {part : MetaData → UInt64} {put : MetaData → UInt64 → MetaData}
    (hput : ∀ m, put m (part m) = m) {now : UInt64} {time : Time} {m m' : MetaData} {e : Fault}
    (h : (onPart part put (checkedTimeStampSet now time)).run m = .error e m') : m' = m := by
  rw [realizes_onPart_checkedTimeStampSet hput now time m] at h
  cases ht : timestamp now time with
  | ok t =>
      rw [ht] at h
      cases h
  | error e' =>
      rw [ht] at h
      cases h
      rfl

/-- The entry is replaced by a new one, which is 0 if the time is rejected. -/
theorem run_setUserTime (key : Bytes) (now : UInt64) (time : Time) (m : MetaData) :
    (setUserTime key now time).run m =
      match timestamp now time with
      | .ok t => .ok () { m with userTimes := m.userTimes.insert key t }
      | .error e => .error e { m with userTimes := m.userTimes.insert key 0 } := by
  have hzero : (((m.userTimes.erase key).insert key 0).find? key).getD 0 = 0 := by
    rw [SortedMap.find?_insert_self]
    rfl
  have hset := realizes_checkedTimeStampSet now time 0
  simp only [setUserTime, EStateM.run_bind, EStateM.run_modify]
  cases ht : timestamp now time with
  | ok t =>
      rw [run_onPart (x := .ok ()) (t := t) (by rw [hzero, hset, ht]; rfl)]
      simp [result, erase_insert_eq]
  | error e =>
      rw [run_onPart (x := .error e) (t := 0) (by rw [hzero, hset, ht]; rfl)]
      simp [result, erase_insert_eq]

/-! ### Failed updates -/

/-- An update that throws leaves the meta data as they were, unless it is one of a user
time: the entry under the key is then 0, whatever was there. -/
theorem failed_update_unchanged_iff (now : UInt64) (f : Setter) (time : Time) (m : MetaData) :
    (∀ what m', (f.call now time).run m = .error (invalidArgument what) m' → m' = m) ↔
      (time.Rejected → ∀ key, f = .setUserTime key → m.userTimes.find? key = some 0) := by
  cases f with
  | setCreateTime | setSendTime | setReceiveTime | setDeliverTime =>
      apply iff_of_true
      · intro what m' h
        exact unchanged_of_error (fun _ => rfl) h
      · intro _ key h
        cases h
  | setUserTime key =>
      have hkept : { m with userTimes := m.userTimes.insert key 0 } = m ↔
          m.userTimes.find? key = some 0 := by
        rw [← SortedMap.insert_eq_self_iff]
        exact ⟨congrArg MetaData.userTimes, fun h => by rw [h]⟩
      simp only [Setter.call, run_setUserTime, Setter.setUserTime.injEq, forall_eq', ← hkept,
        ← @timestamp_eq_error_iff now]
      constructor
      · rintro h ⟨what, hwhat⟩
        exact h what _ (by rw [hwhat])
      · intro h what m' hrun
        cases ht : timestamp now time with
        | ok t =>
            rw [ht] at hrun
            cases hrun
        | error e =>
            rw [ht] at hrun
            cases hrun
            exact h ⟨what, ht⟩

/-- The meta data of an event with a user time. -/
def measured : MetaData := (MetaData.new 5).setUserTime (bytes "measured") 6 7

/-- A negative number of seconds throws, and the time that was there is gone. -/
theorem measured_overwritten :
    ∃ what m', ((Setter.setUserTime (bytes "measured")).call 8 (.seconds (-1))).run measured =
        .error (invalidArgument what) m' ∧
      measured.userTimes.find? (bytes "measured") = some 7 ∧
      m'.userTimes.find? (bytes "measured") = some 0 ∧ m' ≠ measured := by
  have hfind : measured.userTimes.find? (bytes "measured") = some 7 := by decide
  refine ⟨bytes "Timestamps must be >= 0", _, rfl, hfind, rfl, fun h => ?_⟩
  have hzero : measured.userTimes.find? (bytes "measured") = some 0 := by
    rw [← h]
    rfl
  exact absurd (hfind.symm.trans hzero) (by decide)

end Rsb.MetaData.InPlace
