import Rsb.Library.Iteration

/-!
What removals leave behind.

A loop that nobody disturbs calls the members that exist in its lists, or erases from each
of them what a scan of the list erases. A scan that erases one element of a list may take an
element of a member that exists no more for the one that it looks for, and leave that one
where it is. If no scan does, a member that has been removed is in no list. Whatever happens
while a removal is under way, the lists keep the other members that exist as often as they
have them.
-/

namespace Rsb.Library

theorem Scan.erase_nil {α : Type} (scan : Scan) (p : α → Bool) : scan.erase p [] = [] := by
  cases scan <;> rfl

theorem Scan.erase_cons_of_neg {α : Type} {scan : Scan} {p : α → Bool} {a : α} {l : List α}
    (h : p a = false) : scan.erase p (a :: l) = a :: scan.erase p l := by
  cases scan <;> simp [Scan.erase, h]

theorem Scan.erase_all_cons_of_pos {α : Type} {p : α → Bool} {a : α} {l : List α}
    (h : p a = true) : Scan.all.erase p (a :: l) = Scan.all.erase p l := by
  simp [Scan.erase, h]

theorem Lists.map_list {Id Key : Type} [LinearOrder Key] (s : Lists Id Key) (k : Key) :
    ((s.find? k).map fun _ => s.list k) = s.find? k := by
  cases hfind : s.find? k with
  | none => rfl
  | some l => rw [Option.map_some, list_of_find? hfind]

namespace Registry

variable {Id Key : Type} [DecidableEq Id] [LinearOrder Key] {R : Registry Id Key}

/-! ### Loops that nobody disturbs -/

/-- What a removal of `x` erases. -/
def gone (alive : Id → Bool) (x p : Id) : Bool := !alive p || p == x

theorem gone_eq_false_iff {alive : Id → Bool} {x p : Id} :
    gone alive x p = false ↔ (alive p && p ≠ x) = true := by
  simp [gone]

/-- The loop goes on, and has not had the last reference to a member. -/
def Label.quiet : Label Id Key → Bool
  | .go | .release false => true
  | _ => false

/-- Some quiet labels lead from `s` to `s'`. -/
def Quietly (R : Registry Id Key) (s s' : State Id Key) : Prop :=
  ∃ labels : List (Label Id Key), (∀ label ∈ labels, label.quiet = true) ∧
    exec R.step s labels = some s'

theorem Quietly.refl (s : State Id Key) : Quietly R s s :=
  ⟨[], by simp, rfl⟩

theorem Quietly.trans {s s' s'' : State Id Key} (h : Quietly R s s') (h' : Quietly R s' s'') :
    Quietly R s s'' := by
  obtain ⟨labels, hquiet, hexec⟩ := h
  obtain ⟨labels', hquiet', hexec'⟩ := h'
  exact ⟨labels ++ labels', fun label hlabel => (List.mem_append.mp hlabel).elim
    (hquiet label) (hquiet' label), exec_append hexec hexec'⟩

theorem Quietly.of_go {s s' : State Id Key} (hs : s.undefined = false) (h : R.go s = some s') :
    Quietly R s s' :=
  ⟨[.go], by simp [Label.quiet], by simp [exec, step, hs, h]⟩

theorem Quietly.of_release {s s' : State Id Key} (hs : s.undefined = false)
    (h : R.release s false = some s') : Quietly R s s' :=
  ⟨[.release false], by simp [Label.quiet], by simp [exec, step, hs, h]⟩

theorem go_visit {s : State Id Key} {l : Loop Id Key} {rest : List (Loop Id Key)} {k : Key}
    {keys : List Key} {i : ℕ} {p : Id} (hloops : s.loops = l :: rest) (hheld : l.held = none)
    (hkeys : l.keys = k :: keys) (hnext : l.next = some i) (hget : (s.store.list k)[i]? = some p) :
    R.go s = some (R.visit { s with loops := rest } l k i p) := by
  simp [go, hloops, hheld, hkeys, hnext, hget]

section

variable {s : State Id Key} (hs : s.undefined = false)

include hs

theorem quietly_dispatch_list {k : Key} {keys : List Key} {due : Id → Bool}
    {rest : List (Loop Id Key)} {t : List Id} {position : ℕ} {visited : Bool} {called : List Id}
    (ht : (s.store.list k).drop (if visited then position + 1 else position) = t) :
    Quietly R
      { s with loops :=
          ⟨k :: keys, some position, visited, none, .dispatch ⟨called, due⟩⟩ :: rest }
      { s with loops :=
          ⟨keys, some 0, false, none, .dispatch ⟨called ++ t.filter s.alive, due⟩⟩ :: rest } := by
  induction t generalizing position visited called with
  | nil =>
      have hend : (s.store.list k)[if visited then position + 1 else position]? = none := by
        rw [List.getElem?_eq_none_iff]
        exact List.drop_eq_nil_iff.mp ht
      refine .of_go hs ?_
      simp [go, Loop.next, hend]
  | cons p t ih =>
      generalize hi : (if visited then position + 1 else position) = i at ht
      have hget : (s.store.list k)[i]? = some p := by
        rw [← List.head?_drop, ht]
        rfl
      have htail : (s.store.list k).drop (if true then i + 1 else i) = t := by
        rw [if_pos rfl, ← List.drop_drop, ht]
        rfl
      have hvisit : Quietly R
          { s with loops :=
              ⟨k :: keys, some position, visited, none, .dispatch ⟨called, due⟩⟩ :: rest }
          { s with loops :=
              ⟨k :: keys, some i, true, if s.alive p then some p else none,
                .dispatch ⟨called ++ (if s.alive p then some p else none).toList, due⟩⟩ :: rest } :=
        .of_go hs (by simp [go, Loop.next, hi, hget, visit])
      refine hvisit.trans ?_
      cases halive : s.alive p with
      | true =>
          have hrelease : Quietly R
              { s with loops :=
                  ⟨k :: keys, some i, true, some p, .dispatch ⟨called ++ [p], due⟩⟩ :: rest }
              { s with loops :=
                  ⟨k :: keys, some i, true, none, .dispatch ⟨called ++ [p], due⟩⟩ :: rest } :=
            .of_release hs (by simp [release])
          have hrest := hrelease.trans (ih htail)
          simpa [halive] using hrest
      | false => simpa [halive] using ih htail

/-- A dispatch that nobody disturbs calls the members that exist in its lists. -/
theorem quietly_dispatch_keys (due : Id → Bool) (rest : List (Loop Id Key)) (keys : List Key)
    (called : List Id) :
    Quietly R
      { s with loops := ⟨keys, some 0, false, none, .dispatch ⟨called, due⟩⟩ :: rest }
      { s with
        loops := rest
        finished :=
          ⟨called ++ (keys.flatMap s.store.list).filter s.alive, due⟩ :: s.finished } := by
  induction keys generalizing called with
  | nil => exact .of_go hs (by simp [go, finish])
  | cons k keys ih =>
      have hlist : Quietly R
          { s with loops := ⟨k :: keys, some 0, false, none, .dispatch ⟨called, due⟩⟩ :: rest }
          { s with loops := ⟨keys, some 0, false, none,
            .dispatch ⟨called ++ (s.store.list k).filter s.alive, due⟩⟩ :: rest } :=
        quietly_dispatch_list hs rfl
      simpa using hlist.trans (ih _)

/-- An element that stays is visited and released. -/
theorem quietly_removal_pass (keys : List Key) (key : Key) (rest : List (Loop Id Key)) {k : Key}
    {x p : Id} {position i : ℕ} {visited : Bool}
    (hi : (if visited then position + 1 else position) = i)
    (hget : (s.store.list k)[i]? = some p) (hp : (s.alive p && p ≠ x) = true) :
    ∃ position' visited', (if visited' then position' + 1 else position') = i + 1 ∧
      Quietly R
        { s with loops := ⟨k :: keys, some position, visited, none, .removal x key⟩ :: rest }
        { s with loops :=
          ⟨k :: keys, some position', visited', none, .removal x key⟩ :: rest } := by
  have hrelease : ∀ position' visited', Quietly R
      { s with loops := ⟨k :: keys, some position', visited', some p, .removal x key⟩ :: rest }
      { s with loops := ⟨k :: keys, some position', visited', none, .removal x key⟩ :: rest } :=
    fun _ _ => .of_release hs (by simp [release])
  have hgo := go_visit (R := R)
    (s := { s with loops := ⟨k :: keys, some position, visited, none, .removal x key⟩ :: rest })
    rfl rfl rfl (congrArg some hi) hget
  cases hscan : R.scan with
  | first =>
      refine ⟨i, true, rfl, Quietly.trans (.of_go hs (hgo.trans ?_)) (hrelease i true)⟩
      simp only [visit, if_pos hp, hscan]
  | all =>
      refine ⟨i + 1, false, rfl, Quietly.trans (.of_go hs (hgo.trans ?_)) (hrelease (i + 1) false)⟩
      simp only [visit, if_pos hp, hscan]

/-- An element that goes is erased. The loop leaves the list, or stays where it is. -/
theorem quietly_removal_erase (keys : List Key) (key : Key) {k : Key} {x p : Id}
    {position i : ℕ} {visited : Bool} (hi : (if visited then position + 1 else position) = i)
    (hget : (s.store.list k)[i]? = some p) (hp : gone s.alive x p = true) :
    Quietly R
      { s with loops := [⟨k :: keys, some position, visited, none, .removal x key⟩] }
      { s with
        store := s.store.eraseAt k i
        loops := [match R.scan with
          | .first => ⟨keys, some 0, false, none, .removal x key⟩
          | .all => ⟨k :: keys, some i, false, none, .removal x key⟩] } := by
  have hgoes : (s.alive p && p ≠ x) = false := by
    rw [← Bool.not_eq_true, ← gone_eq_false_iff, hp]
    simp
  have hgo := go_visit (R := R)
    (s := { s with loops := [⟨k :: keys, some position, visited, none, .removal x key⟩] })
    rfl rfl rfl (congrArg some hi) hget
  refine .of_go hs (hgo.trans ?_)
  simp only [visit, hgoes]
  cases R.scan <;> rfl

/-- A removal in which nobody gives up a last reference, while no other loop is under way.
From a position on it leaves of a list what a scan leaves. -/
theorem quietly_removal_list (keys : List Key) (x : Id) (key : Key) {k : Key} {t : List Id}
    {position : ℕ} {visited : Bool} {store : Lists Id Key}
    (ht : (store.list k).drop (if visited then position + 1 else position) = t) :
    ∃ store' : Lists Id Key,
      (∀ k', store'.find? k' = if k' = k then (store.find? k).map fun _ =>
        (store.list k).take (if visited then position + 1 else position) ++
          R.scan.erase (gone s.alive x) t else store.find? k') ∧
      Quietly R
        { s with store, loops := [⟨k :: keys, some position, visited, none, .removal x key⟩] }
        { s with
          store := store'
          loops := [⟨keys, some 0, false, none, .removal x key⟩] } := by
  generalize hi : (if visited then position + 1 else position) = i at ht ⊢
  induction t generalizing position visited i store with
  | nil =>
      have hend : (store.list k)[i]? = none := by
        rw [List.getElem?_eq_none_iff]
        exact List.drop_eq_nil_iff.mp ht
      refine ⟨store, fun k' => ?_, .of_go hs (by simp [go, Loop.next, hi, hend])⟩
      split_ifs with hk
      · rw [Scan.erase_nil, List.append_nil, List.take_of_length_le (List.drop_eq_nil_iff.mp ht),
          Lists.map_list, hk]
      · rfl
  | cons p t ih =>
      have hget : (store.list k)[i]? = some p := by
        rw [← List.head?_drop, ht]
        rfl
      have htail : (store.list k).drop (i + 1) = t := by
        rw [← List.drop_drop, ht]
        rfl
      have htake : (store.list k).take (i + 1) = (store.list k).take i ++ [p] := by
        rw [List.take_add_one, hget]
        rfl
      cases hp : gone s.alive x p with
      | false =>
          obtain ⟨position', visited', hi', hpass⟩ := quietly_removal_pass (R := R)
            (s := { s with store }) hs keys key [] hi hget (gone_eq_false_iff.mp hp)
          obtain ⟨store', hstore, hrest⟩ := ih (i + 1) hi' htail
          refine ⟨store', fun k' => ?_, hpass.trans hrest⟩
          rw [hstore]
          rw [htake, Scan.erase_cons_of_neg hp, List.append_assoc, List.singleton_append]
      | true =>
          have herase := quietly_removal_erase (R := R) (s := { s with store }) hs keys key hi hget hp
          have herased : ∀ k', (store.eraseAt k i).find? k' =
              if k' = k then (store.find? k).map fun _ => (store.list k).take i ++ t
              else store.find? k' := by
            intro k'
            rw [Lists.find?_eraseAt, List.eraseIdx_eq_take_drop_succ, htail]
          cases hscan : R.scan with
          | first =>
              rw [hscan] at herase
              refine ⟨store.eraseAt k i, fun k' => ?_, herase⟩
              rw [herased, Scan.erase, List.eraseP_cons_of_pos hp]
          | all =>
              rw [hscan] at herase
              have hi : i < (store.list k).length := (List.getElem?_eq_some_iff.mp hget).1
              have hlist : (store.eraseAt k i).list k = (store.list k).take i ++ t := by
                rw [Lists.list_eraseAt, if_pos rfl, List.eraseIdx_eq_take_drop_succ, htail]
              have htake : ((store.list k).take i).length = i := List.length_take_of_le hi.le
              have hat : (if false then i + 1 else i) = i := rfl
              have hbehind : ((store.eraseAt k i).list k).drop i = t := by
                rw [hlist, List.drop_left' htake]
              obtain ⟨store', hstore, hrest⟩ := ih i hat hbehind
              refine ⟨store', fun k' => ?_, herase.trans hrest⟩
              rw [hstore, hlist, List.take_left' htake, herased, if_pos rfl, Option.map_map,
                Scan.erase_all_cons_of_pos hp]
              split_ifs with hk
              · rw [hscan]
                rfl
              · rw [herased, if_neg hk]

/-- A removal that nobody disturbs leaves what a scan leaves of each list, and drops the lists
that are empty. -/
theorem quietly_removal_keys (x : Id) (key : Key) {keys : List Key} (hkeys : keys.Nodup)
    (store : Lists Id Key) :
    ∃ store' : Lists Id Key,
      (∀ k, store'.find? k = if k ∈ keys then (store.find? k).map fun _ =>
        R.scan.erase (gone s.alive x) (store.list k) else store.find? k) ∧
      Quietly R
        { s with store, loops := [⟨keys, some 0, false, none, .removal x key⟩] }
        { s with store := R.drop store' key, loops := [] } := by
  induction keys generalizing store with
  | nil => exact ⟨store, by simp, .of_go hs (by simp [go, finish])⟩
  | cons k keys ih =>
      obtain ⟨hk, hkeys⟩ := List.nodup_cons.mp hkeys
      have hwhole : (store.list k).drop (if false then 0 + 1 else 0) = store.list k := rfl
      obtain ⟨store₁, hstore₁, hlist⟩ := quietly_removal_list (R := R) hs keys x key hwhole
      obtain ⟨store₂, hstore₂, hrest⟩ := ih hkeys store₁
      refine ⟨store₂, fun k' => ?_, hlist.trans hrest⟩
      simp only [Bool.false_eq_true, if_false, List.take_zero, List.nil_append] at hstore₁
      by_cases hk' : k' = k
      · rw [hstore₂, if_neg (hk' ▸ hk), hstore₁, if_pos hk', hk', if_pos List.mem_cons_self]
      · have hsame : store₁.find? k' = store.find? k' := by rw [hstore₁, if_neg hk']
        rw [hstore₂, hsame, Lists.list, hsame, ← Lists.list]
        simp [hk']

/-- A dispatch that nobody disturbs. -/
theorem exec_dispatch (hcalling : s.calling = true) {key : Key} (hkey : R.dispatchable key = true) :
    ∃ (d : Dispatched Id) (labels : List (Label Id Key)),
      d.called = ((R.keys key).flatMap (R.prepare s.store key).list).filter s.alive ∧
      (∀ label ∈ labels, label.quiet = true) ∧
      exec R.step s (.dispatch key :: labels) = some { s with
        store := R.prepare s.store key
        finished := d :: s.finished } := by
  obtain ⟨labels, hquiet, hexec⟩ := quietly_dispatch_keys (R := R)
    (s := { s with store := R.prepare s.store key }) hs
    (fun x => s.alive x && (s.registered x).any (R.covers · key)) s.loops (R.keys key) []
  refine ⟨_, labels, rfl, hquiet, exec_cons_eq_some.mpr ⟨_, ?_, hexec⟩⟩
  simp [step, hs, hcalling, startDispatch, hkey]

/-- A removal that nobody disturbs. -/
theorem exec_removal (hloops : s.loops = []) {x : Id} {key : Key} {keys : List Key}
    (hregistered : ∀ k ∈ s.registered x, k = key) (hkey : R.removable key = true)
    (hscanned : R.scanned s.store key = some keys) (hkeys : keys.Nodup) :
    ∃ (store' : Lists Id Key) (labels : List (Label Id Key)),
      (∀ k, store'.find? k = if k ∈ keys then (s.store.find? k).map fun _ =>
        R.scan.erase (gone s.alive x) (s.store.list k) else s.store.find? k) ∧
      (∀ label ∈ labels, label.quiet = true) ∧
      exec R.step s (.remove x key :: labels) = some { s with
        store := R.drop store' key
        registered := Function.update s.registered x none } := by
  obtain ⟨store', hstore', labels, hquiet, hexec⟩ := quietly_removal_keys (R := R)
    (s := { s with registered := Function.update s.registered x none }) hs x key hkeys s.store
  refine ⟨store', labels, hstore', hquiet, exec_cons_eq_some.mpr ⟨_, ?_, hexec.trans ?_⟩⟩
  · have hall : (s.registered x).all (· = key) = true := by
      rw [Option.all_eq_true]
      exact fun k hk => decide_eq_true (hregistered k hk)
    simp [step, hs, State.calling, hloops, hall, startRemoval, hkey, hscanned]
  · rw [hloops]

end

/-! ### What a removal does with an element -/

variable {s s' : State Id Key}

/-- A removal passes an element or erases it. -/
theorem visit_removal_cases {l : Loop Id Key} {k : Key} {i : ℕ} {x p : Id} {key : Key}
    (htask : l.task = .removal x key) :
    (gone s.alive x p = false ∧ ∃ l' : Loop Id Key, l'.keys = l.keys ∧ l'.next = some (i + 1) ∧
      l'.task = l.task ∧ R.visit s l k i p = { s with loops := l' :: s.loops }) ∨
    gone s.alive x p = true ∧ ∃ l' : Loop Id Key,
      ((l'.keys = l.keys.tail ∧ l'.next = some 0) ∨ (l'.keys = l.keys ∧ l'.next = some i)) ∧
      l'.task = l.task ∧ R.visit s l k i p = { s with
        store := s.store.eraseAt k i
        loops := l' :: s.loops.map (·.erased k i) } := by
  cases hp : gone s.alive x p with
  | false =>
      have hstays := gone_eq_false_iff.mp hp
      left
      refine ⟨rfl, ?_⟩
      rw [visit, htask]
      simp only [if_pos hstays]
      cases R.scan with
      | first => refine ⟨_, ?_, ?_, ?_, rfl⟩ <;> rfl
      | all => refine ⟨_, ?_, ?_, ?_, rfl⟩ <;> rfl
  | true =>
      have hgoes : ¬(s.alive p && p ≠ x) = true := by
        rw [← gone_eq_false_iff, hp]
        simp
      right
      refine ⟨rfl, ?_⟩
      rw [visit, htask]
      simp only [if_neg hgoes]
      cases R.scan with
      | first => refine ⟨_, .inl ⟨?_, ?_⟩, ?_, rfl⟩ <;> rfl
      | all => refine ⟨_, .inr ⟨?_, ?_⟩, ?_, rfl⟩ <;> rfl

/-! ### Members that have been removed -/

/-- Every pointer to `x` is in a list that the loop has yet to go over, or lies ahead in the
one it is in. -/
def Passed (store : Lists Id Key) (l : Loop Id Key) (x : Id) : Prop :=
  (∀ k, k ∉ l.keys → x ∉ store.list k) ∧
    ∀ k ∈ l.keys.head?, ∀ i ∈ l.next, x ∉ (store.list k).take i

/-- Of a member that is being removed, what is left lies ahead of the loop; of a member that
is not registered otherwise nothing is left. -/
structure Cleared (s : State Id Key) : Prop where
  passed : ∀ l ∈ s.loops, ∀ x ∈ l.removes, Passed s.store l x
  unlisted : ∀ x, s.registered x = none → (∀ l ∈ s.loops, l.removes ≠ some x) →
    ∀ k, x ∉ s.store.list k

omit [DecidableEq Id] in
theorem cleared_init : Cleared (.init : State Id Key) :=
  ⟨fun _ hl => (List.not_mem_nil hl).elim, fun _ _ _ _ hmem => (List.not_mem_nil hmem).elim⟩

/-- A removal goes over all lists that have elements, and nothing gets into the lists but
the member that is added. -/
structure Thorough (R : Registry Id Key) : Prop where
  scanned : ∀ {s key keys k}, R.scanned s key = some keys → k ∉ keys → s.list k = []
  prepare : ∀ {s key k x}, x ∈ (R.prepare s key).list k → ∃ k', x ∈ s.list k'
  add : ∀ {s x key k y}, y ∈ (R.add s x key).list k → y = x ∨ ∃ k', y ∈ s.list k'

/-- Where a scan erases an element, nothing is left of the member that it looks for. -/
def Finds (s : State Id Key) : Label Id Key → Prop
  | .go => ∀ e ∈ erases s, ∀ x ∈ s.loops.head?.bind (·.removes), x ∉ (s.store.list e.1).eraseIdx e.2
  | _ => True

instance (s : State Id Key) : ∀ label, Decidable (Finds s label)
  | .go => inferInstanceAs (Decidable (∀ _ ∈ _, ∀ _ ∈ _, _))
  | .add _ _ | .remove _ _ | .dispatch _ | .expire _ | .release _ => isTrue trivial

omit [DecidableEq Id] [LinearOrder Key] in
theorem mem_take_of_mem_take_eraseIdx {l : List Id} {i j : ℕ} {x : Id}
    (h : x ∈ (l.eraseIdx j).take (if j < i then i - 1 else i)) : x ∈ l.take i := by
  obtain ⟨n, hn⟩ := List.mem_iff_getElem?.mp h
  rw [List.getElem?_take, List.getElem?_eraseIdx] at hn
  rw [List.mem_iff_getElem?]
  split_ifs at hn with h₁ h₂ h₃
  · exact ⟨n, by rwa [List.getElem?_take, if_pos (by omega)]⟩
  · exact ⟨n + 1, by rwa [List.getElem?_take, if_pos (by omega)]⟩
  · exact ⟨n, by rwa [List.getElem?_take, if_pos (by omega)]⟩
  · exact ⟨n + 1, by rwa [List.getElem?_take, if_pos (by omega)]⟩

omit [DecidableEq Id] in
theorem mem_list_of_eraseAt {store : Lists Id Key} {k k' : Key} {i : ℕ} {x : Id}
    (h : x ∈ (store.eraseAt k i).list k') : x ∈ store.list k' := by
  rw [Lists.list_eraseAt] at h
  split_ifs at h with hk
  · exact hk ▸ List.mem_of_mem_eraseIdx h
  · exact h

omit [DecidableEq Id] in
/-- An iterator whose element is erased will not be used. -/
theorem Passed.erased {store : Lists Id Key} {l : Loop Id Key} {x : Id} (h : Passed store l x)
    (k : Key) (j : ℕ) : Passed (store.eraseAt k j) (l.erased k j) x := by
  refine ⟨fun k' hk' hmem => ?_, fun k' hk' i hi hmem => ?_⟩
  · rw [Loop.keys_erased] at hk'
    exact h.1 k' hk' (mem_list_of_eraseAt hmem)
  · rw [Loop.keys_erased] at hk'
    by_cases hkey : l.keys.head? = some k
    · obtain rfl : k = k' := Option.some.inj (hkey.symm.trans hk')
      by_cases hstands : l.StandsAt k j
      · rw [Loop.erased, if_pos hkey, Loop.next, hstands.2] at hi
        simp at hi
      · cases hnext : l.next with
        | none =>
            rw [Loop.next, Option.map_eq_none_iff] at hnext
            rw [Loop.erased, if_pos hkey, Loop.next, hnext] at hi
            simp at hi
        | some i' =>
            rw [Loop.next_erased hkey hstands hnext] at hi
            obtain rfl := Option.some.inj hi
            rw [Lists.list_eraseAt, if_pos rfl] at hmem
            exact h.2 k hkey i' hnext (mem_take_of_mem_take_eraseIdx hmem)
    · rw [Loop.erased, if_neg hkey] at hi
      have hne : k' ≠ k := fun heq => hkey (heq ▸ hk')
      rw [Lists.list_eraseAt, if_neg hne] at hmem
      exact h.2 k' hk' i hi hmem

omit [DecidableEq Id] in
/-- At the end of its list a loop has passed that, too. -/
theorem Passed.next_list {store : Lists Id Key} {l l' : Loop Id Key} {x : Id} {k : Key}
    {keys : List Key} {i : ℕ} (h : Passed store l x) (hkeys : l.keys = k :: keys)
    (hnext : l.next = some i) (hend : (store.list k).length ≤ i) (hkeys' : l'.keys = keys)
    (hnext' : l'.next = some 0) : Passed store l' x := by
  refine ⟨fun k' hk' hmem => ?_, fun k' _ i' hi' => ?_⟩
  · by_cases hkk : k' = k
    · have htake := h.2 k (by rw [hkeys]; rfl) i hnext
      rw [List.take_of_length_le hend] at htake
      exact htake (hkk ▸ hmem)
    · exact h.1 k' (by simp [hkeys, hkk, hkeys' ▸ hk']) hmem
  · obtain rfl : 0 = i' := Option.some.inj (hnext'.symm.trans hi')
    simp

omit [DecidableEq Id] in
theorem Passed.dropped {store store' : Lists Id Key} {l : Loop Id Key} {x : Id}
    (h : Passed store l x) (drops : Key → Bool) (hsame : ∀ k, store'.list k = store.list k) :
    Passed store' (l.dropped drops) x := by
  refine ⟨fun k hk => ?_, fun k hk i hi => ?_⟩
  · rw [hsame]
    exact h.1 k (by simpa using hk)
  · rw [Loop.keys_dropped] at hk
    rw [hsame]
    rw [Loop.dropped] at hi
    split_ifs at hi
    · cases hi
    · exact h.2 k hk i hi

section

variable (h : Cleared s)

include h

/-- The loops go to others that have the lists and the iterators that they had. -/
theorem Cleared.forget (x : Id) (alive : Id → Bool) :
    Cleared { s with alive, loops := s.loops.map (·.forget x) } := by
  refine ⟨fun l hl y hy => ?_, fun y hy hloops => h.unlisted y hy fun l hl => ?_⟩
  · obtain ⟨l₀, hl₀, rfl⟩ := List.mem_map.mp hl
    rw [Loop.removes_forget] at hy
    have hpassed := h.passed l₀ hl₀ y hy
    exact ⟨by simpa using hpassed.1, by simpa using hpassed.2⟩
  · have hforget := hloops _ (List.mem_map_of_mem hl)
    rwa [Loop.removes_forget] at hforget

theorem Cleared.startRemoval (hR : Thorough R) {x : Id} {key : Key}
    (hstep : R.startRemoval s x key = some s') : Cleared s' := by
  rw [Registry.startRemoval] at hstep
  split_ifs at hstep
  · obtain ⟨keys, hkeys, rfl⟩ := Option.map_eq_some_iff.mp hstep
    have hforget := h.forget x s.alive
    refine ⟨fun l hl y hy => ?_, fun y hy hloops => ?_⟩
    · rcases List.mem_cons.mp hl with rfl | hl
      · refine ⟨fun k hk hmem => ?_, fun k _ i hi => ?_⟩
        · have hempty : s.store.list k = [] := hR.scanned hkeys hk
          simp [hempty] at hmem
        · obtain rfl : 0 = i := Option.some.inj hi
          simp
      · exact hforget.passed l hl y hy
    · have hyx : y ≠ x := fun heq => hloops _ List.mem_cons_self (heq ▸ rfl)
      have hy : s.registered y = none := (Function.update_of_ne hyx _ _).symm.trans hy
      exact hforget.unlisted y hy fun l hl => hloops l (List.mem_cons_of_mem _ hl)
  · obtain rfl := Option.some.inj hstep
    exact ⟨h.passed, h.unlisted⟩

theorem Cleared.release (hR : Thorough R) {last : Bool} (hstep : R.release s last = some s') :
    Cleared s' := by
  rw [Registry.release] at hstep
  cases hloops : s.loops with
  | nil => simp [hloops] at hstep
  | cons l rest =>
      cases hheld : l.held with
      | none => simp [hloops, hheld] at hstep
      | some x =>
          simp only [hloops, hheld] at hstep
          have hreleased : Cleared { s with loops := { l with held := none } :: rest } := by
            refine ⟨fun l' hl' => ?_, fun y hy hnot => h.unlisted y hy fun l' hl' => ?_⟩
            · rcases List.mem_cons.mp hl' with rfl | hl'
              · exact h.passed l (by simp [hloops])
              · exact h.passed l' (by simp [hloops, hl'])
            · rw [hloops] at hl'
              rcases List.mem_cons.mp hl' with rfl | hl'
              · exact hnot { l' with held := none } List.mem_cons_self
              · exact hnot l' (List.mem_cons_of_mem _ hl')
          split_ifs at hstep
          · rw [destroy] at hstep
            have hperished := hreleased.forget x (Function.update s.alive x false)
            cases hregistered : s.registered x with
            | none =>
                simp only [hregistered, Option.some.injEq] at hstep
                exact hstep ▸ hperished
            | some key =>
                simp only [hregistered] at hstep
                exact hperished.startRemoval hR hstep
          · exact Option.some.inj hstep ▸ hreleased

omit [DecidableEq Id] in
/-- The innermost loop goes on, and the lists stay as they are. -/
theorem Cleared.replace {l l' : Loop Id Key} {rest : List (Loop Id Key)}
    (hloops : s.loops = l :: rest) (hremoves : l'.removes = l.removes)
    (hpassed : ∀ x ∈ l.removes, Passed s.store l' x) : Cleared { s with loops := l' :: rest } := by
  refine ⟨fun l₁ hl₁ y hy => ?_, fun y hy hnot => h.unlisted y hy fun l₁ hl₁ => ?_⟩
  · rcases List.mem_cons.mp hl₁ with rfl | hl₁
    · exact hpassed y (hremoves ▸ hy)
    · exact h.passed l₁ (by simp [hloops, hl₁]) y hy
  · rw [hloops] at hl₁
    rcases List.mem_cons.mp hl₁ with rfl | hl₁
    · exact hremoves ▸ hnot _ List.mem_cons_self
    · exact hnot l₁ (List.mem_cons_of_mem _ hl₁)

theorem Cleared.finish {l : Loop Id Key} {rest : List (Loop Id Key)} (hloops : s.loops = l :: rest)
    (hkeys : l.keys = []) : Cleared (R.finish { s with loops := rest } l.task) := by
  -- the loop has gone over all lists
  have hover : ∀ x ∈ l.removes, ∀ k, x ∉ s.store.list k := fun x hx k =>
    (h.passed l (by simp [hloops]) x hx).1 k (by simp [hkeys])
  have hunlisted : ∀ y, s.registered y = none → (∀ l ∈ rest, l.removes ≠ some y) →
      ∀ k, y ∉ s.store.list k := by
    intro y hy hnot
    by_cases hl : l.removes = some y
    · exact hover y hl
    · exact h.unlisted y hy (by simpa [hloops] using ⟨hl, hnot⟩)
  cases htask : l.task with
  | dispatch d => exact ⟨fun l' (hl' : l' ∈ rest) => h.passed l' (by simp [hloops, hl']), hunlisted⟩
  | removal x key =>
      refine ⟨fun l' hl' y hy => ?_, fun y hy hnot k hmem => ?_⟩
      · obtain ⟨l₀, hl₀, rfl⟩ := List.mem_map.mp hl'
        rw [Loop.removes_dropped] at hy
        exact (h.passed l₀ (by simp [hloops, hl₀]) y hy).dropped _
          fun k => list_drop R s.store key k
      · rw [Registry.finish, list_drop] at hmem
        refine hunlisted y hy (fun l' hl' => ?_) k hmem
        have hdropped := hnot _ (List.mem_map_of_mem hl')
        rwa [Loop.removes_dropped] at hdropped

omit [DecidableEq Id] in
/-- A loop erases an element, and nothing of its argument is left in the list. -/
theorem Cleared.erase {l l' : Loop Id Key} {rest : List (Loop Id Key)} {k : Key} {keys : List Key}
    {i : ℕ} {x : Id} (hloops : s.loops = l :: rest) (hkeys : l.keys = k :: keys)
    (hremoves : l.removes = some x) (htask : l'.task = l.task)
    (hplace : (l'.keys = l.keys.tail ∧ l'.next = some 0) ∨ (l'.keys = l.keys ∧ l'.next = some i))
    (hfinds : x ∉ (s.store.list k).eraseIdx i) :
    Cleared { s with
      store := s.store.eraseAt k i, loops := l' :: rest.map (·.erased k i) } := by
  have hl := h.passed l (by simp [hloops]) x hremoves
  have hleft : x ∉ (s.store.eraseAt k i).list k := by
    rwa [Lists.list_eraseAt, if_pos rfl]
  have hremoves' : l'.removes = l.removes := by rw [Loop.removes, Loop.removes, htask]
  refine ⟨fun l₁ hl₁ y hy => ?_, fun y hy hnot k' hmem => ?_⟩
  · rcases List.mem_cons.mp hl₁ with rfl | hl₁
    · obtain rfl : x = y := Option.some.inj (hremoves.symm.trans (hremoves' ▸ hy))
      refine ⟨fun k' hk' hmem => ?_, fun k' hk' i' hi' hmem => ?_⟩
      · by_cases hkk : k' = k
        · exact hleft (hkk ▸ hmem)
        · refine hl.1 k' ?_ (mem_list_of_eraseAt hmem)
          rcases hplace with ⟨hkeys', -⟩ | ⟨hkeys', -⟩
          · simpa [hkeys, hkeys', hkk] using hk'
          · rwa [← hkeys']
      · rcases hplace with ⟨-, hnext'⟩ | ⟨hkeys', -⟩
        · obtain rfl : 0 = i' := Option.some.inj (hnext'.symm.trans hi')
          simp at hmem
        · obtain rfl : k = k' := by simpa [hkeys', hkeys] using hk'
          exact hleft (List.mem_of_mem_take hmem)
    · obtain ⟨l₀, hl₀, rfl⟩ := List.mem_map.mp hl₁
      rw [Loop.removes_erased] at hy
      exact (h.passed l₀ (by rw [hloops]; exact List.mem_cons_of_mem l hl₀) y hy).erased k i
  · refine h.unlisted y hy (fun l₁ hl₁ => ?_) k' (mem_list_of_eraseAt hmem)
    rw [hloops] at hl₁
    rcases List.mem_cons.mp hl₁ with rfl | hl₁
    · exact hremoves' ▸ hnot l' List.mem_cons_self
    · have herased := hnot _ (List.mem_cons_of_mem l' (List.mem_map_of_mem hl₁))
      rwa [Loop.removes_erased] at herased

theorem Cleared.visit {l : Loop Id Key} {rest : List (Loop Id Key)} {k : Key} {keys : List Key}
    {i : ℕ} {p : Id} (hloops : s.loops = l :: rest) (hkeys : l.keys = k :: keys)
    (hnext : l.next = some i) (hget : (s.store.list k)[i]? = some p)
    (hfinds : ∀ x ∈ l.removes, gone s.alive x p = true → x ∉ (s.store.list k).eraseIdx i) :
    Cleared (R.visit { s with loops := rest } l k i p) := by
  have hkey : l.keys.head? = some k := by rw [hkeys]; rfl
  cases htask : l.task with
  | dispatch d =>
      rw [Registry.visit, htask]
      refine h.replace hloops ?_ fun x hx => ?_
      · rw [Loop.removes, Loop.removes, htask]
      · rw [Loop.removes, htask] at hx
        cases hx
  | removal x key =>
      have hremoves : l.removes = some x := by rw [Loop.removes, htask]
      have hl := h.passed l (by simp [hloops]) x hremoves
      rcases visit_removal_cases (R := R) (s := { s with loops := rest }) (k := k) (i := i)
        (p := p) htask with ⟨hstays, l', hkeys', hnext', htask', hvisit⟩ |
        ⟨hgoes, l', hplace, htask', hvisit⟩
      · have hpx : p ≠ x := by
          rintro rfl
          simp [gone] at hstays
        rw [hvisit]
        refine h.replace hloops (by rw [Loop.removes, Loop.removes, htask']) fun y hy => ?_
        obtain rfl : x = y := Option.some.inj (hremoves.symm.trans hy)
        refine ⟨by simpa [hkeys'] using hl.1, fun k' hk' i' hi' hmem => ?_⟩
        obtain rfl : k = k' := Option.some.inj (hkey.symm.trans (hkeys' ▸ hk'))
        obtain rfl : i + 1 = i' := Option.some.inj (hnext'.symm.trans hi')
        rw [List.take_add_one, hget, List.mem_append] at hmem
        rcases hmem with hmem | hmem
        · exact hl.2 k hkey i hnext hmem
        · exact hpx (Option.some.inj (Option.mem_toList.mp hmem))
      · rw [hvisit]
        exact h.erase hloops hkeys hremoves htask' hplace (hfinds x hremoves hgoes)

theorem Cleared.go (hfinds : Finds s .go) (hstep : R.go s = some s') : Cleared s' := by
  obtain ⟨l, rest, hloops, ⟨hkeys, rfl⟩ | ⟨k, keys, hkeys, ⟨-, rfl⟩ | ⟨i, hnext, ⟨hend, rfl⟩ |
    ⟨p, hget, rfl⟩⟩⟩⟩ := go_cases hstep
  · exact h.finish hloops hkeys
  · exact ⟨h.passed, h.unlisted⟩
  · refine h.replace hloops rfl fun x hx => ?_
    exact (h.passed l (by simp [hloops]) x hx).next_list hkeys hnext hend rfl rfl
  · refine h.visit hloops hkeys hnext hget fun x hx hgoes => ?_
    have herases : erases s = some (k, i) := by
      have hgone : ¬(s.alive p && p ≠ x) = true := by
        rw [← gone_eq_false_iff, hgoes]
        simp
      simp [erases, hloops, Option.mem_def.mp hx, hkeys, hnext, hget] at hgone ⊢
      exact hgone
    exact hfinds (k, i) herases x (by simpa [hloops] using hx)

theorem Cleared.step (hR : Thorough R) (hs : R.Sound s) {label : Label Id Key}
    (hfinds : Finds s label) (hstep : R.step s label = some s') : Cleared s' := by
  rw [Registry.step.eq_def, if_neg (by simp [hs.defined])] at hstep
  cases label with
  | add x key =>
      obtain ⟨⟨hcalling, -⟩, hstep⟩ := Option.ite_none_right_eq_some.mp hstep
      obtain rfl := Option.some.inj hstep
      have hcalls := hs.dispatches hcalling
      refine ⟨fun l hl y hy => absurd hy (by simp [hcalls l hl]), fun y hy _ k hmem => ?_⟩
      have hyx : y ≠ x := by
        rintro rfl
        simp at hy
      have hy : s.registered y = none := (Function.update_of_ne hyx _ _).symm.trans hy
      obtain ⟨k', hmem⟩ := (hR.add hmem).resolve_left hyx
      exact h.unlisted y hy (fun l hl => by simp [hcalls l hl]) k' hmem
  | remove x key =>
      obtain ⟨-, hstep⟩ := Option.ite_none_right_eq_some.mp hstep
      exact h.startRemoval hR hstep
  | dispatch key =>
      obtain ⟨hcalling, hstep⟩ := Option.ite_none_right_eq_some.mp hstep
      obtain rfl := Option.some.inj hstep
      have hcalls := hs.dispatches hcalling
      rw [startDispatch]
      split_ifs
      · refine ⟨fun l hl y hy => ?_, fun y hy _ k hmem => ?_⟩
        · rcases List.mem_cons.mp hl with rfl | hl
          · cases hy
          · exact absurd hy (by simp [hcalls l hl])
        · obtain ⟨k', hmem⟩ := hR.prepare hmem
          exact h.unlisted y hy (fun l hl => by simp [hcalls l hl]) k' hmem
      · exact ⟨h.passed, h.unlisted⟩
  | expire x =>
      obtain ⟨-, hstep⟩ := Option.ite_none_right_eq_some.mp hstep
      obtain rfl := Option.some.inj hstep
      exact h.forget x _
  | release last => exact h.release hR hstep
  | go => exact h.go hfinds hstep

end

/-- A run whose scans find what they look for clears the lists of the members that are
removed. -/
theorem exec_cleared (hR : Thorough R) {labels : List (Label Id Key)} (hs : R.Sound s)
    (h : Cleared s) (halong : Along R.step (fun s l => R.Spares s l ∧ Finds s l) s labels)
    (hrun : exec R.step s labels = some s') : R.Sound s' ∧ Cleared s' :=
  exec_invariant_along (I := fun s => R.Sound s ∧ Cleared s) (fun _ _ _ hs hl hstep =>
    ⟨hs.1.step hl.1 hstep, hs.2.step hR hs.1 hl.2 hstep⟩) ⟨hs, h⟩ halong hrun

/-! ### Members that stay -/

/-- The removal of `x` is under way above the loops that remove `below`, and destructors
under way above it. -/
def Removing (s : State Id Key) (x : Id) (below : List (Option Id)) : Prop :=
  ∃ dead : List Id, s.loops.map (·.removes) = dead.map some ++ some x :: below ∧
    ∀ y ∈ dead, s.alive y = false

/-- Members that exist are in the lists as often as before. -/
def Keeps (s s' : State Id Key) (x : Id) : Prop :=
  ∀ y, y ≠ x → s'.alive y = true → s.alive y = true ∧
    ∀ k, (s'.store.list k).count y = (s.store.list k).count y

theorem Keeps.refl (s : State Id Key) (x : Id) : Keeps s s x :=
  fun _ _ halive => ⟨halive, fun _ => rfl⟩

theorem Keeps.trans {s'' : State Id Key} {x : Id} (h : Keeps s s' x) (h' : Keeps s' s'' x) :
    Keeps s s'' x := fun y hy halive =>
  have hkept := h' y hy halive
  have hbefore := h y hy hkept.1
  ⟨hbefore.1, fun k => (hkept.2 k).trans (hbefore.2 k)⟩

theorem count_eraseAt {store : Lists Id Key} {k : Key} {i : ℕ} {p y : Id}
    (hget : (store.list k)[i]? = some p) (hne : y ≠ p) (k' : Key) :
    ((store.eraseAt k i).list k').count y = (store.list k').count y := by
  obtain ⟨hi, hp⟩ := List.getElem?_eq_some_iff.mp hget
  rw [Lists.list_eraseAt]
  split_ifs with hk
  · rw [hk, List.eraseIdx_eq_take_drop_succ, List.count_append]
    conv_rhs => rw [← List.take_append_drop i (store.list k), List.count_append,
      List.drop_eq_getElem_cons hi, hp, List.count_cons_of_ne (Ne.symm hne)]
  · rfl

omit [DecidableEq Id] in
theorem Removing.of_map {x : Id} {below : List (Option Id)} (h : Removing s x below)
    (hloops : s'.loops.map (·.removes) = s.loops.map (·.removes))
    (halive : ∀ y, s.alive y = false → s'.alive y = false) : Removing s' x below := by
  obtain ⟨dead, hremoves, hdead⟩ := h
  exact ⟨dead, hloops.trans hremoves, fun y hy => halive y (hdead y hy)⟩

omit [DecidableEq Id] [LinearOrder Key] in
theorem map_removes {f : Loop Id Key → Loop Id Key} (hf : ∀ l, (f l).removes = l.removes)
    (loops : List (Loop Id Key)) : (loops.map f).map (·.removes) = loops.map (·.removes) := by
  rw [List.map_map]
  exact List.map_congr_left fun l _ => hf l

omit [DecidableEq Id] in
/-- The innermost loop is a removal. -/
theorem Removing.top {x : Id} {below : List (Option Id)} (h : Removing s x below) :
    ∃ l rest z, s.loops = l :: rest ∧ l.removes = some z ∧ (z = x ∨ s.alive z = false) ∧
      (rest.map (·.removes) = below ∨ Removing { s with loops := rest } x below) := by
  obtain ⟨dead, hremoves, hdead⟩ := h
  cases hloops : s.loops with
  | nil => simp [hloops] at hremoves
  | cons l rest =>
      rw [hloops, List.map_cons] at hremoves
      cases dead with
      | nil =>
          obtain ⟨hl, hrest⟩ := List.cons.inj hremoves
          exact ⟨l, rest, x, rfl, hl, .inl rfl, .inl hrest⟩
      | cons z dead =>
          obtain ⟨hl, hrest⟩ := List.cons.inj hremoves
          exact ⟨l, rest, z, rfl, hl, .inr (hdead z List.mem_cons_self),
            .inr ⟨dead, hrest, fun y hy => hdead y (List.mem_cons_of_mem z hy)⟩⟩

theorem Removing.perish {x : Id} {below : List (Option Id)} (h : Removing s x below) (y : Id) :
    Keeps s (perish s y) x ∧ Removing (perish s y) x below := by
  refine ⟨fun z _ hz => ⟨?_, fun _ => rfl⟩,
    h.of_map (map_removes (Loop.removes_forget y) s.loops) fun z hz => ?_⟩
  · by_cases hzy : z = y
    · simp [Registry.perish, hzy] at hz
    · simpa [Registry.perish, hzy] using hz
  · by_cases hzy : z = y <;> simp [Registry.perish, hzy, hz]

/-- A destructor that runs meanwhile removes a member that exists no more. -/
theorem Removing.destroy {x y : Id} {below : List (Option Id)} (h : Removing s x below)
    (hstep : R.destroy s y = some s') : Keeps s s' x ∧ Removing s' x below := by
  obtain ⟨hkeeps, hperished⟩ := h.perish y
  rw [Registry.destroy] at hstep
  cases hregistered : s.registered y with
  | none =>
      simp only [hregistered, Option.some.injEq] at hstep
      exact hstep ▸ ⟨hkeeps, hperished⟩
  | some key =>
      simp only [hregistered, startRemoval] at hstep
      split_ifs at hstep
      · obtain ⟨keys, -, rfl⟩ := Option.map_eq_some_iff.mp hstep
        obtain ⟨dead, hremoves, hdead⟩ := hperished
        refine ⟨hkeeps, y :: dead, ?_, fun z hz => ?_⟩
        · have hloops := (map_removes (Loop.removes_forget y) _).trans hremoves
          exact congrArg (some y :: ·) hloops
        · rcases List.mem_cons.mp hz with rfl | hz
          · exact Function.update_self ..
          · exact hdead z hz
      · obtain rfl := Option.some.inj hstep
        exact ⟨hkeeps, hperished.of_map rfl fun _ hz => hz⟩

theorem Removing.release {x : Id} {below : List (Option Id)} {last : Bool}
    (h : Removing s x below) (hstep : R.release s last = some s') :
    Keeps s s' x ∧ Removing s' x below := by
  rw [Registry.release] at hstep
  cases hloops : s.loops with
  | nil => simp [hloops] at hstep
  | cons l rest =>
      cases hheld : l.held with
      | none => simp [hloops, hheld] at hstep
      | some y =>
          simp only [hloops, hheld] at hstep
          have hreleased : Removing { s with loops := { l with held := none } :: rest } x below :=
            h.of_map (by rw [hloops]; rfl) fun _ hy => hy
          split_ifs at hstep
          · exact hreleased.destroy hstep
          · exact Option.some.inj hstep ▸ ⟨Keeps.refl s x, hreleased⟩

theorem Removing.go {x : Id} {below : List (Option Id)} (h : Removing s x below)
    (hstep : R.go s = some s') :
    Keeps s s' x ∧ (Removing s' x below ∨ s'.loops.map (·.removes) = below) := by
  obtain ⟨l, rest, z, hloops, hremoves, hz, hrest⟩ := h.top
  obtain ⟨key, htask⟩ : ∃ key, l.task = .removal z key := by
    rw [Loop.removes] at hremoves
    split at hremoves
    · cases hremoves
    · next x' key htask => exact ⟨key, by rw [htask, Option.some.inj hremoves]⟩
  obtain ⟨l₁, rest₁, hloops₁, hcases⟩ := go_cases hstep
  obtain ⟨rfl, rfl⟩ := List.cons.inj (hloops.symm.trans hloops₁)
  rcases hcases with ⟨-, rfl⟩ | ⟨k, keys, -, ⟨-, rfl⟩ | ⟨i, -, ⟨-, rfl⟩ | ⟨p, hget, rfl⟩⟩⟩
  · -- the removal ends
    rw [htask, finish]
    refine ⟨fun y _ halive => ⟨halive, fun k => congrArg _ (list_drop R s.store key k)⟩, ?_⟩
    have hmap := map_removes
      (fun l => Loop.removes_dropped (fun k => s.store.find? k = some [] ∧ R.drops key k) l) rest
    rcases hrest with hbelow | hrest
    · exact .inr (hmap.trans hbelow)
    · exact .inl (hrest.of_map hmap fun _ hy => hy)
  · exact ⟨Keeps.refl s x, .inl (h.of_map rfl fun _ hy => hy)⟩
  · exact ⟨Keeps.refl s x, .inl (h.of_map (by rw [hloops]; rfl) fun _ hy => hy)⟩
  · rcases visit_removal_cases (R := R) (s := { s with loops := rest }) (k := k) (i := i) (p := p)
      htask with ⟨-, l', -, -, htask', hvisit⟩ | ⟨hgoes, l', -, htask', hvisit⟩
    · rw [hvisit]
      refine ⟨Keeps.refl s x, .inl (h.of_map ?_ fun _ hy => hy)⟩
      rw [hloops]
      simp [Loop.removes, htask']
    · rw [hvisit]
      refine ⟨fun y hy halive => ⟨halive, count_eraseAt hget ?_⟩, .inl (h.of_map ?_ fun _ hy => hy)⟩
      · -- what is erased is the member that is removed or exists no more
        rintro rfl
        have hyz : y = z := by
          have hexists : s.alive y = true := halive
          simpa [gone, hexists] using hgoes
        rcases hz with hzx | hdead
        · exact hy (hyz.trans hzx)
        · exact absurd (hyz ▸ halive : s.alive z = true) (by simp [hdead])
      · have hmap := map_removes (fun l => Loop.removes_erased k i l) rest
        rw [hloops, List.map_cons, hmap, List.map_cons, Loop.removes, htask', ← Loop.removes]

theorem Removing.step {x : Id} {below : List (Option Id)} {label : Label Id Key}
    (h : Removing s x below) (hstep : R.step s label = some s') :
    Keeps s s' x ∧ (Removing s' x below ∨ s'.loops.map (·.removes) = below) := by
  obtain ⟨l, rest, z, hloops, hremoves, -⟩ := h.top
  have hcalling : s.calling = false := by simp [State.calling, hloops, hremoves]
  rw [Registry.step.eq_def] at hstep
  obtain ⟨-, hstep⟩ := Option.ite_none_left_eq_some.mp hstep
  cases label with
  | add y key => simp [hcalling] at hstep
  | remove y key => simp [hcalling] at hstep
  | dispatch key => simp [hcalling] at hstep
  | expire y =>
      obtain ⟨-, hstep⟩ := Option.ite_none_right_eq_some.mp hstep
      exact Option.some.inj hstep ▸ (h.perish y).imp_right .inl
  | release last => exact (h.release hstep).imp_right .inl
  | go => exact h.go hstep

/-- While a removal is under way, the lists keep the other members that exist as often as
they had them before. -/
theorem exec_keeps {x : Id} {below : List (Option Id)} {labels : List (Label Id Key)}
    (h : Removing s x below)
    (hunder : Along R.step (fun s _ => below.length < s.loops.length) s labels)
    (hrun : exec R.step s labels = some s') : Keeps s s' x := by
  induction labels generalizing s with
  | nil =>
      obtain rfl : s = s' := by simpa using hrun
      exact Keeps.refl s x
  | cons label labels ih =>
      obtain ⟨t, ht, hrest⟩ := exec_cons_eq_some.mp hrun
      obtain ⟨hkeeps, ht'⟩ := h.step ht
      have hunder := hunder.2 t ht
      rcases ht' with hremoving | hreturned
      · exact hkeeps.trans (ih hremoving hunder hrest)
      · cases labels with
        | nil =>
            obtain rfl : t = s' := by simpa using hrest
            exact hkeeps
        | cons label' labels =>
            have hlength := congrArg List.length hreturned
            rw [List.length_map] at hlength
            exact absurd hunder.1 (by omega)

end Registry

end Rsb.Library
