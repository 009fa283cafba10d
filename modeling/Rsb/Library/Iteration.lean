import Rsb.Library.Runs
import Rsb.Library.SortedMap
import Mathlib.Logic.Function.Basic

/-!
Loops over linked lists that change under them.

A registry keeps members in lists, one list for each key. To dispatch on a key, a
loop visits the elements of one list or of several and calls the members that
still exist. A called member may itself add and remove members and start further
loops. To remove a member, another loop visits the lists in which it may be and
erases the element, and with it elements of members that exist no more. So there is
a stack of loops, each with an iterator into a list. Erasing another element moves
the position of an iterator; erasing the element at which it stands leaves it without
one, and then it cannot be advanced.

Both kinds of loops hold a reference to the member at which they stand. If that is the
last one, the member is destroyed when the loop gives it up, and if it is still
registered, its destructor removes it.
-/

namespace Rsb.Library

/-- How a removal goes over a list. With `first` it leaves the list when it has erased an
element, and advances its iterator after it has given up its reference; with `all` it goes
on, and advances its iterator before. -/
inductive Scan
  | first
  | all

def Scan.erase {α : Type} : Scan → (α → Bool) → List α → List α
  | .first, p, l => l.eraseP p
  | .all, p, l => l.filter fun a => !p a

section

variable {Id Key : Type} [LinearOrder Key]

/-- The lists of members. -/
abbrev Lists (Id Key : Type) [LinearOrder Key] := SortedMap Key (List Id)

namespace Lists

/-- Without an entry the list is empty. -/
def list (s : Lists Id Key) (k : Key) : List Id := (s.find? k).getD []

def eraseAt (s : Lists Id Key) (k : Key) (i : ℕ) : Lists Id Key :=
  match s.find? k with
  | some l => s.insert k (l.eraseIdx i)
  | none => s

theorem list_of_find? {s : Lists Id Key} {k : Key} {l : List Id} (h : s.find? k = some l) :
    s.list k = l := by
  rw [list, h, Option.getD_some]

theorem find?_eraseAt (s : Lists Id Key) (k : Key) (i : ℕ) (k' : Key) :
    (s.eraseAt k i).find? k' =
      if k' = k then (s.find? k).map fun _ => (s.list k).eraseIdx i else s.find? k' := by
  rw [eraseAt]
  cases hfind : s.find? k with
  | none =>
      split_ifs with hk
      · rw [hk, hfind, Option.map_none]
      · rfl
  | some l => rw [SortedMap.find?_insert, Option.map_some, list_of_find? hfind]

theorem list_eraseAt (s : Lists Id Key) (k : Key) (i : ℕ) (k' : Key) :
    (s.eraseAt k i).list k' = if k' = k then (s.list k).eraseIdx i else s.list k' := by
  rw [list, find?_eraseAt]
  split_ifs with hk
  · rw [list]
    cases s.find? k <;> simp
  · rfl

/-- A list that becomes empty and one whose entry is gone look the same. -/
theorem list_dropEmpty (s : Lists Id Key) (p : Key → Bool) (k : Key) :
    Lists.list (s.filter fun e => !(e.2.isEmpty && p e.1)) k = s.list k := by
  have hfind : ∀ l, SortedMap.find? (s.filter fun e => !(e.2.isEmpty && p e.1)) k = some l ↔
      s.find? k = some l ∧ (l.isEmpty && p k) = false := by
    intro l
    rw [SortedMap.find?_filter_eq_some, Bool.not_eq_true']
  cases hdropped : SortedMap.find? (s.filter fun e => !(e.2.isEmpty && p e.1)) k with
  | some l => rw [list_of_find? hdropped, list_of_find? ((hfind l).mp hdropped).1]
  | none =>
      rw [list, hdropped, Option.getD_none, list]
      cases hs : s.find? k with
      | none => rfl
      | some l =>
          cases l with
          | nil => rfl
          | cons x l =>
              rw [(hfind (x :: l)).mpr ⟨hs, rfl⟩] at hdropped
              cases hdropped

end Lists

/-! ### Registries -/

/-- What is particular to a registry. `prepare` is what a dispatch does before its loop
starts, `keys` are the lists that the loop visits, and `scanned` are those that a removal
visits, `none` if an exception is thrown. A removal drops the lists that are empty in the
end, if `drops`. Dispatch and removal are undefined for some keys. `Complete` is what a
registry keeps about the members that are registered and exist, and `covers` says to which
of them a dispatch is addressed. -/
structure Registry (Id Key : Type) [DecidableEq Id] [LinearOrder Key] where
  dispatchable : Key → Bool
  prepare : Lists Id Key → Key → Lists Id Key
  keys : Key → List Key
  covers : Key → Key → Bool
  add : Lists Id Key → Id → Key → Lists Id Key
  removable : Key → Bool
  scanned : Lists Id Key → Key → Option (List Key)
  scan : Scan
  drops : Key → Key → Bool
  prefix_prepare : ∀ {s key k}, s.list k <+: (prepare s key).list k
  prefix_add : ∀ {s x key k}, s.list k <+: (add s x key).list k
  Complete : Lists Id Key → (Id → Option Key) → (Id → Bool) → Prop
  complete_prepare : ∀ {s registered alive key}, Complete s registered alive →
    Complete (prepare s key) registered alive
  complete_add : ∀ {s registered alive x key}, Complete s registered alive →
    Complete (add s x key) (Function.update registered x (some key)) alive
  complete_erase : ∀ {s registered alive k i x}, Complete s registered alive →
    (s.list k)[i]? = some x → (registered x = none ∨ alive x = false) →
      Complete (s.eraseAt k i) registered alive
  complete_drop : ∀ {s registered alive key}, Complete s registered alive →
    Complete (s.filter fun e => !(e.2.isEmpty && drops key e.1)) registered alive
  complete_unregister : ∀ {s registered alive x}, Complete s registered alive →
    Complete s (Function.update registered x none) alive
  complete_mono : ∀ {s registered alive alive'}, Complete s registered alive →
    (∀ x, alive' x = true → alive x = true) → Complete s registered alive'
  complete_found : ∀ {s registered alive x key event}, Complete s registered alive →
    registered x = some key → alive x = true → covers key event = true →
      ∃ k ∈ keys event, x ∈ (prepare s event).list k

/-- What happened in a dispatch: the members called so far, and those that were to be
called when it started and have neither been removed nor destroyed since. -/
structure Dispatched (Id : Type) where
  called : List Id
  due : Id → Bool

inductive Task (Id Key : Type)
  | dispatch (d : Dispatched Id)
  /-- Member `x`, which was registered under `key`, is removed. -/
  | removal (x : Id) (key : Key)

/-- A loop, the list it is in at the head of `keys`. -/
structure Loop (Id Key : Type) where
  keys : List Key
  /-- Where the iterator stands, `none` if that element has been erased. -/
  position : Option ℕ
  /-- The element there has been dealt with, so that the iterator is to be advanced. -/
  visited : Bool
  /-- The member whose reference the loop holds. In a dispatch its handler runs. -/
  held : Option Id
  task : Task Id Key

end

namespace Loop

variable {Id Key : Type} [DecidableEq Id] [DecidableEq Key]

def removes (l : Loop Id Key) : Option Id :=
  match l.task with
  | .dispatch _ => none
  | .removal x _ => some x

/-- The position of the next element. -/
def next (l : Loop Id Key) : Option ℕ :=
  l.position.map fun i => if l.visited then i + 1 else i

/-- The iterator stands at this element. -/
def StandsAt (l : Loop Id Key) (k : Key) (i : ℕ) : Prop :=
  l.keys.head? = some k ∧ l.position = some i

instance (l : Loop Id Key) (k : Key) (i : ℕ) : Decidable (l.StandsAt k i) :=
  inferInstanceAs (Decidable (_ ∧ _))

/-- What becomes of the iterator when an element is erased. -/
def erased (k : Key) (i : ℕ) (l : Loop Id Key) : Loop Id Key :=
  if l.keys.head? = some k then
    { l with position := l.position.bind fun j =>
        if j = i then none else some (if i < j then j - 1 else j) }
  else l

/-- What becomes of it when lists are dropped. -/
def dropped (drops : Key → Bool) (l : Loop Id Key) : Loop Id Key :=
  if l.keys.head?.any drops then { l with position := none } else l

omit [DecidableEq Id] [DecidableEq Key] in
@[simp] theorem keys_dropped (drops : Key → Bool) (l : Loop Id Key) :
    (l.dropped drops).keys = l.keys := by
  rw [dropped]
  split_ifs <;> rfl

omit [DecidableEq Id] [DecidableEq Key] in
@[simp] theorem removes_dropped (drops : Key → Bool) (l : Loop Id Key) :
    (l.dropped drops).removes = l.removes := by
  rw [dropped]
  split_ifs <;> rfl

/-- Member `x` is not due any more. -/
def forget (x : Id) (l : Loop Id Key) : Loop Id Key :=
  match l.task with
  | .dispatch d => { l with task := .dispatch { d with due := fun y => d.due y && y ≠ x } }
  | .removal _ _ => l

omit [DecidableEq Key] in
@[simp] theorem keys_forget (x : Id) (l : Loop Id Key) : (l.forget x).keys = l.keys := by
  rw [forget]
  split <;> rfl

omit [DecidableEq Key] in
@[simp] theorem next_forget (x : Id) (l : Loop Id Key) : (l.forget x).next = l.next := by
  rw [forget]
  split <;> rfl

omit [DecidableEq Key] in
@[simp] theorem removes_forget (x : Id) (l : Loop Id Key) : (l.forget x).removes = l.removes := by
  rw [forget]
  split
  · next d hd => rw [removes, removes, hd]
  · rfl

end Loop

namespace Registry

variable {Id Key : Type} [DecidableEq Id] [LinearOrder Key]

/-- The loops are a stack, the innermost one first. -/
structure State (Id Key : Type) [LinearOrder Key] where
  store : Lists Id Key
  registered : Id → Option Key
  alive : Id → Bool
  loops : List (Loop Id Key)
  finished : List (Dispatched Id)
  /-- An erased element has been used, or something else happened that is undefined. -/
  undefined : Bool

def State.init : State Id Key := ⟨.empty, fun _ => none, fun _ => true, [], [], false⟩

inductive Label (Id Key : Type)
  | add (x : Id) (key : Key)
  | remove (x : Id) (key : Key)
  | dispatch (key : Key)
  /-- The last reference to a member goes away elsewhere. -/
  | expire (x : Id)
  /-- The innermost loop gives up its reference, which is the `last` one or not. -/
  | release (last : Bool)
  /-- The innermost loop goes on. -/
  | go

/-- There is no loop, or the innermost one calls a member. -/
def State.calling (s : State Id Key) : Bool :=
  s.loops.head?.all fun l => l.held.isSome && l.removes.isNone

variable (R : Registry Id Key)

def startDispatch (s : State Id Key) (key : Key) : State Id Key :=
  if R.dispatchable key then
    { s with
      store := R.prepare s.store key
      loops := ⟨R.keys key, some 0, false, none, .dispatch ⟨[], fun x =>
        s.alive x && (s.registered x).any (R.covers · key)⟩⟩ :: s.loops }
  else { s with undefined := true }

/-- A handler or a destructor removes `x`. -/
def startRemoval (s : State Id Key) (x : Id) (key : Key) : Option (State Id Key) :=
  if R.removable key then
    (R.scanned s.store key).map fun keys =>
      { s with
        registered := Function.update s.registered x none
        loops := ⟨keys, some 0, false, none, .removal x key⟩ :: s.loops.map (·.forget x) }
  else some { s with undefined := true }

/-- Member `x` exists no more. -/
def perish (s : State Id Key) (x : Id) : State Id Key :=
  { s with
    alive := Function.update s.alive x false
    loops := s.loops.map (·.forget x) }

/-- The destructor of `x`. -/
def destroy (s : State Id Key) (x : Id) : Option (State Id Key) :=
  match s.registered x with
  | none => some (perish s x)
  | some key => R.startRemoval (perish s x) x key

/-- The innermost loop gives up its reference. Those who call `remove` and the loops below
have references as well. -/
def release (s : State Id Key) (last : Bool) : Option (State Id Key) :=
  match s.loops with
  | [] => none
  | l :: rest =>
      match l.held with
      | none => none
      | some x =>
          let s := { s with loops := { l with held := none } :: rest }
          if last then
            if rest.all fun l => l.held ≠ some x ∧ l.removes ≠ some x then R.destroy s x else none
          else some s

/-- The loop `l` in the body for the element `p` at position `i` of list `k`, with the other
loops in the state. -/
def visit (s : State Id Key) (l : Loop Id Key) (k : Key) (i : ℕ) (p : Id) : State Id Key :=
  match l.task with
  | .dispatch d =>
      let held := if s.alive p then some p else none
      { s with loops := { l with
          position := some i
          visited := true
          held
          task := .dispatch { d with called := d.called ++ held.toList } } :: s.loops }
  | .removal x _ =>
      if s.alive p && p ≠ x then
        let l := match R.scan with
          | .first => { l with position := some i, visited := true }
          | .all => { l with position := some (i + 1), visited := false }
        { s with loops := { l with held := some p } :: s.loops }
      else
        let l := match R.scan with
          | .first => { l with keys := l.keys.tail, position := some 0, visited := false }
          | .all => { l with position := some i, visited := false }
        { s with
          store := s.store.eraseAt k i
          loops := l :: s.loops.map (·.erased k i) }

/-- Empty lists are dropped after a removal. -/
def drop (s : Lists Id Key) (key : Key) : Lists Id Key :=
  s.filter fun e => !(e.2.isEmpty && R.drops key e.1)

/-- The innermost loop has come to its end. -/
def finish (s : State Id Key) : Task Id Key → State Id Key
  | .dispatch d => { s with finished := d :: s.finished }
  | .removal _ key =>
      { s with
        store := R.drop s.store key
        loops := s.loops.map (·.dropped fun k => s.store.find? k = some [] ∧ R.drops key k) }

def go (s : State Id Key) : Option (State Id Key) :=
  match s.loops with
  | [] => none
  | l :: rest =>
      if l.held.isSome then none else
      match l.keys with
      | [] => some (R.finish { s with loops := rest } l.task)
      | k :: keys =>
          match l.next with
          | none => some { s with undefined := true }
          | some i =>
              match (s.store.list k)[i]? with
              | some p => some (R.visit { s with loops := rest } l k i p)
              | none => some { s with
                  loops := { l with keys, position := some 0, visited := false } :: rest }

/-- The lists are used by the members that are being called, or while there is no
loop. The key of a registered member does not change, and somebody has a reference to a
member that is being removed or called. -/
def step (s : State Id Key) (label : Label Id Key) : Option (State Id Key) :=
  if s.undefined then none else
  match label with
  | .add x key =>
      if s.calling ∧ s.alive x ∧ (s.registered x).all (· = key) then
        some { s with
          store := R.add s.store x key
          registered := Function.update s.registered x (some key) }
      else none
  | .remove x key =>
      if s.calling ∧ (s.registered x).all (· = key) then R.startRemoval s x key else none
  | .dispatch key => if s.calling then some (R.startDispatch s key) else none
  | .expire x =>
      if s.loops.all fun l => l.held ≠ some x ∧ l.removes ≠ some x then some (perish s x) else none
  | .release last => R.release s last
  | .go => R.go s

/-- The element that the innermost loop is about to erase. -/
def erases (s : State Id Key) : Option (Key × ℕ) := do
  let l ← s.loops.head?
  let x ← l.removes
  let k ← l.keys.head?
  let i ← l.next
  let p ← (s.store.list k)[i]?
  if s.alive p && p ≠ x then none else some (k, i)

/-- The key of the removal that is about to end. -/
def ends (s : State Id Key) : Option Key := do
  let l ← s.loops.head?
  match l.keys, l.task with
  | [], .removal _ key => some key
  | _, _ => none

/-- What is about to happen is defined, and the other loops stand neither at an element that
is erased nor in a list that is dropped. -/
def Spares (s : State Id Key) : Label Id Key → Prop
  | .dispatch key => R.dispatchable key = true
  | .remove _ key => R.removable key = true
  | .release last => last = true → ∀ key ∈ (s.loops.head?.bind (·.held)).bind s.registered,
      R.removable key = true
  | .go => (∀ e ∈ erases s, ∀ l ∈ s.loops.tail, ¬l.StandsAt e.1 e.2) ∧
      ∀ key ∈ ends s, ∀ l ∈ s.loops.tail, ∀ k ∈ l.keys.head?,
        ¬(s.store.find? k = some [] ∧ R.drops key k = true)
  | .add _ _ | .expire _ => True

instance (s : State Id Key) : ∀ label, Decidable (R.Spares s label)
  | .dispatch key => inferInstanceAs (Decidable (R.dispatchable key = true))
  | .remove _ key => inferInstanceAs (Decidable (R.removable key = true))
  | .release last => inferInstanceAs (Decidable (last = true → ∀ _ ∈ _, _))
  | .go => inferInstanceAs (Decidable ((∀ _ ∈ _, _) ∧ ∀ _ ∈ _, _))
  | .add _ _ | .expire _ => isTrue trivial

/-! ### What lies ahead of a loop -/

end Registry

section

variable {Id Key : Type} [LinearOrder Key]

/-- The elements from position `i` on are still there when another element is erased. -/
theorem mem_drop_eraseIdx {α : Type} {l : List α} {i j : ℕ} {x y : α} (hx : l[j]? = some x)
    (hne : y ≠ x) (hy : y ∈ l.drop i) : y ∈ (l.eraseIdx j).drop (if j < i then i - 1 else i) := by
  obtain ⟨hj, rfl⟩ := List.getElem?_eq_some_iff.mp hx
  have hlength : (l.take j).length = j := List.length_take_of_le hj.le
  rw [List.eraseIdx_eq_take_drop_succ]
  split_ifs with hlt
  · -- the elements ahead are those behind the erased one, without some
    rw [List.drop_append, hlength, List.drop_drop, List.mem_append]
    right
    rwa [show j + 1 + (i - 1 - j) = i by omega]
  · rw [← List.take_append_drop j l, List.drop_append, hlength, List.mem_append,
      List.drop_eq_getElem_cons hj, show i - j = 0 by omega, List.drop_zero, List.mem_cons] at hy
    rw [List.drop_append, hlength, List.mem_append, show i - j = 0 by omega, List.drop_zero]
    exact hy.imp_right (·.resolve_left hne)

namespace Loop

/-- The elements that the loop has yet to visit. -/
def ahead (l : Loop Id Key) (s : Lists Id Key) : List Id :=
  match l.keys, l.next with
  | k :: keys, some i => (s.list k).drop i ++ keys.flatMap s.list
  | _, _ => []

theorem ahead_eq {l : Loop Id Key} {k : Key} {keys : List Key} {i : ℕ} (hkeys : l.keys = k :: keys)
    (hnext : l.next = some i) (s : Lists Id Key) :
    l.ahead s = (s.list k).drop i ++ keys.flatMap s.list := by
  rw [ahead, hkeys, hnext]

/-- At the beginning of its lists a loop has all of them ahead. -/
theorem ahead_start (keys : List Key) (held : Option Id) (task : Task Id Key)
    (s : Lists Id Key) :
    (⟨keys, some 0, false, held, task⟩ : Loop Id Key).ahead s = keys.flatMap s.list := by
  cases keys <;> rfl

theorem ahead_visited {keys keys' : List Key} {k : Key} (hkeys : keys = k :: keys') (i : ℕ)
    (held : Option Id) (task : Task Id Key) (s : Lists Id Key) :
    (⟨keys, some i, true, held, task⟩ : Loop Id Key).ahead s =
      (s.list k).drop (i + 1) ++ keys'.flatMap s.list := by
  rw [hkeys]
  rfl

/-- The iterator is valid. -/
def Valid (l : Loop Id Key) (s : Lists Id Key) : Prop :=
  ∃ i, l.next = some i ∧ ∀ k ∈ l.keys.head?, i ≤ (s.list k).length

variable {l : Loop Id Key} {s s' : Lists Id Key}

/-- Lists that have only been appended to. -/
theorem Valid.grow (h : l.Valid s) (hgrows : ∀ k, s.list k <+: s'.list k) : l.Valid s' := by
  obtain ⟨i, hnext, hle⟩ := h
  exact ⟨i, hnext, fun k hk => (hle k hk).trans (hgrows k).length_le⟩

theorem mem_ahead_grow (hgrows : ∀ k, s.list k <+: s'.list k) {y : Id} (h : y ∈ l.ahead s) :
    y ∈ l.ahead s' := by
  rw [ahead] at h ⊢
  split at h
  · next k keys i _ _ =>
      rcases List.mem_append.mp h with h | h
      · obtain ⟨t, ht⟩ := hgrows k
        refine List.mem_append_left _ ?_
        rw [← ht, List.drop_append]
        exact List.mem_append_left _ h
      · obtain ⟨k', hk', hy⟩ := List.mem_flatMap.mp h
        exact List.mem_append_right _ (List.mem_flatMap.mpr ⟨k', hk', (hgrows k').subset hy⟩)
  · cases h

theorem next_erased {k : Key} {i j : ℕ} (hkey : l.keys.head? = some k) (hstands : ¬l.StandsAt k j)
    (hnext : l.next = some i) : (l.erased k j).next = some (if j < i then i - 1 else i) := by
  obtain ⟨n, hn, rfl⟩ := Option.map_eq_some_iff.mp hnext
  have hne : n ≠ j := fun heq => hstands ⟨hkey, hn.trans (congrArg some heq)⟩
  rw [erased, if_pos hkey, next, hn, Option.bind_some, if_neg hne, Option.map_some]
  congr 1
  cases l.visited with
  | false => simp
  | true => simp only [if_true]; split_ifs <;> omega

@[simp] theorem keys_erased (k : Key) (i : ℕ) (l : Loop Id Key) :
    (l.erased k i).keys = l.keys := by
  rw [erased]
  split <;> rfl

@[simp] theorem task_erased (k : Key) (i : ℕ) (l : Loop Id Key) :
    (l.erased k i).task = l.task := by
  rw [erased]
  split <;> rfl

@[simp] theorem removes_erased (k : Key) (i : ℕ) (l : Loop Id Key) :
    (l.erased k i).removes = l.removes := by
  rw [removes, task_erased, removes]

theorem Valid.erased (h : l.Valid s) {k : Key} {j : ℕ} {x : Id} (hx : (s.list k)[j]? = some x)
    (hstands : ¬l.StandsAt k j) : (l.erased k j).Valid (s.eraseAt k j) := by
  obtain ⟨i, hnext, hle⟩ := h
  have hj : j < (s.list k).length := (List.getElem?_eq_some_iff.mp hx).1
  by_cases hkey : l.keys.head? = some k
  · refine ⟨_, next_erased hkey hstands hnext, fun k' hk' => ?_⟩
    rw [keys_erased] at hk'
    obtain rfl : k = k' := Option.some.inj (hkey.symm.trans hk')
    have hi := hle k hkey
    rw [Lists.list_eraseAt, if_pos rfl, List.length_eraseIdx_of_lt hj]
    split_ifs <;> omega
  · rw [Loop.erased, if_neg hkey]
    refine ⟨i, hnext, fun k' hk' => ?_⟩
    have hne : k' ≠ k := fun heq => hkey (heq ▸ hk')
    rw [Lists.list_eraseAt, if_neg hne]
    exact hle k' hk'

/-- What lies ahead stays there when something else is erased. -/
theorem mem_ahead_erased (hvalid : l.Valid s) {k : Key} {j : ℕ} {x y : Id}
    (hx : (s.list k)[j]? = some x) (hstands : ¬l.StandsAt k j) (hne : y ≠ x)
    (h : y ∈ l.ahead s) : y ∈ (l.erased k j).ahead (s.eraseAt k j) := by
  obtain ⟨i, hnext, -⟩ := hvalid
  have hkept : ∀ k', y ∈ s.list k' → y ∈ (s.eraseAt k j).list k' := by
    intro k' hy
    rw [Lists.list_eraseAt]
    split_ifs with hk
    · subst hk
      have hdrop := mem_drop_eraseIdx hx hne (i := 0) (by simpa using hy)
      simpa using hdrop
    · exact hy
  cases hkeys : l.keys with
  | nil => simp [ahead, hkeys] at h
  | cons k' keys =>
      rw [ahead_eq hkeys hnext, List.mem_append, List.mem_flatMap] at h
      have hrest : (∃ k'' ∈ keys, y ∈ s.list k'') → ∃ k'' ∈ keys, y ∈ (s.eraseAt k j).list k'' :=
        fun ⟨k'', hk'', hy⟩ => ⟨k'', hk'', hkept k'' hy⟩
      by_cases hk : k' = k
      · subst hk
        have hkey : l.keys.head? = some k' := by rw [hkeys]; rfl
        rw [ahead_eq ((keys_erased k' j l).trans hkeys) (next_erased hkey hstands hnext),
          List.mem_append, List.mem_flatMap, Lists.list_eraseAt, if_pos rfl]
        exact h.imp (mem_drop_eraseIdx hx hne) hrest
      · have hkey : ¬l.keys.head? = some k := by simpa [hkeys] using hk
        rw [erased, if_neg hkey, ahead_eq hkeys hnext, List.mem_append, List.mem_flatMap,
          Lists.list_eraseAt, if_neg hk]
        exact h.imp_right hrest

end Loop

namespace Registry

variable [DecidableEq Id] (R : Registry Id Key)

theorem list_drop (s : Lists Id Key) (key k : Key) : (R.drop s key).list k = s.list k :=
  Lists.list_dropEmpty s (R.drops key) k

/-! ### The invariant -/

/-- What is due at a dispatch is registered and exists, and it has been called or lies
ahead. -/
structure Standing (s : State Id Key) (l : Loop Id Key) : Prop where
  valid : l.Valid s.store
  due : ∀ d, l.task = .dispatch d → ∀ y, d.due y = true →
    (s.registered y ≠ none ∧ s.alive y = true) ∧ (y ∈ d.called ∨ y ∈ l.ahead s.store)

/-- No element has been used after it was erased, and no member was left out. Dispatches
are started by members that are called, so they lie below the removals. -/
structure Sound (s : State Id Key) : Prop where
  defined : s.undefined = false
  complete : R.Complete s.store s.registered s.alive
  loops : ∀ l ∈ s.loops, Standing s l
  removals : ∀ l ∈ s.loops, ∀ x ∈ l.removes, s.registered x = none
  layers : s.loops.Pairwise fun l l' => l'.removes.isSome = true → l.removes.isSome = true
  finished : ∀ d ∈ s.finished, ∀ y, d.due y = true → y ∈ d.called

theorem sound_init (h : R.Complete .empty (fun _ => none) fun _ => true) : R.Sound .init :=
  ⟨rfl, h, fun _ hl => (List.not_mem_nil hl).elim, fun _ hl => (List.not_mem_nil hl).elim, .nil,
    fun _ hd => (List.not_mem_nil hd).elim⟩

variable {R} {s s' : State Id Key} {l : Loop Id Key}

omit [DecidableEq Id] in
theorem Standing.grow {store : Lists Id Key} {registered : Id → Option Key}
    {loops : List (Loop Id Key)} (h : Standing s l) (hgrows : ∀ k, s.store.list k <+: store.list k)
    (hregistered : ∀ y, s.registered y ≠ none → registered y ≠ none) :
    Standing { s with store, registered, loops } l :=
  ⟨h.valid.grow hgrows, fun d hd y hy => (h.due d hd y hy).imp
    (·.imp_left (hregistered y)) (·.imp_right (Loop.mem_ahead_grow hgrows))⟩

/-- A member that is not due any more may go. -/
theorem Standing.forget {x : Id} {registered : Id → Option Key} {alive : Id → Bool}
    {loops : List (Loop Id Key)} (h : Standing s l)
    (hkept : ∀ y, y ≠ x → s.registered y ≠ none ∧ s.alive y = true →
      registered y ≠ none ∧ alive y = true) :
    Standing { s with registered, alive, loops } (l.forget x) := by
  have hahead : (l.forget x).ahead s.store = l.ahead s.store := by
    rw [Loop.ahead, Loop.ahead, Loop.keys_forget, Loop.next_forget]
  refine ⟨?_, fun d hd y hy => ?_⟩
  · obtain ⟨i, hnext, hle⟩ := h.valid
    exact ⟨i, (Loop.next_forget x l).trans hnext, by rwa [Loop.keys_forget]⟩
  · rw [hahead]
    rw [Loop.forget] at hd
    split at hd
    · next d' hd' =>
        obtain rfl := Task.dispatch.inj hd
        obtain ⟨hy, hne⟩ : d'.due y = true ∧ y ≠ x := by simpa using hy
        exact (h.due d' hd' y hy).imp_left (hkept y hne)
    · next x' key hx' => exact absurd (hx'.symm.trans hd) (by simp)

omit [DecidableEq Id] [LinearOrder Key] in
theorem pairwise_map {f : Loop Id Key → Loop Id Key} (hf : ∀ l, (f l).removes = l.removes)
    {loops : List (Loop Id Key)}
    (h : loops.Pairwise fun l l' => l'.removes.isSome = true → l.removes.isSome = true) :
    (loops.map f).Pairwise fun l l' => l'.removes.isSome = true → l.removes.isSome = true := by
  rw [List.pairwise_map]
  exact h.imp fun {a b} hab => by rwa [hf, hf]

/-- While a member is called, all loops are dispatches. -/
theorem Sound.dispatches (h : R.Sound s) (hcalling : s.calling = true) :
    ∀ l ∈ s.loops, l.removes = none := by
  rw [State.calling] at hcalling
  have hlayers := h.layers
  cases hloops : s.loops with
  | nil => simp
  | cons top rest =>
      rw [hloops] at hcalling hlayers
      have htop : top.removes = none := by
        have hnone := (Bool.and_eq_true_iff.mp hcalling).2
        simpa using hnone
      intro l hl
      rcases List.mem_cons.mp hl with rfl | hl
      · exact htop
      · have hbelow := (List.pairwise_cons.mp hlayers).1 l hl
        rw [htop] at hbelow
        simpa using hbelow

theorem Sound.startDispatch (h : R.Sound s) (hcalling : s.calling = true) {key : Key}
    (hdefined : R.dispatchable key = true) : R.Sound (R.startDispatch s key) := by
  have hgrows : ∀ k, s.store.list k <+: (R.prepare s.store key).list k := fun _ => R.prefix_prepare
  rw [Registry.startDispatch, if_pos hdefined]
  refine ⟨h.defined, R.complete_prepare h.complete, fun l hl => ?_, fun l hl x hx => ?_, ?_,
    h.finished⟩
  · rcases List.mem_cons.mp hl with rfl | hl
    · refine ⟨⟨0, rfl, fun _ _ => Nat.zero_le _⟩, fun d hd y hy => ?_⟩
      obtain rfl := Task.dispatch.inj hd
      obtain ⟨halive, hcovers⟩ := Bool.and_eq_true_iff.mp hy
      obtain ⟨ky, hky, hcovers⟩ := (Option.any_eq_true _ _).mp hcovers
      obtain ⟨k, hk, hmem⟩ := R.complete_found h.complete hky halive hcovers
      refine ⟨⟨by simp [Option.mem_def.mp hky], halive⟩, .inr ?_⟩
      rw [Loop.ahead_start, List.mem_flatMap]
      exact ⟨k, hk, hmem⟩
    · exact (h.loops l hl).grow hgrows fun _ hy => hy
  · rcases List.mem_cons.mp hl with rfl | hl
    · cases hx
    · exact h.removals l hl x hx
  · refine List.pairwise_cons.mpr ⟨fun l hl hremoves => ?_, h.layers⟩
    rw [h.dispatches hcalling l hl] at hremoves
    cases hremoves

theorem Sound.add (h : R.Sound s) (hcalling : s.calling = true) (x : Id) (key : Key) :
    R.Sound { s with
      store := R.add s.store x key
      registered := Function.update s.registered x (some key) } :=
  ⟨h.defined, R.complete_add h.complete, fun l hl => (h.loops l hl).grow (fun _ => R.prefix_add)
      fun y hy => by by_cases hyx : y = x <;> simp [hyx, hy],
    fun l hl y hy => absurd (Option.mem_def.mp hy) (by simp [h.dispatches hcalling l hl]),
    h.layers, h.finished⟩

theorem Sound.startRemoval (h : R.Sound s) {x : Id} {key : Key} (hdefined : R.removable key = true)
    (hstep : R.startRemoval s x key = some s') : R.Sound s' := by
  rw [Registry.startRemoval, if_pos hdefined] at hstep
  obtain ⟨keys, -, rfl⟩ := Option.map_eq_some_iff.mp hstep
  refine ⟨h.defined, R.complete_unregister h.complete, fun l hl => ?_, fun l hl y hy => ?_, ?_,
    h.finished⟩
  · rcases List.mem_cons.mp hl with rfl | hl
    · exact ⟨⟨0, rfl, fun _ _ => Nat.zero_le _⟩, fun d hd => by cases hd⟩
    · obtain ⟨l₀, hl₀, rfl⟩ := List.mem_map.mp hl
      refine (h.loops l₀ hl₀).forget fun y hyx hy => ?_
      rwa [Function.update_of_ne hyx]
  · show Function.update s.registered x none y = none
    by_cases hyx : y = x
    · rw [hyx, Function.update_self]
    · rw [Function.update_of_ne hyx]
      rcases List.mem_cons.mp hl with rfl | hl
      · exact absurd (Option.some.inj hy).symm hyx
      · obtain ⟨l₀, hl₀, rfl⟩ := List.mem_map.mp hl
        exact h.removals l₀ hl₀ y (Loop.removes_forget x l₀ ▸ hy)
  · exact List.pairwise_cons.mpr
      ⟨fun _ _ _ => rfl, pairwise_map (Loop.removes_forget x) h.layers⟩

theorem Sound.perish (h : R.Sound s) (x : Id) : R.Sound (perish s x) := by
  refine ⟨h.defined, R.complete_mono h.complete fun y hy => ?_, fun l hl => ?_, fun l hl y hy => ?_,
    pairwise_map (Loop.removes_forget x) h.layers, h.finished⟩
  · by_cases hyx : y = x
    · simp [Registry.perish, hyx] at hy
    · simpa [Registry.perish, hyx] using hy
  · obtain ⟨l₀, hl₀, rfl⟩ := List.mem_map.mp hl
    refine (h.loops l₀ hl₀).forget fun y hyx hy => ?_
    rwa [Function.update_of_ne hyx]
  · obtain ⟨l₀, hl₀, rfl⟩ := List.mem_map.mp hl
    exact h.removals l₀ hl₀ y (Loop.removes_forget x l₀ ▸ hy)

theorem Sound.release (h : R.Sound s) {last : Bool} (hspared : R.Spares s (.release last))
    (hstep : R.release s last = some s') : R.Sound s' := by
  rw [Registry.release] at hstep
  cases hloops : s.loops with
  | nil => simp [hloops] at hstep
  | cons l rest =>
      cases hheld : l.held with
      | none => simp [hloops, hheld] at hstep
      | some x =>
          simp only [hloops, hheld] at hstep
          have hreleased : R.Sound { s with loops := { l with held := none } :: rest } := by
            have hlayers := hloops ▸ h.layers
            refine ⟨h.defined, h.complete, fun l' hl' => ?_, fun l' hl' => ?_, ?_, h.finished⟩
            · rcases List.mem_cons.mp hl' with rfl | hl'
              · have hl := h.loops l (by simp [hloops])
                exact ⟨hl.valid, hl.due⟩
              · have hl := h.loops l' (by simp [hloops, hl'])
                exact ⟨hl.valid, hl.due⟩
            · rcases List.mem_cons.mp hl' with rfl | hl'
              · exact h.removals l (by simp [hloops])
              · exact h.removals l' (by simp [hloops, hl'])
            · exact List.pairwise_cons.mpr (List.pairwise_cons.mp hlayers)
          split_ifs at hstep with hlast
          · rw [destroy] at hstep
            cases hregistered : s.registered x with
            | none =>
                simp only [hregistered, Option.some.injEq] at hstep
                exact hstep ▸ hreleased.perish x
            | some key =>
                simp only [hregistered] at hstep
                have hdefined : R.removable key = true :=
                  hspared hlast key (by simp [hloops, hheld, hregistered])
                exact (hreleased.perish x).startRemoval hdefined hstep
          · exact Option.some.inj hstep ▸ hreleased

theorem Sound.finish {rest : List (Loop Id Key)} (h : R.Sound { s with loops := l :: rest })
    (hkeys : l.keys = [])
    (hkept : ∀ x key, l.task = .removal x key → ∀ l' ∈ rest, ∀ k ∈ l'.keys.head?,
      ¬(s.store.find? k = some [] ∧ R.drops key k = true)) :
    R.Sound (R.finish { s with loops := rest } l.task) := by
  have hl := h.loops l List.mem_cons_self
  have hlayers := (List.pairwise_cons.mp h.layers).2
  cases htask : l.task with
  | dispatch d =>
      refine ⟨h.defined, h.complete, fun l' hl' => ?_, fun l' hl' => ?_, hlayers,
        fun d' hd' y hy => ?_⟩
      · have hl' := h.loops l' (List.mem_cons_of_mem l hl')
        exact ⟨hl'.valid, hl'.due⟩
      · exact h.removals l' (List.mem_cons_of_mem l hl')
      · rcases List.mem_cons.mp hd' with rfl | hd'
        · have hnothing : l.ahead s.store = [] := by rw [Loop.ahead, hkeys]
          have hdue := (hl.due d' htask y hy).2
          exact hdue.resolve_right (by simp [hnothing])
        · exact h.finished d' hd' y hy
  | removal x key =>
      -- no loop is in a list that is dropped
      have hsame : rest.map (·.dropped fun k => s.store.find? k = some [] ∧ R.drops key k) =
          rest := by
        conv_rhs => rw [← List.map_id rest]
        refine List.map_congr_left fun l' hl' => ?_
        have hnot : ¬(l'.keys.head?.any fun k =>
            decide (s.store.find? k = some [] ∧ R.drops key k)) = true := by
          rw [Option.any_eq_true]
          rintro ⟨k, hk, hdropped⟩
          exact hkept x key htask l' hl' k hk (of_decide_eq_true hdropped)
        rw [Loop.dropped]
        exact if_neg hnot
      have hgrows : ∀ k, s.store.list k <+: (R.drop s.store key).list k := fun k =>
        (list_drop R s.store key k).symm ▸ List.prefix_rfl
      simp only [Registry.finish, hsame]
      refine ⟨h.defined, R.complete_drop h.complete, fun l' hl' => ?_, fun l' hl' => ?_, hlayers,
        h.finished⟩
      · exact (h.loops l' (List.mem_cons_of_mem l hl')).grow hgrows fun _ hy => hy
      · exact h.removals l' (List.mem_cons_of_mem l hl')

/-- The innermost loop, as it goes on, with the others as they are. -/
theorem Sound.replace {rest : List (Loop Id Key)} (h : R.Sound { s with loops := l :: rest })
    {l' : Loop Id Key} (hremoves : l'.removes = l.removes)
    (hl' : Standing { s with loops := l' :: rest } l') :
    R.Sound { s with loops := l' :: rest } := by
  obtain ⟨hbelow, hlayers⟩ := List.pairwise_cons.mp h.layers
  refine ⟨h.defined, h.complete, fun l₁ hl₁ => ?_, fun l₁ hl₁ => ?_, ?_, h.finished⟩
  · rcases List.mem_cons.mp hl₁ with rfl | hl₁
    · exact hl'
    · have hl₁ := h.loops l₁ (List.mem_cons_of_mem l hl₁)
      exact ⟨hl₁.valid, hl₁.due⟩
  · rcases List.mem_cons.mp hl₁ with rfl | hl₁
    · exact hremoves ▸ h.removals l List.mem_cons_self
    · exact h.removals l₁ (List.mem_cons_of_mem l hl₁)
  · exact List.pairwise_cons.mpr ⟨hremoves ▸ hbelow, hlayers⟩

/-- The element that a removal erases is not due anywhere. -/
theorem Sound.erase {rest : List (Loop Id Key)} (h : R.Sound { s with loops := l :: rest })
    {k : Key} {i : ℕ} {p : Id} (hp : (s.store.list k)[i]? = some p)
    (hgone : s.registered p = none ∨ s.alive p = false)
    (hspared : ∀ l' ∈ rest, ¬l'.StandsAt k i) {l' : Loop Id Key} {x : Id} {key : Key}
    (hl : l.task = .removal x key) (htask : l'.task = .removal x key)
    (hvalid : l'.Valid (s.store.eraseAt k i)) :
    R.Sound { s with
      store := s.store.eraseAt k i
      loops := l' :: rest.map (·.erased k i) } := by
  obtain ⟨hbelow, hlayers⟩ := List.pairwise_cons.mp h.layers
  have hremoves : l'.removes = l.removes := by rw [Loop.removes, Loop.removes, htask, hl]
  refine ⟨h.defined, R.complete_erase h.complete hp hgone, fun l₁ hl₁ => ?_, fun l₁ hl₁ => ?_,
    List.pairwise_cons.mpr ⟨fun l₁ hl₁ => ?_, pairwise_map (Loop.removes_erased k i) hlayers⟩,
    h.finished⟩
  · rcases List.mem_cons.mp hl₁ with rfl | hl₁
    · exact ⟨hvalid, fun d hd => by cases htask.symm.trans hd⟩
    · obtain ⟨l₂, hl₂, rfl⟩ := List.mem_map.mp hl₁
      have hstanding := h.loops l₂ (List.mem_cons_of_mem l hl₂)
      refine ⟨hstanding.valid.erased hp (hspared l₂ hl₂), fun d hd y hy => ?_⟩
      obtain ⟨⟨hregistered, halive⟩, hdue⟩ :=
        hstanding.due d ((Loop.task_erased k i l₂).symm.trans hd) y hy
      have hne : y ≠ p := by
        rintro rfl
        rcases hgone with hnone | hdead
        · exact hregistered hnone
        · exact absurd (halive.symm.trans hdead) (by simp)
      exact ⟨⟨hregistered, halive⟩, hdue.imp_right
        (Loop.mem_ahead_erased hstanding.valid hp (hspared l₂ hl₂) hne)⟩
  · rcases List.mem_cons.mp hl₁ with rfl | hl₁
    · exact hremoves ▸ h.removals l List.mem_cons_self
    · obtain ⟨l₂, hl₂, rfl⟩ := List.mem_map.mp hl₁
      rw [Loop.removes_erased]
      exact h.removals l₂ (List.mem_cons_of_mem l hl₂)
  · intro _
    rw [Loop.removes, htask]
    rfl

theorem Sound.visit {rest : List (Loop Id Key)} (h : R.Sound { s with loops := l :: rest })
    {k : Key} {keys : List Key} {i : ℕ} {p : Id} (hkeys : l.keys = k :: keys)
    (hnext : l.next = some i) (hp : (s.store.list k)[i]? = some p)
    (hspared : ∀ x key, l.task = .removal x key → (s.alive p && p ≠ x) = false →
      ∀ l' ∈ rest, ¬l'.StandsAt k i) :
    R.Sound (R.visit { s with loops := rest } l k i p) := by
  have hl := h.loops l List.mem_cons_self
  obtain ⟨hi, hget⟩ := List.getElem?_eq_some_iff.mp hp
  have hbehind : ∀ k' ∈ l.keys.head?, i + 1 ≤ (s.store.list k').length := by
    intro k' hk'
    obtain rfl : k = k' := by simpa [hkeys] using hk'
    exact hi
  rw [Registry.visit]
  cases htask : l.task with
  | dispatch d =>
      refine h.replace (by simp [Loop.removes, htask]) ⟨⟨i + 1, rfl, hbehind⟩,
        fun d' hd' y hy => ?_⟩
      obtain rfl := Task.dispatch.inj hd'
      obtain ⟨⟨hregistered, halive⟩, hdue⟩ := hl.due d htask y hy
      refine ⟨⟨hregistered, halive⟩, ?_⟩
      rw [Loop.ahead_eq hkeys hnext, List.drop_eq_getElem_cons hi, hget, List.cons_append,
        List.mem_cons] at hdue
      rcases hdue with hcalled | rfl | hahead
      · exact .inl (List.mem_append_left _ hcalled)
      -- the element is due, so it exists and is called now
      · have hy : s.alive y = true := halive
        exact .inl (List.mem_append_right _ (by simp [hy]))
      · right
        rwa [Loop.ahead_visited hkeys]
  | removal x key =>
      cases hsees : s.alive p && p ≠ x with
      | true =>
          simp only [hsees, if_true]
          cases R.scan with
          | first =>
              exact h.replace (by simp [Loop.removes, htask])
                ⟨⟨i + 1, rfl, hbehind⟩, fun d hd => by cases hd⟩
          | all =>
              exact h.replace (by simp [Loop.removes, htask])
                ⟨⟨i + 1, rfl, hbehind⟩, fun d hd => by cases hd⟩
      | false =>
          have hgone : s.registered p = none ∨ s.alive p = false := by
            by_cases hpx : p = x
            · left
              rw [hpx]
              exact h.removals l List.mem_cons_self x (by rw [Loop.removes, htask]; rfl)
            · right
              simpa [hpx] using hsees
          have hspared := hspared x key htask hsees
          simp only [hsees, Bool.false_eq_true, if_false]
          cases R.scan with
          | first =>
              exact h.erase hp hgone hspared htask rfl
                ⟨0, rfl, fun _ _ => Nat.zero_le _⟩
          | all =>
              refine h.erase hp hgone hspared htask rfl ⟨i, rfl, fun k' hk' => ?_⟩
              obtain rfl : k = k' := by simpa [hkeys] using hk'
              rw [Lists.list_eraseAt, if_pos rfl, List.length_eraseIdx_of_lt hi]
              omega

/-- A loop ends, meets an iterator that is gone, leaves a list or visits an element. -/
theorem go_cases (h : R.go s = some s') : ∃ l rest, s.loops = l :: rest ∧
    ((l.keys = [] ∧ s' = R.finish { s with loops := rest } l.task) ∨
      ∃ k keys, l.keys = k :: keys ∧
        ((l.next = none ∧ s' = { s with undefined := true }) ∨
          ∃ i, l.next = some i ∧
            ((s.store.list k).length ≤ i ∧ s' = { s with
                loops := { l with keys, position := some 0, visited := false } :: rest } ∨
              ∃ p, (s.store.list k)[i]? = some p ∧
                s' = R.visit { s with loops := rest } l k i p))) := by
  rw [go] at h
  cases hloops : s.loops with
  | nil => simp [hloops] at h
  | cons l rest =>
      simp only [hloops] at h
      split_ifs at h
      refine ⟨l, rest, rfl, ?_⟩
      cases hkeys : l.keys with
      | nil =>
          simp only [hkeys, Option.some.injEq] at h
          exact .inl ⟨rfl, h.symm⟩
      | cons k keys =>
          refine .inr ⟨k, keys, rfl, ?_⟩
          cases hnext : l.next with
          | none =>
              simp only [hkeys, hnext, Option.some.injEq] at h
              exact .inl ⟨rfl, h.symm⟩
          | some i =>
              refine .inr ⟨i, rfl, ?_⟩
              cases hget : (s.store.list k)[i]? with
              | none =>
                  simp only [hkeys, hnext, hget, Option.some.injEq] at h
                  exact .inl ⟨List.getElem?_eq_none_iff.mp hget, h.symm⟩
              | some p =>
                  simp only [hkeys, hnext, hget, Option.some.injEq] at h
                  exact .inr ⟨p, rfl, h.symm⟩

theorem Sound.go (h : R.Sound s) (hspared : R.Spares s .go) (hstep : R.go s = some s') :
    R.Sound s' := by
  obtain ⟨herased, hdropped⟩ := hspared
  obtain ⟨l, rest, hloops, hcases⟩ := go_cases hstep
  have hs : R.Sound { s with loops := l :: rest } := hloops ▸ h
  have hl := hs.loops l List.mem_cons_self
  obtain ⟨i, hvalid, -⟩ := hl.valid
  rcases hcases with ⟨hkeys, rfl⟩ |
    ⟨k, keys, hkeys, ⟨hnone, -⟩ | ⟨j, hnext, ⟨hlength, rfl⟩ | ⟨p, hget, rfl⟩⟩⟩
  · refine hs.finish hkeys fun x key htask l' hl' k hk => ?_
    have hends : ends s = some key := by
      simp [ends, hloops, hkeys, htask]
    exact hdropped key hends l' (by rwa [hloops]) k hk
  · cases hvalid.symm.trans hnone
  · refine hs.replace (by rfl) ⟨⟨0, rfl, fun _ _ => Nat.zero_le _⟩, fun d hd y hy => ?_⟩
    refine (hl.due d hd y hy).imp_right (·.imp_right fun hahead => ?_)
    rw [Loop.ahead_eq hkeys hnext, List.drop_of_length_le hlength, List.nil_append] at hahead
    rwa [Loop.ahead_start]
  · refine hs.visit hkeys hnext hget fun x key htask hsees l' hl' => ?_
    have herases : erases s = some (k, j) := by
      simpa [erases, hloops, Loop.removes, htask, hkeys, hnext, hget] using hsees
    exact herased (k, j) herases l' (by rwa [hloops])

theorem Sound.step (h : R.Sound s) {label : Label Id Key} (hspared : R.Spares s label)
    (hstep : R.step s label = some s') : R.Sound s' := by
  rw [Registry.step.eq_def, if_neg (by simp [h.defined])] at hstep
  cases label with
  | add x key =>
      obtain ⟨hadd, hstep⟩ := Option.ite_none_right_eq_some.mp hstep
      exact Option.some.inj hstep ▸ h.add hadd.1 x key
  | remove x key =>
      obtain ⟨-, hstep⟩ := Option.ite_none_right_eq_some.mp hstep
      exact h.startRemoval hspared hstep
  | dispatch key =>
      obtain ⟨hcalling, hstep⟩ := Option.ite_none_right_eq_some.mp hstep
      exact Option.some.inj hstep ▸ h.startDispatch hcalling hspared
  | expire x =>
      obtain ⟨-, hstep⟩ := Option.ite_none_right_eq_some.mp hstep
      exact Option.some.inj hstep ▸ h.perish x
  | release last => exact h.release hspared hstep
  | go => exact h.go hspared hstep

/-- A run whose steps spare the loops under way uses no erased element, and the dispatches
that come to an end in it leave no member out. -/
theorem exec_sound {labels : List (Label Id Key)} (h : R.Sound s)
    (halong : Along R.step R.Spares s labels) (hrun : exec R.step s labels = some s') :
    R.Sound s' :=
  exec_invariant_along (fun _ _ _ h hl hstep => h.step hl hstep) h halong hrun

end Registry

end

end Rsb.Library
