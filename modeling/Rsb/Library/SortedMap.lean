import Mathlib.Data.List.Basic
import Mathlib.Data.List.Perm.Basic
import Mathlib.Data.List.Nodup
import Mathlib.Order.Lattice

/-!
Ordered associative containers.

`SortedMap κ β` is a finite map held as the list of its entries in strictly
increasing key order, which is what an iteration over an ordered tree map
visits. Strict order is a field, so two maps that answer every lookup alike
are the same map (`SortedMap.ext_find?`), and rebuilding a map from its own
iteration gives it back (`SortedMap.ofList_entries`). `SortedSet` is the case
without values.
-/

namespace Rsb.Library

/-- A finite map, listed in strictly increasing order of its keys. -/
structure SortedMap (κ β : Type) [LinearOrder κ] where
  entries : List (κ × β)
  sorted : entries.Pairwise (fun a b => a.1 < b.1)
  deriving DecidableEq

namespace SortedMap

variable {κ β γ : Type} [LinearOrder κ]

/-- Insertion into a key-ordered entry list; an entry of the same key is
replaced. -/
def insertEntry (k : κ) (v : β) : List (κ × β) → List (κ × β)
  | [] => [(k, v)]
  | e :: rest =>
      if k < e.1 then (k, v) :: e :: rest
      else if k = e.1 then (k, v) :: rest
      else e :: insertEntry k v rest

theorem mem_insertEntry {k : κ} {v : β} {l : List (κ × β)} {e : κ × β}
    (h : e ∈ insertEntry k v l) : e = (k, v) ∨ e ∈ l := by
  induction l with
  | nil => simpa [insertEntry] using h
  | cons head rest ih =>
      simp only [insertEntry] at h
      split_ifs at h with hlt heq
      · simpa using h
      · rcases List.mem_cons.mp h with rfl | h
        · exact .inl rfl
        · exact .inr (List.mem_cons_of_mem _ h)
      · rcases List.mem_cons.mp h with rfl | h
        · exact .inr List.mem_cons_self
        · exact (ih h).imp id (List.mem_cons_of_mem _)

theorem sorted_insertEntry (k : κ) (v : β) {l : List (κ × β)}
    (h : l.Pairwise (fun a b => a.1 < b.1)) :
    (insertEntry k v l).Pairwise (fun a b => a.1 < b.1) := by
  induction l with
  | nil => simp [insertEntry]
  | cons head rest ih =>
      obtain ⟨hhead, hrest⟩ := List.pairwise_cons.mp h
      simp only [insertEntry]
      split_ifs with hlt heq
      · refine List.pairwise_cons.mpr ⟨fun e he => ?_, h⟩
        rcases List.mem_cons.mp he with rfl | he
        · exact hlt
        · exact hlt.trans (hhead e he)
      · exact List.pairwise_cons.mpr ⟨fun e he => heq ▸ hhead e he, hrest⟩
      · refine List.pairwise_cons.mpr ⟨fun e he => ?_, ih hrest⟩
        rcases mem_insertEntry he with rfl | he
        · exact lt_of_le_of_ne (not_lt.mp hlt) (Ne.symm heq)
        · exact hhead e he

theorem lookup_cons (e : κ × β) (l : List (κ × β)) (k : κ) :
    (e :: l).lookup k = if k = e.1 then some e.2 else l.lookup k := by
  obtain ⟨key, value⟩ := e
  by_cases h : k = key
  · subst h
    simp
  · have hbeq : (k == key) = false := by simpa using h
    simp [List.lookup_cons, hbeq, h]

theorem lookup_insertEntry (k : κ) (v : β) (l : List (κ × β)) (k' : κ) :
    (insertEntry k v l).lookup k' = if k' = k then some v else l.lookup k' := by
  induction l with
  | nil => simp [insertEntry, lookup_cons]
  | cons head rest ih =>
      by_cases hk : k' = k
      · subst hk
        simp only [insertEntry]
        split_ifs with hlt heq <;> simp_all [lookup_cons]
      · simp only [insertEntry]
        split_ifs with hlt heq
        · simp [lookup_cons, hk]
        · simp [lookup_cons, hk, ← heq]
        · simp [lookup_cons, ih, hk]

/-- In a key-ordered list the entries are exactly what lookups find. -/
theorem lookup_eq_some_iff {l : List (κ × β)}
    (h : l.Pairwise (fun a b => a.1 < b.1)) {k : κ} {v : β} :
    l.lookup k = some v ↔ (k, v) ∈ l := by
  induction l with
  | nil => simp
  | cons head rest ih =>
      obtain ⟨hhead, hrest⟩ := List.pairwise_cons.mp h
      rw [lookup_cons, List.mem_cons]
      by_cases hk : k = head.1
      · have hnot : (k, v) ∉ rest := fun hm => absurd (hhead _ hm) (by simp [hk])
        simp only [hk, if_true, Option.some.injEq, Prod.ext_iff, true_and]
        simp [← hk, hnot, eq_comm]
      · have hne : (k, v) ≠ head := fun h => hk (by rw [← h])
        simp [hk, hne, ih hrest]

/-! ### Operations -/

/-- The map without entries. -/
def empty : SortedMap κ β := ⟨[], .nil⟩

instance : Inhabited (SortedMap κ β) := ⟨empty⟩

/-- The value stored under `k`, if there is one. -/
def find? (m : SortedMap κ β) (k : κ) : Option β := m.entries.lookup k

/-- Store `v` under `k`, replacing what was there. -/
def insert (m : SortedMap κ β) (k : κ) (v : β) : SortedMap κ β :=
  ⟨insertEntry k v m.entries, sorted_insertEntry k v m.sorted⟩

/-- Keep the entries that satisfy `p`. -/
def filter (m : SortedMap κ β) (p : κ × β → Bool) : SortedMap κ β :=
  ⟨m.entries.filter p, m.sorted.filter p⟩

/-- Remove the entry of `k`. -/
def erase (m : SortedMap κ β) (k : κ) : SortedMap κ β :=
  m.filter (fun e => e.1 ≠ k)

/-- Rewrite every value in place; the keys stay. -/
def mapValues (m : SortedMap κ β) (f : κ → β → γ) : SortedMap κ γ :=
  ⟨m.entries.map (fun e => (e.1, f e.1 e.2)), m.sorted.map _ (fun _ _ h => h)⟩

/-- The keys in increasing order. -/
def keys (m : SortedMap κ β) : List κ := m.entries.map (·.1)

/-- The map filled from `l` one insertion after the other. -/
def ofList (l : List (κ × β)) : SortedMap κ β :=
  l.foldl (fun m e => m.insert e.1 e.2) empty

/-! ### Lookups -/

@[simp] theorem find?_empty (k : κ) : (empty : SortedMap κ β).find? k = none := rfl

theorem find?_eq_some_iff {m : SortedMap κ β} {k : κ} {v : β} :
    m.find? k = some v ↔ (k, v) ∈ m.entries :=
  lookup_eq_some_iff m.sorted

theorem find?_insert (m : SortedMap κ β) (k : κ) (v : β) (k' : κ) :
    (m.insert k v).find? k' = if k' = k then some v else m.find? k' :=
  lookup_insertEntry k v m.entries k'

@[simp] theorem find?_insert_self (m : SortedMap κ β) (k : κ) (v : β) :
    (m.insert k v).find? k = some v := by
  simp [find?_insert]

theorem find?_filter_eq_some {m : SortedMap κ β} {p : κ × β → Bool} {k : κ} {v : β} :
    (m.filter p).find? k = some v ↔ m.find? k = some v ∧ p (k, v) = true := by
  rw [find?_eq_some_iff, find?_eq_some_iff]
  exact List.mem_filter

theorem find?_erase (m : SortedMap κ β) (k k' : κ) :
    (m.erase k).find? k' = if k' = k then none else m.find? k' := by
  ext v
  rw [erase, find?_filter_eq_some]
  by_cases h : k' = k <;> simp [h]

@[simp] theorem find?_mapValues (m : SortedMap κ β) (f : κ → β → γ) (k : κ) :
    (m.mapValues f).find? k = (m.find? k).map (f k) := by
  ext v
  rw [find?_eq_some_iff, Option.map_eq_some_iff]
  constructor
  · intro h
    obtain ⟨e, he, heq⟩ := List.mem_map.mp h
    obtain ⟨rfl, rfl⟩ := Prod.mk.inj heq
    exact ⟨e.2, find?_eq_some_iff.mpr he, rfl⟩
  · rintro ⟨v₀, hv₀, rfl⟩
    exact List.mem_map.mpr ⟨(k, v₀), find?_eq_some_iff.mp hv₀, rfl⟩

theorem mem_keys {m : SortedMap κ β} {k : κ} : k ∈ m.keys ↔ ∃ v, m.find? k = some v := by
  simp only [keys, List.mem_map, find?_eq_some_iff]
  constructor
  · rintro ⟨e, he, rfl⟩
    exact ⟨e.2, he⟩
  · rintro ⟨v, hv⟩
    exact ⟨(k, v), hv, rfl⟩

theorem nodup_keys (m : SortedMap κ β) : m.keys.Nodup :=
  m.sorted.map _ fun _ _ h => ne_of_lt h

/-! ### Extensionality -/

theorem nodup_entries (m : SortedMap κ β) : m.entries.Nodup :=
  m.sorted.imp (fun h heq => absurd h (by simp [heq]))

theorem ext_entries {m m' : SortedMap κ β} (h : m.entries = m'.entries) : m = m' := by
  cases m
  cases m'
  congr

/-- Two maps that answer every lookup alike are equal. -/
theorem ext_find? {m m' : SortedMap κ β} (h : ∀ k, m.find? k = m'.find? k) : m = m' := by
  have hmem : ∀ e, e ∈ m.entries ↔ e ∈ m'.entries := by
    intro e
    rw [← find?_eq_some_iff (m := m), ← find?_eq_some_iff (m := m'), h]
  have hperm : m.entries.Perm m'.entries :=
    (List.perm_ext_iff_of_nodup m.nodup_entries m'.nodup_entries).mpr hmem
  exact ext_entries (hperm.eq_of_pairwise
    (fun a b _ _ hab hba => absurd hab (not_lt.mpr hba.le)) m.sorted m'.sorted)

theorem insert_eq_self_iff {m : SortedMap κ β} {k : κ} {v : β} :
    m.insert k v = m ↔ m.find? k = some v := by
  constructor
  · intro h
    rw [← h, find?_insert_self]
  · intro h
    apply ext_find?
    intro k'
    rw [find?_insert]
    split_ifs with hk
    · rw [hk, h]
    · rfl

/-- The later value stays. -/
@[simp] theorem insert_insert (m : SortedMap κ β) (k : κ) (v v' : β) :
    (m.insert k v).insert k v' = m.insert k v' := by
  apply ext_find?
  intro k'
  rw [find?_insert, find?_insert, find?_insert]
  split <;> rfl

/-- Inserting the entries of a list with distinct keys: the list answers
first, the map it was inserted into where the list does not. -/
theorem find?_foldl_insert {l : List (κ × β)} (h : l.Pairwise (fun a b => a.1 < b.1))
    (m : SortedMap κ β) (k : κ) :
    (l.foldl (fun m e => m.insert e.1 e.2) m).find? k = (l.lookup k).or (m.find? k) := by
  induction l generalizing m with
  | nil => rfl
  | cons head rest ih =>
      obtain ⟨hhead, hrest⟩ := List.pairwise_cons.mp h
      rw [List.foldl_cons, ih hrest, find?_insert]
      by_cases hk : k = head.1
      · have hnone : rest.lookup k = none := by
          by_contra hsome
          obtain ⟨v, hv⟩ := Option.ne_none_iff_exists'.mp hsome
          exact lt_irrefl _ (hk ▸ hhead _ ((lookup_eq_some_iff hrest).mp hv))
        rw [hnone, lookup_cons, if_pos hk, if_pos hk]
        rfl
      · rw [lookup_cons, if_neg hk, if_neg hk]

/-- Rebuilding a map from its own iteration. -/
theorem ofList_entries (m : SortedMap κ β) : ofList m.entries = m := by
  apply ext_find?
  intro k
  rw [ofList, find?_foldl_insert m.sorted, find?_empty, Option.or_none]
  rfl

end SortedMap

/-! ### Sets -/

/-- A finite set, listed in strictly increasing order. -/
abbrev SortedSet (α : Type) [LinearOrder α] := SortedMap α Unit

namespace SortedSet

variable {α : Type} [LinearOrder α]

instance : Membership α (SortedSet α) := ⟨fun s a => s.find? a = some ()⟩

instance (a : α) (s : SortedSet α) : Decidable (a ∈ s) :=
  inferInstanceAs (Decidable (s.find? a = some ()))

/-- Add an element; a set that already has it does not change. -/
def add (s : SortedSet α) (a : α) : SortedSet α := s.insert a ()

/-- The smallest element. -/
def first? (s : SortedSet α) : Option α := s.keys.head?

/-- The set of the elements of `l`. -/
def ofElems (l : List α) : SortedSet α := l.foldl add SortedMap.empty

theorem mem_def {a : α} {s : SortedSet α} : a ∈ s ↔ s.find? a = some () := Iff.rfl

@[simp] theorem mem_keys {a : α} {s : SortedSet α} : a ∈ s.keys ↔ a ∈ s := by
  rw [SortedMap.mem_keys, mem_def]
  exact ⟨fun ⟨_, h⟩ => h, fun h => ⟨(), h⟩⟩

@[simp] theorem not_mem_empty (a : α) : ¬a ∈ (SortedMap.empty : SortedSet α) := by
  simp [mem_def]

@[simp] theorem mem_add {a b : α} {s : SortedSet α} : b ∈ s.add a ↔ b = a ∨ b ∈ s := by
  rw [mem_def, mem_def, add, SortedMap.find?_insert]
  by_cases h : b = a <;> simp [h]

@[simp] theorem mem_erase {a b : α} {s : SortedSet α} : b ∈ s.erase a ↔ b ≠ a ∧ b ∈ s := by
  rw [mem_def, mem_def, SortedMap.find?_erase]
  by_cases h : b = a <;> simp [h]

theorem ext_mem {s s' : SortedSet α} (h : ∀ a, a ∈ s ↔ a ∈ s') : s = s' := by
  apply SortedMap.ext_find?
  intro a
  have ha := h a
  rw [mem_def, mem_def] at ha
  cases hs : s.find? a <;> cases hs' : s'.find? a <;> simp_all

theorem mem_foldl_add {l : List α} {s : SortedSet α} {a : α} :
    a ∈ l.foldl add s ↔ a ∈ l ∨ a ∈ s := by
  induction l generalizing s with
  | nil => simp
  | cons head rest ih =>
      rw [List.foldl_cons, ih, mem_add, List.mem_cons]
      tauto

@[simp] theorem mem_ofElems {l : List α} {a : α} : a ∈ ofElems l ↔ a ∈ l := by
  simp [ofElems, mem_foldl_add]

theorem ofElems_keys (s : SortedSet α) : ofElems s.keys = s :=
  ext_mem fun _ => by simp

/-- The first element of the iteration is the least one. -/
theorem first?_eq_some_iff {s : SortedSet α} {a : α} :
    s.first? = some a ↔ a ∈ s ∧ ∀ b ∈ s, a ≤ b := by
  have hsorted : s.keys.Pairwise (· < ·) := s.sorted.map _ (fun _ _ h => h)
  rw [first?]
  cases hk : s.keys with
  | nil =>
      have hnone : ¬a ∈ s := by rw [← mem_keys, hk]; simp
      simp [hnone]
  | cons head rest =>
      have hmem : ∀ b, b ∈ s ↔ b = head ∨ b ∈ rest := by
        intro b
        rw [← mem_keys, hk, List.mem_cons]
      have hleast : ∀ b ∈ rest, head < b := (List.pairwise_cons.mp (hk ▸ hsorted)).1
      constructor
      · intro h
        obtain rfl : head = a := by simpa using h
        refine ⟨(hmem _).mpr (.inl rfl), fun b hb => ?_⟩
        rcases (hmem b).mp hb with rfl | hb
        · exact le_rfl
        · exact (hleast b hb).le
      · rintro ⟨ha, hle⟩
        rcases (hmem a).mp ha with rfl | ha
        · rfl
        · exact absurd (hleast a ha) (not_lt.mpr (hle head ((hmem _).mpr (.inl rfl))))

theorem first?_eq_none_iff {s : SortedSet α} : s.first? = none ↔ ∀ a, ¬a ∈ s := by
  rw [first?, List.head?_eq_none_iff]
  constructor
  · intro h a ha
    simp [← mem_keys, h] at ha
  · intro h
    exact List.eq_nil_iff_forall_not_mem.mpr fun a ha => h a (mem_keys.mp ha)

end SortedSet

end Rsb.Library
