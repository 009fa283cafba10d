import Mathlib.Data.List.Lex
import Mathlib.Order.Lattice

/-!
Byte strings and the ways in which C++ code fails.

A `std::string` is a list of bytes: wire data, scopes and user infos may hold
any of them. Comparison is lexicographic on unsigned bytes, as in
`std::char_traits<char>`. Code that may fail returns `Except Fault`; a fault is
a thrown exception, a failed `assert`, an access past the end of a buffer or
through a null pointer, and only the first of these can be caught.
-/

namespace Rsb

/-- The contents of a `std::string`. -/
abbrev Bytes := List UInt8

instance linearOrderUInt32 : LinearOrder UInt32 where
  le_refl := UInt32.le_refl
  le_trans _ _ _ := UInt32.le_trans
  le_antisymm _ _ := UInt32.le_antisymm
  le_total := UInt32.le_total
  lt_iff_le_not_ge a b := by
    rw [UInt32.lt_iff_toNat_lt, UInt32.le_iff_toNat_le, UInt32.le_iff_toNat_le]
    omega
  toDecidableLE := inferInstance
  toDecidableEq := inferInstance
  toDecidableLT := inferInstance

instance linearOrderUInt8 : LinearOrder UInt8 where
  le_refl := UInt8.le_refl
  le_trans _ _ _ := UInt8.le_trans
  le_antisymm _ _ := UInt8.le_antisymm
  le_total := UInt8.le_total
  lt_iff_le_not_ge a b := by
    rw [UInt8.lt_iff_toNat_lt, UInt8.le_iff_toNat_le, UInt8.le_iff_toNat_le]
    omega
  toDecidableLE := inferInstance
  toDecidableEq := inferInstance
  toDecidableLT := inferInstance

instance linearOrderUInt16 : LinearOrder UInt16 where
  le_refl := UInt16.le_refl
  le_trans _ _ _ := UInt16.le_trans
  le_antisymm _ _ := UInt16.le_antisymm
  le_total := UInt16.le_total
  lt_iff_le_not_ge a b := by
    rw [UInt16.lt_iff_toNat_lt, UInt16.le_iff_toNat_le, UInt16.le_iff_toNat_le]
    omega
  toDecidableLE := inferInstance
  toDecidableEq := inferInstance
  toDecidableLT := inferInstance

/-- The bytes of a string literal of the source, all of which are ASCII. -/
def bytes (s : String) : Bytes := s.toList.map (fun c => UInt8.ofNat c.toNat)

/-- The decimal digits an output stream prints for a count. -/
def decimal (n : ℕ) : Bytes := bytes n.repr

/-- The exception classes the modelled functions throw. -/
inductive ExceptionType
  | invalidArgument | runtimeError | logicError | badAlloc
  | noSuchObject | illegalState | methodExists | other
  deriving DecidableEq, Repr

/-- A thrown object derived from `std::exception`. -/
structure Exception where
  type : ExceptionType
  what : Bytes
  deriving DecidableEq, Repr

/-- Why a call did not return. -/
inductive Fault
  /-- An exception left the function. -/
  | thrown (e : Exception)
  /-- An `assert` failed. -/
  | assertion
  /-- Memory behind the end of a buffer was read. -/
  | readPastEnd
  /-- Memory behind the end of a buffer was written. -/
  | writePastEnd
  /-- A null pointer was dereferenced. -/
  | nullPointer
  deriving DecidableEq, Repr

/-- `throw std::invalid_argument(what)`. -/
def invalidArgument (what : Bytes) : Fault := .thrown ⟨.invalidArgument, what⟩

section

variable {ε α β : Type}

theorem bind_eq_ok_iff {x : Except ε α} {f : α → Except ε β} {b : β} :
    (x >>= f) = .ok b ↔ ∃ a, x = .ok a ∧ f a = .ok b := by
  cases x with
  | error e => simp [bind, Except.bind]
  | ok a => simp [bind, Except.bind]

theorem bind_eq_error_iff {x : Except ε α} {f : α → Except ε β} {e : ε} :
    (x >>= f) = .error e ↔ x = .error e ∨ ∃ a, x = .ok a ∧ f a = .error e := by
  cases x with
  | error e' => simp [bind, Except.bind]
  | ok a => simp [bind, Except.bind]

theorem exists_eq_error_iff {x : Except ε α} : (∃ e, x = .error e) ↔ ¬ ∃ a, x = .ok a := by
  cases x with
  | ok a => simp
  | error e => simp

/-- A loop that makes one value for each element, and stops where one is refused. -/
theorem mapM_eq_ite {f : α → Except ε β} {p : α → Prop} [DecidablePred p] {g : α → β} {e : ε}
    (hf : ∀ a, f a = if p a then .ok (g a) else .error e) (l : List α) :
    l.mapM f = if ∀ a ∈ l, p a then .ok (l.map g) else .error e := by
  induction l with
  | nil => rfl
  | cons a l ih =>
      rw [List.mapM_cons, ih, hf]
      simp only [List.forall_mem_cons]
      by_cases ha : p a
      · by_cases hl : ∀ b ∈ l, p b
        · rw [if_pos ha, if_pos hl, if_pos ⟨ha, hl⟩]
          rfl
        · have hnot : ¬ (p a ∧ ∀ b ∈ l, p b) := fun h => hl h.2
          rw [if_pos ha, if_neg hl, if_neg hnot]
          rfl
      · have hnot : ¬ (p a ∧ ∀ b ∈ l, p b) := fun h => ha h.1
        rw [if_neg ha, if_neg hnot]
        rfl

end

end Rsb
