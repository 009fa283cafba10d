import Mathlib.Data.List.Basic
import Mathlib.Tactic.Common

/-!
Keyed settings that are applied one after the other.

`step` applies one setting to a state and may refuse it. What a state holds is
read piecewise, and for each piece there are three ways in which it can depend on
the settings: the last one of its keys decides (`Overwrites`), the first one of its
keys creates it (`Initializes`), or every setting may add to it (`Accumulates`).
Each comes with its rule for a whole sequence. Pieces that are overwritten under
one key only, or created, do not tell sequences apart that agree on the last value
of every key; pieces that are accumulated do.
-/

namespace Rsb.Library

variable {σ κ ν ε α : Type}

/-- Apply settings up to the first one that is refused. -/
def applySettings (step : σ → κ → ν → Except ε σ) : σ → List (κ × ν) → Except ε σ
  | s, [] => .ok s
  | s, (key, value) :: settings =>
      (step s key value).bind fun s' => applySettings step s' settings

/-- The value of the last setting whose key satisfies `p`. -/
def lastWhere (p : κ → Bool) : List (κ × ν) → Option ν
  | [] => none
  | (key, value) :: settings =>
      (lastWhere p settings).or (if p key then some value else none)

/-- The last value given for `key`; `none` if the key does not occur. -/
def lastValue [DecidableEq κ] (key : κ) (settings : List (κ × ν)) : Option ν :=
  lastWhere (fun key' => key' = key) settings

theorem applySettings_cons_eq_ok {step : σ → κ → ν → Except ε σ} {s s' : σ} {key : κ} {value : ν}
    {settings : List (κ × ν)} :
    applySettings step s ((key, value) :: settings) = .ok s' ↔
      ∃ t, step s key value = .ok t ∧ applySettings step t settings = .ok s' := by
  rw [applySettings]
  cases step s key value with
  | error e => simp [Except.bind]
  | ok t => simp [Except.bind]

/-! ### Last values -/

theorem isSome_lastWhere {p : κ → Bool} {settings : List (κ × ν)} :
    (lastWhere p settings).isSome = true ↔ ∃ e ∈ settings, p e.1 = true := by
  induction settings with
  | nil => simp [lastWhere]
  | cons e settings ih =>
      rw [lastWhere, Option.isSome_or, Bool.or_eq_true, ih, List.exists_mem_cons_iff, or_comm]
      by_cases hp : p e.1 = true
      · simp [hp]
      · simp [hp]

theorem isSome_lastValue [DecidableEq κ] {key : κ} {settings : List (κ × ν)} :
    (lastValue key settings).isSome = true ↔ ∃ e ∈ settings, e.1 = key := by
  rw [lastValue, isSome_lastWhere]
  simp only [decide_eq_true_eq]

theorem lastWhere_eq_none {p : κ → Bool} {settings : List (κ × ν)} (h : ∀ key, p key = false) :
    lastWhere p settings = none := by
  rw [← Option.isSome_eq_false_iff.trans Option.isNone_iff_eq_none, Bool.eq_false_iff, ne_eq,
    isSome_lastWhere]
  simp [h]

/-- Where `p` holds for one key at most, the last value of this key is enough. -/
theorem lastWhere_congr [DecidableEq κ] {p : κ → Bool} {key : κ}
    (hp : ∀ key', p key' = true → key' = key) {settings₁ settings₂ : List (κ × ν)}
    (h : lastValue key settings₁ = lastValue key settings₂) :
    lastWhere p settings₁ = lastWhere p settings₂ := by
  by_cases hkey : p key = true
  · have heq : p = fun key' => decide (key' = key) := by
      funext key'
      rw [Bool.eq_iff_iff, decide_eq_true_eq]
      exact ⟨hp key', fun hk => hk ▸ hkey⟩
    rw [heq]
    exact h
  · have hfalse : ∀ key', p key' = false := fun key' =>
      Bool.eq_false_iff.mpr fun hk => hkey (hp key' hk ▸ hk)
    rw [lastWhere_eq_none hfalse, lastWhere_eq_none hfalse]

/-- Sequences in which the same keys occur have the same kinds of keys. -/
theorem isSome_lastWhere_congr [DecidableEq κ] {settings₁ settings₂ : List (κ × ν)}
    (h : ∀ key, lastValue key settings₁ = lastValue key settings₂) (p : κ → Bool) :
    (lastWhere p settings₁).isSome = (lastWhere p settings₂).isSome := by
  have hsub : ∀ {l l' : List (κ × ν)}, (∀ key, lastValue key l = lastValue key l') →
      (lastWhere p l).isSome = true → (lastWhere p l').isSome = true := by
    intro l l' hl hsome
    obtain ⟨e, he, hp⟩ := isSome_lastWhere.mp hsome
    have hkey : (lastValue e.1 l).isSome = true := isSome_lastValue.mpr ⟨e, he, rfl⟩
    rw [hl] at hkey
    obtain ⟨e', he', heq⟩ := isSome_lastValue.mp hkey
    exact isSome_lastWhere.mpr ⟨e', he', heq ▸ hp⟩
  exact Bool.eq_iff_iff.mpr ⟨hsub h, hsub fun key => (h key).symm⟩

/-! ### Pieces of the state -/

section

variable {step : σ → κ → ν → Except ε σ} {p : κ → Bool}

/-- A setting whose key satisfies `p` sets `read` to what its value stands for;
the others leave it alone. -/
def Overwrites (step : σ → κ → ν → Except ε σ) (p : κ → Bool) (value : ν → Option α)
    (read : σ → α) : Prop :=
  ∀ s key v s', step s key v = .ok s' →
    if p key then value v = some (read s') else read s' = read s

/-- A setting whose key satisfies `p` sets `read` to `a` if there was nothing. -/
def Initializes (step : σ → κ → ν → Except ε σ) (p : κ → Bool) (a : α) (read : σ → Option α) :
    Prop :=
  ∀ s key v s', step s key v = .ok s' → read s' = (read s).or (if p key then some a else none)

/-- `has` becomes true by the settings that satisfy `adds`, and stays true. -/
def Accumulates (step : σ → κ → ν → Except ε σ) (adds : κ → ν → Prop) (has : σ → Prop) : Prop :=
  ∀ s key v s', step s key v = .ok s' → (has s' ↔ has s ∨ adds key v)

theorem Overwrites.run {value : ν → Option α} {read : σ → α} (h : Overwrites step p value read)
    {s s' : σ} {settings : List (κ × ν)} (hrun : applySettings step s settings = .ok s') :
    (lastWhere p settings).elim (some (read s)) value = some (read s') := by
  induction settings generalizing s with
  | nil =>
      obtain rfl : s = s' := Except.ok.inj hrun
      rfl
  | cons e settings ih =>
      obtain ⟨t, hstep, hrest⟩ := applySettings_cons_eq_ok.mp hrun
      have hlast := ih hrest
      have hfirst := h s e.1 e.2 t hstep
      rw [lastWhere]
      cases hw : lastWhere p settings with
      | some v => simpa [hw] using hlast
      | none =>
          have hread : read t = read s' := by simpa [hw] using hlast
          by_cases hp : p e.1 = true
          · rw [if_pos hp] at hfirst
            simp [hp, hfirst, hread]
          · rw [if_neg hp] at hfirst
            simp [hp, ← hfirst, hread]

theorem Initializes.run {a : α} {read : σ → Option α} (h : Initializes step p a read)
    {s s' : σ} {settings : List (κ × ν)} (hrun : applySettings step s settings = .ok s') :
    read s' = (read s).or (if (lastWhere p settings).isSome then some a else none) := by
  induction settings generalizing s with
  | nil =>
      obtain rfl : s = s' := Except.ok.inj hrun
      simp [lastWhere]
  | cons e settings ih =>
      obtain ⟨t, hstep, hrest⟩ := applySettings_cons_eq_ok.mp hrun
      rw [ih hrest, h s e.1 e.2 t hstep, lastWhere, Option.isSome_or]
      cases hread : read s with
      | some b => simp
      | none =>
          by_cases hp : p e.1 = true
          · simp [hp]
          · simp [hp]

theorem Accumulates.run {adds : κ → ν → Prop} {has : σ → Prop} (h : Accumulates step adds has)
    {s s' : σ} {settings : List (κ × ν)} (hrun : applySettings step s settings = .ok s') :
    has s' ↔ has s ∨ ∃ e ∈ settings, adds e.1 e.2 := by
  induction settings generalizing s with
  | nil =>
      obtain rfl : s = s' := Except.ok.inj hrun
      simp
  | cons e settings ih =>
      obtain ⟨t, hstep, hrest⟩ := applySettings_cons_eq_ok.mp hrun
      rw [ih hrest, h s e.1 e.2 t hstep, List.exists_mem_cons_iff, or_assoc]

end

/-! ### Two sequences -/

section

variable {step : σ → κ → ν → Except ε σ} {p : κ → Bool} {s s₁ s₂ : σ}
  {settings₁ settings₂ : List (κ × ν)}

theorem Overwrites.read_eq {value : ν → Option α} {read : σ → α}
    (h : Overwrites step p value read) (h₁ : applySettings step s settings₁ = .ok s₁)
    (h₂ : applySettings step s settings₂ = .ok s₂)
    (hlast : lastWhere p settings₁ = lastWhere p settings₂) : read s₁ = read s₂ := by
  have hrun₁ := h.run h₁
  rw [hlast, h.run h₂] at hrun₁
  exact (Option.some.inj hrun₁).symm

/-- Where different values stand for different things, the last value can be told
from what is read. -/
theorem Overwrites.read_eq_iff {value : ν → Option α} {read : σ → α}
    (h : Overwrites step p value read) (h₁ : applySettings step s settings₁ = .ok s₁)
    (h₂ : applySettings step s settings₂ = .ok s₂)
    (hinj : ∀ v v' a, value v = some a → value v' = some a → v = v')
    (hsome : (lastWhere p settings₁).isSome = (lastWhere p settings₂).isSome) :
    read s₁ = read s₂ ↔ lastWhere p settings₁ = lastWhere p settings₂ := by
  refine ⟨fun hread => ?_, h.read_eq h₁ h₂⟩
  have hrun₁ := h.run h₁
  have hrun₂ := h.run h₂
  cases hl₁ : lastWhere p settings₁ with
  | none =>
      rw [hl₁] at hsome
      exact (Option.isSome_eq_false_iff.mp hsome.symm |> Option.isNone_iff_eq_none.mp).symm
  | some v =>
      rw [hl₁] at hsome hrun₁
      obtain ⟨v', hv'⟩ := Option.isSome_iff_exists.mp hsome.symm
      rw [hv'] at hrun₂ ⊢
      exact congrArg some (hinj v v' (read s₂) (hread ▸ hrun₁) hrun₂)

theorem Initializes.read_eq {a : α} {read : σ → Option α} (h : Initializes step p a read)
    (h₁ : applySettings step s settings₁ = .ok s₁) (h₂ : applySettings step s settings₂ = .ok s₂)
    (hsome : (lastWhere p settings₁).isSome = (lastWhere p settings₂).isSome) :
    read s₁ = read s₂ := by
  rw [h.run h₁, h.run h₂, hsome]

end

end Rsb.Library
