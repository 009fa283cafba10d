import Rsb.Scope.StringCache

/-!
The two views of a scope.

Equality and the order of a map compare the strings of two scopes, the hierarchy
compares their components. `Nesting` is an expression built from the constructors,
`concat` and `superScopes`: as long as every string that has to be computed on the
way can be counted in 32 bits, the scope it comes to has the string of its
components, and the comparisons agree.
-/

namespace Rsb

/-- How a program comes by a scope. -/
inductive Nesting
  | default
  | string (s : Bytes)
  | concat (scope childScope : Nesting)
  /-- One element of the result of `superScopes`. -/
  | superScope (scope : Nesting) (includeSelf : Bool) (i : ℕ)

namespace Nesting

def eval : Nesting → Except Fault ScopeObject
  | default => .ok ScopeObject.default
  | string s => ScopeObject.ofString s
  | concat scope childScope => do
      let scope ← scope.eval
      let childScope ← childScope.eval
      scope.concat childScope
  | superScope scope includeSelf i => do
      let scope ← scope.eval
      let scopes ← scope.superScopes includeSelf
      match scopes[i]? with
      | some o => .ok o
      | none => .error .readPastEnd

/-- The scope that is meant; `none` if a string is not a scope or an index is too large. -/
def scope : Nesting → Option Scope
  | default => some Scope.root
  | string s => (Scope.parse s).toOption
  | concat scope childScope => do
      let scope ← scope.scope
      let childScope ← childScope.scope
      return scope.concat childScope
  | superScope scope includeSelf i => do
      let scope ← scope.scope
      (scope.superScopes includeSelf)[i]?

/-- Every string that `concat` and `superScopes` compute has fewer than `2 ^ 32` bytes. -/
def Fits : Nesting → Prop
  | default => True
  | string _ => True
  | concat scope childScope =>
      scope.Fits ∧ ∀ a, scope.scope = some a →
        childScope.Fits ∧ ∀ b, childScope.scope = some b →
          (a.concat b).toString.length < 2 ^ 32
  | superScope scope _ _ =>
      scope.Fits ∧ ∀ a, scope.scope = some a → a.parent.toString.length < 2 ^ 32

/-- The nesting can be evaluated, and if it comes to a scope, the string is the one
of the components. -/
def StringAgrees (e : Nesting) : Prop :=
  e.eval ≠ .error .writePastEnd ∧
    ∀ o, e.eval = .ok o → o.scopestring = bytes "/" ++ o.components.flatMap (fun c => c ++ bytes "/")

/-- What an evaluation comes to: the scope that is meant, some other fault, or an
overrun. -/
def Outcome (e : Nesting) : Prop :=
  (e.Fits ∧ ∃ s, e.scope = some s ∧ e.eval = .ok s.object) ∨
  (e.Fits ∧ e.scope = none ∧ ∃ f, f ≠ .writePastEnd ∧ e.eval = .error f) ∨
  (¬ e.Fits ∧ e.eval = .error .writePastEnd)

theorem outcome_string (s : Bytes) : (string s).Outcome := by
  cases hparse : Scope.parse s with
  | ok scope =>
      refine .inl ⟨trivial, scope, ?_, ?_⟩
      · rw [Nesting.scope, hparse]
        rfl
      · rw [eval, Scope.ofString_eq, hparse]
        rfl
  | error f =>
      obtain ⟨what, rfl⟩ := Scope.verifyAndSplit_error (Scope.parse_eq_error_iff.mp hparse)
      refine .inr (.inl ⟨trivial, ?_, invalidArgument what, by simp [invalidArgument], ?_⟩)
      · rw [Nesting.scope, hparse]
        rfl
      · rw [eval, Scope.ofString_eq, hparse]
        rfl

theorem outcome_concat {scope childScope : Nesting} (h : scope.Outcome)
    (hChild : childScope.Outcome) : (concat scope childScope).Outcome := by
  rcases h with ⟨hfits, a, ha, heval⟩ | ⟨hfits, hnone, f, hf, heval⟩ | ⟨hfits, heval⟩
  · rcases hChild with ⟨hfits', b, hb, heval'⟩ | ⟨hfits', hnone, f, hf, heval'⟩ |
      ⟨hfits', heval'⟩
    · have hconcat : (scope.concat childScope).eval = a.object.concat b.object := by
        rw [eval, heval, heval']
        rfl
      rw [Scope.concat_object] at hconcat
      by_cases hlength : (a.concat b).toString.length < 2 ^ 32
      · refine .inl ⟨⟨hfits, ?_⟩, a.concat b, ?_, hconcat.trans (if_pos hlength)⟩
        · intro x hx
          obtain rfl := Option.some.inj (ha.symm.trans hx)
          refine ⟨hfits', ?_⟩
          intro y hy
          obtain rfl := Option.some.inj (hb.symm.trans hy)
          exact hlength
        · rw [Nesting.scope, ha, hb]
          rfl
      · refine .inr (.inr ⟨?_, hconcat.trans (if_neg hlength)⟩)
        rintro ⟨-, hall⟩
        exact hlength ((hall a ha).2 b hb)
    · refine .inr (.inl ⟨⟨hfits, ?_⟩, ?_, f, hf, ?_⟩)
      · intro x _
        refine ⟨hfits', ?_⟩
        intro y hy
        rw [hnone] at hy
        cases hy
      · rw [Nesting.scope, ha, hnone]
        rfl
      · rw [eval, heval, heval']
        rfl
    · refine .inr (.inr ⟨?_, ?_⟩)
      · rintro ⟨-, hall⟩
        exact hfits' (hall a ha).1
      · rw [eval, heval, heval']
        rfl
  -- the child is not evaluated
  · refine .inr (.inl ⟨⟨hfits, ?_⟩, ?_, f, hf, ?_⟩)
    · intro x hx
      rw [hnone] at hx
      cases hx
    · rw [Nesting.scope, hnone]
      rfl
    · rw [eval, heval]
      rfl
  · refine .inr (.inr ⟨fun h => hfits h.1, ?_⟩)
    rw [eval, heval]
    rfl

theorem outcome_superScope {scope : Nesting} (h : scope.Outcome) (includeSelf : Bool) (i : ℕ) :
    (superScope scope includeSelf i).Outcome := by
  rcases h with ⟨hfits, a, ha, heval⟩ | ⟨hfits, hnone, f, hf, heval⟩ | ⟨hfits, heval⟩
  · have hscope : (superScope scope includeSelf i).scope = (a.superScopes includeSelf)[i]? := by
      rw [Nesting.scope, ha]
      rfl
    by_cases hlength : a.parent.toString.length < 2 ^ 32
    · have hfits' : (superScope scope includeSelf i).Fits := by
        refine ⟨hfits, ?_⟩
        intro x hx
        obtain rfl := Option.some.inj (ha.symm.trans hx)
        exact hlength
      have hpicked : (superScope scope includeSelf i).eval =
          match ((a.superScopes includeSelf).map Scope.object)[i]? with
          | some o => .ok o
          | none => .error .readPastEnd := by
        rw [eval, heval]
        show (a.object.superScopes includeSelf >>= _) = _
        rw [Scope.superScopes_object, if_pos hlength]
        rfl
      rw [List.getElem?_map] at hpicked
      cases hget : (a.superScopes includeSelf)[i]? with
      | some s =>
          rw [hget] at hpicked
          exact .inl ⟨hfits', s, hscope.trans hget, hpicked⟩
      | none =>
          rw [hget] at hpicked
          exact .inr (.inl ⟨hfits', hscope.trans hget, .readPastEnd, by simp, hpicked⟩)
    · refine .inr (.inr ⟨fun h => hlength (h.2 a ha), ?_⟩)
      rw [eval, heval]
      show (a.object.superScopes includeSelf >>= _) = _
      rw [Scope.superScopes_object, if_neg hlength]
      rfl
  · refine .inr (.inl ⟨⟨hfits, ?_⟩, ?_, f, hf, ?_⟩)
    · intro x hx
      rw [hnone] at hx
      cases hx
    · rw [Nesting.scope, hnone]
      rfl
    · rw [eval, heval]
      rfl
  · refine .inr (.inr ⟨fun h => hfits h.1, ?_⟩)
    rw [eval, heval]
    rfl

theorem outcome (e : Nesting) : e.Outcome := by
  induction e with
  | default => exact .inl ⟨trivial, Scope.root, rfl, congrArg _ Scope.object_default.symm⟩
  | string s => exact outcome_string s
  | concat scope childScope ih ihChild => exact outcome_concat ih ihChild
  | superScope scope includeSelf i ih => exact outcome_superScope ih includeSelf i

theorem eval_ne_writePastEnd_iff {e : Nesting} : e.eval ≠ .error .writePastEnd ↔ e.Fits := by
  rcases e.outcome with ⟨hfits, s, -, heval⟩ | ⟨hfits, -, f, hf, heval⟩ | ⟨hfits, heval⟩
  · simp [heval, hfits]
  · simp [heval, hfits, hf]
  · simp [heval, hfits]

/-- Whatever object an evaluation comes to represents the scope that is meant. -/
theorem exists_scope_of_eval {e : Nesting} {o : ScopeObject} (h : e.eval = .ok o) :
    ∃ s, e.scope = some s ∧ o = s.object := by
  rcases e.outcome with ⟨-, s, hs, heval⟩ | ⟨-, -, f, -, heval⟩ | ⟨-, heval⟩
  · exact ⟨s, hs, Except.ok.inj (h.symm.trans heval)⟩
  · rw [h] at heval
    cases heval
  · rw [h] at heval
    cases heval

theorem scopestring_object (s : Scope) :
    s.object.scopestring =
      bytes "/" ++ s.object.components.flatMap (fun c => c ++ bytes "/") := by
  rw [Scope.bytes_separator]
  exact s.cached

theorem stringAgrees_iff {e : Nesting} : e.StringAgrees ↔ e.Fits := by
  rw [StringAgrees, eval_ne_writePastEnd_iff, and_iff_left_iff_imp]
  intro _ o ho
  obtain ⟨s, -, rfl⟩ := exists_scope_of_eval ho
  exact scopestring_object s

end Nesting

namespace ScopeObject

/-- The comparisons of two objects by string and by components say the same. -/
structure ViewsAgree (a b : ScopeObject) : Prop where
  equal : a.eq b = true ↔ a.components = b.components
  sub : a.isSubScopeOf b = true ↔ b.scopestring <+: a.scopestring ∧ b.scopestring ≠ a.scopestring
  super : b.isSuperScopeOf a = true ↔
    b.scopestring <+: a.scopestring ∧ b.scopestring ≠ a.scopestring
  /-- One of less, equal and greater holds and the other two do not. -/
  trichotomy : (a.lt b = true ∧ a.eq b = false ∧ b.lt a = false) ∨
    (a.lt b = false ∧ a.eq b = true ∧ b.lt a = false) ∨
    (a.lt b = false ∧ a.eq b = false ∧ b.lt a = true)

theorem viewsAgree_object (a b : Scope) : ViewsAgree a.object b.object := by
  have hstring : a.object.scopestring = b.object.scopestring ↔ a = b :=
    ⟨fun h => Scope.toString_injective h, fun h => h ▸ rfl⟩
  have hsuper : b.isSuperScopeOf a = true ↔
      b.toString <+: a.toString ∧ b.toString ≠ a.toString := by
    rw [Scope.isSuperScopeOf_iff, Scope.toString_isPrefix_iff, Scope.toString_injective.ne_iff]
  refine ⟨?_, ?_, hsuper, ?_⟩
  · rw [eq, beq_iff_eq, hstring]
    exact ⟨fun h => h ▸ rfl, Scope.ext_components⟩
  · show a.isSubScopeOf b = true ↔ _
    rw [Scope.isSubScopeOf_eq]
    exact hsuper
  · simp only [lt, eq, decide_eq_true_eq, decide_eq_false_iff_not, beq_iff_eq, beq_eq_false_iff_ne]
    rcases lt_trichotomy a.object.scopestring b.object.scopestring with h | h | h
    · exact .inl ⟨h, h.ne, h.asymm⟩
    · exact .inr (.inl ⟨h.not_lt, h, h.not_gt⟩)
    · exact .inr (.inr ⟨h.asymm, h.ne', h⟩)

end ScopeObject

namespace Nesting

/-- Both views of two scopes that a program comes by agree, if and only if no string
on the way there has `2 ^ 32` bytes or more. -/
theorem views_agree_iff_fits (e₁ e₂ : Nesting) :
    (e₁.StringAgrees ∧ e₂.StringAgrees ∧
      ∀ a b, e₁.eval = .ok a → e₂.eval = .ok b → ScopeObject.ViewsAgree a b) ↔
      e₁.Fits ∧ e₂.Fits := by
  rw [stringAgrees_iff, stringAgrees_iff]
  constructor
  · rintro ⟨h₁, h₂, -⟩
    exact ⟨h₁, h₂⟩
  · rintro ⟨h₁, h₂⟩
    refine ⟨h₁, h₂, ?_⟩
    intro a b ha hb
    obtain ⟨x, -, rfl⟩ := exists_scope_of_eval ha
    obtain ⟨y, -, rfl⟩ := exists_scope_of_eval hb
    exact ScopeObject.viewsAgree_object x y

theorem not_fits_replicate {n : ℕ} (hn : 2 ^ 32 ≤ n) :
    ¬ (concat (string (bytes "/" ++ List.replicate n 97 ++ bytes "/b")) default).Fits := by
  obtain ⟨s, hparse, hlength⟩ := Scope.exists_parse_replicate (n := n) (by omega)
  rintro ⟨-, hfits⟩
  have hscope : (string (bytes "/" ++ List.replicate n 97 ++ bytes "/b")).scope = some s := by
    rw [Nesting.scope, hparse]
    rfl
  have hconcat : s.concat Scope.root = s := Scope.ext_components (List.append_nil _)
  have hshort := (hfits s hscope).2 Scope.root rfl
  have hparent := s.length_toString_parent_le
  rw [hconcat] at hshort
  omega

/-- A component of `2 ^ 32` letters, and joining with the root scope: the sum wraps
around and the copying runs over the end of the string. -/
theorem concat_long_component_overruns :
    ¬ (concat (string (bytes "/" ++ List.replicate (2 ^ 32) 97 ++ bytes "/b"))
      default).StringAgrees := by
  rw [stringAgrees_iff]
  exact not_fits_replicate le_rfl

end Nesting

end Rsb
