import Rsb.Scope.StringCache
import Mathlib.Data.List.Count

/-!
The laws of the scope hierarchy.

The scopes above a scope are enumerated by `superScopes` and recognized by the
comparisons, `concat` goes down the hierarchy. Each law is stated about the objects the
program handles; each holds as long as the strings that `updateStringCache` has to
build for it have fewer than `2 ^ 32` bytes.
-/

namespace Rsb.Scope

theorem eq_object (a b : Scope) : a.object.eq b.object = (a == b) := by
  rw [Bool.eq_iff_iff, ScopeObject.eq, beq_iff_eq, beq_iff_eq]
  exact toString_injective.eq_iff

/-! ### Enumeration -/

/-- `superScopes(true)` has every scope that is equal to `a` or above it, once, and ends
in `a`; it starts at the root scope and goes down strictly. -/
def SuperScopesLaw (a : Scope) : Prop :=
  ∃ supers strict, a.object.superScopes true = .ok supers ∧
    a.object.superScopes false = .ok strict ∧ supers = strict ++ [a.object] ∧
    (∀ b : Scope, supers.countP (fun o => o.eq b.object) =
      if b.object.eq a.object || b.object.isSuperScopeOf a.object then 1 else 0) ∧
    supers.Pairwise (fun x y => x.isSuperScopeOf y = true) ∧
    supers.head? = some ScopeObject.default

theorem countP_superScopes (a b : Scope) :
    ((a.superScopes true).map object).countP (fun o => o.eq b.object) =
      if b.object.eq a.object || b.object.isSuperScopeOf a.object then 1 else 0 := by
  have hcount : ((a.superScopes true).map object).countP (fun o => o.eq b.object) =
      (a.superScopes true).count b := by
    rw [List.countP_map, List.count]
    congr 1
    funext s
    exact eq_object s b
  have hcovers : (b.object.eq a.object || b.object.isSuperScopeOf a.object) = b.covers a := by
    rw [eq_object]
    rfl
  rw [hcount, hcovers]
  split
  · next h => exact List.count_eq_one_of_mem (nodup_superScopes a) (mem_superScopes.mpr h)
  · next h => exact List.count_eq_zero_of_not_mem (mt mem_superScopes.mp h)

theorem pairwise_superScopes (a : Scope) :
    (a.superScopes true).Pairwise (fun x y => x.isSuperScopeOf y = true) := by
  rw [superScopes_true, List.pairwise_map]
  apply List.pairwise_lt_range.imp_of_mem
  intro m n _ hn hlt
  rw [isSuperScopeOf_iff]
  refine ⟨List.take_prefix_take_left hlt.le, ?_⟩
  intro heq
  have hlength := congrArg (fun s : Scope => s.components.length) heq
  simp only [components_take, List.length_take, List.mem_range] at hlength hn
  omega

theorem head?_superScopes (a : Scope) : (a.superScopes true).head? = some root := by
  have hroot : a.take 0 = root := ext_components rfl
  rw [superScopes_true, List.range_succ_eq_map, List.map_cons, List.head?_cons, hroot]

theorem superScopesLaw_iff (a : Scope) :
    a.SuperScopesLaw ↔ a.parent.toString.length < 2 ^ 32 := by
  constructor
  · rintro ⟨supers, strict, hsupers, -⟩
    by_contra hlong
    rw [superScopes_object, if_neg hlong] at hsupers
    cases hsupers
  · intro hshort
    refine ⟨(a.superScopes true).map object, (a.superScopes false).map object, ?_, ?_, ?_,
      countP_superScopes a, ?_, ?_⟩
    · rw [superScopes_object, if_pos hshort]
    · rw [superScopes_object, if_pos hshort]
    · simp [superScopes]
    · exact (pairwise_superScopes a).map _ fun _ _ h => h
    · rw [List.head?_map, head?_superScopes, Option.map_some, object_default]

/-! ### Concatenation -/

/-- `a` is a sub-scope of just the scopes that it can be reached from by joining a scope
other than the root scope. -/
def SubScopeLaw (a : Scope) : Prop :=
  ∀ b : Scope, a.object.isSubScopeOf b.object = true ↔
    ∃ c, c ≠ root ∧ ∃ r, b.object.concat c.object = .ok r ∧ a.object.eq r = true

/-- The root scope on either side of `a` does not change it. -/
def IdentityLaw (a : Scope) : Prop :=
  ScopeObject.default.concat a.object = .ok a.object ∧
    a.object.concat ScopeObject.default = .ok a.object

def AssociativeLaw (a b c : Scope) : Prop :=
  ∃ r, (do (← a.object.concat b.object).concat c.object) = .ok r ∧
    (do a.object.concat (← b.object.concat c.object)) = .ok r

theorem concat_root (a : Scope) : a.concat root = a := ext_components (List.append_nil _)

theorem root_concat (a : Scope) : root.concat a = a := ext_components rfl

theorem concat_assoc (a b c : Scope) : (a.concat b).concat c = a.concat (b.concat c) :=
  ext_components (List.append_assoc _ _ _)

theorem isSubScopeOf_iff_exists_concat {a b : Scope} :
    a.isSubScopeOf b = true ↔ ∃ c, c ≠ root ∧ b.concat c = a := by
  rw [isSubScopeOf_eq, isSuperScopeOf_iff]
  constructor
  · rintro ⟨⟨rest, hrest⟩, hne⟩
    have hlegal : ∀ c ∈ rest, LegalComponent c := fun c hc =>
      a.legal c (hrest ▸ List.mem_append_right _ hc)
    have heq : b.concat (ofComponents rest hlegal) = a := ext_components hrest
    refine ⟨ofComponents rest hlegal, ?_, heq⟩
    intro hroot
    rw [hroot, concat_root] at heq
    exact hne heq
  · rintro ⟨c, hc, rfl⟩
    refine ⟨List.prefix_append _ _, ?_⟩
    intro heq
    have hnil : b.components = b.components ++ c.components := congrArg components heq
    exact hc (ext_components (List.self_eq_append_right.mp hnil))

theorem length_toString_concat (a b : Scope) :
    (a.concat b).toString.length + 1 = a.toString.length + b.toString.length := by
  simp only [toString, cached, concat, ofComponents, joinComponents, List.flatMap_append,
    List.length_cons, List.length_append]
  omega

theorem one_le_length_toString (a : Scope) : 1 ≤ a.toString.length := by
  rw [toString, a.cached, joinComponents, List.length_cons]
  omega

theorem eq_concat_iff {a b c : Scope} :
    (∃ r, b.object.concat c.object = .ok r ∧ a.object.eq r = true) ↔
      b.concat c = a ∧ a.toString.length < 2 ^ 32 := by
  rw [concat_object]
  constructor
  · rintro ⟨r, hr, heq⟩
    split at hr
    · next hshort =>
        obtain rfl := Except.ok.inj hr
        rw [eq_object, beq_iff_eq] at heq
        subst heq
        exact ⟨rfl, hshort⟩
    · cases hr
  · rintro ⟨rfl, hshort⟩
    exact ⟨_, if_pos hshort, by rw [eq_object, beq_self_eq_true]⟩

/-- For a scope that is too long the law fails below the root scope. -/
theorem subScopeLaw_iff (a : Scope) : a.SubScopeLaw ↔ a.toString.length < 2 ^ 32 := by
  have hlaw : ∀ b : Scope, (∃ c, c ≠ root ∧ ∃ r, b.object.concat c.object = .ok r ∧
      a.object.eq r = true) ↔ a.isSubScopeOf b = true ∧ a.toString.length < 2 ^ 32 := by
    intro b
    simp only [eq_concat_iff, ← and_assoc, exists_and_right, isSubScopeOf_iff_exists_concat]
  constructor
  · intro h
    by_contra hlong
    have hroot : a ≠ root := by
      rintro rfl
      exact hlong (by decide)
    have hsub : a.isSubScopeOf root = true :=
      isSubScopeOf_iff_exists_concat.mpr ⟨a, hroot, root_concat a⟩
    exact hlong ((hlaw root).mp ((h root).mp hsub)).2
  · intro hshort b
    rw [hlaw]
    exact (and_iff_left hshort).symm

theorem identityLaw_iff (a : Scope) : a.IdentityLaw ↔ a.toString.length < 2 ^ 32 := by
  rw [IdentityLaw, ← object_default, concat_object, concat_object, concat_root, root_concat,
    and_self]
  split
  · next hshort => exact iff_of_true rfl hshort
  · next hlong => exact iff_of_false (fun h => by cases h) hlong

theorem associativeLaw_iff (a b c : Scope) :
    AssociativeLaw a b c ↔ ((a.concat b).concat c).toString.length < 2 ^ 32 := by
  have hab := length_toString_concat a b
  have habc := length_toString_concat (a.concat b) c
  have hbc := length_toString_concat b c
  have ha := one_le_length_toString a
  have hc := one_le_length_toString c
  constructor
  · rintro ⟨r, hr, -⟩
    obtain ⟨ab, hab', habc'⟩ := bind_eq_ok_iff.mp hr
    rw [concat_object] at hab'
    split at hab'
    · obtain rfl := Except.ok.inj hab'
      rw [concat_object] at habc'
      split at habc'
      · assumption
      · cases habc'
    · cases hab'
  · intro hshort
    refine ⟨((a.concat b).concat c).object, bind_eq_ok_iff.mpr ⟨(a.concat b).object, ?_, ?_⟩,
      bind_eq_ok_iff.mpr ⟨(b.concat c).object, ?_, ?_⟩⟩
    · rw [concat_object, if_pos (by omega)]
    · rw [concat_object, if_pos hshort]
    · rw [concat_object, if_pos (by omega)]
    · rw [concat_object, ← concat_assoc, if_pos hshort]

end Rsb.Scope
