import Rsb.Scope.Grammar
import Mathlib.Algebra.Group.Nat.Defs

/-!
The string cache of a scope (`Scope::updateStringCache`).

A `ScopeObject` is the object as the class lays it out: a list of components and a
string that need not belong together. The parser fills both, `concat` and
`superScopes` set the components and let `updateStringCache` compute the string. It
adds the lengths up in an `unsigned int`, makes room for so many bytes and copies the
components behind each other. From `2 ^ 32` bytes on the sum wraps around and the
copying runs over the end of the string; below, object and `Scope` are the same thing.
-/

namespace Rsb

open Scope (COMPONENT_SEPARATOR LegalComponent joinComponents verifyAndSplit)

/-- The two members of a scope. -/
structure ScopeObject where
  components : List Bytes
  scopestring : Bytes

namespace ScopeObject

/-- `scopestring.resize(n)`. -/
def resize (scopestring : Bytes) (n : ℕ) : Bytes :=
  scopestring.take n ++ List.replicate (n - scopestring.length) 0

/-- `std::copy` of `data` to the position `cursor`. -/
def write (scopestring : Bytes) (cursor : ℕ) (data : Bytes) : Except Fault Bytes :=
  if cursor + data.length ≤ scopestring.length then
    .ok (scopestring.take cursor ++ data ++ scopestring.drop (cursor + data.length))
  else .error .writePastEnd

/-- The sum of the lengths, in 32 bits. -/
def scopesize (components : List Bytes) : ℕ :=
  components.foldl (fun scopesize it => (scopesize + (it.length + 1)) % 2 ^ 32) 1

/-- One round of the copying loop on the string and the cursor. -/
def copyComponent (state : Bytes × ℕ) (it : Bytes) : Except Fault (Bytes × ℕ) := do
  let scopestring ← write state.1 state.2 it
  let cursor := state.2 + it.length
  let scopestring ← write scopestring cursor [COMPONENT_SEPARATOR]
  return (scopestring, cursor + 1)

def updateStringCache (o : ScopeObject) : Except Fault ScopeObject := do
  let scopestring := resize o.scopestring (scopesize o.components)
  let scopestring ← write scopestring 0 [COMPONENT_SEPARATOR]
  let copied ← o.components.foldlM copyComponent (scopestring, 1)
  return { o with scopestring := copied.1 }

/-- `Scope::Scope()`. -/
def default : ScopeObject := ⟨[], bytes "/"⟩

/-- `Scope::Scope(const string& s)`. -/
def ofString (s : Bytes) : Except Fault ScopeObject := do
  let (components, scopestring) ← verifyAndSplit s
  return ⟨components, scopestring⟩

def concat (o childScope : ScopeObject) : Except Fault ScopeObject :=
  updateStringCache { default with components := o.components ++ childScope.components }

/-- The scope of the first `requiredComponents` components. -/
def super (o : ScopeObject) (requiredComponents : ℕ) : Except Fault ScopeObject :=
  updateStringCache { default with components := o.components.take requiredComponents }

def superScopes (o : ScopeObject) (includeSelf : Bool) : Except Fault (List ScopeObject) := do
  let result ←
    if o.components = [] then pure []
    else (List.range o.components.length).mapM o.super
  return result ++ (if includeSelf then [o] else [])

def isSubScopeOf (o other : ScopeObject) : Bool :=
  if o.components.length ≤ other.components.length then false
  else (List.range other.components.length).all fun i => o.components[i]? == other.components[i]?

def isSuperScopeOf (o other : ScopeObject) : Bool :=
  if o.components.length ≥ other.components.length then false
  else (List.range o.components.length).all fun i => o.components[i]? == other.components[i]?

/-- `operator==`. -/
def eq (o other : ScopeObject) : Bool := o.scopestring == other.scopestring

/-- `operator<`. -/
def lt (o other : ScopeObject) : Bool := decide (o.scopestring < other.scopestring)

/-! ### The copying loop -/

theorem write_append {written rest data : Bytes} :
    write (written ++ rest) written.length data =
      if data.length ≤ rest.length then .ok (written ++ data ++ rest.drop data.length)
      else .error .writePastEnd := by
  have hfits : written.length + data.length ≤ (written ++ rest).length ↔
      data.length ≤ rest.length := by
    rw [List.length_append]
    omega
  rw [write]
  by_cases h : data.length ≤ rest.length
  · rw [if_pos (hfits.mpr h), if_pos h, List.take_left, List.drop_length_add_append]
  · rw [if_neg (mt hfits.mp h), if_neg h]

/-- What one round writes behind the bytes that are there already. -/
theorem copyComponent_append {written rest it : Bytes} :
    copyComponent (written ++ rest, written.length) it =
      if it.length < rest.length then
        .ok (written ++ (it ++ [COMPONENT_SEPARATOR]) ++ rest.drop (it.length + 1),
          (written ++ (it ++ [COMPONENT_SEPARATOR])).length)
      else .error .writePastEnd := by
  simp only [copyComponent, write_append]
  by_cases hit : it.length ≤ rest.length
  · have hcursor : written.length + it.length = (written ++ it).length :=
      List.length_append.symm
    simp only [if_pos hit, bind, Except.bind, hcursor, write_append, List.length_drop,
      List.length_singleton, List.drop_drop]
    by_cases hsep : it.length < rest.length
    · have hroom : 1 ≤ rest.length - it.length := by omega
      simp [hsep, hroom, pure, Except.pure, Nat.add_assoc]
    · have hroom : ¬ 1 ≤ rest.length - it.length := by omega
      simp [hsep, hroom]
  · have hsep : ¬ it.length < rest.length := by omega
    simp [hit, hsep, bind, Except.bind]

/-- The loop writes all the components if there is room for all of them. -/
theorem foldlM_copyComponent {written rest : Bytes} {components : List Bytes} :
    components.foldlM copyComponent (written ++ rest, written.length) =
      let copied := components.flatMap (fun c => c ++ [COMPONENT_SEPARATOR])
      if copied.length ≤ rest.length then
        .ok (written ++ copied ++ rest.drop copied.length, (written ++ copied).length)
      else .error .writePastEnd := by
  induction components generalizing written rest with
  | nil => simp [pure, Except.pure]
  | cons it components ih =>
      rw [List.foldlM_cons, copyComponent_append]
      by_cases hit : it.length < rest.length
      · have hroom : (components.flatMap (fun c => c ++ [COMPONENT_SEPARATOR])).length ≤
            (rest.drop (it.length + 1)).length ↔
            ((it :: components).flatMap (fun c => c ++ [COMPONENT_SEPARATOR])).length ≤
              rest.length := by
          simp only [List.flatMap_cons, List.length_append, List.length_drop,
            List.length_singleton]
          omega
        rw [if_pos hit]
        refine Eq.trans ih ?_
        simp only [hroom, List.flatMap_cons, List.append_assoc, List.drop_drop,
          List.length_append, List.length_singleton, Nat.add_assoc]
      · have hroom : ¬ ((it :: components).flatMap (fun c => c ++ [COMPONENT_SEPARATOR])).length ≤
            rest.length := by
          simp only [List.flatMap_cons, List.length_append, List.length_singleton]
          omega
        rw [if_neg hit, if_neg hroom]
        rfl

theorem scopesize_eq (components : List Bytes) :
    scopesize components = (joinComponents components).length % 2 ^ 32 := by
  have hfold : ∀ (l : List Bytes) (n : ℕ), n < 2 ^ 32 →
      l.foldl (fun scopesize it => (scopesize + (it.length + 1)) % 2 ^ 32) n =
        (n + (l.flatMap (fun c => c ++ [COMPONENT_SEPARATOR])).length) % 2 ^ 32 := by
    intro l
    induction l with
    | nil =>
        intro n hn
        exact (Nat.mod_eq_of_lt hn).symm
    | cons it l ih =>
        intro n _
        rw [List.foldl_cons, ih _ (Nat.mod_lt _ (by decide)), Nat.mod_add_mod, List.flatMap_cons,
          List.length_append, List.length_append, List.length_singleton, Nat.add_assoc]
  rw [scopesize, hfold _ _ (by decide), joinComponents, List.length_cons, Nat.add_comm]

theorem length_resize (scopestring : Bytes) (n : ℕ) : (resize scopestring n).length = n := by
  rw [resize, List.length_append, List.length_take, List.length_replicate]
  omega

/-- The string is rebuilt from the components if its length can be counted in 32
bits; otherwise the copying leaves the string. -/
theorem updateStringCache_eq (o : ScopeObject) :
    o.updateStringCache =
      if (joinComponents o.components).length < 2 ^ 32 then
        .ok ⟨o.components, joinComponents o.components⟩
      else .error .writePastEnd := by
  have hjoined : (joinComponents o.components).length =
      (o.components.flatMap (fun c => c ++ [COMPONENT_SEPARATOR])).length + 1 := by
    rw [joinComponents, List.length_cons]
  cases hresized : resize o.scopestring (scopesize o.components) with
  | nil =>
      -- the sum is a multiple of `2 ^ 32`, so there is no room for the first separator
      have hzero : (joinComponents o.components).length % 2 ^ 32 = 0 := by
        rw [← scopesize_eq, ← length_resize o.scopestring (scopesize o.components), hresized,
          List.length_nil]
      have hlarge : ¬ (joinComponents o.components).length < 2 ^ 32 := by omega
      rw [if_neg hlarge, updateStringCache, hresized]
      rfl
  | cons c rest =>
      have hlength : rest.length + 1 = (joinComponents o.components).length % 2 ^ 32 := by
        rw [← scopesize_eq, ← length_resize o.scopestring (scopesize o.components), hresized,
          List.length_cons]
      have hfirst : write (c :: rest) 0 [COMPONENT_SEPARATOR] =
          .ok ([COMPONENT_SEPARATOR] ++ rest) := by
        simp [write]
      have hloop : o.components.foldlM copyComponent ([COMPONENT_SEPARATOR] ++ rest, 1) = _ :=
        @foldlM_copyComponent [COMPONENT_SEPARATOR] rest o.components
      simp only [updateStringCache, hresized, hfirst, bind, Except.bind] at hloop ⊢
      rw [hloop]
      by_cases hsmall : (joinComponents o.components).length < 2 ^ 32
      · have hroom : (o.components.flatMap (fun c => c ++ [COMPONENT_SEPARATOR])).length =
            rest.length := by
          rw [Nat.mod_eq_of_lt hsmall] at hlength
          omega
        rw [if_pos hroom.le, if_pos hsmall, hroom, List.drop_length, List.append_nil]
        rfl
      · have hroom : ¬ (o.components.flatMap (fun c => c ++ [COMPONENT_SEPARATOR])).length ≤
            rest.length := by
          have := Nat.mod_lt (joinComponents o.components).length (show 0 < 2 ^ 32 by decide)
          omega
        rw [if_neg hroom, if_neg hsmall]

end ScopeObject

namespace Scope

/-- The object that represents the scope. -/
def object (s : Scope) : ScopeObject := ⟨s.components, s.scopestring⟩

/-- The scope without its last component; the root scope is its own parent. -/
def parent (s : Scope) : Scope := s.take (s.components.length - 1)

/-- The strings of the scopes above `s` can be counted in 32 bits. -/
def SuperScopesFit (s : Scope) : Prop := s.parent.toString.length < 2 ^ 32

instance (s : Scope) : Decidable s.SuperScopesFit := inferInstanceAs (Decidable (_ < _))

theorem object_default : root.object = ScopeObject.default := by
  simp only [object, root, ofComponents, ScopeObject.default, joinComponents, bytes_separator]
  rfl

theorem ofString_eq (s : Bytes) : ScopeObject.ofString s = (parse s).map object := by
  rw [ScopeObject.ofString]
  cases hparse : parse s with
  | error f =>
      rw [parse_eq_error_iff.mp hparse]
      rfl
  | ok scope =>
      rw [parse_eq_ok_iff.mp hparse]
      rfl

theorem updateStringCache_object {s : Scope} {o : ScopeObject} (h : o.components = s.components) :
    o.updateStringCache =
      if s.toString.length < 2 ^ 32 then .ok s.object else .error .writePastEnd := by
  rw [ScopeObject.updateStringCache_eq, h, ← s.cached]
  rfl

theorem concat_object (a b : Scope) :
    a.object.concat b.object =
      if (a.concat b).toString.length < 2 ^ 32 then .ok (a.concat b).object
      else .error .writePastEnd :=
  updateStringCache_object rfl

/-- `concat`, unless writing the string of the result fails. -/
def concatObject (a b : Scope) : Except Fault Scope := do
  let _ ← a.object.concat b.object
  return a.concat b

theorem concatObject_eq (a b : Scope) :
    a.concatObject b =
      if (a.concat b).toString.length < 2 ^ 32 then .ok (a.concat b)
      else .error .writePastEnd := by
  rw [concatObject, concat_object]
  split <;> rfl

theorem super_object (s : Scope) (n : ℕ) :
    s.object.super n =
      if (s.take n).toString.length < 2 ^ 32 then .ok (s.take n).object
      else .error .writePastEnd :=
  updateStringCache_object rfl

/-- A shorter list of components has the shorter string. -/
theorem length_toString_take_mono (s : Scope) {m n : ℕ} (h : m ≤ n) :
    (s.take m).toString.length ≤ (s.take n).toString.length := by
  have hprefix : s.components.take m <+: s.components.take n :=
    List.take_prefix_take_left h
  obtain ⟨rest, hrest⟩ := hprefix
  rw [toString, toString, (s.take m).cached, (s.take n).cached, components_take, components_take,
    ← hrest]
  simp [joinComponents]

/-- Every scope above `s` is rebuilt from its components, the parent as the longest. -/
theorem superScopes_object (s : Scope) (includeSelf : Bool) :
    s.object.superScopes includeSelf =
      if s.parent.toString.length < 2 ^ 32 then .ok ((s.superScopes includeSelf).map object)
      else .error .writePastEnd := by
  have hself : (if includeSelf then [s.object] else []) =
      (if includeSelf then [s] else []).map object := by
    cases includeSelf <;> rfl
  by_cases hroot : s.components = []
  · have hparent : s.parent.toString.length < 2 ^ 32 := by
      rw [toString, s.parent.cached, parent, components_take, hroot]
      decide
    rw [if_pos hparent, superScopes, if_pos hroot, List.nil_append, ← hself]
    simp [ScopeObject.superScopes, object, hroot, pure, Except.pure, bind, Except.bind]
  · have hpos : 0 < s.components.length := List.length_pos_iff.mpr hroot
    have hfits : (∀ n ∈ List.range s.components.length, (s.take n).toString.length < 2 ^ 32) ↔
        s.parent.toString.length < 2 ^ 32 := by
      constructor
      · intro h
        apply h
        rw [List.mem_range]
        omega
      · intro h n hn
        apply lt_of_le_of_lt (length_toString_take_mono s _) h
        rw [List.mem_range] at hn
        omega
    have hloop := mapM_eq_ite (super_object s) (List.range s.components.length)
    rw [superScopes, if_neg hroot, List.map_append, ← hself, ScopeObject.superScopes,
      if_neg (show s.object.components ≠ [] from hroot)]
    rw [show s.object.components.length = s.components.length from rfl, hloop]
    simp only [hfits]
    split
    · rw [List.map_map]
      rfl
    · rfl

theorem superScopes_object_eq (s : Scope) (includeSelf : Bool) :
    s.object.superScopes includeSelf =
      if s.SuperScopesFit then .ok ((s.superScopes includeSelf).map object)
      else .error .writePastEnd :=
  superScopes_object s includeSelf

theorem length_toString_parent_le (s : Scope) : s.parent.toString.length ≤ s.toString.length := by
  have hself : s.take s.components.length = s :=
    ext_components (by rw [components_take, List.take_length])
  have hmono := length_toString_take_mono s (m := s.components.length - 1) (Nat.sub_le _ 1)
  rwa [hself] at hmono

/-- Strings of this form are scopes whose parents have strings of any length. -/
theorem exists_parse_replicate {n : ℕ} (hn : n ≠ 0) :
    ∃ s, parse (bytes "/" ++ List.replicate n 97 ++ bytes "/b") = .ok s ∧
      n ≤ s.parent.toString.length := by
  have hdenotes := @Denotes.components [List.replicate n 97, bytes "b"] false
    (by simp) (by simpa [bytes] using hn) (by
      intro c hc x hx
      rcases List.mem_cons.mp hc with rfl | hc
      · obtain rfl := List.eq_of_mem_replicate hx
        decide
      · obtain rfl := List.mem_singleton.mp hc
        obtain rfl : x = 98 := by simpa [bytes] using hx
        decide)
  obtain ⟨s, hparse, hcomponents⟩ := parse_eq_ok_of_denotes hdenotes
  refine ⟨s, ?_, ?_⟩
  · rw [← hparse]
    congr 1
    simp [bytes]
  · have hparent : s.parent.components = [List.replicate n 97] := by
      rw [parent, components_take, show s.components = _ from hcomponents]
      rfl
    rw [toString, s.parent.cached, hparent]
    simp only [joinComponents, List.flatMap_cons, List.flatMap_nil, List.append_nil,
      List.length_cons, List.length_append, List.length_replicate]
    omega

theorem exists_not_superScopesFit : ∃ s : Scope, ¬s.SuperScopesFit := by
  have hpos : 2 ^ 32 ≠ 0 := by decide
  obtain ⟨s, -, hlength⟩ := exists_parse_replicate hpos
  exact ⟨s, not_lt.mpr hlength⟩

/-! ### Comparison of strings and of components -/

/-- Up to the first separator two strings agree, and then after it. -/
theorem append_separator_isPrefix_iff {c d x y : Bytes}
    (hc : ∀ a ∈ c, isComponentChar a = true) (hd : ∀ a ∈ d, isComponentChar a = true) :
    c ++ COMPONENT_SEPARATOR :: x <+: d ++ COMPONENT_SEPARATOR :: y ↔ c = d ∧ x <+: y := by
  induction c generalizing d with
  | nil =>
      cases d with
      | nil => simp
      | cons b d =>
          have hne : COMPONENT_SEPARATOR ≠ b := (ne_separator (hd b List.mem_cons_self)).symm
          simp [List.cons_prefix_cons, hne]
  | cons a c ih =>
      cases d with
      | nil =>
          have hne : a ≠ COMPONENT_SEPARATOR := ne_separator (hc a List.mem_cons_self)
          simp [List.cons_prefix_cons, hne]
      | cons b d =>
          rw [List.cons_append, List.cons_append, List.cons_prefix_cons,
            ih (fun e he => hc e (List.mem_cons_of_mem a he))
              (fun e he => hd e (List.mem_cons_of_mem b he)), List.cons.injEq, and_assoc]

theorem joinComponents_cons (c : Bytes) (components : List Bytes) :
    joinComponents (c :: components) = COMPONENT_SEPARATOR :: (c ++ joinComponents components) := by
  simp [joinComponents]

/-- One list of components begins with the other if its string does. -/
theorem joinComponents_isPrefix_iff {a b : List Bytes} (ha : ∀ c ∈ a, LegalComponent c)
    (hb : ∀ c ∈ b, LegalComponent c) : joinComponents a <+: joinComponents b ↔ a <+: b := by
  induction a generalizing b with
  | nil => simp [joinComponents]
  | cons c a ih =>
      obtain ⟨hc, hac⟩ := List.forall_mem_cons.mp ha
      cases b with
      | nil => simp [joinComponents]
      | cons d b =>
          obtain ⟨hd, hbd⟩ := List.forall_mem_cons.mp hb
          have htail : joinComponents a <+: joinComponents b ↔
              a.flatMap (fun c => c ++ [COMPONENT_SEPARATOR]) <+:
                b.flatMap (fun c => c ++ [COMPONENT_SEPARATOR]) := by
            rw [joinComponents, joinComponents, List.cons_prefix_cons, and_iff_right rfl]
          rw [joinComponents_cons, joinComponents_cons, List.cons_prefix_cons, joinComponents,
            joinComponents, append_separator_isPrefix_iff hc.2 hd.2, ← htail, ih hac hbd,
            List.cons_prefix_cons]
          simp

theorem toString_isPrefix_iff {a b : Scope} :
    a.toString <+: b.toString ↔ a.components <+: b.components := by
  rw [toString, toString, a.cached, b.cached, joinComponents_isPrefix_iff a.legal b.legal]

end Scope

end Rsb
