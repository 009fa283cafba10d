import Rsb.Prelude
import Mathlib.Data.List.Infix
import Mathlib.Data.List.Nodup
import Mathlib.Data.List.Range

/-!
Scopes (`Scope.h`, `Scope.cpp`).

A scope object holds its components and a cached string. Both invariants of the
class are fields of `Scope`: the components are legal, and the cache is what
`updateStringCache` computes from them. The string constructor therefore has to
show that what `verifyAndSplit` returns fits together, which is the content of
`verifyAndSplit_spec`. For which scopes `updateStringCache` really computes this string
is the subject of `Rsb.Scope.StringCache`.
-/

namespace Rsb

namespace Scope

def COMPONENT_SEPARATOR : UInt8 := 47

/-- The characters `verifyAndSplit` accepts inside a component. -/
def isComponentChar (c : UInt8) : Bool :=
  (97 ≤ c && c ≤ 122) || (65 ≤ c && c ≤ 90) || (48 ≤ c && c ≤ 57) || c == 95 || c == 45

/-- A non-empty string of component characters. -/
def LegalComponent (s : Bytes) : Prop := s ≠ [] ∧ ∀ c ∈ s, isComponentChar c = true

instance (s : Bytes) : Decidable (LegalComponent s) :=
  -- walk the string, not all of `UInt8`
  have : Decidable (∀ c ∈ s, isComponentChar c = true) := List.decidableBAll _ s
  inferInstanceAs (Decidable (_ ∧ _))

theorem separator_not_componentChar : isComponentChar COMPONENT_SEPARATOR = false := by
  decide

theorem ne_separator {c : UInt8} (h : isComponentChar c = true) : c ≠ COMPONENT_SEPARATOR := by
  rintro rfl
  simp [separator_not_componentChar] at h

/-- The string `updateStringCache` writes: a separator, then every component
followed by a separator. -/
def joinComponents (components : List Bytes) : Bytes :=
  COMPONENT_SEPARATOR :: components.flatMap (fun c => c ++ [COMPONENT_SEPARATOR])

end Scope

/-- A scope with its string cache. -/
structure Scope where
  components : List Bytes
  scopestring : Bytes
  legal : ∀ c ∈ components, Scope.LegalComponent c
  cached : scopestring = Scope.joinComponents components

namespace Scope

theorem joinComponents_concat (components : List Bytes) (last : Bytes) :
    joinComponents (components ++ [last]) =
      joinComponents components ++ last ++ [COMPONENT_SEPARATOR] := by
  simp [joinComponents]

theorem getLast?_joinComponents (components : List Bytes) :
    (joinComponents components).getLast? = some COMPONENT_SEPARATOR := by
  rcases List.eq_nil_or_concat components with rfl | ⟨init, last, rfl⟩
  · rfl
  · rw [List.concat_eq_append, joinComponents_concat, List.getLast?_concat]

/-! ### Parsing -/

def missingSeparator (s : Bytes) : Fault :=
  invalidArgument (bytes "Invalid scope syntax for '" ++ s ++ bytes "': has to begin with '" ++
    [COMPONENT_SEPARATOR] ++ bytes "'")

def zeroLengthComponent (s : Bytes) (position : ℕ) : Fault :=
  invalidArgument (bytes "Invalid scope syntax for '" ++ s ++ bytes "' at char " ++
    decimal position ++ bytes ": zero-length component between two '" ++
    [COMPONENT_SEPARATOR] ++ bytes "'")

def invalidCharacter (s : Bytes) (position : ℕ) (c : UInt8) : Fault :=
  invalidArgument (bytes "Invalid scope syntax for '" ++ s ++ bytes "' at char " ++
    decimal position ++ bytes ": invalid character '" ++ [c] ++ bytes "'")

/-- The loop of `verifyAndSplit` over the remainder of `s`. `current` is what
lies between the iterators `prev + 1` and `next`, `position` is the distance of
`next` from the beginning of `s`. -/
def splitLoop (s : Bytes) (position : ℕ) (current : Bytes) (components : List Bytes) :
    Bytes → Except Fault (List Bytes)
  -- the last component need not be followed by a separator
  | [] => .ok (if current = [] then components else components ++ [current])
  | next :: rest =>
      if next = COMPONENT_SEPARATOR then
        if current = [] then .error (zeroLengthComponent s position)
        else splitLoop s (position + 1) [] (components ++ [current]) rest
      else if isComponentChar next then
        splitLoop s (position + 1) (current ++ [next]) components rest
      else .error (invalidCharacter s position next)

/-- The components of `s` and its normalized form, which ends in a separator. -/
def verifyAndSplit (s : Bytes) : Except Fault (List Bytes × Bytes) :=
  match s with
  | [] => .error (invalidArgument (bytes "Empty scope string given."))
  | prev :: rest =>
      if prev ≠ COMPONENT_SEPARATOR then .error (missingSeparator s)
      else do
        let components ← splitLoop s 1 [] [] rest
        let normalizedString :=
          if s.getLast? = some COMPONENT_SEPARATOR then s else s ++ [COMPONENT_SEPARATOR]
        return (components, normalizedString)

/-- What the loop has read is what it has collected: with the components so far
and the current one put back in front, the remainder is closed to the joined
string by at most one separator. -/
theorem splitLoop_spec {s : Bytes} {position : ℕ} {current rest : Bytes}
    {components result : List Bytes} (hcomponents : ∀ c ∈ components, LegalComponent c)
    (hcurrent : ∀ c ∈ current, isComponentChar c = true)
    (h : splitLoop s position current components rest = .ok result) :
    (∀ c ∈ result, LegalComponent c) ∧
      let read := joinComponents components ++ current ++ rest
      joinComponents result =
        if read.getLast? = some COMPONENT_SEPARATOR then read else read ++ [COMPONENT_SEPARATOR] := by
  induction rest generalizing position current components with
  | nil =>
      simp only [splitLoop, Except.ok.injEq] at h
      subst h
      by_cases hempty : current = []
      · subst hempty
        simp [getLast?_joinComponents]
        exact hcomponents
      -- a component is left, so the string does not end in a separator yet
      · have hlast : (joinComponents components ++ current ++ []).getLast? ≠
            some COMPONENT_SEPARATOR := by
          rw [List.append_nil, List.getLast?_append_of_ne_nil _ hempty,
            List.getLast?_eq_some_getLast hempty]
          intro heq
          exact ne_separator (hcurrent _ (List.getLast_mem hempty)) (Option.some.inj heq)
        simp only [hempty, if_false, hlast]
        refine ⟨fun c hc => ?_, by simp [joinComponents]⟩
        rcases List.mem_append.mp hc with hc | hc
        · exact hcomponents c hc
        · obtain rfl := List.mem_singleton.mp hc
          exact ⟨hempty, hcurrent⟩
  | cons next rest ih =>
      simp only [splitLoop] at h
      split_ifs at h with hsep hempty hchar
      · subst hsep
        have hmem : ∀ c ∈ components ++ [current], LegalComponent c := by
          intro c hc
          rcases List.mem_append.mp hc with hc | hc
          · exact hcomponents c hc
          · obtain rfl := List.mem_singleton.mp hc
            exact ⟨hempty, hcurrent⟩
        simpa [joinComponents] using ih hmem (by simp) h
      · have hchars : ∀ c ∈ current ++ [next], isComponentChar c = true := by
          intro c hc
          rcases List.mem_append.mp hc with hc | hc
          · exact hcurrent c hc
          · obtain rfl := List.mem_singleton.mp hc
            exact hchar
        simpa using ih hcomponents hchars h

/-- Whatever `verifyAndSplit` returns is a list of legal components together
with the string joined from them. -/
theorem verifyAndSplit_spec {s normalized : Bytes} {components : List Bytes}
    (h : verifyAndSplit s = .ok (components, normalized)) :
    (∀ c ∈ components, LegalComponent c) ∧ normalized = joinComponents components := by
  cases s with
  | nil => simp [verifyAndSplit] at h
  | cons prev rest =>
      by_cases hsep : prev = COMPONENT_SEPARATOR
      · subst hsep
        simp only [verifyAndSplit, ne_eq, not_true, if_false] at h
        cases hloop : splitLoop (COMPONENT_SEPARATOR :: rest) 1 [] [] rest with
        | error e => simp [hloop, bind, Except.bind] at h
        | ok result =>
            simp only [hloop, bind, Except.bind, pure, Except.pure, Except.ok.injEq,
              Prod.mk.injEq] at h
            obtain ⟨rfl, rfl⟩ := h
            obtain ⟨hlegal, hjoin⟩ := splitLoop_spec (by simp) (by simp) hloop
            refine ⟨hlegal, ?_⟩
            simpa [joinComponents] using hjoin.symm
      · simp [verifyAndSplit, hsep] at h

/-- `Scope::Scope(const string& s)`. -/
def parse (s : Bytes) : Except Fault Scope :=
  match h : verifyAndSplit s with
  | .error e => .error e
  | .ok (components, scopestring) =>
      .ok ⟨components, scopestring, (verifyAndSplit_spec h).1, (verifyAndSplit_spec h).2⟩

/-- A run of component characters up to the next separator is one component. -/
theorem splitLoop_component {s : Bytes} {position : ℕ} {current word rest : Bytes}
    {components : List Bytes} (hword : ∀ c ∈ word, isComponentChar c = true)
    (hne : current ++ word ≠ []) :
    splitLoop s position current components (word ++ COMPONENT_SEPARATOR :: rest) =
      splitLoop s (position + word.length + 1) [] (components ++ [current ++ word]) rest := by
  induction word generalizing position current with
  | nil =>
      have hcurrent : current ≠ [] := by simpa using hne
      simp [splitLoop, hcurrent]
  | cons c word ih =>
      have hc : isComponentChar c = true := hword c List.mem_cons_self
      rw [List.cons_append, splitLoop, if_neg (ne_separator hc), if_pos hc,
        ih (fun d hd => hword d (List.mem_cons_of_mem c hd)) (by simp)]
      simp only [List.append_assoc, List.cons_append, List.nil_append, List.length_cons]
      congr 1
      omega

theorem splitLoop_joined {s : Bytes} {position : ℕ} {components tail : List Bytes}
    (h : ∀ c ∈ tail, LegalComponent c) :
    splitLoop s position [] components (tail.flatMap (fun c => c ++ [COMPONENT_SEPARATOR])) =
      .ok (components ++ tail) := by
  induction tail generalizing position components with
  | nil => simp [splitLoop]
  | cons word tail ih =>
      obtain ⟨hne, hchars⟩ := h word List.mem_cons_self
      rw [List.flatMap_cons, List.append_assoc, List.singleton_append,
        splitLoop_component hchars (by simpa using hne),
        ih (fun c hc => h c (List.mem_cons_of_mem _ hc))]
      simp

theorem verifyAndSplit_joinComponents {components : List Bytes}
    (h : ∀ c ∈ components, LegalComponent c) :
    verifyAndSplit (joinComponents components) = .ok (components, joinComponents components) := by
  have hlast := getLast?_joinComponents components
  rw [joinComponents] at hlast ⊢
  simp only [verifyAndSplit, ne_eq, not_true, if_false, splitLoop_joined h]
  simp [hlast, bind, Except.bind, pure, Except.pure]

theorem joinComponents_injective {a b : List Bytes} (ha : ∀ c ∈ a, LegalComponent c)
    (hb : ∀ c ∈ b, LegalComponent c) (h : joinComponents a = joinComponents b) : a = b := by
  have hsplit := verifyAndSplit_joinComponents ha
  rw [h, verifyAndSplit_joinComponents hb] at hsplit
  exact (congrArg Prod.fst (Except.ok.inj hsplit)).symm

/-! ### Comparison -/

def getComponents (s : Scope) : List Bytes := s.components

def toString (s : Scope) : Bytes := s.scopestring

theorem ext_components {a b : Scope} (h : a.components = b.components) : a = b := by
  obtain ⟨ca, sa, la, ha⟩ := a
  obtain ⟨cb, sb, lb, hb⟩ := b
  obtain rfl : ca = cb := h
  obtain rfl : sa = sb := ha.trans hb.symm
  rfl

theorem toString_injective : Function.Injective toString := by
  intro a b h
  refine ext_components (joinComponents_injective a.legal b.legal ?_)
  rw [← a.cached, ← b.cached]
  exact h

/-- `operator==` and `operator<` compare the strings, and so does a map keyed by
scopes. -/
instance : LinearOrder Scope := LinearOrder.lift' toString toString_injective

theorem parse_toString (s : Scope) : parse s.toString = .ok s := by
  have hsplit : verifyAndSplit s.toString = .ok (s.components, s.scopestring) := by
    rw [toString, s.cached]
    exact verifyAndSplit_joinComponents s.legal
  unfold parse
  split
  · next e he => simp [hsplit] at he
  · next components scopestring he =>
      obtain ⟨hc, -⟩ := Prod.mk.inj (Except.ok.inj (hsplit.symm.trans he))
      exact congrArg _ (ext_components hc.symm)

/-- The components with the string `updateStringCache` computes from them. -/
def ofComponents (components : List Bytes) (h : ∀ c ∈ components, LegalComponent c) : Scope :=
  ⟨components, joinComponents components, h, rfl⟩

/-- `Scope::Scope()`. -/
def root : Scope := ofComponents [] (by simp)

/-! ### Hierarchy -/

def concat (s childScope : Scope) : Scope :=
  ofComponents (s.components ++ childScope.components) fun c hc =>
    (List.mem_append.mp hc).elim (s.legal c) (childScope.legal c)

def isSubScopeOf (s other : Scope) : Bool :=
  if s.components.length ≤ other.components.length then false
  else (List.range other.components.length).all fun i => s.components[i]? == other.components[i]?

def isSuperScopeOf (s other : Scope) : Bool :=
  if s.components.length ≥ other.components.length then false
  else (List.range s.components.length).all fun i => s.components[i]? == other.components[i]?

/-- The scope of the first `n` components. -/
def take (s : Scope) (n : ℕ) : Scope :=
  ofComponents (s.components.take n) fun c hc => s.legal c (List.mem_of_mem_take hc)

def superScopes (s : Scope) (includeSelf : Bool) : List Scope :=
  (if s.components = [] then [] else (List.range s.components.length).map s.take) ++
    (if includeSelf then [s] else [])

/-- Events on `other` concern `s`: the scopes are equal or `s` lies above. -/
def covers (s other : Scope) : Bool := s == other || s.isSuperScopeOf other

theorem all_getElem?_iff_isPrefix {a b : List Bytes} :
    ((List.range a.length).all fun i => a[i]? == b[i]?) = true ↔ a <+: b := by
  rw [List.prefix_iff_getElem?, List.all_eq_true]
  simp only [List.mem_range, beq_iff_eq]
  constructor
  · intro hall i hi
    rw [← hall i hi, List.getElem?_eq_getElem hi]
  · intro hall i hi
    rw [hall i hi, List.getElem?_eq_getElem hi]

theorem isSuperScopeOf_iff {a b : Scope} :
    a.isSuperScopeOf b = true ↔ a.components <+: b.components ∧ a ≠ b := by
  unfold isSuperScopeOf
  split_ifs with hlen
  · simp only [false_iff, not_and, not_not]
    intro hpre
    exact ext_components (hpre.eq_of_length_le hlen)
  · have hlt : a.components.length < b.components.length := not_le.mp hlen
    rw [all_getElem?_iff_isPrefix]
    refine ⟨fun h => ⟨h, ?_⟩, And.left⟩
    rintro rfl
    exact lt_irrefl _ hlt

theorem isSubScopeOf_eq (a b : Scope) : a.isSubScopeOf b = b.isSuperScopeOf a := by
  unfold isSubScopeOf isSuperScopeOf
  split_ifs with hlen
  · rfl
  · exact congrArg _ (funext fun i => Bool.beq_comm)

theorem covers_iff {a b : Scope} : a.covers b = true ↔ a.components <+: b.components := by
  rw [covers, Bool.or_eq_true, beq_iff_eq, isSuperScopeOf_iff]
  constructor
  · rintro (rfl | ⟨h, -⟩)
    · exact List.prefix_rfl
    · exact h
  · intro h
    by_cases heq : a = b
    · exact .inl heq
    · exact .inr ⟨h, heq⟩

theorem covers_refl (a : Scope) : a.covers a = true := covers_iff.mpr List.prefix_rfl

theorem covers_trans {a b c : Scope} (hab : a.covers b = true) (hbc : b.covers c = true) :
    a.covers c = true :=
  covers_iff.mpr ((covers_iff.mp hab).trans (covers_iff.mp hbc))

theorem components_take (s : Scope) (n : ℕ) : (s.take n).components = s.components.take n := rfl

theorem superScopes_true (s : Scope) :
    s.superScopes true = (List.range (s.components.length + 1)).map s.take := by
  have hself : s.take s.components.length = s :=
    ext_components (by rw [components_take, List.take_length])
  rw [List.range_succ, List.map_append, List.map_singleton, hself, superScopes]
  by_cases h : s.components = [] <;> simp [h]

/-- The scopes an event on `s` is dispatched to are exactly those that cover
`s`, each of them visited once. -/
theorem mem_superScopes {s b : Scope} : b ∈ s.superScopes true ↔ b.covers s = true := by
  rw [superScopes_true, covers_iff, List.mem_map]
  constructor
  · rintro ⟨n, -, rfl⟩
    exact List.take_prefix n _
  · intro h
    refine ⟨b.components.length, ?_, ext_components (List.prefix_iff_eq_take.mp h).symm⟩
    have := h.length_le
    simp only [List.mem_range]
    omega

theorem nodup_superScopes (s : Scope) : (s.superScopes true).Nodup := by
  rw [superScopes_true]
  refine List.Nodup.map_on (fun m hm n hn h => ?_) List.nodup_range
  have hlen := congrArg (fun t : Scope => t.components.length) h
  simp only [components_take, List.length_take, List.mem_range] at hlen hm hn
  omega

end Scope

end Rsb
