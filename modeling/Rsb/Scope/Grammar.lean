import Rsb.Scope

/-!
The grammar of scope strings.

`Denotes s components` is the grammar without an algorithm: the separator alone, or
components that each follow a separator, with a final separator at will. The loop
of `verifyAndSplit` accepts just these strings and returns their components.
-/

namespace Rsb.Scope

/-- The characters `[-_a-zA-Z0-9]`, listed. -/
def componentCharacters : Bytes :=
  bytes "-_abcdefghijklmnopqrstuvwxyzABCDEFGHIJKLMNOPQRSTUVWXYZ0123456789"

/-- `s` is a scope string with these components. -/
inductive Denotes : Bytes → List Bytes → Prop
  /-- The root scope. -/
  | separator : Denotes (bytes "/") []
  | components {components : List Bytes} (trailing : Bool) (some : components ≠ [])
      (nonempty : ∀ c ∈ components, c ≠ [])
      (characters : ∀ c ∈ components, ∀ x ∈ c, x ∈ componentCharacters) :
      Denotes (components.flatMap (fun c => bytes "/" ++ c) ++
        (if trailing then bytes "/" else [])) components

theorem bytes_separator : bytes "/" = [COMPONENT_SEPARATOR] := by
  decide

/-- The list as the ranges the parser compares with. -/
theorem componentCharacters_eq :
    componentCharacters = [45, 95] ++ (List.range 26).map (fun i => UInt8.ofNat (97 + i)) ++
      (List.range 26).map (fun i => UInt8.ofNat (65 + i)) ++
      (List.range 10).map (fun i => UInt8.ofNat (48 + i)) := by
  decide +kernel

theorem isComponentChar_iff (c : UInt8) :
    isComponentChar c = true ↔ c ∈ componentCharacters := by
  have hmem : ∀ low count : ℕ, low + count ≤ 256 →
      (c ∈ (List.range count).map (fun i => UInt8.ofNat (low + i)) ↔
        low ≤ c.toNat ∧ c.toNat < low + count) := by
    intro low count hle
    rw [List.mem_map]
    constructor
    · rintro ⟨i, hi, rfl⟩
      rw [List.mem_range] at hi
      rw [UInt8.toNat_ofNat', Nat.mod_eq_of_lt (by omega)]
      omega
    · rintro ⟨hlow, hhigh⟩
      refine ⟨c.toNat - low, List.mem_range.mpr (by omega), ?_⟩
      rw [Nat.add_sub_cancel' hlow, UInt8.ofNat_toNat]
  rw [componentCharacters_eq]
  simp only [List.mem_append, hmem 97 26 (by decide), hmem 65 26 (by decide),
    hmem 48 10 (by decide)]
  simp [isComponentChar, UInt8.le_iff_toNat_le, ← UInt8.toNat_inj]
  omega
theorem legalComponent_iff (c : Bytes) :
    LegalComponent c ↔ c ≠ [] ∧ ∀ x ∈ c, x ∈ componentCharacters := by
  simp only [LegalComponent, isComponentChar_iff]

/-- The separators in front of the components instead of behind them. -/
theorem joinComponents_eq_flatMap (components : List Bytes) :
    joinComponents components =
      components.flatMap (fun c => bytes "/" ++ c) ++ [COMPONENT_SEPARATOR] := by
  induction components with
  | nil => rfl
  | cons c components ih =>
      calc joinComponents (c :: components)
          = COMPONENT_SEPARATOR :: (c ++ joinComponents components) := by
            simp [joinComponents]
        _ = (c :: components).flatMap (fun c => bytes "/" ++ c) ++ [COMPONENT_SEPARATOR] := by
            rw [ih, List.flatMap_cons, List.append_assoc, List.append_assoc, bytes_separator,
              List.singleton_append]

/-! ### What the loop accepts -/

/-- Components that are closed by separators, and a last one that is not. -/
theorem splitLoop_open {s last : Bytes} {position : ℕ} {components init : List Bytes}
    (hinit : ∀ c ∈ init, LegalComponent c) (hlast : LegalComponent last) :
    splitLoop s position [] components
        (init.flatMap (fun c => c ++ [COMPONENT_SEPARATOR]) ++ last) =
      .ok (components ++ init ++ [last]) := by
  induction init generalizing position components with
  | nil =>
      -- the last component is read to the end of the string
      have hread : ∀ (word current : Bytes) (position : ℕ),
          (∀ c ∈ word, isComponentChar c = true) → current ++ word ≠ [] →
          splitLoop s position current components word = .ok (components ++ [current ++ word]) := by
        intro word
        induction word with
        | nil =>
            intro current position _ hne
            have hcurrent : current ≠ [] := by simpa using hne
            simp [splitLoop, hcurrent]
        | cons c word ih =>
            intro current position hchars _
            have hc : isComponentChar c = true := hchars c List.mem_cons_self
            rw [splitLoop, if_neg (ne_separator hc), if_pos hc,
              ih _ _ (fun d hd => hchars d (List.mem_cons_of_mem c hd)) (by simp)]
            simp
      simpa using hread last [] position hlast.2 hlast.1
  | cons word init ih =>
      obtain ⟨hne, hchars⟩ := hinit word List.mem_cons_self
      rw [List.flatMap_cons, List.append_assoc, List.append_assoc, List.singleton_append,
        splitLoop_component hchars (by simpa using hne),
        ih (fun c hc => hinit c (List.mem_cons_of_mem _ hc))]
      simp

theorem verifyAndSplit_complete {s : Bytes} {components : List Bytes} (h : Denotes s components) :
    verifyAndSplit s = .ok (components, joinComponents components) := by
  cases h with
  | separator =>
      rw [bytes_separator]
      have hroot : verifyAndSplit (joinComponents []) = .ok ([], joinComponents []) :=
        verifyAndSplit_joinComponents (by simp)
      exact hroot
  | components trailing hsome hnonempty hcharacters =>
      have hlegal : ∀ c ∈ components, LegalComponent c := fun c hc =>
        (legalComponent_iff c).mpr ⟨hnonempty c hc, hcharacters c hc⟩
      cases trailing with
      | true =>
          have hjoin := joinComponents_eq_flatMap components
          rw [bytes_separator] at hjoin ⊢
          rw [if_pos rfl, ← hjoin]
          exact verifyAndSplit_joinComponents hlegal
      | false =>
          -- the last component is the one that ends the string
          obtain ⟨init, last, rfl⟩ := (List.eq_nil_or_concat components).resolve_left hsome
          rw [List.concat_eq_append] at hlegal ⊢
          have hinit : ∀ c ∈ init, LegalComponent c := fun c hc =>
            hlegal c (List.mem_append_left _ hc)
          have hlast : LegalComponent last := hlegal last (by simp)
          have hstring : (init ++ [last]).flatMap (fun c => bytes "/" ++ c) ++
              (if false = true then bytes "/" else []) =
              COMPONENT_SEPARATOR ::
                (init.flatMap (fun c => c ++ [COMPONENT_SEPARATOR]) ++ last) := by
            have hjoin := joinComponents_eq_flatMap init
            calc _ = (init.flatMap (fun c => bytes "/" ++ c) ++ [COMPONENT_SEPARATOR]) ++ last := by
                  simp [bytes_separator]
              _ = _ := by rw [← hjoin, joinComponents, List.cons_append]
          have hends : (COMPONENT_SEPARATOR ::
              (init.flatMap (fun c => c ++ [COMPONENT_SEPARATOR]) ++ last)).getLast? ≠
              some COMPONENT_SEPARATOR := by
            rw [← List.cons_append, List.getLast?_append_of_ne_nil _ hlast.1,
              List.getLast?_eq_some_getLast hlast.1]
            intro heq
            exact ne_separator (hlast.2 _ (List.getLast_mem hlast.1)) (Option.some.inj heq)
          rw [hstring, joinComponents_concat]
          simp only [verifyAndSplit, ne_eq, not_true, if_false, splitLoop_open hinit hlast,
            if_neg hends]
          simp [joinComponents, bind, Except.bind, pure, Except.pure]

/-- The normalized string is the string itself or the string with a separator. -/
theorem verifyAndSplit_normalized {s normalized : Bytes} {components : List Bytes}
    (h : verifyAndSplit s = .ok (components, normalized)) :
    normalized = s ∨ normalized = s ++ [COMPONENT_SEPARATOR] := by
  cases s with
  | nil => simp [verifyAndSplit] at h
  | cons prev rest =>
      simp only [verifyAndSplit] at h
      split_ifs at h
      all_goals
        obtain ⟨result, -, heq⟩ := bind_eq_ok_iff.mp h
        obtain ⟨-, rfl⟩ := Prod.mk.inj (Except.ok.inj heq)
      · exact .inl rfl
      · exact .inr rfl

theorem verifyAndSplit_sound {s normalized : Bytes} {components : List Bytes}
    (h : verifyAndSplit s = .ok (components, normalized)) : Denotes s components := by
  obtain ⟨hlegal, hnormalized⟩ := verifyAndSplit_spec h
  have hnonempty : ∀ c ∈ components, c ≠ [] := fun c hc =>
    ((legalComponent_iff c).mp (hlegal c hc)).1
  have hcharacters : ∀ c ∈ components, ∀ x ∈ c, x ∈ componentCharacters := fun c hc =>
    ((legalComponent_iff c).mp (hlegal c hc)).2
  have hjoin := joinComponents_eq_flatMap components
  rw [← hnormalized] at hjoin
  rcases verifyAndSplit_normalized h with hs | hs
  -- the string ends in a separator
  · rw [← hs, hjoin]
    by_cases hnil : components = []
    · subst hnil
      exact .separator
    · exact .components true hnil hnonempty hcharacters
  -- it ends in a component
  · have hstring : s = components.flatMap (fun c => bytes "/" ++ c) :=
      List.append_cancel_right (hs.symm.trans hjoin)
    have hnil : components ≠ [] := by
      rintro rfl
      subst hstring
      simp [verifyAndSplit] at h
    have hdenotes := Denotes.components false hnil hnonempty hcharacters
    rwa [if_neg (by simp), List.append_nil, ← hstring] at hdenotes

/-! ### What it refuses -/

theorem splitLoop_error {s current rest : Bytes} {position : ℕ} {components : List Bytes}
    {f : Fault} (h : splitLoop s position current components rest = .error f) :
    ∃ what, f = invalidArgument what := by
  induction rest generalizing position current components with
  | nil => simp [splitLoop] at h
  | cons next rest ih =>
      rw [splitLoop] at h
      split_ifs at h with hsep hempty hchar
      · obtain rfl := Except.error.inj h
        exact ⟨_, rfl⟩
      · exact ih h
      · exact ih h
      · obtain rfl := Except.error.inj h
        exact ⟨_, rfl⟩

theorem verifyAndSplit_error {s : Bytes} {f : Fault} (h : verifyAndSplit s = .error f) :
    ∃ what, f = invalidArgument what := by
  cases s with
  | nil =>
      obtain rfl := Except.error.inj h
      exact ⟨_, rfl⟩
  | cons prev rest =>
      simp only [verifyAndSplit] at h
      split_ifs at h
      · obtain rfl := Except.error.inj h
        exact ⟨_, rfl⟩
      all_goals
        rcases bind_eq_error_iff.mp h with hloop | ⟨result, -, heq⟩
        · exact splitLoop_error hloop
        · cases heq

/-! ### The constructor -/

theorem parse_eq_ok_iff {s : Bytes} {scope : Scope} :
    parse s = .ok scope ↔ verifyAndSplit s = .ok (scope.components, scope.scopestring) := by
  unfold parse
  split
  · next f hf => simp [hf]
  · next components scopestring hsplit =>
      constructor
      · intro heq
        obtain rfl := Except.ok.inj heq
        exact hsplit
      · intro heq
        obtain ⟨hcomponents, -⟩ := Prod.mk.inj (Except.ok.inj (hsplit.symm.trans heq))
        exact congrArg _ (ext_components hcomponents)

theorem parse_eq_error_iff {s : Bytes} {f : Fault} :
    parse s = .error f ↔ verifyAndSplit s = .error f := by
  unfold parse
  split
  · next f' hf => rw [hf, Except.error.injEq, Except.error.injEq]
  · next components scopestring hsplit => simp [hsplit]

/-- A string with the components `components` is parsed to the scope that has them. -/
theorem parse_eq_ok_of_denotes {s : Bytes} {components : List Bytes} (h : Denotes s components) :
    ∃ scope, parse s = .ok scope ∧ scope.getComponents = components := by
  have hsplit := verifyAndSplit_complete h
  exact ⟨ofComponents components (verifyAndSplit_spec hsplit).1, parse_eq_ok_iff.mpr hsplit, rfl⟩

theorem denotes_of_parse {s : Bytes} {scope : Scope} (h : parse s = .ok scope) :
    Denotes s scope.getComponents :=
  verifyAndSplit_sound (parse_eq_ok_iff.mp h)

/-- A legal component is the only one of what is parsed for it. -/
theorem parse_legal {c : Bytes} (h : LegalComponent c) :
    ∃ child, parse (bytes "/" ++ c) = .ok child ∧ child.getComponents = [c] := by
  have hdenotes : Denotes (bytes "/" ++ c) [c] := by
    have hcharacters := (legalComponent_iff c).mp h
    have hstring := Denotes.components false (List.cons_ne_nil c [])
      (by simpa using hcharacters.1) (by simpa using hcharacters.2)
    simpa using hstring
  exact parse_eq_ok_of_denotes hdenotes

/-- A component is not a scope string by itself. -/
theorem parse_component_error {c : Bytes} (h : LegalComponent c) :
    ∃ what, parse c = .error (invalidArgument what) := by
  cases hparse : parse c with
  | ok scope =>
      have hdenotes := denotes_of_parse hparse
      generalize scope.getComponents = components at hdenotes
      have hhead : c.head? = some COMPONENT_SEPARATOR := by
        cases hdenotes with
        | separator => rfl
        | components trailing hsome hnonempty hcharacters =>
            obtain ⟨first, rest, hcomponents⟩ := List.exists_cons_of_ne_nil hsome
            simp [hcomponents, bytes_separator]
      have hmem : COMPONENT_SEPARATOR ∈ c := List.mem_of_mem_head? hhead
      exact absurd (h.2 _ hmem) (by simp [separator_not_componentChar])
  | error f =>
      obtain ⟨what, rfl⟩ := verifyAndSplit_error (parse_eq_error_iff.mp hparse)
      exact ⟨what, rfl⟩

/-- A string is accepted if and only if the grammar has it, and refused with
`invalid_argument` otherwise; what is accepted is rendered and parsed again without
a change. -/
theorem parse_accepts_grammar (s : Bytes) :
    ((∃ scope, parse s = .ok scope) ↔ ∃ components, Denotes s components) ∧
    ((¬ ∃ components, Denotes s components) → ∃ what, parse s = .error (invalidArgument what)) ∧
    (∀ components, Denotes s components →
      ∃ scope, parse s = .ok scope ∧ scope.getComponents = components ∧
        scope.toString = bytes "/" ++ components.flatMap (fun c => c ++ bytes "/") ∧
        ∃ again, parse scope.toString = .ok again ∧ again = scope ∧
          again.getComponents = scope.getComponents ∧ again.toString = scope.toString) := by
  refine ⟨⟨?_, ?_⟩, ?_, ?_⟩
  · rintro ⟨scope, hscope⟩
    exact ⟨_, denotes_of_parse hscope⟩
  · rintro ⟨components, hdenotes⟩
    obtain ⟨scope, hscope, -⟩ := parse_eq_ok_of_denotes hdenotes
    exact ⟨scope, hscope⟩
  · intro hnone
    cases hparse : parse s with
    | ok scope => exact absurd ⟨_, denotes_of_parse hparse⟩ hnone
    | error f =>
        obtain ⟨what, rfl⟩ := verifyAndSplit_error (parse_eq_error_iff.mp hparse)
        exact ⟨what, rfl⟩
  · intro components hdenotes
    obtain ⟨scope, hscope, rfl⟩ := parse_eq_ok_of_denotes hdenotes
    exact ⟨scope, hscope, rfl, scope.cached, scope, parse_toString scope, rfl, rfl, rfl⟩

end Rsb.Scope
