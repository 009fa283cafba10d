import Rsb.Patterns.LocalServer
import Rsb.Library.Runs
import Rsb.Scope.Grammar

/-!
The scopes of the methods of a server (`LocalServer::registerMethod`).

A name that is taken is found by comparing names, while requests are routed by
scopes. The scope of a method comes from parsing its name with a separator in front of
it, so the two agree as long as the parser gives back the name as the only component.
A name with separators in it, or without any characters, may be accepted as well; and the
string of a scope that is too long does not fit into the counter for its size.
-/

namespace Rsb.Patterns

open Library Scope

variable {δ : Type}

/-- The arguments of a call of `registerMethod`. -/
structure Registration (δ : Type) where
  name : Bytes
  callback : Callback δ
  informerId : UUID

namespace LocalServer

/-- The server after the call, which leaves it alone when it throws. -/
def register (s : LocalServer δ) (r : Registration δ) : Option (LocalServer δ) :=
  match s.registerMethod r.name r.callback r.informerId with
  | .ok s' => some s'
  | .error (.thrown _) => some s
  -- a read or a write out of bounds
  | .error _ => none

/-- The scope of every method is that of the server, extended by its name. -/
def Extended (s : LocalServer δ) : Prop :=
  ∀ name m, s.methods.find? name = some m →
    m.name = name ∧ m.scope.getComponents = s.scope.getComponents ++ [name]

/-- No two methods share a scope. -/
def Distinct (s : LocalServer δ) : Prop :=
  ∀ name name' m m', s.methods.find? name = some m → s.methods.find? name' = some m' →
    m.scope = m'.scope → name = name'

/-- A call with a name that is taken or not legal throws and changes nothing, and no
call reads or writes out of bounds. -/
structure Guarded (s : LocalServer δ) (r : Registration δ) : Prop where
  refused : (∃ m, s.methods.find? r.name = some m) ∨ ¬LegalComponent r.name →
    (∃ e, s.registerMethod r.name r.callback r.informerId = .error (.thrown e)) ∧
      s.register r = some s
  inBounds : s.registerMethod r.name r.callback r.informerId ≠ .error .readPastEnd
  fits : s.registerMethod r.name r.callback r.informerId ≠ .error .writePastEnd

/-- In a run of calls every call is guarded, and the methods are well registered before
and after each of them. -/
def Mapped (s : LocalServer δ) (calls : List (Registration δ)) : Prop :=
  Along register Guarded s calls ∧
    ∀ s' before, before <+: calls → exec register s before = some s' → s'.Extended ∧ s'.Distinct

/-! ### One call -/

theorem Extended.distinct {s : LocalServer δ} (h : s.Extended) : s.Distinct := by
  intro name name' m m' hm hm' hscope
  have hcomponents := (h name m hm).2
  rw [hscope, (h name' m' hm').2] at hcomponents
  exact (List.singleton_injective (List.append_cancel_left hcomponents)).symm

/-- The length of the string of a method's scope. -/
theorem length_toString_extended {scope extended : Scope} {name : Bytes}
    (h : extended.getComponents = scope.getComponents ++ [name]) :
    extended.toString.length = scope.toString.length + name.length + 1 := by
  have hcomponents : extended.components = scope.components ++ [name] := h
  simp only [Scope.toString, Scope.cached, joinComponents, hcomponents, List.flatMap_append,
    List.flatMap_singleton, List.length_cons, List.length_append, List.length_nil]
  omega

/-- A name that is not taken. -/
theorem registerMethod_new {s : LocalServer δ} {name : Bytes} (hnew : s.methods.find? name = none)
    {child : Scope} (hparse : Scope.parse (bytes "/" ++ name) = .ok child) (callback : Callback δ)
    (informerId : UUID) :
    s.registerMethod name callback informerId =
      if (s.scope.concat child).toString.length < 2 ^ 32 then
        (createLocalMethod (s.scope.concat child) callback informerId).map
          fun method => { s with methods := s.methods.insert name method }
      else .error .writePastEnd := by
  simp only [registerMethod, hnew, hparse, concatObject_eq, bind, Except.bind]
  by_cases hshort : (s.scope.concat child).toString.length < 2 ^ 32
  · simp only [if_pos hshort]
    cases createLocalMethod (s.scope.concat child) callback informerId <;> rfl
  · simp only [if_neg hshort]

/-- A name that is not taken, and is one component. -/
theorem registerMethod_legal {s : LocalServer δ} {r : Registration δ}
    (hnew : s.methods.find? r.name = none) (hlegal : LegalComponent r.name) :
    ∃ scope : Scope, scope.getComponents = s.scope.getComponents ++ [r.name] ∧
      s.registerMethod r.name r.callback r.informerId =
        if scope.toString.length < 2 ^ 32 then .ok { s with
          methods := s.methods.insert r.name ⟨scope, r.name, r.callback, r.informerId, 0⟩ }
        else .error .writePastEnd := by
  obtain ⟨child, hparse, hchild⟩ := parse_legal hlegal
  have hcomponents : (s.scope.concat child).getComponents = s.scope.getComponents ++ [r.name] :=
    congrArg (s.scope.getComponents ++ ·) hchild
  refine ⟨s.scope.concat child, hcomponents, ?_⟩
  rw [registerMethod_new hnew hparse, createLocalMethod, hcomponents, List.getLast?_concat]
  rfl

/-- The name is taken, or the string made from it is not a scope. -/
theorem registerMethod_throws {s : LocalServer δ} {r : Registration δ}
    (h : (∃ m, s.methods.find? r.name = some m) ∨
      ∀ child, Scope.parse (bytes "/" ++ r.name) ≠ .ok child) :
    ∃ e, s.registerMethod r.name r.callback r.informerId = .error (.thrown e) := by
  cases hfind : s.methods.find? r.name with
  | some m =>
      simp only [registerMethod, hfind]
      exact ⟨_, rfl⟩
  | none =>
      have hparse := h.resolve_left (by simp [hfind])
      cases hresult : Scope.parse (bytes "/" ++ r.name) with
      | ok child => exact absurd hresult (hparse child)
      | error f =>
          obtain ⟨what, rfl⟩ := verifyAndSplit_error (parse_eq_error_iff.mp hresult)
          simp only [registerMethod, hfind, hresult, bind, Except.bind]
          exact ⟨_, rfl⟩

theorem register_of_thrown {s : LocalServer δ} {r : Registration δ} {e : Exception}
    (h : s.registerMethod r.name r.callback r.informerId = .error (.thrown e)) :
    s.register r = some s := by
  simp only [register, h]

theorem register_of_ok {s s' : LocalServer δ} {r : Registration δ}
    (h : s.registerMethod r.name r.callback r.informerId = .ok s') : s.register r = some s' := by
  simp only [register, h]

/-- On a server for the scope, the parser takes no other names than legal ones, and those
leave the string of the method's scope short enough. -/
def Checked (scope : Scope) (name : Bytes) : Prop :=
  LegalComponent name ∧ scope.toString.length + name.length + 1 < 2 ^ 32 ∨
    ∀ child, Scope.parse (bytes "/" ++ name) ≠ .ok child

/-- What has been registered, and on which server. -/
structure Registered (scope : Scope) (s : LocalServer δ) : Prop where
  scope : s.scope = scope
  extended : s.Extended
  short : ∀ name m, s.methods.find? name = some m → m.scope.toString.length < 2 ^ 32

theorem registered_empty (scope : Scope) : Registered scope (⟨scope, .empty⟩ : LocalServer δ) := by
  refine ⟨rfl, ?_, ?_⟩ <;> intro name m hm <;> simp at hm

/-- Only checked names are taken. -/
theorem Registered.checked_of_taken {scope : Scope} {s : LocalServer δ} (h : Registered scope s)
    {name : Bytes} {m : LocalMethod δ} (hm : s.methods.find? name = some m) :
    Checked scope name := by
  obtain ⟨-, hcomponents⟩ := h.extended name m hm
  have hlegal : LegalComponent name := m.scope.legal _ (by
    rw [show m.scope.components = s.scope.components ++ [name] from hcomponents]
    simp)
  have hshort := h.short name m hm
  rw [length_toString_extended hcomponents, h.scope] at hshort
  exact .inl ⟨hlegal, hshort⟩

/-- What comes of a call with a checked name. -/
theorem Registered.register_cases {scope : Scope} {s : LocalServer δ} (h : Registered scope s)
    {r : Registration δ} (hchecked : Checked scope r.name) :
    (∃ e, s.registerMethod r.name r.callback r.informerId = .error (.thrown e)) ∨
      LegalComponent r.name ∧ s.methods.find? r.name = none ∧ ∃ extended : Scope,
        extended.getComponents = s.scope.getComponents ++ [r.name] ∧
        extended.toString.length < 2 ^ 32 ∧
        s.registerMethod r.name r.callback r.informerId = .ok { s with
          methods := s.methods.insert r.name
            ⟨extended, r.name, r.callback, r.informerId, 0⟩ } := by
  by_cases hthrows : (∃ m, s.methods.find? r.name = some m) ∨
      ∀ child, Scope.parse (bytes "/" ++ r.name) ≠ .ok child
  · exact .inl (registerMethod_throws hthrows)
  · obtain ⟨hnew, hparse⟩ := not_or.mp hthrows
    obtain ⟨hlegal, hshort⟩ := hchecked.resolve_right hparse
    have hfind : s.methods.find? r.name = none :=
      Option.eq_none_iff_forall_ne_some.mpr (not_exists.mp hnew)
    obtain ⟨extended, hcomponents, hregister⟩ := registerMethod_legal hfind hlegal
    rw [← h.scope, ← length_toString_extended hcomponents] at hshort
    rw [if_pos hshort] at hregister
    exact .inr ⟨hlegal, hfind, extended, hcomponents, hshort, hregister⟩

theorem guarded_iff {scope : Scope} {s : LocalServer δ} (h : Registered scope s)
    (r : Registration δ) : s.Guarded r ↔ Checked scope r.name := by
  constructor
  · intro hguarded
    by_contra hchecked
    cases hfind : s.methods.find? r.name with
    | some m => exact hchecked (h.checked_of_taken hfind)
    | none =>
        obtain ⟨hshort, hparse⟩ := not_or.mp hchecked
        by_cases hlegal : LegalComponent r.name
        · obtain ⟨extended, hcomponents, hregister⟩ := registerMethod_legal hfind hlegal
          rw [length_toString_extended hcomponents, h.scope,
            if_neg fun hlt => hshort ⟨hlegal, hlt⟩] at hregister
          exact hguarded.fits hregister
        · -- the call is not refused
          obtain ⟨child, hchild⟩ := not_forall_not.mp hparse
          obtain ⟨⟨e, he⟩, -⟩ := hguarded.refused (.inr hlegal)
          rw [registerMethod_new hfind hchild, createLocalMethod] at he
          split at he
          · split at he <;> cases he
          · cases he
  · intro hchecked
    rcases h.register_cases hchecked with ⟨e, he⟩ | ⟨hlegal, hfind, extended, -, -, hok⟩
    · exact ⟨fun _ => ⟨⟨e, he⟩, register_of_thrown he⟩, by simp [he], by simp [he]⟩
    · refine ⟨fun hrefused => ?_, by simp [hok], by simp [hok]⟩
      rcases hrefused with ⟨m, hm⟩ | hillegal
      · exact absurd (hfind.symm.trans hm) (by simp)
      · exact absurd hlegal hillegal

/-- A call with a checked name comes to an end, and keeps the methods well registered. -/
theorem Registered.register {scope : Scope} {s : LocalServer δ} (h : Registered scope s)
    {r : Registration δ} (hchecked : Checked scope r.name) :
    ∃ s', s.register r = some s' ∧ Registered scope s' := by
  rcases h.register_cases hchecked with ⟨e, he⟩ | ⟨-, -, extended, hcomponents, hshort, hok⟩
  · exact ⟨s, register_of_thrown he, h⟩
  · refine ⟨_, register_of_ok hok, h.scope, fun name m hm => ?_, fun name m hm => ?_⟩
    · rw [SortedMap.find?_insert] at hm
      split_ifs at hm with hname
      · obtain rfl := Option.some.inj hm
        exact ⟨hname.symm, by rw [hname]; exact hcomponents⟩
      · exact h.extended name m hm
    · rw [SortedMap.find?_insert] at hm
      split_ifs at hm with hname
      · obtain rfl := Option.some.inj hm
        exact hshort
      · exact h.short name m hm

/-! ### Runs of calls -/

/-- Whatever is registered on a server, the methods have distinct scopes, each the scope
of the server with the name of the method as one more component, and names that are
taken or not legal are refused, exactly if no name has a form that the parser takes
although it is not one legal component, or makes a scope that is too long. -/
theorem mapped_iff (scope : Scope) (calls : List (Registration δ)) :
    Mapped ⟨scope, .empty⟩ calls ↔ ∀ r ∈ calls, Checked scope r.name := by
  suffices hrun : ∀ s : LocalServer δ, Registered scope s →
      (Along register Guarded s calls ↔ ∀ r ∈ calls, Checked scope r.name) by
    constructor
    · intro h
      exact (hrun _ (registered_empty scope)).mp h.1
    · intro h
      refine ⟨(hrun _ (registered_empty scope)).mpr h, fun s' before hbefore hexec => ?_⟩
      have hchecked : ∀ r ∈ before, Checked scope r.name := fun r hr => h r (hbefore.subset hr)
      have hregistered : Registered scope s' := exec_invariant_along
        (fun s r s' hs hr hstep => by
          obtain ⟨t, ht, hregistered⟩ := hs.register hr
          exact Option.some.inj (ht.symm.trans hstep) ▸ hregistered)
        (registered_empty scope) (along_of_forall hchecked _) hexec
      exact ⟨hregistered.extended, hregistered.extended.distinct⟩
  induction calls with
  | nil => simp [Along]
  | cons r calls ih =>
      intro s hs
      rw [List.forall_mem_cons]
      constructor
      · rintro ⟨hguarded, hrest⟩
        have hchecked := (guarded_iff hs r).mp hguarded
        obtain ⟨s', hstep, hs'⟩ := hs.register hchecked
        exact ⟨hchecked, (ih s' hs').mp (hrest s' hstep)⟩
      · rintro ⟨hchecked, hrest⟩
        obtain ⟨s', hstep, hs'⟩ := hs.register hchecked
        exact (along_cons hstep).mpr ⟨(guarded_iff hs r).mpr hchecked, (ih s' hs').mpr hrest⟩

def tester : UUID := ⟨List.replicate 16 21, by decide⟩

def echo : Callback Bytes := .event (fun _ request => .ok (some request)) fun _ request => request

/-- A server at `/r/`. -/
def server : LocalServer Bytes := ⟨Scope.ofComponents [bytes "r"] (by decide), .empty⟩

/-- The method `a`, and the same name with a separator behind it. -/
def twice : List (Registration Bytes) := [⟨bytes "a", echo, tester⟩, ⟨bytes "a/", echo, tester⟩]

/-- Both calls succeed, and the two methods have one scope. On a server for the root
scope, a method without a name reads in front of an empty list. -/
theorem not_mapped_twice :
    (∃ s m m', exec register server twice = some s ∧
      s.methods.find? (bytes "a") = some m ∧ s.methods.find? (bytes "a/") = some m' ∧
      m.scope = m'.scope) ∧
    (⟨Scope.root, .empty⟩ : LocalServer Bytes).registerMethod [] echo tester =
      .error .readPastEnd ∧
    ¬Mapped server twice := by
  have hrun : ∃ s m m', exec register server twice = some s ∧
      s.methods.find? (bytes "a") = some m ∧ s.methods.find? (bytes "a/") = some m' ∧
      m.scope = m'.scope := ⟨_, _, _, rfl, rfl, rfl, rfl⟩
  refine ⟨hrun, rfl, fun hmapped => ?_⟩
  obtain ⟨s, m, m', hexec, hm, hm', hscope⟩ := hrun
  have hname := (hmapped.2 s twice List.prefix_rfl hexec).2 _ _ m m' hm hm' hscope
  exact absurd hname (by decide)

end LocalServer

end Rsb.Patterns
