import Rsb.EventProcessing.ReceiveRoutes
import Rsb.Transport.Inprocess.Rollback

/-!
Receive routes that cannot be activated.

An activation goes as far as its first exception, and the destructor of the configurator
deactivates all connectors. `Sound` holds in every state that can be reached, and with it a
deactivation does not throw: a socket connector that has a bus is one of its sinks, and one
without a bus leaves the sinks alone. So all connectors are inactive in the end, and gone from
the socket buses. On the in-process bus the removals may take dangling pointers for the ones
they look for; `Removable` says when they still find all connectors of the route.
-/

namespace Rsb.EventProcessing.ReceiveRoutes

open Library Library.InPlace Transport

variable {C B E : Type} [LinearOrder C] [DecidableEq B] (kind : C → Kind)

/-! ### One connector -/

/-- The scope of an in-process connector has a parent whose string fits, so that `removeSink`
gets as far as the lists. -/
def Fits (w : World C B) (c : C) : Prop :=
  kind c = .inprocess → (w.connectors c).scope.SuperScopesFit

/-- What the deactivation of `c` does. -/
structure Deactivated (c : C) (w w' : World C B) : Prop where
  sound : Sound kind w'
  touches : Touches c w w'
  inactive : (w'.connectors c).active = false
  bus : w'.bus = if kind c = .inprocess then w.bus.eraseSink w.alive c else w.bus

/-- What the activation of `c` does, whether it throws or not. -/
structure Activated (c : C) (w w' : World C B) : Prop where
  sound : Sound kind w'
  touches : Touches c w w'
  scope : (w'.connectors c).scope = (w.connectors c).scope
  bus : w'.bus = if kind c = .inprocess then w.bus.addSink c (w.connectors c).scope else w.bus

section

variable {kind} {w w' : World C B} {c : C}

theorem Sound.deactivated (h : Sound kind w)
    (hrun : (deactivate kind c).run w = .ok () w') : Deactivated kind c w w' := by
  rw [deactivate] at hrun
  cases hkind : kind c with
  | inprocess =>
      simp only [hkind, run_inprocessDeactivate] at hrun
      split at hrun
      · obtain rfl : _ = w' := by
          injection hrun
        refine ⟨h.inprocessDeactivate hkind, (touches_modify _).trans (touches_bus _), ?_, ?_⟩
        · rw [World.modify_connectors_self]
        · rw [if_pos hkind]
      · cases hrun
  | socket =>
      have hbus : ∀ {w₁ : World C B}, w₁.bus = w.bus → w₁.bus =
          if kind c = .inprocess then w.bus.eraseSink w.alive c else w.bus := by
        intro w₁ hw₁
        rw [hkind, if_neg (by decide), hw₁]
      rw [hkind] at hrun
      cases hb : (w.connectors c).bus with
      | none =>
          simp only [run_socketDeactivate_of_none hb] at hrun
          obtain rfl : _ = w' := by
            injection hrun
          refine ⟨h.socketDeactivate_of_none hb, touches_modify _, ?_, hbus rfl⟩
          rw [World.modify_connectors_self]
      | some b =>
          simp only [run_socketDeactivate_of_some hb] at hrun
          split at hrun
          · next sinks hremoved =>
              obtain rfl : _ = w' := by
                injection hrun
              refine ⟨h.socketDeactivate_of_some hb hremoved,
                (touches_removeSink hremoved).trans (touches_modify _), ?_, hbus rfl⟩
              rw [World.modify_connectors_self]
          · cases hrun

theorem run_deactivate_of_not_fits (h : ¬ Fits kind w c) :
    ∃ w', (deactivate kind c).run w = .error .writePastEnd w' := by
  rw [Fits, Classical.not_imp] at h
  refine ⟨w.modify c fun s => { s with active := false }, ?_⟩
  rw [deactivate, h.1]
  exact run_inprocessDeactivate.trans (if_neg h.2)

/-- A connector that exists and has a bus is found there. -/
theorem Sound.run_deactivate (h : Sound kind w) (halive : w.alive c = true)
    (hfits : Fits kind w c) : ∃ w', (deactivate kind c).run w = .ok () w' := by
  rw [deactivate]
  cases hkind : kind c with
  | inprocess => exact ⟨_, run_inprocessDeactivate.trans (if_pos (hfits hkind))⟩
  | socket =>
      cases hb : (w.connectors c).bus with
      | none => exact ⟨_, run_socketDeactivate_of_none hb⟩
      | some b =>
          have hcount := (h.own hkind halive).entries b (w.connectors c).scope
          rw [if_pos ⟨hb, rfl⟩] at hcount
          have hmem : c ∈ (w.sinkDispatcher b).entries (w.connectors c).scope :=
            List.count_pos_iff.mp (by omega)
          rw [WeakScopeDispatcher.entries] at hmem
          cases hfind : (w.sinkDispatcher b).sinks.find? (w.connectors c).scope with
          | none => simp [hfind] at hmem
          | some sinks =>
              show ∃ w', (Socket.deactivate c).run w = .ok () w'
              rw [run_socketDeactivate_of_some hb, WeakScopeDispatcher.removeSink, hfind]
              exact ⟨_, rfl⟩

theorem Sound.activated (h : Sound kind w) (hactive : (w.connectors c).active = false)
    (bus : Except Exception B) :
    ∃ (x : Except Exception Unit) (w' : World C B),
      (activate kind bus c).run w = result (x.mapError .thrown) w' ∧
        Activated kind c w w' ∧ x.isOk = (kind c = .inprocess || bus.isOk) := by
  rw [activate]
  cases hkind : kind c with
  | inprocess =>
      refine ⟨.ok (), _, run_inprocessActivate, ⟨h.inprocessActivate hkind,
        (touches_bus _).trans (touches_modify _), ?_, ?_⟩, rfl⟩
      · rw [World.modify_connectors_self]
      · rw [if_pos hkind, World.modify_bus]
  | socket =>
      have hne : ¬ kind c = .inprocess := by
        rw [hkind]
        decide
      cases bus with
      | error e =>
          refine ⟨.error e, w, rfl, ⟨h, ⟨rfl, fun _ _ _ => ⟨rfl, fun _ _ => rfl⟩⟩, rfl, ?_⟩, rfl⟩
          rw [if_neg hne]
      | ok b =>
          refine ⟨.ok (), _, run_socketActivate b, ⟨h.socketActivate hkind hactive b,
            (touches_modify _).trans (touches_addSink b _), ?_, ?_⟩, rfl⟩
          · rw [World.setSinks_connectors, World.modify_connectors_self]
          · rw [if_neg hne]
            rfl

end

/-! ### Reachable states -/

theorem sound_init : Sound kind (World.init : World C B) := by
  refine ⟨fun hmem => ?_, fun hmem => ?_, fun _ _ => ⟨rfl, fun _ _ => rfl⟩⟩
  · cases hmem
  · cases hmem

variable {kind} in
theorem Sound.step {w w' : World C B} {l : Label C B} (h : Sound kind w)
    (hstep : step kind w l = some w') : Sound kind w' := by
  cases l with
  | setScope c scope =>
      obtain ⟨-, hstep⟩ := Option.ite_none_right_eq_some.mp hstep
      cases hactive : (w.connectors c).active with
      | true =>
          rw [run_setScope_of_active hactive] at hstep
          exact Option.some.inj hstep ▸ h
      | false =>
          rw [run_setScope hactive] at hstep
          exact Option.some.inj hstep ▸ h.setScope hactive scope
  | activate c bus =>
      obtain ⟨⟨-, hactive⟩, hstep⟩ := Option.ite_none_right_eq_some.mp hstep
      obtain ⟨x, w', hrun, hactivated, -⟩ := h.activated hactive bus
      rw [hrun] at hstep
      cases x with
      | ok => exact Option.some.inj hstep ▸ hactivated.sound
      | error e => exact Option.some.inj hstep ▸ hactivated.sound
  | deactivate c =>
      obtain ⟨halive, hstep⟩ := Option.ite_none_right_eq_some.mp hstep
      by_cases hfits : Fits kind w c
      · obtain ⟨w', hrun⟩ := h.run_deactivate halive hfits
        rw [hrun] at hstep
        exact Option.some.inj hstep ▸ (h.deactivated hrun).sound
      · obtain ⟨w', hrun⟩ := run_deactivate_of_not_fits hfits
        rw [hrun] at hstep
        cases hstep
  | handle scope =>
      obtain rfl := Option.some.inj hstep
      refine ⟨fun hmem => ?_, h.socket, fun hkind halive =>
        (h.own hkind halive).untouched ⟨rfl, fun _ _ => rfl⟩⟩
      obtain ⟨s', hmem⟩ := Inprocess.mem_list_fill hmem
      exact h.inprocess hmem
  | expire c =>
      obtain ⟨-, hstep⟩ := Option.ite_none_right_eq_some.mp hstep
      obtain rfl := Option.some.inj hstep
      refine ⟨h.inprocess, h.socket, fun {o} hkind halive => ?_⟩
      have hne : o ≠ c := by
        rintro rfl
        simp at halive
      have halive' : w.alive o = true := by simpa [hne] using halive
      exact (h.own hkind halive').untouched ⟨rfl, fun _ _ => rfl⟩
  | destructor c =>
      rw [ReceiveRoutes.step] at hstep
      split_ifs at hstep with halive hactive
      · split at hstep
        · next w₁ hrun =>
            obtain rfl := Option.some.inj hstep
            exact (h.deactivated hrun).sound
        · cases hstep
      · obtain rfl := Option.some.inj hstep
        exact h

theorem sound_of_reachable {w : World C B} (h : Reachable (step kind) World.init w) :
    Sound kind w := h.invariant (sound_init kind) fun _ _ _ h => h.step

/-! ### Loops over the connectors -/

/-- `setScope` and `activate` return for `c`. -/
def activates (getBus : C → Except Exception B) (w : World C B) (c : C) : Bool :=
  !(w.connectors c).active && (kind c = .inprocess || (getBus c).isOk)

def isInprocess (c : C) : Bool := kind c = .inprocess

/-- The in-process connectors that are activated in a loop. -/
def joined (getBus : C → Except Exception B) (w : World C B) (connectors : List C) : List C :=
  (connectors.takeWhile (activates kind getBus w)).filter (isInprocess kind)

/-- What a loop over connectors keeps. -/
structure Visited (connectors : List C) (w w' : World C B) : Prop where
  sound : Sound kind w'
  alive : w'.alive = w.alive
  others : ∀ o, o ∉ connectors → w.alive o = true → Untouched w w' o

section

variable {kind} {w w' w'' : World C B} {c : C} {connectors : List C}

omit [LinearOrder C] [DecidableEq B] in
theorem isInprocess_iff : isInprocess kind c = true ↔ kind c = .inprocess := decide_eq_true_iff

theorem Visited.refl (h : Sound kind w) : Visited kind connectors w w :=
  ⟨h, rfl, fun _ _ _ => ⟨rfl, fun _ _ => rfl⟩⟩

theorem Visited.first (h : Sound kind w') (ht : Touches c w w') :
    Visited kind (c :: connectors) w w' :=
  ⟨h, ht.alive, fun o hnot ho => ht.others o (List.ne_of_not_mem_cons hnot) ho⟩

theorem Visited.cons (ht : Touches c w w') (h : Visited kind connectors w' w'') :
    Visited kind (c :: connectors) w w'' := by
  refine ⟨h.sound, h.alive.trans ht.alive, fun o hnot ho => ?_⟩
  obtain ⟨hne, hnot⟩ := List.ne_and_not_mem_of_not_mem_cons hnot
  exact (ht.others o hne ho).trans (h.others o hnot (by rw [ht.alive]; exact ho))

/-- One pass of the loop of `activate`. -/
theorem run_pass (h : Sound kind w) (getBus : C → Except Exception B) (scope : Scope)
    (c : C) :
    ∃ (x : Except Exception Unit) (w' : World C B),
      (setScope c scope >>= fun _ => activate kind (getBus c) c).run w =
        result (x.mapError .thrown) w' ∧
      x.isOk = activates kind getBus w c ∧ Sound kind w' ∧ Touches c w w' ∧
      (kind c = .inprocess → (w'.connectors c).scope =
        if activates kind getBus w c = true then scope else (w.connectors c).scope) ∧
      w'.bus = if activates kind getBus w c = true ∧ isInprocess kind c = true then
        w.bus.addSink c scope else w.bus := by
  cases hactive : (w.connectors c).active with
  | true =>
      have hset : (setScope c scope).run w = result (.error _) w := run_setScope_of_active hactive
      have hnot : activates kind getBus w c = false := by
        rw [activates, hactive]
        rfl
      refine ⟨.error _, w, run_bind hset, hnot.symm, h,
        ⟨rfl, fun _ _ _ => ⟨rfl, fun _ _ => rfl⟩⟩, fun _ => ?_, ?_⟩
      · rw [if_neg (by rw [hnot]; simp)]
      · rw [if_neg (by rw [hnot]; simp)]
  | false =>
      have hset : (setScope c scope).run w = result (.ok ()) (w.modify c _) := run_setScope hactive
      obtain ⟨x, w', hrun, hdone, hok⟩ := (h.setScope hactive scope).activated (c := c)
        (by rw [World.modify_connectors_self]; exact hactive) (getBus c)
      have hactivates : activates kind getBus w c = x.isOk := by
        rw [activates, hactive, hok]
        rfl
      have hbus := hdone.bus
      rw [World.modify_bus, World.modify_connectors_self] at hbus
      rw [run_bind hset]
      have htrue : kind c = .inprocess → activates kind getBus w c = true := fun hkind => by
        simp [hactivates, hok, hkind]
      refine ⟨x, w', hrun, hactivates.symm, hdone.sound, (touches_modify _).trans hdone.touches,
        fun hkind => ?_, ?_⟩
      · rw [hdone.scope, World.modify_connectors_self, if_pos (htrue hkind)]
      · rw [hbus]
        by_cases hkind : kind c = .inprocess
        · rw [if_pos hkind, if_pos ⟨htrue hkind, isInprocess_iff.mpr hkind⟩]
        · rw [if_neg hkind, if_neg fun hboth => hkind (isInprocess_iff.mp hboth.2)]

/-- The loop of `activate` gets as far as `p` says, and throws nothing but exceptions. -/
theorem run_activateAll (getBus : C → Except Exception B) (scope : Scope) {p : C → Bool}
    (h : Sound kind w) (hnodup : connectors.Nodup) (halive : ∀ c ∈ connectors, w.alive c = true)
    (hp : ∀ c ∈ connectors, p c = activates kind getBus w c) :
    ∃ (x : Except Exception Unit) (w' : World C B),
      (InRouteConfigurator.activateAll kind getBus scope connectors).run w =
        result (x.mapError .thrown) w' ∧ Visited kind connectors w w' ∧
      (∀ c ∈ connectors, kind c = .inprocess → (w'.connectors c).scope =
        if c ∈ connectors.takeWhile p then scope else (w.connectors c).scope) ∧
      w'.bus = w.bus.addAll scope ((connectors.takeWhile p).filter (isInprocess kind)) := by
  induction connectors generalizing w with
  | nil => exact ⟨.ok (), w, rfl, .refl h, fun _ hc => (List.not_mem_nil hc).elim, rfl⟩
  | cons it rest ih =>
      obtain ⟨hnot, hnodup⟩ := List.nodup_cons.mp hnodup
      obtain ⟨hit, hrest⟩ := List.forall_mem_cons.mp halive
      obtain ⟨hpit, hprest⟩ := List.forall_mem_cons.mp hp
      obtain ⟨x, w₁, hrun, hok, hsound, htouches, hscope, hbus⟩ := run_pass h getBus scope it
      rw [InRouteConfigurator.activateAll, ← bind_assoc, run_bind hrun]
      rw [← hok] at hbus hpit hscope
      have hsame : ∀ c ∈ rest, w₁.connectors c = w.connectors c := fun c hc =>
        (htouches.others c (fun heq => hnot (heq ▸ hc)) (hrest c hc)).connector
      cases x with
      | error e =>
          have hnone : (it :: rest).takeWhile p = [] :=
            List.takeWhile_cons_of_neg (by rw [hpit]; exact Bool.false_ne_true)
          refine ⟨.error e, w₁, rfl, .first hsound htouches, fun c hc hkind => ?_, ?_⟩
          · rw [hnone, if_neg List.not_mem_nil]
            rcases List.mem_cons.mp hc with rfl | hc
            · exact (hscope hkind).trans (if_neg Bool.false_ne_true)
            · rw [hsame c hc]
          · rw [hbus, if_neg (fun hboth => nomatch hboth.1), hnone]
            rfl
      | ok =>
          have hfirst : (it :: rest).takeWhile p = it :: rest.takeWhile p :=
            List.takeWhile_cons_of_pos (by rw [hpit]; rfl)
          obtain ⟨x, w₂, hrun₂, hvisited, hscopes, hbus₂⟩ := ih hsound hnodup
            (fun c hc => by rw [htouches.alive]; exact hrest c hc)
            (fun c hc => by rw [hprest c hc, activates, activates, hsame c hc])
          refine ⟨x, w₂, hrun₂, hvisited.cons htouches, fun c hc hkind => ?_, ?_⟩
          · rw [hfirst]
            rcases List.mem_cons.mp hc with rfl | hc
            · rw [(hvisited.others c hnot (by rw [htouches.alive]; exact hit)).connector,
                hscope hkind, if_pos List.mem_cons_self]
              rfl
            · have hne : c ≠ it := fun heq => hnot (heq ▸ hc)
              rw [hscopes c hc hkind, hsame c hc]
              simp [hne]
          · rw [hbus₂, hbus, hfirst, List.filter_cons]
            by_cases hkind : isInprocess kind it = true
            · rw [if_pos ⟨rfl, hkind⟩, if_pos hkind]
              rfl
            · rw [if_neg fun hboth => hkind hboth.2, if_neg hkind]

/-- The loop of `deactivate` does not throw. -/
theorem run_deactivateAll (h : Sound kind w) (hnodup : connectors.Nodup)
    (halive : ∀ c ∈ connectors, w.alive c = true) (hfits : ∀ c ∈ connectors, Fits kind w c) :
    ∃ w', (InRouteConfigurator.deactivateAll kind connectors).run w = .ok () w' ∧
      Visited kind connectors w w' ∧ (∀ c ∈ connectors, (w'.connectors c).active = false) ∧
      w'.bus = w.bus.eraseAll w.alive (connectors.filter (isInprocess kind)) := by
  induction connectors generalizing w with
  | nil => exact ⟨w, rfl, .refl h, fun _ hc => (List.not_mem_nil hc).elim, rfl⟩
  | cons it rest ih =>
      obtain ⟨hnot, hnodup⟩ := List.nodup_cons.mp hnodup
      obtain ⟨hit, hrest⟩ := List.forall_mem_cons.mp halive
      obtain ⟨hfit, hfits⟩ := List.forall_mem_cons.mp hfits
      obtain ⟨w₁, hrun⟩ := h.run_deactivate hit hfit
      have hdone := h.deactivated hrun
      have halive₁ := hdone.touches.alive
      obtain ⟨w₂, hrun₂, hvisited, hinactive, hbus⟩ := ih hdone.sound hnodup
        (fun c hc => by rw [halive₁]; exact hrest c hc)
        (fun c hc => by
          rw [Fits, (hdone.touches.others c (fun heq => hnot (heq ▸ hc)) (hrest c hc)).connector]
          exact hfits c hc)
      have hfirst : (deactivate kind it).run w = result (.ok ()) w₁ := hrun
      refine ⟨w₂, ?_, hvisited.cons hdone.touches, ?_, ?_⟩
      · rw [InRouteConfigurator.deactivateAll, run_bind hfirst]
        exact hrun₂
      · rw [List.forall_mem_cons]
        refine ⟨?_, hinactive⟩
        rw [(hvisited.others it hnot (by rw [halive₁]; exact hit)).connector]
        exact hdone.inactive
      · rw [hbus, halive₁, hdone.bus, List.filter_cons]
        by_cases hkind : kind it = .inprocess
        · rw [if_pos hkind, if_pos (isInprocess_iff.mpr hkind)]
          rfl
        · rw [if_neg hkind, if_neg (mt isInprocess_iff.mp hkind)]

/-- The loop of `deactivate` gets to the first connector whose scope does not fit. -/
theorem run_deactivateAll_of_not_fits (h : Sound kind w) (hnodup : connectors.Nodup)
    (halive : ∀ c ∈ connectors, w.alive c = true) (hfits : ¬ ∀ c ∈ connectors, Fits kind w c) :
    ∃ w', (InRouteConfigurator.deactivateAll kind connectors).run w = .error .writePastEnd w' := by
  induction connectors generalizing w with
  | nil => exact absurd (fun _ hc => (List.not_mem_nil hc).elim) hfits
  | cons it rest ih =>
      obtain ⟨hnot, hnodup⟩ := List.nodup_cons.mp hnodup
      obtain ⟨hit, hrest⟩ := List.forall_mem_cons.mp halive
      rw [InRouteConfigurator.deactivateAll]
      by_cases hfit : Fits kind w it
      · obtain ⟨w₁, hrun⟩ := h.run_deactivate hit hfit
        have hdone := h.deactivated hrun
        have hfirst : (deactivate kind it).run w = result (.ok ()) w₁ := hrun
        rw [run_bind hfirst]
        refine ih hdone.sound hnodup (fun c hc => by rw [hdone.touches.alive]; exact hrest c hc)
          fun hall => hfits (List.forall_mem_cons.mpr ⟨hfit, fun c hc => ?_⟩)
        have hfits₁ := hall c hc
        rwa [Fits, (hdone.touches.others c (fun heq => hnot (heq ▸ hc)) (hrest c hc)).connector]
          at hfits₁
      · obtain ⟨w', hrun⟩ := run_deactivate_of_not_fits hfit
        have hfirst : (deactivate kind it).run w = result (.error .writePastEnd) w' := hrun
        rw [run_bind hfirst]
        exact ⟨w', rfl⟩

end

/-! ### What a failed construction leaves -/

/-- The connectors in the order in which the configurator goes through them. -/
def route (connectors : List C) : List C := (SortedSet.ofElems connectors).keys

/-- The exception has left the constructor and there is nothing left of the route. -/
structure LeavesNothing (connectors : List C) (w w' : World C B) : Prop where
  inactive : ∀ c ∈ connectors, (w'.connectors c).active = false
  unregistered : ∀ c ∈ connectors, ∀ s, c ∉ w'.bus.list s ∧ ∀ b, c ∉ (w'.sinkDispatcher b).entries s
  others : ∀ o, o ∉ connectors → w.alive o = true → Untouched w w' o ∧ w.bus.Keeps w'.bus o

/-- The scopes that the in-process connectors of the route have when the activation throws fit:
that of the route, and where the activation did not get to, those from before. -/
def Fitting (getBus : C → Except Exception B) (connectors : List C) (scope : Scope)
    (w : World C B) : Prop :=
  ∀ c ∈ (route connectors).filter (isInprocess kind),
    (if c ∈ joined kind getBus w (route connectors) then scope
      else (w.connectors c).scope).SuperScopesFit

instance (getBus : C → Except Exception B) (connectors : List C) (scope : Scope)
    (w : World C B) : Decidable (Fitting kind getBus connectors scope w) :=
  inferInstanceAs (Decidable (∀ _ ∈ _, _))

/-- In the lists of the in-process bus, with those connectors at the end that have been added
when the activation throws, the removals find the in-process connectors of the route. -/
def Removable (getBus : C → Except Exception B) (connectors : List C) (scope : Scope)
    (w : World C B) : Prop :=
  let added := joined kind getBus w (route connectors)
  let sinks := (route connectors).filter (isInprocess kind)
  ∀ e ∈ (w.bus.opened scope added).sinks.entries, ∀ c ∈ sinks,
    Found (fun c => !w.alive c) sinks (if scope.covers e.1 then e.2 ++ added else e.2) c

instance (getBus : C → Except Exception B) (connectors : List C) (scope : Scope)
    (w : World C B) : Decidable (Removable kind getBus connectors scope w) := by
  unfold Removable
  infer_instance

section

variable {kind} {w w₁ w' : World C B} {connectors : List C} {scope : Scope}

theorem mem_route {c : C} : c ∈ route connectors ↔ c ∈ connectors := by
  rw [route, SortedSet.mem_keys, SortedSet.mem_ofElems]

theorem foldl_addConnector (r : InRouteConfigurator C E) (connectors : List C) :
    connectors.foldl InRouteConfigurator.addConnector r =
      { r with connectors := connectors.foldl SortedSet.add r.connectors } := by
  induction connectors generalizing r with
  | nil => rfl
  | cons c connectors ih => exact ih (r.addConnector c)

/-- The socket connectors are gone, and so it is a question about the in-process bus. -/
theorem leavesNothing_iff (h : Sound kind w') (halive : ∀ c ∈ connectors, w'.alive c = true)
    (hinactive : ∀ c ∈ connectors, (w'.connectors c).active = false)
    (hothers : ∀ o, o ∉ connectors → w.alive o = true →
      Untouched w w' o ∧ w.bus.Keeps w'.bus o) :
    LeavesNothing connectors w w' ↔
      ∀ c ∈ (route connectors).filter (isInprocess kind), ∀ s, c ∉ w'.bus.list s := by
  constructor
  · intro hnothing c hc s
    exact (hnothing.unregistered c (mem_route.mp (List.mem_filter.mp hc).1) s).1
  · intro hlists
    refine ⟨hinactive, fun c hc s => ?_, hothers⟩
    cases hkind : kind c with
    | inprocess =>
        refine ⟨hlists c (List.mem_filter.mpr ⟨mem_route.mpr hc, isInprocess_iff.mpr hkind⟩) s,
          fun b hmem => ?_⟩
        have hsocket := h.socket hmem
        rw [hkind] at hsocket
        cases hsocket
    | socket =>
        have hown := h.own hkind (halive c hc)
        refine ⟨fun hmem => ?_, fun b => ?_⟩
        · have hinprocess := h.inprocess hmem
          rw [hkind] at hinprocess
          cases hinprocess
        · rw [← List.count_eq_zero, hown.entries, hown.bus_eq_none (hinactive c hc)]
          simp

/-- An activation that throws leaves the state where the loop over the connectors ended. -/
theorem run_activate (env : Environment C B E) (r : InRouteConfigurator C E)
    {x : Except Exception Unit} (hrun : (InRouteConfigurator.activateAll kind env.getBus r.scope
      r.connectors.keys).run w = result (x.mapError .thrown) w₁) :
    ∃ y : Except Exception (InRouteConfigurator C E),
      (r.activate kind env).run w = result (y.mapError .thrown) w₁ := by
  have hbase : ∃ y : Except Exception (InRouteConfigurator C E),
      (r.baseActivate kind env).run w = result (y.mapError .thrown) w₁ := by
    rw [InRouteConfigurator.baseActivate, run_bind hrun]
    cases x with
    | error e => exact ⟨.error e, rfl⟩
    | ok =>
        cases hstrategy : env.createEventReceivingStrategy with
        | error e => exact ⟨.error e, rfl⟩
        | ok strategy => exact ⟨.ok { r with eventReceivingStrategy := some strategy }, rfl⟩
  obtain ⟨y, hy⟩ := hbase
  rw [InRouteConfigurator.activate, run_bind hy]
  cases y with
  | error e => exact ⟨.error e, rfl⟩
  | ok r =>
      cases hderived : env.derived with
      | error e => exact ⟨.error e, rfl⟩
      | ok => exact ⟨.ok r, rfl⟩

theorem run_destructor {r : InRouteConfigurator C E} (hshutdown : r.shutdown = false)
    (hrun : (InRouteConfigurator.deactivateAll kind r.connectors.keys).run w = .ok () w') :
    (r.destructor kind).run w = .ok () w' := by
  have hloop : (InRouteConfigurator.deactivateAll kind r.connectors.keys).run w =
      result (.ok ()) w' := hrun
  have hdeactivate : (r.deactivate kind).run w =
      result (.ok { r with eventReceivingStrategy := none, shutdown := true }) w' := by
    rw [InRouteConfigurator.deactivate, run_bind hloop]
    rfl
  rw [InRouteConfigurator.destructor, if_neg (by rw [hshutdown]; exact Bool.false_ne_true),
    run_bind hdeactivate]
  rfl

theorem run_destructor_of_error {r : InRouteConfigurator C E} (hshutdown : r.shutdown = false)
    {f : Fault}
    (hrun : (InRouteConfigurator.deactivateAll kind r.connectors.keys).run w = .error f w') :
    (r.destructor kind).run w = .error f w' := by
  have hloop : (InRouteConfigurator.deactivateAll kind r.connectors.keys).run w =
      result (.error f) w' := hrun
  have hdeactivate : (r.deactivate kind).run w = result (.error f) w' := by
    rw [InRouteConfigurator.deactivate, run_bind hloop]
    rfl
  rw [InRouteConfigurator.destructor, if_neg (by rw [hshutdown]; exact Bool.false_ne_true),
    run_bind hdeactivate]

omit [DecidableEq B] in
theorem fitting_iff {getBus : C → Except Exception B}
    (hscopes : ∀ c ∈ route connectors, kind c = .inprocess → (w₁.connectors c).scope =
      if c ∈ (route connectors).takeWhile (activates kind getBus w) then scope
      else (w.connectors c).scope) :
    Fitting kind getBus connectors scope w ↔ ∀ c ∈ route connectors, Fits kind w₁ c := by
  have hjoined : ∀ c, kind c = .inprocess → (c ∈ joined kind getBus w (route connectors) ↔
      c ∈ (route connectors).takeWhile (activates kind getBus w)) := by
    intro c hkind
    rw [joined, List.mem_filter, and_iff_left (isInprocess_iff.mpr hkind)]
  constructor
  · intro h c hc hkind
    have hfit := h c (List.mem_filter.mpr ⟨hc, isInprocess_iff.mpr hkind⟩)
    rwa [hscopes c hc hkind, ← if_congr (hjoined c hkind) rfl rfl]
  · intro h c hc
    obtain ⟨hc, hkind⟩ := List.mem_filter.mp hc
    have hkind := isInprocess_iff.mp hkind
    rw [if_congr (hjoined c hkind) rfl rfl, ← hscopes c hc hkind]
    exact h c hc hkind

/-- What has become of `w` when an exception leaves the constructor. -/
structure RolledBack (kind : C → Kind) (getBus : C → Except Exception B) (connectors : List C)
    (scope : Scope) (w w' : World C B) : Prop where
  sound : Sound kind w'
  alive : w'.alive = w.alive
  inactive : ∀ c ∈ connectors, (w'.connectors c).active = false
  others : ∀ o, o ∉ connectors → w.alive o = true → Untouched w w' o
  bus : w'.bus = (w.bus.addAll scope (joined kind getBus w (route connectors))).eraseAll
    w.alive ((route connectors).filter (isInprocess kind))

/-- However far the activation has got, the destructor of the configurator returns if the
scopes fit. -/
theorem construct_cases (env : Environment C B E) (h : Sound kind w)
    (halive : ∀ c ∈ connectors, w.alive c = true) :
    (∃ configurator w', construct kind env connectors scope w = .constructed configurator w') ∨
    (¬ Fitting kind env.getBus connectors scope w ∧
      construct kind env connectors scope w = .stopped .writePastEnd) ∨
    Fitting kind env.getBus connectors scope w ∧
      ∃ e w', construct kind env connectors scope w = .threw e w' ∧
        RolledBack kind env.getBus connectors scope w w' := by
  have hnodup : (route connectors).Nodup := SortedMap.nodup_keys _
  have hroute : ∀ c ∈ route connectors, w.alive c = true := fun c hc => halive c (mem_route.mp hc)
  obtain ⟨x, w₁, hrun, hvisited, hscopes, hbus⟩ := run_activateAll env.getBus scope h hnodup hroute
    fun _ _ => rfl
  have halive₁ : ∀ c ∈ route connectors, w₁.alive c = true := fun c hc => by
    rw [hvisited.alive]
    exact hroute c hc
  let r : InRouteConfigurator C E := ⟨scope, SortedSet.ofElems connectors, none, false⟩
  have hr : connectors.foldl InRouteConfigurator.addConnector (.new scope) = r :=
    foldl_addConnector (.new scope) connectors
  obtain ⟨y, hy⟩ := run_activate env r hrun
  rw [construct, hr]
  simp only [hy]
  cases y with
  | ok configurator => exact .inl ⟨configurator, w₁, rfl⟩
  | error e =>
      right
      by_cases hfits : ∀ c ∈ route connectors, Fits kind w₁ c
      · obtain ⟨w₂, hrun₂, hvisited₂, hinactive, hbus₂⟩ :=
          run_deactivateAll hvisited.sound hnodup halive₁ hfits
        have hback : RolledBack kind env.getBus connectors scope w w₂ := by
          refine ⟨hvisited₂.sound, hvisited₂.alive.trans hvisited.alive,
            fun c hc => hinactive c (mem_route.mpr hc), fun o hnot ho => ?_, ?_⟩
          · have hnot' : o ∉ route connectors := fun hmem => hnot (mem_route.mp hmem)
            exact (hvisited.others o hnot' ho).trans
              (hvisited₂.others o hnot' (by rw [hvisited.alive]; exact ho))
          · rw [hbus₂, hbus, hvisited.alive]
            rfl
        have hdestructor : (r.destructor kind).run w₁ = .ok () w₂ := run_destructor rfl hrun₂
        refine .inr ⟨(fitting_iff hscopes).mpr hfits, e, w₂, ?_, hback⟩
        simp only [result, Except.mapError, hdestructor]
      · obtain ⟨w₂, hrun₂⟩ :=
          run_deactivateAll_of_not_fits hvisited.sound hnodup halive₁ hfits
        have hdestructor : (r.destructor kind).run w₁ = .error .writePastEnd w₂ :=
          run_destructor_of_error rfl hrun₂
        refine .inl ⟨mt (fitting_iff hscopes).mp hfits, ?_⟩
        simp only [result, Except.mapError, hdestructor]

/-- When an exception leaves the constructor, the connectors are inactive, the socket buses
do not have them, and the others that exist are where they were. -/
theorem RolledBack.leavesNothing_iff {getBus : C → Except Exception B}
    (h : RolledBack kind getBus connectors scope w w')
    (halive : ∀ c ∈ connectors, w.alive c = true) :
    LeavesNothing connectors w w' ↔ Removable kind getBus connectors scope w := by
  have hothers : ∀ o, o ∉ connectors → w.alive o = true →
      Untouched w w' o ∧ w.bus.Keeps w'.bus o := by
    intro o hnot ho
    have hnot' : ∀ {l : List C}, l ⊆ route connectors → o ∉ l :=
      fun hl hmem => hnot (mem_route.mp (hl hmem))
    refine ⟨h.others o hnot ho, ?_⟩
    rw [h.bus]
    exact Inprocess.Bus.keeps_rollback
      (hnot' ((List.filter_sublist.trans (List.takeWhile_sublist _)).subset))
      (hnot' List.filter_sublist.subset) ho
  rw [ReceiveRoutes.leavesNothing_iff h.sound (by rw [h.alive]; exact halive) h.inactive hothers,
    h.bus]
  exact Inprocess.Bus.not_mem_rollback_iff ((SortedMap.nodup_keys _).filter _)
    fun c hc => halive c (mem_route.mp (List.mem_filter.mp hc).1)

end

/-- A receive route whose construction fails leaves nothing behind if, and only if, the
scopes of its in-process connectors fit and the removals find them among the dangling
pointers. -/
theorem failed_leavesNothing_iff (env : Environment C B E) (connectors : List C) (scope : Scope)
    {w : World C B} (hreach : Reachable (step kind) World.init w)
    (halive : ∀ c ∈ connectors, w.alive c = true)
    (hfails : ∀ configurator w', construct kind env connectors scope w ≠
      .constructed configurator w') :
    (∃ e w', construct kind env connectors scope w = .threw e w' ∧
      LeavesNothing connectors w w') ↔
      Fitting kind env.getBus connectors scope w ∧
        Removable kind env.getBus connectors scope w := by
  obtain ⟨configurator, w', hconstructed⟩ | ⟨hfits, hstopped⟩ | ⟨hfits, e, w', hthrew, hback⟩ :=
    construct_cases env (sound_of_reachable kind hreach) halive
  · exact absurd hconstructed (hfails configurator w')
  · constructor
    · rintro ⟨e, w', hthrew, -⟩
      cases hthrew.symm.trans hstopped
    · exact fun h => absurd h.1 hfits
  · rw [and_iff_right hfits]
    constructor
    · rintro ⟨e', w'', hthrew', hnothing⟩
      obtain ⟨rfl, rfl⟩ : e' = e ∧ w'' = w' := by simpa using hthrew'.symm.trans hthrew
      exact (hback.leavesNothing_iff halive).mp hnothing
    · intro hremovable
      exact ⟨e, w', hthrew, (hback.leavesNothing_iff halive).mpr hremovable⟩

/-- Connector 2 is one of the socket transport. -/
def twoTransports (c : ℕ) : Kind := if c = 2 then .socket else .inprocess

/-- Its bus cannot be reached. -/
def refused : Environment ℕ ℕ Unit :=
  ⟨fun _ => .error ⟨.other, bytes "Connection refused"⟩, .ok (), .ok ()⟩

/-- A route in a process without other participants. -/
theorem failed_leavesNothing_refused :
    ∃ e w', construct twoTransports refused [1, 2] .root World.init = .threw e w' ∧
      LeavesNothing [1, 2] World.init w' :=
  (failed_leavesNothing_iff twoTransports refused [1, 2] .root ⟨[], rfl⟩ (fun _ _ => rfl)
    (fun configurator w' h => by
      have hthrew : ∃ e w₁, construct twoTransports refused [1, 2] .root World.init =
          .threw e w₁ := ⟨_, _, rfl⟩
      obtain ⟨e, w₁, he⟩ := hthrew
      rw [he] at h
      cases h)).mpr (by decide)

/-- The destructor of connector 0 waits when the route with connectors 1 and 2 is made. -/
def waiting : List (Label ℕ ℕ) :=
  [.activate 0 (.error ⟨.other, []⟩), .expire 0]

/-- The pointer to connector 0 goes, and connector 1 stays in the list. -/
theorem failed_leaves_connector :
    ∃ w : World ℕ ℕ, exec (step twoTransports) World.init waiting = some w ∧
      (∀ c ∈ [1, 2], w.alive c = true) ∧
      ∃ e w', construct twoTransports refused [1, 2] .root w = .threw e w' ∧
        1 ∈ w'.bus.list .root ∧ ¬ LeavesNothing [1, 2] w w' := by
  refine ⟨_, rfl, by decide, _, _, rfl, by decide, fun h => ?_⟩
  exact (h.unregistered 1 (by decide) .root).1 (by decide)

end Rsb.EventProcessing.ReceiveRoutes
