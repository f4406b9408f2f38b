import NekoScript.EmitterOnceListeners
import Mathlib.Tactic

/-!
# Emissions whose listeners only return

If the listeners do nothing to the emitter, an emission calls each of them, and
leaves the permanent ones whose response is not the value that takes a listener
out.
-/

namespace NekoScript

open Programs ReentrantCalls GuardedRuns PrototypeChain Registries

namespace EventEmitter

variable {emitters : ℕ → Bool} {this : ℕ} {evt : DukString} {args : List JSValue}
  {w w' : EmitterWorld} {l : EmissionLocals}

/-- Each listener returns its response. -/
def responding (response : ℕ → JSValue) :
    (op : EmitterOp) → EmitterWorld → EmissionLocals → Option op.Answer
  | .returns, _, l => l.called.head?.map fun call => response call.listener
  | _, _, _ => none

def leaving (w : EmitterWorld) (this : ℕ) (response : ℕ → JSValue) (listener : ℕ) : Bool :=
  strictEquals (response listener) (w.getOnceReturnValue this)

/-! ## An emitter that has its own events -/

def OwnsEvents (w : EmitterWorld) (this : ℕ) : Prop :=
  ∃ table, w.objects.own this .events = some (.events table)

theorem objects_foldl_setArray
    (change : List ListenerObject → List ListenerObject) :
    ∀ (events : List (DukString × ℕ)) (w : EmitterWorld),
      (events.foldl (fun w event => w.setArray event.2 (change (w.arrays event.2)))
        w).objects = w.objects
  | [], _ => rfl
  | event :: events, w => by
      rw [List.foldl_cons, objects_foldl_setArray change events]
      rfl

theorem OwnsEvents.getListenersAsObject
    (h : OwnsEvents w this) (evt : Selector) :
    ∃ events w', w.getListenersAsObject this evt = some (events, w') ∧
      w'.objects = w.objects := by
  obtain ⟨table, hown⟩ := h
  have hevents : w.getEvents this = some (table, w) := by
    unfold EmitterWorld.getEvents
    rw [Heap.lookup_eq_of_own hown]
  unfold EmitterWorld.getListenersAsObject EmitterWorld.getListeners
  rw [hevents]
  cases evt with
  | regExp test => exact ⟨_, w, rfl, rfl⟩
  | string evt =>
      simp only [Option.map_some]
      cases (w.tables table).lookup evt with
      | some array => exact ⟨_, w, rfl, rfl⟩
      | none =>
          by_cases hinherited : inheritedKeys.contains evt = true
          · exact ⟨_, w, by rw [if_pos hinherited], rfl⟩
          · exact ⟨_, w.addEvent table evt, by rw [if_neg hinherited], rfl⟩

theorem OwnsEvents.changeListeners
    (h : OwnsEvents w this) (evt : Selector)
    (change : List ListenerObject → List ListenerObject) :
    ∃ w', w.changeListeners this evt change = some w' ∧ w'.objects = w.objects := by
  obtain ⟨events, w₁, hget, hobjects⟩ := h.getListenersAsObject evt
  unfold EmitterWorld.changeListeners
  rw [hget]
  refine ⟨_, rfl, ?_⟩
  rw [objects_foldl_setArray change events w₁]
  exact hobjects

/-! ## One listener -/

/-- The emission has changed nothing but the listeners of its event, which are
`listeners` now. -/
structure Emitted (emitters : ℕ → Bool) (this : ℕ) (evt : DukString) (start : EmitterWorld)
    (listeners : List ListenerObject) (w : EmitterWorld) : Prop where
  separate : Separate emitters w
  exists_this : this < w.nextObject
  owns : OwnsEvents w this
  onceReturnValue : w.getOnceReturnValue this = start.getOnceReturnValue this
  listeners : ∀ object name, (w.registryOf object).listeners name =
    if object = this ∧ name = evt then listeners else (start.registryOf object).listeners name

theorem listeners_change_string
    {change : List ListenerObject → List ListenerObject} (hnil : change [] = [])
    {registry : EventRegistry} (hnames : ∀ name ∈ registry.names, name ∉ inheritedKeys)
    (evt name : DukString) :
    ((Selector.string evt).change change registry).listeners name =
      if name = evt then change (registry.listeners name) else registry.listeners name := by
  by_cases hinherited : evt ∈ inheritedKeys
  · rw [change_of_inherited hinherited]
    split
    · rename_i heq
      have hnone : registry.listeners name = [] :=
        Registry.listeners_of_notMem fun hmem => hnames name hmem (heq ▸ hinherited)
      rw [hnone, hnil]
    · rfl
  · rw [change_of_not_inherited hinherited, Registry.listeners_changeAt]

variable {start : EmitterWorld} {listeners : List ListenerObject}

theorem Emitted.removeListener
    (h : Emitted emitters this evt start listeners w) (hthis : emitters this = true)
    (listener : ℕ) :
    ∃ w', w.removeListener this (.string evt) (.function listener) = some w' ∧
      Emitted emitters this evt start (unregister listener listeners) w' := by
  obtain ⟨w', hremove, hobjects⟩ := h.owns.changeListeners (.string evt)
    (spliceListener (.function listener))
  have hstep := h.separate.changeListeners hthis h.exists_this hremove
  rw [spliceListener_eq] at hstep
  refine ⟨w', hremove, hstep.separate, hstep.nextObject ▸ h.exists_this, ?_, ?_, ?_⟩
  · unfold OwnsEvents
    rw [hobjects]
    exact h.owns
  · rw [← h.onceReturnValue]
    unfold EmitterWorld.getOnceReturnValue
    rw [hobjects]
  · intro object name
    by_cases hobject : object = this
    · subst hobject
      have hold := h.listeners object name
      have hself : w'.registryOf object =
          (Selector.string evt).change (unregister listener) (w.registryOf object) := hstep.self
      rw [hself, listeners_change_string rfl h.separate.names_notInherited, hold]
      split <;> simp_all
    · rw [hstep.others object hobject, h.listeners object name]
      simp [hobject]

theorem performAlone_effect (response : ℕ → JSValue)
    {op : EmitterOp} {answer : op.Answer} {l' : EmissionLocals} (hawaits : op.awaits = false)
    (heffect : emitterEffect op w l = some (answer, w', l')) :
    emitterHost.performAlone (responding response) op (w, l) = (.ok answer, (w', l')) :=
  Host.performAlone_effect hawaits heffect

theorem performAlone_returns (response : ℕ → JSValue) (call : AppliedListener) :
    emitterHost.performAlone (responding response) .returns (w, l.record call) =
      (.ok (response call.listener), (w, l.record call)) := rfl

theorem Emitted.ends_removeIf
    (h : Emitted emitters this evt start listeners w) (hthis : emitters this = true)
    (response : ℕ → JSValue) (condition : Bool) (listener : ℕ) :
    (removeIf condition this (.string evt) listener).Ends
      (emitterHost.performAlone (responding response))
      (fun _ s => s.2 = l ∧ Emitted emitters this evt start
        (if condition then unregister listener listeners else listeners) s.1) (w, l) := by
  unfold removeIf
  cases condition with
  | false => exact ⟨(), (w, l), rfl, rfl, h⟩
  | true =>
      obtain ⟨w', hremove, hemitted⟩ := h.removeListener hthis listener
      have hperform := performAlone_effect response rfl (effect_removeListener hremove l)
      exact (Program.ends_perform hperform).mpr ⟨(), (w', l), rfl, rfl, hemitted⟩

theorem Emitted.ends_callListener
    (h : Emitted emitters this evt start listeners w) (hthis : emitters this = true)
    (response : ℕ → JSValue) (listener : ListenerObject) :
    (callListener this (.string evt) args listener).Ends
      (emitterHost.performAlone (responding response))
      (fun _ s => s.2 = l.record ⟨this, listener.listener, args⟩ ∧
        Emitted emitters this evt start
          (afterCall (leaving start this response) listener listeners) s.1) (w, l) := by
  apply Program.ends_bind.mpr
  apply (h.ends_removeIf hthis response listener.once listener.listener).mono
  rintro _ ⟨w₁, l₁⟩ ⟨rfl, hemitted⟩
  have happly : emitterEffect (.apply this (.string evt) listener args) w₁ l₁ =
      some ((), w₁, l₁.record ⟨this, listener.listener, args⟩) := rfl
  have hread : emitterEffect (.getOnceReturnValue this) w₁
      (l₁.record ⟨this, listener.listener, args⟩) =
        some (w₁.getOnceReturnValue this, w₁, l₁.record ⟨this, listener.listener, args⟩) := rfl
  apply (Program.ends_perform (performAlone_effect response rfl happly)).mpr
  apply (Program.ends_perform (performAlone_returns response _)).mpr
  apply (Program.ends_perform (performAlone_effect response rfl hread)).mpr
  rw [hemitted.onceReturnValue]
  exact hemitted.ends_removeIf hthis response (leaving start this response listener.listener)
    listener.listener

/-! ## The whole emission -/

theorem onceReturnValue_of_getEvents
    (hseparate : Separate emitters w) (hexists : this < w.nextObject) {table : ℕ}
    (hget : w.getEvents this = some (table, w')) :
    w'.getOnceReturnValue this = w.getOnceReturnValue this := by
  unfold EmitterWorld.getEvents at hget
  cases hlookup : w.objects.lookup .events prototypeChainSanity this with
  | chainLimit => simp [hlookup] at hget
  | found holder value =>
      cases value with
      | value => simp [hlookup] at hget
      | events found =>
          simp only [hlookup, Option.some.injEq, Prod.mk.injEq] at hget
          rw [hget.2]
  | absent =>
      simp only [hlookup, Option.some.injEq, Prod.mk.injEq] at hget
      have hown : w'.objects.own this .onceReturnValue =
          w.objects.own this .onceReturnValue := by
        rw [← hget.2]
        refine (Heap.own_setOwn _ _ _ _ _ ((hseparate.allocated this).mpr hexists)).trans ?_
        rw [if_neg (by simp)]
      unfold EmitterWorld.getOnceReturnValue
      rw [hown]

theorem onceReturnValue_of_getListenersAsObject
    (hseparate : Separate emitters w) (hexists : this < w.nextObject) {selector : Selector}
    {events : List (DukString × ℕ)}
    (hget : w.getListenersAsObject this selector = some (events, w')) :
    w'.getOnceReturnValue this = w.getOnceReturnValue this := by
  unfold EmitterWorld.getListenersAsObject EmitterWorld.getListeners at hget
  simp only [Option.map_eq_some_iff, Prod.exists] at hget
  obtain ⟨listeners, w₂, ⟨table, w₁, hevents, hlisteners⟩, hfound⟩ := hget
  rw [← onceReturnValue_of_getEvents hseparate hexists hevents, ← (Prod.mk.inj hfound).2]
  cases selector with
  | regExp test => rw [← (Prod.mk.inj hlisteners).2]
  | string evt =>
      simp only at hlisteners
      split at hlisteners
      · rw [← (Prod.mk.inj hlisteners).2]
      · split at hlisteners
        · rw [← (Prod.mk.inj hlisteners).2]
        · rw [← (Prod.mk.inj hlisteners).2]
          rfl

/-- Reading the listeners changes none of them. -/
theorem Separate.emitted
    (hseparate : Separate emitters w) (hthis : emitters this = true)
    (hexists : this < w.nextObject) {events : List (DukString × ℕ)}
    (hget : w.getListenersAsObject this (.string evt) = some (events, w')) :
    Emitted emitters this evt w ((w.registryOf this).listeners evt) w' := by
  obtain ⟨hstep, table, hown, _⟩ := hseparate.getListenersAsObject hthis hexists hget
  refine ⟨hstep.separate, hstep.nextObject ▸ hexists, ⟨table, hown⟩,
    onceReturnValue_of_getListenersAsObject hseparate hexists hget, ?_⟩
  intro object name
  by_cases hobject : object = this
  · subst hobject
    rw [hstep.self, listeners_change_string rfl hseparate.names_notInherited]
    split <;> simp_all
  · rw [hstep.others object hobject]
    simp [hobject]

theorem Emitted.ends_calls
    (h : Emitted emitters this evt start listeners w) (hthis : emitters this = true)
    (response : ℕ → JSValue) (hcalled : l.called = []) :
    (listeners.reverse.forM (callListener this (.string evt) args)).Ends
      (emitterHost.performAlone (responding response))
      (fun _ s => s.2.called = applied this args listeners ∧
        Emitted emitters this evt start
          (afterRound (leaving start this response) listeners listeners) s.1) (w, l) := by
  apply (Program.Ends.forM_rest (I := fun rest s => ∃ done, listeners = rest.reverse ++ done ∧
    s.2.called = applied this args done ∧
    Emitted emitters this evt start
      (afterRound (leaving start this response) done listeners) s.1) _ _).mono
  · rintro _ s ⟨done, hdone, hcalled, hemitted⟩
    rw [List.reverse_nil, List.nil_append] at hdone
    subst hdone
    exact ⟨hcalled, hemitted⟩
  · rintro listener rest ⟨w, l⟩ ⟨done, hdone, hcalled, hemitted⟩
    apply (hemitted.ends_callListener hthis response listener).mono
    rintro _ ⟨w', l'⟩ ⟨rfl, hemitted⟩
    refine ⟨listener :: done, ?_, congrArg (_ :: ·) hcalled, hemitted⟩
    rw [hdone, List.reverse_cons, List.append_assoc, List.singleton_append]
  · exact ⟨[], by simp, hcalled, h⟩

theorem ends_emitEvent
    (hseparate : Separate emitters w) (hthis : emitters this = true)
    (hexists : this < w.nextObject)
    (hfirst : PermanentFirst ((w.registryOf this).listeners evt))
    {events : List (DukString × ℕ)}
    (hget : w.getListenersAsObject this (.string evt) = some (events, w'))
    (response : ℕ → JSValue) (hcalled : l.called = []) :
    (emitEvent this (.string evt) args).Ends
      (emitterHost.performAlone (responding response))
      (fun _ s => s.2.called = applied this args ((w.registryOf this).listeners evt) ∧
        ∀ object name, (s.1.registryOf object).listeners name =
          if object = this ∧ name = evt then
            kept (leaving w this response) ((w.registryOf this).listeners evt)
          else (w.registryOf object).listeners name) (w, l) := by
  have hemitted := hseparate.emitted hthis hexists hget
  have heffect : emitterEffect (.getListenersAsObject this (.string evt)) w l =
      some (events, w', l) := congrArg (Option.map _) hget
  apply (Program.ends_perform (performAlone_effect response rfl heffect)).mpr
  rcases of_getListenersAsObject hget with ⟨rfl, hnone⟩ | ⟨array, rfl, harray⟩
  · rw [hseparate.listenersOf_eq] at hnone
    rw [hnone] at hemitted ⊢
    exact ⟨_, (w', l), rfl, hcalled, hemitted.listeners⟩
  · rw [hseparate.listenersOf_eq] at harray
    have hslice : emitterEffect (.slice array) w' l =
        some (w'.arrays array, w', { l with copies := w'.arrays array :: l.copies }) := rfl
    rw [← hfirst.afterRound]
    rw [← harray] at hemitted ⊢
    change Program.Ends _ _ (Program.bind (Program.perform (EmitterOp.slice array)
      fun listeners : List ListenerObject =>
        listeners.reverse.forM (callListener this (.string evt) args)) fun _ => .pure ()) _
    apply Program.ends_bind.mpr
    apply (Program.ends_perform (performAlone_effect response rfl hslice)).mpr
    have hcopied : EmissionLocals.called { l with copies := w'.arrays array :: l.copies } = [] :=
      hcalled
    apply (hemitted.ends_calls hthis response hcopied).mono
    rintro _ s ⟨hcalled, hemitted⟩
    exact ⟨_, s, rfl, hcalled, hemitted.listeners⟩

/-- Wherever a run in which the objects given to the methods are for one call has
come to, an emission whose listeners only return calls all of them, the latest
first, and leaves the event its permanent registrations of the listeners whose
response is not the value that takes a listener out. -/
theorem undisturbed_emission
    {choices : List (Choice EmitterCall EmitterOp EmitterOp.Answer CreateObject)}
    {s : State EmitterCall EmitterOp EmitterOp.Answer Unit OperationWorld EmissionLocals}
    (hrun : GuardedRun (emitterHost.observe operations).step
      ((ordering emitters).Guard (emitterHost.observe operations))
      ⟨(EmitterWorld.initial, []), []⟩ choices s)
    (hthis : emitters this = true) (hexists : this < s.world.1.nextObject)
    (hget : (s.world.1.getListenersAsObject this (.string evt)).isSome = true)
    (response : ℕ → JSValue) :
    (emitEvent this (.string evt) args).Ends
      (emitterHost.performAlone (responding response))
      (fun _ after =>
        after.2.called = applied this args ((s.world.1.registryOf this).listeners evt) ∧
        ∀ object name, (after.1.registryOf object).listeners name =
          if object = this ∧ name = evt then
            kept (leaving s.world.1 this response) ((s.world.1.registryOf this).listeners evt)
          else (s.world.1.registryOf object).listeners name)
      (s.world.1, ⟨(s.world.1.registryOf this).listeners evt, [], []⟩) := by
  have hordered := ordering_sound.inv_of_guardedRun ordered_initial hrun
  have hseparate := hordered.replayed.separate
  have hfirst := hordered.ordered this evt
  rw [← hordered.replayed.registries this] at hfirst
  obtain ⟨⟨events, w'⟩, hfound⟩ := Option.isSome_iff_exists.mp hget
  exact ends_emitEvent hseparate hthis hexists hfirst hfound response rfl

/-- Of a listener for one call and two permanent ones, one of which returns
`true`, the other one stays. -/
def addThree : List (Choice EmitterCall EmitterOp EmitterOp.Answer CreateObject) :=
  [.external ⟨prototypeId⟩,
    .enter (.method 1 (.addOnceListener (.string clicked) 7)),
    .enter (.method 1 (.addListener (.string clicked) (.function 8))),
    .enter (.method 1 (.addListener (.string clicked) (.function 9)))]

theorem undisturbed_emission_addThree :
    ∃ s, run (emitterHost.observe operations).step ⟨(EmitterWorld.initial, []), []⟩ addThree =
        some s ∧
      (emitEvent 1 (.string clicked) []).Ends
        (emitterHost.performAlone (responding fun listener => .boolean (listener = 8)))
        (fun _ after => after.2.called.map AppliedListener.listener = [7, 8, 9] ∧
          (after.1.registryOf 1).listeners clicked = [⟨9, false⟩])
        (s.world.1, ⟨(s.world.1.registryOf 1).listeners clicked, [], []⟩) := by
  have hchecked : ((checkedRun (emitterHost.observe operations).step
      ((ordering (· ≠ prototypeId)).Guard (emitterHost.observe operations))
      ⟨(EmitterWorld.initial, []), []⟩ addThree).map
      fun s => ((s.world.1.registryOf 1).listeners clicked, s.world.1.nextObject,
        (s.world.1.getListenersAsObject 1 (.string clicked)).isSome,
        s.world.1.getOnceReturnValue 1)) =
        some ([⟨7, true⟩, ⟨8, false⟩, ⟨9, false⟩], 2, true, .boolean true) := by
    decide +kernel
  obtain ⟨s, hs, hfacts⟩ := Option.map_eq_some_iff.mp hchecked
  simp only [Prod.mk.injEq] at hfacts
  obtain ⟨hlisteners, hnext, hget, hvalue⟩ := hfacts
  have hrun := GuardedRun.of_checkedRun hs
  refine ⟨s, hrun.run_eq, ?_⟩
  have hends : (emitEvent 1 (.string clicked) []).Ends _ _ _ :=
    undisturbed_emission hrun rfl (by omega) hget fun listener => .boolean (listener = 8)
  apply hends.mono
  rintro _ after ⟨hcalled, hafter⟩
  rw [hcalled, hafter 1 clicked, if_pos ⟨rfl, rfl⟩, hlisteners]
  refine ⟨rfl, ?_⟩
  simp [kept, leaving, strictEquals, hvalue]

end EventEmitter

end NekoScript
