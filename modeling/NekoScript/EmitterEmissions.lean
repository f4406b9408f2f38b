import NekoScript.EmitterRegistries
import Mathlib.Tactic

/-!
# What an emission calls

An emission under a name calls the listeners that the event had when it began,
the latest first, whatever the listeners do to the emitter meanwhile.  One that
an error jumped over has called the first of them.
-/

namespace NekoScript

open Programs ReentrantCalls GuardedRuns PrototypeChain Registries

namespace EventEmitter

variable {w w' : EmitterWorld} {this : ℕ} {evt : DukString} {args : List JSValue}

/-! ## The listeners that are found -/

theorem of_getListenersAsObject
    {events : List (DukString × ℕ)}
    (hget : w.getListenersAsObject this (.string evt) = some (events, w')) :
    events = [] ∧ w.listenersOf this evt = [] ∨
      ∃ array, events = [(evt, array)] ∧ w'.arrays array = w.listenersOf this evt := by
  unfold EmitterWorld.getListenersAsObject EmitterWorld.getListeners
    EmitterWorld.getEvents at hget
  unfold EmitterWorld.listenersOf
  cases hlookup : w.objects.lookup .events prototypeChainSanity this with
  | chainLimit => simp [hlookup] at hget
  | absent =>
      simp only [hlookup, Option.map_some, Function.update_self, List.lookup_nil,
        Option.some.injEq, Prod.mk.injEq] at hget
      obtain ⟨rfl, rfl⟩ := hget
      split
      · exact .inl ⟨rfl, rfl⟩
      · exact .inr ⟨w.nextArray, rfl, by simp [EmitterWorld.addEvent, EmitterWorld.setEvents]⟩
  | found holder value =>
      cases value with
      | value => simp [hlookup] at hget
      | events table =>
          simp only [hlookup, Option.map_some, Option.some.injEq, Prod.mk.injEq] at hget
          cases hevent : (w.tables table).lookup evt with
          | some array =>
              simp only [hevent] at hget
              obtain ⟨rfl, rfl⟩ := hget
              exact .inr ⟨array, rfl, by simp [hevent]⟩
          | none =>
              simp only [hevent] at hget
              obtain ⟨rfl, rfl⟩ := hget
              split
              · exact .inl ⟨rfl, by simp [hevent]⟩
              · exact .inr ⟨w.nextArray, rfl, by simp [EmitterWorld.addEvent, hevent]⟩

theorem lookup_map_arrays (arrays : ℕ → List ListenerObject) (evt : DukString) :
    ∀ events : List (DukString × ℕ),
      Registry.listeners (events.map fun event => (event.1, arrays event.2)) evt =
        ((events.lookup evt).map arrays).getD []
  | [] => rfl
  | event :: events => by
      rw [List.map_cons, Registry.listeners_cons, lookup_map_arrays arrays evt events,
        List.lookup_cons]
      by_cases heq : evt = event.1
      · simp [heq]
      · rw [if_neg heq, show (evt == event.1) = false by simpa using heq]

theorem Separate.listenersOf_eq
    {emitters : ℕ → Bool} (h : Separate emitters w) :
    w.listenersOf this evt = (w.registryOf this).listeners evt := by
  unfold EmitterWorld.listenersOf
  cases hown : w.objects.own this .events with
  | none =>
      rw [registryOf_of_none hown]
      cases hlookup : w.objects.lookup .events prototypeChainSanity this with
      | chainLimit | absent => rfl
      | found holder value =>
          have hholder := h.lookup_eq hlookup
          rw [hholder] at hlookup
          rw [Heap.own_of_lookup hlookup] at hown
          contradiction
  | some value =>
      obtain ⟨_, table, _, rfl⟩ := h.owned hown
      rw [Heap.lookup_eq_of_own hown, registryOf_of_own hown, lookup_map_arrays]

/-! ## The rules of an emission -/

section Rules

variable {History : Type}
  {observer : Observer EmitterCall EmitterOp Unit EmissionLocals History}
  {D : Discipline EmitterCall EmitterOp EmitterOp.Answer CreateObject
    (EmitterWorld × History) EmissionLocals}
  {below : List (Frame EmitterCall EmissionLocals)} {call : EmitterCall}
  {entry w : EmitterWorld × History} {l : EmissionLocals} {selector : Selector}

theorem meets_removeIf
    {condition : Bool} {listener : ℕ} {F : EmitterWorld × History → EmissionLocals → Prop}
    (hremove : ∀ w₁, condition = true →
      w.1.removeListener this selector (.function listener) = some w₁ →
      F (w₁, observer.effect (.removeListener this selector listener) l w.2) l)
    (hkeep : condition = false → F w l) :
    D.Meets (emitterHost.observe observer) below call entry (fun _ => F)
      (removeIf condition this selector listener) w l := by
  unfold removeIf
  cases condition with
  | false => exact hkeep rfl
  | true =>
      apply Discipline.Meets.silent rfl
      intro _ w₁ l₁ heffect
      obtain ⟨hdone, hlog⟩ := Host.of_observe_effect heffect
      obtain ⟨w₂, hremoved, heq⟩ := Option.map_eq_some_iff.mp hdone
      cases heq
      have hF := hremove w₁.1 rfl hremoved
      rw [← hlog] at hF
      exact hF

/-- `F` holds when the listener is to be called, and `G` from then on. -/
theorem meets_callListener
    {listener : ListenerObject} {F G H : EmitterWorld × History → EmissionLocals → Prop}
    (hbefore : D.Meets (emitterHost.observe observer) below call entry (fun _ => F)
      (removeIf listener.once this selector listener.listener) w l)
    (happly : ∀ w l, F w l →
      G (w.1, observer.effect (.apply this selector listener args) l w.2)
        { l with called := ⟨this, listener.listener, args⟩ :: l.called })
    (hstable : D.Stable (emitterHost.observe observer) below call entry G)
    (hread : ∀ w l, G w l → G (w.1, observer.effect (.getOnceReturnValue this) l w.2) l)
    (hafter : ∀ w l condition, G w l →
      D.Meets (emitterHost.observe observer) below call entry (fun _ => H)
        (removeIf condition this selector listener.listener) w l) :
    D.Meets (emitterHost.observe observer) below call entry (fun _ => H)
      (callListener this selector args listener) w l := by
  apply Discipline.Meets.bind hbefore
  intro _ w l hF
  apply Discipline.Meets.silent rfl
  intro _ w₁ l₁ heffect
  obtain ⟨hdone, hlog⟩ := Host.of_observe_effect heffect
  have happlied : (w.1, { l with called := ⟨this, listener.listener, args⟩ :: l.called }) =
      (w₁.1, l₁) := congrArg Prod.snd (Option.some.inj hdone)
  obtain ⟨hworld, hl₁⟩ := Prod.mk.inj happlied
  have hw₁ : w₁ = (w.1, observer.effect (.apply this selector listener args) l w.2) :=
    Prod.ext hworld.symm hlog
  have hG := happly w l hF
  rw [← hw₁, hl₁] at hG
  apply Discipline.Meets.await hstable rfl hG
  intro w₂ response w₃ l₃ hG hresume _
  have hresumed : (w₂, l₁) = (w₃, l₃) := Option.some.inj hresume
  rw [(Prod.mk.inj hresumed).1, (Prod.mk.inj hresumed).2] at hG
  apply Discipline.Meets.silent rfl
  intro value w₄ l₄ heffect
  obtain ⟨hdone, hlog⟩ := Host.of_observe_effect heffect
  have hsame : (w₃.1, l₃) = (w₄.1, l₄) := congrArg Prod.snd (Option.some.inj hdone)
  obtain ⟨hworld, rfl⟩ := Prod.mk.inj hsame
  have hw₄ : w₄ = (w₃.1, observer.effect (.getOnceReturnValue this) l₃ w₃.2) :=
    Prod.ext hworld.symm hlog
  have hG := hread w₃ l₃ hG
  rw [← hw₄] at hG
  exact hafter w₄ l₃ _ hG

/-- `K events` holds before the turns of `events`, and `J events left` while,
before these, the listeners `left` are still to be called. -/
theorem meets_emitEvent
    {K : List (DukString × ℕ) → EmitterWorld × History → EmissionLocals → Prop}
    {J : List (DukString × ℕ) → List ListenerObject →
      EmitterWorld × History → EmissionLocals → Prop}
    (hget : ∀ events w₁, w.1.getListenersAsObject this selector = some (events, w₁) →
      K events (w₁, observer.effect (.getListenersAsObject this selector) l w.2) l)
    (hslice : ∀ event events w l, K (event :: events) w l →
      J events (w.1.arrays event.2) (w.1, observer.effect (.slice event.2) l w.2)
        { l with copies := w.1.arrays event.2 :: l.copies })
    (hcall : ∀ events left listener w l, J events (left ++ [listener]) w l →
      D.Meets (emitterHost.observe observer) below call entry (fun _ => J events left)
        (callListener this selector args listener) w l)
    (hnext : ∀ events w l, J events [] w l → K events w l) :
    D.Meets (emitterHost.observe observer) below call entry (fun _ => K [])
      (emitEvent this selector args) w l := by
  have hloop : ∀ {events listeners w l}, J events listeners w l →
      D.Meets (emitterHost.observe observer) below call entry (fun _ => K events)
        (listeners.reverse.forM (callListener this selector args)) w l := by
    intro events listeners w l hJ
    refine Discipline.Meets.mono ?_ fun _ w l => hnext events w l
    apply Discipline.Meets.forM (I := fun rest => J events rest.reverse)
    · intro listener rest w l hJ
      rw [List.reverse_cons] at hJ
      exact hcall events rest.reverse listener w l hJ
    · rwa [List.reverse_reverse]
  apply Discipline.Meets.silent rfl
  intro events w₁ l₁ heffect
  obtain ⟨hdone, hlog⟩ := Host.of_observe_effect heffect
  obtain ⟨⟨found, w₂⟩, hfound, heq⟩ := Option.map_eq_some_iff.mp hdone
  cases heq
  have hK := hget events w₁.1 hfound
  rw [← hlog] at hK
  apply Discipline.Meets.forM (I := K) _ hK
  intro event events w l hK
  apply Discipline.Meets.silent rfl
  intro (listeners : List ListenerObject) w₂ l₂ heffect
  obtain ⟨hdone, hlog⟩ := Host.of_observe_effect heffect
  have hread : ((w.1.arrays event.2, w.1, { l with copies := w.1.arrays event.2 :: l.copies }) :
      List ListenerObject × EmitterWorld × EmissionLocals) = (listeners, w₂.1, l₂) :=
    Option.some.inj hdone
  obtain ⟨rfl, hrest⟩ := Prod.mk.inj hread
  obtain ⟨hworld, rfl⟩ := Prod.mk.inj hrest
  have hw₂ : w₂ = (w.1, observer.effect (.slice event.2) l w.2) :=
    Prod.ext hworld.symm hlog
  subst hw₂
  exact hloop (hslice event events w l hK)

end Rules

/-! ## How emissions end -/

inductive Ending where
  | returned (frame : Frame EmitterCall EmissionLocals)
  | jumpedOver (frame : Frame EmitterCall EmissionLocals)

def endings : Observer EmitterCall EmitterOp Unit EmissionLocals (List Ending) where
  effect := fun _ _ log => log
  enter := fun _ _ log => log
  leave := fun frame _ log => .returned frame :: log
  abandon := fun frame log => .jumpedOver frame :: log

def applied (this : ℕ) (args : List JSValue) (listeners : List ListenerObject) :
    List AppliedListener :=
  listeners.map fun r => ⟨this, r.listener, args⟩

/-- What is in the copies is what was there when the emission began. -/
def EmissionLocals.CopiesStart (l : EmissionLocals) : Selector → Prop
  | .string _ => l.copies.flatten = l.start
  | .regExp _ => True

/-- An emission that returns has called what is in its copies, the latest
first; of one that is jumped over this is what it was about to do. -/
def Ending.Delivers : Ending → Prop
  | .returned ⟨.emitEvent this selector args, l⟩ =>
      l.called = applied this args l.copies.flatten ∧ l.CopiesStart selector
  | .jumpedOver ⟨.emitEvent this selector args, l⟩ =>
      l.called <:+ applied this args l.copies.flatten ∧ l.CopiesStart selector
  | _ => True

abbrev EndingWorld := EmitterWorld × List Ending

def delivering : Discipline EmitterCall EmitterOp EmitterOp.Answer CreateObject
    EndingWorld EmissionLocals where
  Inv := fun _ w => ∀ ending ∈ w.2, ending.Delivers
  Rely := fun _ _ => True
  rely_refl := fun _ => trivial
  rely_trans := fun _ _ => trivial
  mayEnter := fun _ _ _ => True
  mayAnswer := fun _ _ _ _ => True
  mayAbandon := fun _ _ => True
  mayExternal := fun _ _ _ => True

/-- While the listeners `left` are still to be called. -/
structure Calling (this : ℕ) (selector : Selector) (args : List JSValue)
    (left : List ListenerObject) (w : EndingWorld) (l : EmissionLocals) : Prop where
  delivered : ∀ ending ∈ w.2, ending.Delivers
  copiesStart : l.CopiesStart selector
  called : ∃ done, l.copies.flatten = left ++ done ∧ l.called = applied this args done

/-- Before the turns of `events`. -/
structure Turning (this : ℕ) (selector : Selector) (args : List JSValue)
    (events : List (DukString × ℕ)) (w : EndingWorld) (l : EmissionLocals) : Prop where
  delivered : ∀ ending ∈ w.2, ending.Delivers
  called : l.called = applied this args l.copies.flatten
  begins : ∀ name, selector = .string name → events ≠ [] →
    l.copies = [] ∧ (events.map fun event => w.1.arrays event.2) = [l.start]
  copiesStart : events = [] → l.CopiesStart selector

theorem Calling.suffix
    {selector : Selector} {left : List ListenerObject} {w : EndingWorld} {l : EmissionLocals}
    (h : Calling this selector args left w l) :
    l.called <:+ applied this args l.copies.flatten := by
  obtain ⟨done, hcopies, hcalled⟩ := h.called
  rw [hcopies, hcalled]
  unfold applied
  rw [List.map_append]
  exact List.suffix_append _ _

section Delivering

variable {below : List (Frame EmitterCall EmissionLocals)} {entry w : EndingWorld}
  {l : EmissionLocals} {selector : Selector} {left : List ListenerObject}

theorem stable_calling :
    delivering.Stable (emitterHost.observe endings) below (.emitEvent this selector args)
      entry (Calling this selector args left) := by
  constructor
  · exact fun _ _ h => h.delivered
  · exact fun _ _ _ h _ hinv => ⟨hinv, h.copiesStart, h.called⟩
  · intro w l h _
    refine ⟨?_, trivial⟩
    intro ending hending
    rcases List.mem_cons.mp hending with rfl | hending
    · exact ⟨h.suffix, h.copiesStart⟩
    · exact h.delivered ending hending

theorem Calling.removed {w₁ : EmitterWorld} (h : Calling this selector args left w l) :
    Calling this selector args left (w₁, w.2) l :=
  ⟨h.delivered, h.copiesStart, h.called⟩

theorem meets_calling {listener : ListenerObject}
    (h : Calling this selector args (left ++ [listener]) w l) :
    delivering.Meets (emitterHost.observe endings) below (.emitEvent this selector args)
      entry (fun _ => Calling this selector args left)
      (callListener this selector args listener) w l := by
  have hremoveIf : ∀ {left} condition {w l}, Calling this selector args left w l →
      delivering.Meets (emitterHost.observe endings) below (.emitEvent this selector args)
        entry (fun _ => Calling this selector args left)
        (removeIf condition this selector listener.listener) w l := by
    intro left condition w l h
    exact meets_removeIf (fun _ _ _ => h.removed) fun _ => h
  apply meets_callListener (F := Calling this selector args (left ++ [listener]))
    (G := Calling this selector args left) (hremoveIf listener.once h)
  · intro w l h
    obtain ⟨done, hcopies, hcalled⟩ := h.called
    refine ⟨h.delivered, h.copiesStart, listener :: done, ?_, ?_⟩
    · rw [hcopies, List.append_assoc, List.singleton_append]
    · rw [hcalled]
      rfl
  · exact stable_calling
  · exact fun _ _ h => h.removed
  · exact fun w l condition h => hremoveIf condition h

theorem Turning.calling {event : DukString × ℕ} {events : List (DukString × ℕ)}
    (h : Turning this selector args (event :: events) w l) :
    Calling this selector args (w.1.arrays event.2) w
        { l with copies := w.1.arrays event.2 :: l.copies } ∧
      ∀ name, selector = .string name → events = [] := by
  have hcalled : ∃ done, (w.1.arrays event.2 :: l.copies).flatten =
      w.1.arrays event.2 ++ done ∧ l.called = applied this args done :=
    ⟨l.copies.flatten, List.flatten_cons, h.called⟩
  cases selector with
  | regExp test => exact ⟨⟨h.delivered, trivial, hcalled⟩, by simp⟩
  | string name =>
      obtain ⟨hcopies, harrays⟩ := h.begins name rfl (List.cons_ne_nil _ _)
      rw [List.map_cons, List.cons.injEq, List.map_eq_nil_iff] at harrays
      refine ⟨⟨h.delivered, ?_, hcalled⟩, fun _ _ => harrays.2⟩
      change (w.1.arrays event.2 :: l.copies).flatten = l.start
      rw [hcopies, harrays.1]
      simp

theorem turning_of_getListenersAsObject
    {events : List (DukString × ℕ)} {w₁ : EmitterWorld}
    (hdelivered : ∀ ending ∈ w.2, ending.Delivers)
    (hl : l = ⟨(EmitterCall.emitEvent this selector args).start w.1, [], []⟩)
    (hget : w.1.getListenersAsObject this selector = some (events, w₁)) :
    Turning this selector args events (w₁, w.2) l := by
  subst hl
  cases selector with
  | regExp test => exact ⟨hdelivered, rfl, by simp, fun _ => trivial⟩
  | string name =>
      rcases of_getListenersAsObject hget with ⟨rfl, hnone⟩ | ⟨array, rfl, harray⟩
      · refine ⟨hdelivered, rfl, by simp, fun _ => ?_⟩
        change [] = w.1.listenersOf this name
        rw [hnone]
      · refine ⟨hdelivered, rfl, fun other hother _ => ⟨rfl, ?_⟩, by simp⟩
        change [w₁.arrays array] = [w.1.listenersOf this name]
        rw [harray]

theorem meets_turning
    (hdelivered : ∀ ending ∈ w.2, ending.Delivers)
    (hl : l = ⟨(EmitterCall.emitEvent this selector args).start w.1, [], []⟩) :
    delivering.Meets (emitterHost.observe endings) below (.emitEvent this selector args)
      entry (fun _ => Turning this selector args []) (emitEvent this selector args) w l := by
  apply meets_emitEvent (J := fun events left w l => Calling this selector args left w l ∧
    ∀ name, selector = .string name → events = [])
  · exact fun events w₁ hget => turning_of_getListenersAsObject hdelivered hl hget
  · exact fun event events w l h => h.calling
  · intro events left listener w l h
    exact (meets_calling h.1).mono fun _ _ _ hcalling => ⟨hcalling, h.2⟩
  · intro events w l h
    obtain ⟨done, hcopies, hcalled⟩ := h.1.called
    refine ⟨h.1.delivered, ?_, ?_, fun _ => h.1.copiesStart⟩
    · rw [hcalled, hcopies, List.nil_append]
    · exact fun name hname hne => absurd (h.2 name hname) hne

theorem delivering_sound : delivering.Sound (emitterHost.observe endings) := by
  constructor
  · intro below w awaited call w' l hinv _ henter
    obtain ⟨_, rfl, hl⟩ := of_emitter_enter henter
    refine ⟨trivial, ?_⟩
    cases call with
    | method this called =>
        apply Discipline.Meets.silent rfl
        intro _ w₁ l₁ heffect
        obtain ⟨_, hlog⟩ := Host.of_observe_effect heffect
        refine ⟨?_, trivial⟩
        intro ending hending
        rcases List.mem_cons.mp hending with rfl | hending
        · trivial
        · rw [hlog] at hending
          exact hinv ending hending
    | emitEvent this selector args =>
        refine (meets_turning hinv hl).mono ?_
        intro _ w l h
        refine ⟨?_, trivial⟩
        intro ending hending
        rcases List.mem_cons.mp hending with rfl | hending
        · exact ⟨h.called, h.copiesStart rfl⟩
        · exact h.delivered ending hending
  · intro stack w action w' hinv _ hexternal
    simp only [Host.observe, Option.map_eq_some_iff] at hexternal
    obtain ⟨w₁, _, rfl⟩ := hexternal
    exact ⟨hinv, trivial⟩

end Delivering

/-- In every run, each emission that has returned has called what its copies of
arrays held, the latest first, and each one that was jumped over has called the
first of these; under a name, they held what the event had when the emission
began. -/
theorem endings_deliver
    {choices : List (Choice EmitterCall EmitterOp EmitterOp.Answer CreateObject)}
    {s : State EmitterCall EmitterOp EmitterOp.Answer Unit EndingWorld EmissionLocals}
    (hrun : run (emitterHost.observe endings).step ⟨(EmitterWorld.initial, []), []⟩ choices =
      some s) :
    ∀ ending ∈ s.world.2, ending.Delivers := by
  have hpermissive : delivering.Permissive :=
    ⟨fun _ _ _ => trivial, fun _ _ _ _ => trivial, fun _ _ => trivial, fun _ _ _ => trivial⟩
  apply delivering_sound.inv_of_guardedRun _ (GuardedRun.of_run hpermissive.guard hrun)
  simp [delivering]

/-- The listener that is called first takes the other one out and adds a third;
in the next emission, this one throws. -/
def changeWhileEmitting : List (Choice EmitterCall EmitterOp EmitterOp.Answer CreateObject) :=
  [.external ⟨prototypeId⟩,
    .enter (.method 1 (.addListener (.string clicked) (.function 7))),
    .enter (.method 1 (.addListener (.string clicked) (.function 8))),
    .enter (.emitEvent 1 (.string clicked) []),
    .enter (.method 1 (.removeListener (.string clicked) (.function 7))),
    .enter (.method 1 (.addListener (.string clicked) (.function 9))),
    returning .undefined, returning .undefined,
    .enter (.emitEvent 1 (.string clicked) []), .raise 1]

def Ending.listeners : Ending → List ℕ
  | .returned frame | .jumpedOver frame => frame.locals.called.map AppliedListener.listener

theorem endings_deliver_changeWhileEmitting :
    ∃ s, run (emitterHost.observe endings).step ⟨(EmitterWorld.initial, []), []⟩
        changeWhileEmitting = some s ∧
      s.world.2.map Ending.listeners = [[9], [7, 8], [], [], [], []] ∧
      ∀ ending ∈ s.world.2, ending.Delivers := by
  have hlisteners : ((run (emitterHost.observe endings).step
      ⟨(EmitterWorld.initial, []), []⟩ changeWhileEmitting).map
      fun s => s.world.2.map Ending.listeners) = some [[9], [7, 8], [], [], [], []] := by
    decide +kernel
  obtain ⟨s, hs, hcalled⟩ := Option.map_eq_some_iff.mp hlisteners
  exact ⟨s, hs, hcalled, endings_deliver hs⟩

end EventEmitter

end NekoScript
