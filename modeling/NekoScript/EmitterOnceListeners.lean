import NekoScript.EmitterEmissions
import Mathlib.Tactic

/-!
# Listeners for one call

A registration for one call is taken out before its listener is called, and
the emission goes on with its copy of the array.  So an emission that begins
while one of the same event is suspended may call the listener again.  Apart
from this, it is not called more often than it was registered.
-/

namespace NekoScript

open Programs ReentrantCalls GuardedRuns Registries

namespace EventEmitter

/-! ## What the operations do to registrations -/

/-- An object `{ listener, once }` is for one call. -/
def ListenerArgument.wrapsOnce : ListenerArgument → Bool
  | .function _ => true
  | .wrapped object => object.once

def BulkValue.wrapsOnce : BulkValue → Bool
  | .function _ => true
  | .array listeners => listeners.all ListenerArgument.wrapsOnce

def EmitterMethod.wrapsOnce : EmitterMethod → Bool
  | .addListener _ listener => listener.wrapsOnce
  | .manipulateArray false _ listeners => listeners.all ListenerArgument.wrapsOnce
  | .manipulateObject false properties => properties.all fun property => property.2.wrapsOnce
  | _ => true

def EmitterOp.wrapsOnce : EmitterOp → Bool
  | .method _ called => called.wrapsOnce
  | _ => true

/-- All events have their permanent registrations first. -/
def WellOrdered (registry : EventRegistry) : Prop :=
  ∀ name, PermanentFirst (registry.listeners name)

theorem wellOrdered_change
    {change : List ListenerObject → List ListenerObject}
    (hchange : ∀ listeners, PermanentFirst listeners → PermanentFirst (change listeners))
    {registry : EventRegistry} (h : WellOrdered registry) (evt : Selector) :
    WellOrdered (evt.change change registry) := by
  intro name
  cases evt with
  | regExp test =>
      change PermanentFirst ((registry.changeWhere test change).listeners name)
      rw [Registry.listeners_changeWhere]
      split
      · exact hchange _ (h name)
      · exact h name
  | string evt =>
      by_cases hinherited : evt ∈ inheritedKeys
      · rw [change_of_inherited hinherited]
        exact h name
      · rw [change_of_not_inherited hinherited, Registry.listeners_changeAt]
        split
        · exact hchange _ (h name)
        · exact h name

theorem permanentFirst_appendOnce
    {listeners : List ListenerObject} (h : PermanentFirst listeners)
    {object : ListenerObject} (honce : object.once = true) :
    PermanentFirst (listeners ++ [object]) :=
  h.append fun _ _ _ => honce

theorem permanentFirst_attach
    {listeners : List ListenerObject} (h : PermanentFirst listeners)
    {listener : ListenerArgument} (honce : listener.wrapsOnce = true) :
    PermanentFirst (listener.attach listeners) := by
  cases listener with
  | function id => exact permanentFirst_register h id
  | wrapped object => exact permanentFirst_appendOnce h honce

theorem permanentFirst_detach
    {listeners : List ListenerObject} (h : PermanentFirst listeners)
    (listener : ListenerArgument) : PermanentFirst (listener.detach listeners) := by
  cases listener with
  | function id => exact permanentFirst_unregister h id
  | wrapped object => exact h

theorem wellOrdered_single
    {remove : Bool} {evt : Selector} {listener : ListenerArgument} {registry : EventRegistry}
    (h : WellOrdered registry) (honce : remove = false → listener.wrapsOnce = true) :
    WellOrdered (singleSpec remove evt listener registry) := by
  apply wellOrdered_change _ h
  intro listeners hlisteners
  cases remove with
  | true => exact permanentFirst_detach hlisteners listener
  | false => exact permanentFirst_attach hlisteners (honce rfl)

theorem wellOrdered_array
    {remove : Bool} {evt : Selector} {listeners : List ListenerArgument}
    {registry : EventRegistry} (h : WellOrdered registry)
    (honce : remove = false → listeners.all ListenerArgument.wrapsOnce = true) :
    WellOrdered (arraySpec remove evt listeners registry) := by
  induction listeners with
  | nil => exact h
  | cons listener listeners ih =>
      simp only [List.all_cons, Bool.and_eq_true] at honce
      apply wellOrdered_single
      · exact ih fun hremove => (honce hremove).2
      · exact fun hremove => (honce hremove).1

theorem wellOrdered_properties
    {remove : Bool} {properties : List (DukString × BulkValue)} {registry : EventRegistry}
    (h : WellOrdered registry)
    (honce : remove = false → properties.all (fun p => p.2.wrapsOnce) = true) :
    WellOrdered (properties.foldl (propertySpec remove) registry) := by
  induction properties generalizing registry with
  | nil => exact h
  | cons property properties ih =>
      simp only [List.all_cons, Bool.and_eq_true] at honce
      apply ih _ fun hremove => (honce hremove).2
      have hproperty : remove = false → property.2.wrapsOnce = true :=
        fun hremove => (honce hremove).1
      unfold propertySpec
      cases hvalue : property.2 with
      | function id => exact wellOrdered_single h fun _ => rfl
      | array listeners =>
          rw [hvalue] at hproperty
          exact wellOrdered_array h hproperty

theorem wellOrdered_method
    {called : EmitterMethod} (honce : called.wrapsOnce = true) {registry : EventRegistry}
    (h : WellOrdered registry) : WellOrdered (called.spec registry) := by
  cases called with
  | addListener evt listener =>
      exact wellOrdered_change (fun _ h => permanentFirst_attach h honce) h evt
  | addOnceListener evt listener =>
      exact wellOrdered_change (fun _ h => permanentFirst_appendOnce h rfl) h evt
  | removeListener evt listener =>
      exact wellOrdered_change (fun _ h => permanentFirst_detach h listener) h evt
  | getListeners evt => exact wellOrdered_change (fun _ h => h) h evt
  | setOnceReturnValue value => exact h
  | manipulateArray remove evt listeners =>
      apply wellOrdered_array h
      rintro rfl
      exact honce
  | manipulateObject remove properties =>
      apply wellOrdered_properties h
      rintro rfl
      exact honce
  | defineEvents evts =>
      change WellOrdered (evts.foldl _ registry)
      induction evts generalizing registry with
      | nil => exact h
      | cons evt evts ih =>
          refine ih ?_ rfl
          exact wellOrdered_change (fun _ h => h) h (.string evt)
  | removeEvent evt =>
      intro name
      cases evt with
      | none => exact permanentFirst_nil
      | some evt =>
          change PermanentFirst ((registry.removeWhere evt.matches).listeners name)
          rw [Registry.listeners_removeWhere]
          split
          · exact permanentFirst_nil
          · exact h name

theorem wellOrdered_op
    {op : EmitterOp} (honce : op.wrapsOnce = true) {registry : EventRegistry}
    (h : WellOrdered registry) : WellOrdered (op.spec registry) := by
  cases op with
  | method this called => exact wellOrdered_method honce h
  | getListenersAsObject this evt => exact wellOrdered_change (fun _ h => h) h evt
  | removeListener this evt listener =>
      exact wellOrdered_change (fun _ h => permanentFirst_unregister h listener) h evt
  | slice | apply | returns | getOnceReturnValue => exact h

theorem wellOrdered_replay_cons
    {object : ℕ} {log : List EmitterOp} (h : WellOrdered (replay object log)) {op : EmitterOp}
    (honce : op.wrapsOnce = true) : WellOrdered (replay object (op :: log)) := by
  change WellOrdered (if op.actor = some object then op.spec (replay object log)
    else replay object log)
  split
  · exact wellOrdered_op honce h
  · exact h

/-! ## Runs in which objects are for one call -/

abbrev OperationWorld := EmitterWorld × List EmitterOp

abbrev EmitterFrame := Frame EmitterCall EmissionLocals

def EmitterCall.wrapsOnce : EmitterCall → Bool
  | .method _ called => called.wrapsOnce
  | .emitEvent _ _ _ => true

structure Ordered (emitters : ℕ → Bool) (w : OperationWorld) : Prop where
  replayed : Replayed emitters w
  ordered : ∀ object, WellOrdered (replay object w.2)

def ordering (emitters : ℕ → Bool) : Discipline EmitterCall EmitterOp EmitterOp.Answer
    CreateObject OperationWorld EmissionLocals where
  Inv := fun _ w => Ordered emitters w
  Rely := fun w w' => w.1.nextObject ≤ w'.1.nextObject
  rely_refl := fun _ => le_rfl
  rely_trans := le_trans
  mayEnter := fun _ _ call => emitters call.this = true ∧ call.wrapsOnce = true
  mayAnswer := fun _ _ _ _ => True
  mayAbandon := fun _ _ => True
  mayExternal := fun _ _ action => emitters action.prototype = false

section Ordering

variable {emitters : ℕ → Bool} {below : List EmitterFrame} {call : EmitterCall}
  {w w' entry : OperationWorld} {w₁ : EmitterWorld} {op : EmitterOp}

theorem Ordered.step
    (h : Ordered emitters w) (hreplayed : Replayed emitters (w₁, op :: w.2))
    (honce : op.wrapsOnce = true) : Ordered emitters (w₁, op :: w.2) :=
  ⟨hreplayed, fun object => wellOrdered_replay_cons (h.ordered object) honce⟩

theorem Ordered.create
    (h : Ordered emitters w) {action : CreateObject}
    (hprototype : emitters action.prototype = false)
    (hcreate : (emitterHost.observe operations).external w action = some w') :
    Ordered emitters w' ∧ w.1.nextObject ≤ w'.1.nextObject ∧ w'.2 = w.2 := by
  obtain ⟨hreplayed, hle, hlog⟩ := h.replayed.create hprototype hcreate
  refine ⟨⟨hreplayed, ?_⟩, hle, hlog⟩
  rw [hlog]
  exact h.ordered

theorem ordered_initial : Ordered emitters (EmitterWorld.initial, []) :=
  ⟨replayed_initial, fun _ _ => permanentFirst_nil⟩

theorem all_wrapsOnce_body (h : call.wrapsOnce = true) :
    call.body.All fun op => op.wrapsOnce = true := by
  have hremoveIf : ∀ condition this evt listener,
      (removeIf condition this evt listener).All fun op => op.wrapsOnce = true := by
    intro condition this evt listener
    unfold removeIf
    split
    · exact ⟨rfl, fun _ => trivial⟩
    · exact trivial
  cases call with
  | method this called => exact ⟨h, fun _ => trivial⟩
  | emitEvent this selector args =>
      refine ⟨rfl, fun listenersMap => ?_⟩
      apply Program.All.forM
      intro event _
      refine ⟨rfl, fun listeners => ?_⟩
      apply Program.All.forM
      intro listener _
      apply Program.All.bind (hremoveIf _ this _ _)
      intro _
      exact ⟨rfl, fun _ => ⟨rfl, fun _ => ⟨rfl, fun _ => hremoveIf _ this _ _⟩⟩⟩

structure OrderedOn (emitters : ℕ → Bool) (this least : ℕ) (w : OperationWorld) : Prop where
  ordered : Ordered emitters w
  onEmitter : OnEmitter emitters this least w

theorem keeps_ordered {least : ℕ} (hon : op.On call.this) (honce : op.wrapsOnce = true) :
    (ordering emitters).Keeps (emitterHost.observe operations) call
      (fun w _ => OrderedOn emitters call.this least w) op := by
  constructor
  · intro _ answer w l w' l' h hresume _
    cases hresume
    exact h
  · intro _ answer w l w' l' h heffect
    obtain ⟨hdone, hlog⟩ := Host.of_observe_effect heffect
    have hw : w' = (w'.1, op :: w.2) := Prod.ext rfl hlog
    have honEmitter : OnEmitter emitters call.this least (w.1, w.2) := h.onEmitter
    have hstep := honEmitter.step hon hdone
    rw [hw]
    exact ⟨h.ordered.step hstep.replayed honce, hstep⟩

theorem stable_ordered :
    (ordering emitters).Stable (emitterHost.observe operations) below call entry
      (fun w _ => OrderedOn emitters call.this entry.1.nextObject w) := by
  constructor
  · exact fun _ _ h => h.ordered
  · intro w₁ w₂ _ h hrely hinv
    exact ⟨hinv, hinv.replayed, h.onEmitter.emitter, h.onEmitter.existed,
      h.onEmitter.least.trans hrely⟩
  · exact fun _ _ h _ => ⟨h.ordered, h.onEmitter.least⟩

theorem ordering_sound : (ordering emitters).Sound (emitterHost.observe operations) := by
  constructor
  · intro below w awaited call w' l hinv hmay henter
    obtain ⟨hexists, rfl, _⟩ := of_emitter_enter henter
    have hentered : OrderedOn emitters call.this w.1.nextObject w :=
      ⟨hinv, hinv.replayed, hmay.1, hexists, le_rfl⟩
    have hall := (all_body call).and (all_wrapsOnce_body hmay.2)
    have hmeets : (ordering emitters).Meets (emitterHost.observe operations) below call w
        (fun _ w' _ => OrderedOn emitters call.this w.1.nextObject w') call.body w l :=
      Discipline.Meets.of_all stable_ordered
        (hall.mono fun op hop => keeps_ordered hop.1 hop.2) hentered
    refine ⟨le_rfl, hmeets.mono ?_⟩
    exact fun _ _ _ h => ⟨h.ordered, h.onEmitter.least⟩
  · intro stack w action w' hinv hmay hexternal
    obtain ⟨hordered, hle, _⟩ := hinv.create hmay hexternal
    exact ⟨hordered, hle⟩

end Ordering

/-- In every run in which the objects given to the methods are for one call, an
event has at most one permanent registration of a listener, and those for one
call come after it. -/
theorem permanentFirst_of_guardedRun
    {emitters : ℕ → Bool}
    {choices : List (Choice EmitterCall EmitterOp EmitterOp.Answer CreateObject)}
    {s : State EmitterCall EmitterOp EmitterOp.Answer Unit OperationWorld EmissionLocals}
    (hrun : GuardedRun (emitterHost.observe operations).step
      ((ordering emitters).Guard (emitterHost.observe operations))
      ⟨(EmitterWorld.initial, []), []⟩ choices s) (object : ℕ) (evt : DukString) :
    PermanentFirst ((s.world.1.registryOf object).listeners evt) := by
  have hordered := ordering_sound.inv_of_guardedRun ordered_initial hrun
  rw [hordered.replayed.registries object]
  exact hordered.ordered object evt

instance (emitters : ℕ → Bool) (frames : List EmitterFrame) (w : OperationWorld)
    (call : EmitterCall) : Decidable ((ordering emitters).mayEnter frames w call) :=
  inferInstanceAs (Decidable (emitters call.this = true ∧ call.wrapsOnce = true))

instance (emitters : ℕ → Bool) (frame : EmitterFrame) (w : OperationWorld) (op : EmitterOp)
    (answer : op.Answer) : Decidable ((ordering emitters).mayAnswer frame w op answer) :=
  inferInstanceAs (Decidable True)

instance (emitters : ℕ → Bool) (frame : EmitterFrame) (w : OperationWorld) :
    Decidable ((ordering emitters).mayAbandon frame w) :=
  inferInstanceAs (Decidable True)

instance (emitters : ℕ → Bool) (frames : List EmitterFrame) (w : OperationWorld)
    (action : CreateObject) : Decidable ((ordering emitters).mayExternal frames w action) :=
  inferInstanceAs (Decidable (emitters action.prototype = false))

/-- A permanent listener is added twice, and registered for one call. -/
def addTwice : List (Choice EmitterCall EmitterOp EmitterOp.Answer CreateObject) :=
  [.external ⟨prototypeId⟩,
    .enter (.method 1 (.addListener (.string clicked) (.function 7))),
    .enter (.method 1 (.addOnceListener (.string clicked) 7)),
    .enter (.method 1 (.addListener (.string clicked) (.function 7)))]

theorem permanentFirst_addTwice :
    ∃ s, run (emitterHost.observe operations).step ⟨(EmitterWorld.initial, []), []⟩ addTwice =
        some s ∧
      (s.world.1.registryOf 1).listeners clicked = [⟨7, false⟩, ⟨7, true⟩] ∧
      PermanentFirst ((s.world.1.registryOf 1).listeners clicked) := by
  have hchecked : ((checkedRun (emitterHost.observe operations).step
      ((ordering (· ≠ prototypeId)).Guard (emitterHost.observe operations))
      ⟨(EmitterWorld.initial, []), []⟩ addTwice).map
      fun s => (s.world.1.registryOf 1).listeners clicked) =
        some [⟨7, false⟩, ⟨7, true⟩] := by
    decide +kernel
  obtain ⟨s, hs, hlisteners⟩ := Option.map_eq_some_iff.mp hchecked
  have hrun := GuardedRun.of_checkedRun hs
  exact ⟨s, hrun.run_eq, hlisteners, permanentFirst_of_guardedRun hrun 1 clicked⟩

/-! ## Counting -/

/-- The emitter, event and listener, if this calls a listener for one call in
an emission under a name. -/
def EmitterOp.onceCall : EmitterOp → Option (ℕ × DukString × ℕ)
  | .apply this (.string evt) ⟨listener, true⟩ _ => some (this, evt, listener)
  | _ => none

def onceCalls (object : ℕ) (evt : DukString) (listener : ℕ) (log : List EmitterOp) : ℕ :=
  log.countP fun op => op.onceCall = some (object, evt, listener)

def onceListed (object : ℕ) (evt : DukString) (listener : ℕ) (log : List EmitterOp) : ℕ :=
  onceCount listener ((replay object log).listeners evt)

/-- How many registrations for one call the operations in the log have added. -/
def onceRegistered (object : ℕ) (evt : DukString) (listener : ℕ) : List EmitterOp → ℕ
  | [] => 0
  | op :: log =>
      onceRegistered object evt listener log +
        (onceListed object evt listener (op :: log) - onceListed object evt listener log)

/-- There are enough registrations for the calls made, `due` calls that are
about to be made, and `pending` listeners in a copy of the array. -/
def Affords (object : ℕ) (evt : DukString) (listener : ℕ) (log : List EmitterOp)
    (due pending : ℕ) : Prop :=
  onceCalls object evt listener log + due +
      max (onceListed object evt listener log) pending ≤
    onceRegistered object evt listener log

section Affords

variable {object : ℕ} {evt : DukString} {listener due pending : ℕ} {log : List EmitterOp}
  {op : EmitterOp}

theorem Affords.cons (h : Affords object evt listener log due pending)
    (hop : op.onceCall ≠ some (object, evt, listener)) :
    Affords object evt listener (op :: log) due pending := by
  have hcalls : onceCalls object evt listener (op :: log) = onceCalls object evt listener log :=
    List.countP_cons_of_neg (by simpa using hop)
  unfold Affords at h ⊢
  rw [hcalls]
  unfold onceRegistered
  omega

theorem Affords.le {fewer : ℕ} (h : Affords object evt listener log due pending)
    (hle : fewer ≤ pending) : Affords object evt listener log due fewer := by
  unfold Affords at h ⊢
  omega

/-- The array is copied. -/
theorem Affords.copy (h : Affords object evt listener log 0 0) :
    Affords object evt listener log 0 (onceListed object evt listener log) := by
  unfold Affords at h ⊢
  omega

/-- A call that was due is made. -/
theorem Affords.call (h : Affords object evt listener log 1 pending)
    (hop : op.onceCall = some (object, evt, listener)) (hspec : op.actor = none) :
    Affords object evt listener (op :: log) 0 pending := by
  have hcalls : onceCalls object evt listener (op :: log) =
      onceCalls object evt listener log + 1 :=
    List.countP_cons_of_pos (by simpa using hop)
  have hlisted : onceListed object evt listener (op :: log) =
      onceListed object evt listener log := by
    have hreplay : replay object (op :: log) = replay object log :=
      if_neg (by simp [hspec])
    unfold onceListed
    rw [hreplay]
  unfold Affords at h ⊢
  unfold onceRegistered
  rw [hcalls, hlisted]
  omega

/-- A registration is taken out, and a call becomes due. -/
theorem Affords.remove
    (h : Affords object evt listener log 0 (pending + 1))
    (hordered : WellOrdered (replay object log))
    (hnames : ∀ name ∈ (replay object log).names, name ∉ inheritedKeys) :
    Affords object evt listener
      (.removeListener object (.string evt) listener :: log) 1 pending := by
  have hlisted : onceListed object evt listener
      (.removeListener object (.string evt) listener :: log) =
        onceListed object evt listener log - 1 := by
    have hreplay : replay object (.removeListener object (.string evt) listener :: log) =
        (Selector.string evt).change (unregister listener) (replay object log) := if_pos rfl
    unfold onceListed
    rw [hreplay]
    by_cases hinherited : evt ∈ inheritedKeys
    · have hnone : (replay object log).listeners evt = [] :=
        Registry.listeners_of_notMem fun hmem => hnames evt hmem hinherited
      rw [change_of_inherited hinherited, hnone]
      rfl
    · rw [change_of_not_inherited hinherited, Registry.listeners_changeAt, if_pos rfl]
      exact (hordered evt).onceCount_unregister listener
  have hcalls : onceCalls object evt listener
      (.removeListener object (.string evt) listener :: log) =
        onceCalls object evt listener log :=
    List.countP_cons_of_neg (by simp [EmitterOp.onceCall])
  unfold Affords at h ⊢
  unfold onceRegistered
  rw [hcalls, hlisted]
  omega

end Affords

/-! ## One emission of an event at a time -/

/-- An emission of this event of this emitter. -/
def EmitterCall.emits (object : ℕ) (evt : DukString) : EmitterCall → Bool
  | .emitEvent this (.string name) _ => this = object ∧ name = evt
  | _ => false

/-- The listeners in the copies that have not been called yet. -/
def EmissionLocals.left (l : EmissionLocals) : List ListenerObject :=
  l.copies.flatten.take (l.copies.flatten.length - l.called.length)

def pendingIn (object : ℕ) (evt : DukString) (listener : ℕ) (frame : EmitterFrame) : ℕ :=
  if frame.call.emits object evt then onceCount listener frame.locals.left else 0

def pending (object : ℕ) (evt : DukString) (listener : ℕ) (frames : List EmitterFrame) : ℕ :=
  (frames.map (pendingIn object evt listener)).sum

/-- Objects given to the methods are for one call, and an emission under a name
begins only while none of the same event is suspended. -/
def mayCall (frames : List EmitterFrame) : EmitterCall → Bool
  | .method _ called => called.wrapsOnce
  | .emitEvent this (.string evt) _ => frames.all fun frame => !frame.call.emits this evt
  | .emitEvent _ (.regExp _) _ => true

structure Afforded (emitters : ℕ → Bool) (frames : List EmitterFrame) (w : OperationWorld) :
    Prop extends Ordered emitters w where
  affords : ∀ object evt listener,
    Affords object evt listener w.2 0 (pending object evt listener frames)

def oneAtATime (emitters : ℕ → Bool) : Discipline EmitterCall EmitterOp EmitterOp.Answer
    CreateObject OperationWorld EmissionLocals where
  Inv := Afforded emitters
  Rely := fun w w' => w.1.nextObject ≤ w'.1.nextObject
  rely_refl := fun _ => le_rfl
  rely_trans := le_trans
  mayEnter := fun frames _ call => emitters call.this = true ∧ mayCall frames call = true
  mayAnswer := fun _ _ _ _ => True
  mayAbandon := fun _ _ => True
  mayExternal := fun _ _ action => emitters action.prototype = false

section OneAtATime

variable {emitters : ℕ → Bool} {frames below : List EmitterFrame} {call : EmitterCall}
  {least this : ℕ} {evt : DukString} {args : List JSValue} {w entry : OperationWorld}
  {w' : EmitterWorld} {l : EmissionLocals} {op : EmitterOp}

theorem pending_cons (object : ℕ) (evt : DukString) (listener : ℕ) (frame : EmitterFrame) :
    pending object evt listener (frame :: frames) =
      pendingIn object evt listener frame + pending object evt listener frames :=
  List.sum_cons

theorem pendingIn_of_not_emits
    {object : ℕ} {evt : DukString} (h : call.emits object evt = false) (listener : ℕ)
    (l : EmissionLocals) : pendingIn object evt listener ⟨call, l⟩ = 0 :=
  if_neg (by simp [h])

/-- An operation that calls no listener for one call in an emission under a
name, and is given objects for one call only. -/
structure EmitterOp.Quiet (op : EmitterOp) : Prop where
  onceCall : op.onceCall = none
  wrapsOnce : op.wrapsOnce = true

theorem Afforded.step
    (h : Afforded emitters frames w) (hreplayed : Replayed emitters (w', op :: w.2))
    (hquiet : op.Quiet) : Afforded emitters frames (w', op :: w.2) where
  toOrdered := h.toOrdered.step hreplayed hquiet.wrapsOnce
  affords := fun object evt listener =>
    (h.affords object evt listener).cons (by simp [hquiet.onceCall])

theorem Afforded.le
    {fewer : List EmitterFrame} (h : Afforded emitters frames w)
    (hle : ∀ object evt listener,
      pending object evt listener fewer ≤ pending object evt listener frames) :
    Afforded emitters fewer w :=
  ⟨h.toOrdered, fun object evt listener =>
    (h.affords object evt listener).le (hle object evt listener)⟩

/-- What an activation knows; `least` objects existed when it was entered. -/
structure Running (emitters : ℕ → Bool) (below : List EmitterFrame) (call : EmitterCall)
    (least : ℕ) (w : OperationWorld) (l : EmissionLocals) : Prop where
  afforded : Afforded emitters (⟨call, l⟩ :: below) w
  onEmitter : OnEmitter emitters call.this least w

theorem Running.left (h : Running emitters below call least w l) :
    Afforded emitters below w := by
  apply h.afforded.le
  intro object evt listener
  rw [pending_cons]
  omega

theorem stable_running :
    (oneAtATime emitters).Stable (emitterHost.observe operations) below call entry
      (Running emitters below call entry.1.nextObject) := by
  constructor
  · exact fun _ _ h => h.afforded
  · intro w₁ w₂ l h hrely hinv
    exact ⟨hinv, hinv.replayed, h.onEmitter.emitter, h.onEmitter.existed,
      h.onEmitter.least.trans hrely⟩
  · exact fun _ _ h _ => ⟨h.left, h.onEmitter.least⟩

theorem Running.step
    (h : Running emitters below call least w l) (hon : op.On call.this) (hquiet : op.Quiet)
    {answer : op.Answer} {l₁ l₂ : EmissionLocals}
    (heffect : emitterEffect op w.1 l₁ = some (answer, w', l₂)) :
    Running emitters below call least (w', op :: w.2) l := by
  have hw : OnEmitter emitters call.this least (w.1, w.2) := h.onEmitter
  have hstep := hw.step hon heffect
  exact ⟨h.afforded.step hstep.replayed hquiet, hstep⟩

/-! ### Activations with nothing pending -/

theorem Running.locals
    (h : Running emitters below call least w l)
    (hcall : ∀ object evt, call.emits object evt = false) (l' : EmissionLocals) :
    Running emitters below call least w l' := by
  refine ⟨h.afforded.le ?_, h.onEmitter⟩
  intro object evt listener
  rw [pending_cons, pending_cons, pendingIn_of_not_emits (hcall object evt),
    pendingIn_of_not_emits (hcall object evt)]

theorem keeps_running
    (hcall : ∀ object evt, call.emits object evt = false) (hon : op.On call.this)
    (hquiet : op.Quiet) :
    (oneAtATime emitters).Keeps (emitterHost.observe operations) call
      (Running emitters below call least) op := by
  constructor
  · intro _ answer w l w' l' h hresume _
    cases hresume
    exact h
  · intro _ answer w l w' l' h heffect
    obtain ⟨hdone, hlog⟩ := Host.of_observe_effect heffect
    have hw : w' = (w'.1, op :: w.2) := Prod.ext rfl hlog
    rw [hw]
    exact (h.step hon hquiet hdone).locals hcall l'

theorem all_quiet_removeIf (condition : Bool) (this : ℕ) (selector : Selector) (listener : ℕ) :
    (removeIf condition this selector listener).All EmitterOp.Quiet := by
  unfold removeIf
  split
  · exact ⟨⟨rfl, rfl⟩, fun _ => trivial⟩
  · exact trivial

theorem all_quiet_body
    (hcall : ∀ object evt, call.emits object evt = false) (hmay : mayCall frames call = true) :
    call.body.All EmitterOp.Quiet := by
  cases call with
  | method this called => exact ⟨⟨rfl, hmay⟩, fun _ => trivial⟩
  | emitEvent this selector args =>
      cases selector with
      | string evt => simp [EmitterCall.emits] at hcall
      | regExp test =>
          refine ⟨⟨rfl, rfl⟩, fun listenersMap => ?_⟩
          apply Program.All.forM
          intro event _
          refine ⟨⟨rfl, rfl⟩, fun listeners => ?_⟩
          apply Program.All.forM
          intro listener _
          apply Program.All.bind (all_quiet_removeIf _ this _ _)
          intro _
          refine ⟨⟨rfl, rfl⟩, fun _ => ⟨⟨rfl, rfl⟩, fun response => ⟨⟨rfl, rfl⟩, ?_⟩⟩⟩
          intro value
          exact all_quiet_removeIf _ this _ _

/-! ### An emission under a name -/

/-- These are still to be called, after `done`. -/
def EmissionLocals.Leaves (l : EmissionLocals) (left : List ListenerObject) : Prop :=
  ∃ done, l.copies.flatten = left ++ done ∧ l.called.length = done.length

def EmissionLocals.record (l : EmissionLocals) (call : AppliedListener) : EmissionLocals :=
  { l with called := call :: l.called }

theorem EmissionLocals.Leaves.left_eq
    {left : List ListenerObject} (h : l.Leaves left) : l.left = left := by
  obtain ⟨done, hcopies, hcalled⟩ := h
  unfold EmissionLocals.left
  rw [hcopies, hcalled, List.length_append, Nat.add_sub_cancel]
  exact List.take_left

theorem EmissionLocals.Leaves.record
    {left : List ListenerObject} {listener : ListenerObject} (h : l.Leaves (left ++ [listener]))
    (call : AppliedListener) : (l.record call).Leaves left := by
  obtain ⟨done, hcopies, hcalled⟩ := h
  refine ⟨listener :: done, ?_, congrArg Nat.succ hcalled⟩
  rw [show (l.record call).copies = l.copies from rfl, hcopies, List.append_assoc,
    List.singleton_append]

theorem pending_of_leaves
    {left : List ListenerObject} (h : l.Leaves left) (object : ℕ) (name : DukString)
    (listener : ℕ) :
    pending object name listener (⟨.emitEvent this (.string evt) args, l⟩ :: below) =
      (if this = object ∧ evt = name then onceCount listener left else 0) +
        pending object name listener below := by
  rw [pending_cons]
  unfold pendingIn
  simp only [EmitterCall.emits, decide_eq_true_eq, h.left_eq]

theorem pending_eq_zero
    (hbelow : mayCall below (.emitEvent this (.string evt) args) = true) (listener : ℕ) :
    pending this evt listener below = 0 := by
  apply List.sum_eq_zero
  intro count hcount
  obtain ⟨frame, hframe, rfl⟩ := List.mem_map.mp hcount
  have hnot := List.all_eq_true.mp hbelow frame hframe
  exact if_neg (by simpa using hnot)

theorem onceCall_apply_iff
    {listener : ListenerObject} {object f : ℕ} {name : DukString} :
    (EmitterOp.apply this (.string evt) listener args).onceCall = some (object, name, f) ↔
      this = object ∧ evt = name ∧ listener = ⟨f, true⟩ := by
  rcases listener with ⟨id, once⟩
  cases once <;> simp [EmitterOp.onceCall, eq_comm]

theorem onceCount_concat (f : ℕ) (left : List ListenerObject) (listener : ListenerObject) :
    onceCount f (left ++ [listener]) =
      onceCount f left + if listener = ⟨f, true⟩ then 1 else 0 := by
  rw [onceCount_append, onceCount_cons]
  rcases listener with ⟨id, once⟩
  simp [onceCount]

structure Emitting (emitters : ℕ → Bool) (below : List EmitterFrame) (least this : ℕ)
    (evt : DukString) (args : List JSValue) (left : List ListenerObject)
    (w : OperationWorld) (l : EmissionLocals) : Prop where
  running : Running emitters below (.emitEvent this (.string evt) args) least w l
  leaves : l.Leaves left

/-- The last of the listeners that are left is to be called.  If it is for one
call, it has been taken out. -/
structure Due (emitters : ℕ → Bool) (below : List EmitterFrame) (least this : ℕ)
    (evt : DukString) (left : List ListenerObject) (listener : ListenerObject)
    (w : OperationWorld) (l : EmissionLocals) : Prop where
  onEmitter : OnEmitter emitters this least w
  ordered : ∀ object, WellOrdered (replay object w.2)
  leaves : l.Leaves (left ++ [listener])
  affords : ∀ object name f, Affords object name f w.2
    (if this = object ∧ evt = name ∧ listener = ⟨f, true⟩ then 1 else 0)
    ((if this = object ∧ evt = name then onceCount f left else 0) +
      pending object name f below)

variable {left : List ListenerObject} {listener : ListenerObject}

theorem Emitting.affords
    (h : Emitting emitters below least this evt args left w l) (object : ℕ)
    (name : DukString) (f : ℕ) :
    Affords object name f w.2 0 ((if this = object ∧ evt = name then onceCount f left else 0) +
      pending object name f below) := by
  rw [← pending_of_leaves h.leaves]
  exact h.running.afforded.affords object name f

theorem effect_removeListener
    {w w' : EmitterWorld} {selector : Selector} {listener : ℕ}
    (h : w.removeListener this selector (.function listener) = some w') (l : EmissionLocals) :
    emitterEffect (.removeListener this selector listener) w l = some ((), w', l) :=
  congrArg (Option.map _) h

theorem Emitting.due_kept
    (h : Emitting emitters below least this evt args (left ++ [listener]) w l)
    (honce : listener.once = false) :
    Due emitters below least this evt left listener w l := by
  refine ⟨h.running.onEmitter, h.running.afforded.ordered, h.leaves, ?_⟩
  intro object name f
  have hnot : ¬ (this = object ∧ evt = name ∧ listener = ⟨f, true⟩) := by
    rintro ⟨_, _, rfl⟩
    simp at honce
  rw [if_neg hnot]
  apply (h.affords object name f).le
  rw [onceCount_concat]
  split <;> omega

theorem Emitting.due_removed
    (hbelow : mayCall below (.emitEvent this (.string evt) args) = true)
    (h : Emitting emitters below least this evt args (left ++ [listener]) w l)
    (honce : listener.once = true)
    (hremove : w.1.removeListener this (.string evt) (.function listener.listener) = some w') :
    Due emitters below least this evt left listener
      (w', .removeListener this (.string evt) listener.listener :: w.2) l := by
  have hrunning := h.running.step (.inr rfl) ⟨rfl, rfl⟩ (effect_removeListener hremove l)
  refine ⟨hrunning.onEmitter, hrunning.afforded.ordered, h.leaves, ?_⟩
  intro object name f
  have hbefore := h.affords object name f
  rw [onceCount_concat] at hbefore
  by_cases hself : this = object ∧ evt = name ∧ listener = ⟨f, true⟩
  · obtain ⟨rfl, rfl, rfl⟩ := hself
    simp only [and_self, if_true, pending_eq_zero hbelow, Nat.add_zero] at hbefore ⊢
    apply hbefore.remove (h.running.afforded.ordered this)
    intro known hknown
    have hreplayed := h.running.onEmitter.replayed
    rw [← hreplayed.registries this] at hknown
    exact hreplayed.separate.names_notInherited known hknown
  · rw [if_neg hself]
    apply (hbefore.le _).cons (by simp [EmitterOp.onceCall])
    split <;> omega

theorem Due.applied
    (h : Due emitters below least this evt left listener w l) :
    Emitting emitters below least this evt args left
      (w.1, .apply this (.string evt) listener args :: w.2)
      (l.record ⟨this, listener.listener, args⟩) := by
  have hleaves := h.leaves.record ⟨this, listener.listener, args⟩
  have hw : OnEmitter emitters this least (w.1, w.2) := h.onEmitter
  have hstep : OnEmitter emitters this least
      (w.1, .apply this (.string evt) listener args :: w.2) :=
    hw.step (.inl rfl) (l := l) rfl
  refine ⟨⟨⟨⟨hstep.replayed, ?_⟩, ?_⟩, hstep⟩, hleaves⟩
  · exact fun object => wellOrdered_replay_cons (h.ordered object) rfl
  · intro object name f
    rw [pending_of_leaves hleaves]
    have hbefore := h.affords object name f
    by_cases hself : this = object ∧ evt = name ∧ listener = ⟨f, true⟩
    · rw [if_pos hself] at hbefore
      exact hbefore.call (onceCall_apply_iff.mpr hself) rfl
    · rw [if_neg hself] at hbefore
      exact hbefore.cons fun hcall => hself (onceCall_apply_iff.mp hcall)

theorem Emitting.step
    (h : Emitting emitters below least this evt args left w l)
    (hon : op.On this) (hquiet : op.Quiet) {answer : op.Answer} {l₁ l₂ : EmissionLocals}
    (heffect : emitterEffect op w.1 l₁ = some (answer, w', l₂)) :
    Emitting emitters below least this evt args left (w', op :: w.2) l :=
  ⟨h.running.step hon hquiet heffect, h.leaves⟩

theorem stable_emitting :
    (oneAtATime emitters).Stable (emitterHost.observe operations) below
      (.emitEvent this (.string evt) args) entry
      (Emitting emitters below entry.1.nextObject this evt args left) := by
  have hstable := @stable_running emitters below (.emitEvent this (.string evt) args) entry
  constructor
  · exact fun w l h => hstable.inv w l h.running
  · exact fun w w' l h hrely hinv => ⟨hstable.rely w w' l h.running hrely hinv, h.leaves⟩
  · exact fun w l h => hstable.abandon w l h.running

theorem meets_removeIf_emitting {condition : Bool} {listener : ℕ}
    (h : Emitting emitters below least this evt args left w l) :
    (oneAtATime emitters).Meets (emitterHost.observe operations) below
      (.emitEvent this (.string evt) args) entry
      (fun _ => Emitting emitters below least this evt args left)
      (removeIf condition this (.string evt) listener) w l := by
  apply meets_removeIf _ fun _ => h
  intro w₁ _ hremove
  exact h.step (.inr rfl) ⟨rfl, rfl⟩ (effect_removeListener hremove l)

theorem meets_emitting
    (hbelow : mayCall below (.emitEvent this (.string evt) args) = true)
    (h : Emitting emitters below entry.1.nextObject this evt args (left ++ [listener]) w l) :
    (oneAtATime emitters).Meets (emitterHost.observe operations) below
      (.emitEvent this (.string evt) args) entry
      (fun _ => Emitting emitters below entry.1.nextObject this evt args left)
      (callListener this (.string evt) args listener) w l := by
  apply meets_callListener
    (F := Due emitters below entry.1.nextObject this evt left listener)
    (G := Emitting emitters below entry.1.nextObject this evt args left)
  · exact meets_removeIf (fun w₁ honce hremove => h.due_removed hbelow honce hremove)
      fun honce => h.due_kept honce
  · exact fun w l h => h.applied
  · exact stable_emitting
  · intro w l h
    have heffect : emitterEffect (.getOnceReturnValue this) w.1 l =
        some (w.1.getOnceReturnValue this, w.1, l) := rfl
    exact h.step (.inl rfl) ⟨rfl, rfl⟩ heffect
  · exact fun w l condition h => meets_removeIf_emitting h

/-- Before the turns of `events`; there is one turn at most. -/
structure Opened (emitters : ℕ → Bool) (below : List EmitterFrame) (least this : ℕ)
    (evt : DukString) (args : List JSValue) (events : List (DukString × ℕ))
    (w : OperationWorld) (l : EmissionLocals) : Prop where
  running : Running emitters below (.emitEvent this (.string evt) args) least w l
  found : events = [] ∨ l.copies = [] ∧ l.called = [] ∧
    events.map (fun event => w.1.arrays event.2) = [(replay this w.2).listeners evt]

theorem listeners_change_id (evt : DukString) (registry : EventRegistry) :
    ((Selector.string evt).change id registry).listeners evt = registry.listeners evt := by
  by_cases hinherited : evt ∈ inheritedKeys
  · rw [change_of_inherited hinherited]
  · rw [change_of_not_inherited hinherited, Registry.listeners_changeAt]
    simp

theorem opened_of_getListenersAsObject
    {events : List (DukString × ℕ)} {start : List ListenerObject}
    (h : Running emitters below (.emitEvent this (.string evt) args) least w ⟨start, [], []⟩)
    (hget : w.1.getListenersAsObject this (.string evt) = some (events, w')) :
    Opened emitters below least this evt args events
      (w', .getListenersAsObject this (.string evt) :: w.2) ⟨start, [], []⟩ := by
  have heffect : emitterEffect (.getListenersAsObject this (.string evt)) w.1 ⟨start, [], []⟩ =
      some (events, w', ⟨start, [], []⟩) := congrArg (Option.map _) hget
  refine ⟨h.step (.inr rfl) ⟨rfl, rfl⟩ heffect, ?_⟩
  rcases of_getListenersAsObject hget with ⟨rfl, _⟩ | ⟨array, rfl, harray⟩
  · exact .inl rfl
  · have hreplayed := h.onEmitter.replayed
    have hreplay : replay this (.getListenersAsObject this (.string evt) :: w.2) =
        (Selector.string evt).change id (replay this w.2) := if_pos rfl
    refine .inr ⟨rfl, rfl, ?_⟩
    rw [hreplay, listeners_change_id, ← hreplayed.registries this,
      ← hreplayed.separate.listenersOf_eq, ← harray]
    rfl

theorem Opened.sliced
    (hbelow : mayCall below (.emitEvent this (.string evt) args) = true)
    {event : DukString × ℕ} {events : List (DukString × ℕ)}
    (h : Opened emitters below least this evt args (event :: events) w l) :
    events = [] ∧ Emitting emitters below least this evt args (w.1.arrays event.2)
      (w.1, .slice event.2 :: w.2)
      { l with copies := w.1.arrays event.2 :: l.copies } := by
  obtain hnone | ⟨hcopies, hcalled, harrays⟩ := h.found
  · contradiction
  · rw [List.map_cons, List.cons.injEq, List.map_eq_nil_iff] at harrays
    refine ⟨harrays.2, ?_⟩
    have heffect : emitterEffect (.slice event.2) w.1 l =
        some (w.1.arrays event.2, w.1, { l with copies := w.1.arrays event.2 :: l.copies }) := rfl
    have hrunning := h.running.step (.inl rfl) ⟨rfl, rfl⟩ heffect
    have hleaves : EmissionLocals.Leaves { l with copies := w.1.arrays event.2 :: l.copies }
        (w.1.arrays event.2) := ⟨[], by simp [hcopies], by simp [hcalled]⟩
    refine ⟨⟨⟨hrunning.afforded.toOrdered, ?_⟩,
      hrunning.onEmitter⟩, hleaves⟩
    intro object name f
    rw [pending_of_leaves hleaves]
    by_cases hself : this = object ∧ evt = name
    · obtain ⟨rfl, rfl⟩ := hself
      have hlisted : onceListed this evt f (.slice event.2 :: w.2) =
          onceCount f (w.1.arrays event.2) := by
        rw [harrays.1]
        rfl
      simp only [and_self, if_true, pending_eq_zero hbelow, Nat.add_zero]
      rw [← hlisted]
      exact ((hrunning.afforded.affords this evt f).le (Nat.zero_le _)).copy
    · rw [if_neg hself, Nat.zero_add]
      exact hrunning.left.affords object name f

theorem meets_opened
    (hbelow : mayCall below (.emitEvent this (.string evt) args) = true)
    {start : List ListenerObject}
    (h : Running emitters below (.emitEvent this (.string evt) args) entry.1.nextObject w
      ⟨start, [], []⟩) :
    (oneAtATime emitters).Meets (emitterHost.observe operations) below
      (.emitEvent this (.string evt) args) entry
      (fun _ => Opened emitters below entry.1.nextObject this evt args [])
      (emitEvent this (.string evt) args) w ⟨start, [], []⟩ := by
  apply meets_emitEvent
    (J := fun events left w l => events = [] ∧
      Emitting emitters below entry.1.nextObject this evt args left w l)
  · exact fun events w₁ hget => opened_of_getListenersAsObject h hget
  · exact fun event events w l h => h.sliced hbelow
  · intro events left listener w l h
    exact (meets_emitting hbelow h.2).mono fun _ _ _ hemitting => ⟨h.1, hemitting⟩
  · exact fun events w l h => ⟨h.2.running, .inl h.1⟩

/-! ### Runs -/

theorem Afforded.entered (h : Afforded emitters below w) (call : EmitterCall)
    (start : List ListenerObject) : Afforded emitters (⟨call, ⟨start, [], []⟩⟩ :: below) w := by
  apply h.le
  intro object evt listener
  have hnone : pendingIn object evt listener ⟨call, ⟨start, [], []⟩⟩ = 0 := by
    simp [pendingIn, EmissionLocals.left, onceCount]
  rw [pending_cons, hnone, Nat.zero_add]

theorem meets_body
    (hmay : mayCall below call = true)
    (h : Running emitters below call entry.1.nextObject w ⟨call.start w.1, [], []⟩) :
    (oneAtATime emitters).Meets (emitterHost.observe operations) below call entry
      (fun _ => Running emitters below call entry.1.nextObject) call.body w
      ⟨call.start w.1, [], []⟩ := by
  have hother : (∀ object evt, call.emits object evt = false) →
      (oneAtATime emitters).Meets (emitterHost.observe operations) below call entry
        (fun _ => Running emitters below call entry.1.nextObject) call.body w
        ⟨call.start w.1, [], []⟩ := by
    intro hcall
    have hall := (all_body call).and (all_quiet_body hcall hmay)
    exact Discipline.Meets.of_all stable_running
      (hall.mono fun op hop => keeps_running hcall hop.1 hop.2) h
  cases call with
  | method this called => exact hother fun _ _ => rfl
  | emitEvent this selector args =>
      cases selector with
      | regExp test => exact hother fun _ _ => rfl
      | string evt => exact (meets_opened hmay h).mono fun _ _ _ h => h.running

theorem oneAtATime_sound : (oneAtATime emitters).Sound (emitterHost.observe operations) := by
  constructor
  · intro below w awaited call w' l hinv hmay henter
    obtain ⟨hexists, rfl, rfl⟩ := of_emitter_enter henter
    have hrunning : Running emitters below call w.1.nextObject w ⟨call.start w.1, [], []⟩ :=
      ⟨hinv.entered call _, hinv.replayed, hmay.1, hexists, le_rfl⟩
    refine ⟨le_rfl, (meets_body hmay.2 hrunning).mono ?_⟩
    exact fun _ _ _ h => ⟨h.left, h.onEmitter.least⟩
  · intro stack w action w' hinv hmay hexternal
    obtain ⟨hordered, hle, hlog⟩ := hinv.toOrdered.create hmay hexternal
    refine ⟨⟨hordered, ?_⟩, hle⟩
    rw [hlog]
    exact hinv.affords

end OneAtATime

/-- In every run in which no emission under a name begins while one of the same
event of the same emitter is suspended, emissions under this name have not made
more calls of a listener that are for one call than it was registered for. -/
theorem onceCalls_le_onceRegistered
    {emitters : ℕ → Bool}
    {choices : List (Choice EmitterCall EmitterOp EmitterOp.Answer CreateObject)}
    {s : State EmitterCall EmitterOp EmitterOp.Answer Unit OperationWorld EmissionLocals}
    (hrun : GuardedRun (emitterHost.observe operations).step
      ((oneAtATime emitters).Guard (emitterHost.observe operations))
      ⟨(EmitterWorld.initial, []), []⟩ choices s)
    (object : ℕ) (evt : DukString) (listener : ℕ) :
    onceCalls object evt listener s.world.2 ≤ onceRegistered object evt listener s.world.2 := by
  have hinitial : Afforded emitters [] (EmitterWorld.initial, []) := by
    refine ⟨ordered_initial, ?_⟩
    intro object evt listener
    exact le_rfl
  have hafforded := oneAtATime_sound.inv_of_guardedRun hinitial hrun
  have haffords := hafforded.affords object evt listener
  unfold Affords at haffords
  omega

instance (emitters : ℕ → Bool) (frames : List EmitterFrame) (w : OperationWorld)
    (call : EmitterCall) : Decidable ((oneAtATime emitters).mayEnter frames w call) :=
  inferInstanceAs (Decidable (emitters call.this = true ∧ mayCall frames call = true))

instance (emitters : ℕ → Bool) (frame : EmitterFrame) (w : OperationWorld) (op : EmitterOp)
    (answer : op.Answer) : Decidable ((oneAtATime emitters).mayAnswer frame w op answer) :=
  inferInstanceAs (Decidable True)

instance (emitters : ℕ → Bool) (frame : EmitterFrame) (w : OperationWorld) :
    Decidable ((oneAtATime emitters).mayAbandon frame w) :=
  inferInstanceAs (Decidable True)

instance (emitters : ℕ → Bool) (frames : List EmitterFrame) (w : OperationWorld)
    (action : CreateObject) : Decidable ((oneAtATime emitters).mayExternal frames w action) :=
  inferInstanceAs (Decidable (emitters action.prototype = false))

/-- The event has a listener for one call and a permanent one, which is called
first; this happens while it runs. -/
def duringFirstListener
    (meanwhile : List (Choice EmitterCall EmitterOp EmitterOp.Answer CreateObject)) :
    List (Choice EmitterCall EmitterOp EmitterOp.Answer CreateObject) :=
  [.external ⟨prototypeId⟩,
    .enter (.method 1 (.addOnceListener (.string clicked) 7)),
    .enter (.method 1 (.addListener (.string clicked) (.function 8))),
    .enter (.emitEvent 1 (.string clicked) [])] ++ meanwhile ++
  [returning .undefined, returning .undefined]

theorem onceCalls_registeredAgain :
    ∃ s, run (emitterHost.observe operations).step ⟨(EmitterWorld.initial, []), []⟩
        (duringFirstListener [.enter (.method 1 (.addOnceListener (.string clicked) 7))]) =
          some s ∧
      onceCalls 1 clicked 7 s.world.2 = 1 ∧ onceRegistered 1 clicked 7 s.world.2 = 2 ∧
      onceCalls 1 clicked 7 s.world.2 ≤ onceRegistered 1 clicked 7 s.world.2 := by
  have hchecked : ((checkedRun (emitterHost.observe operations).step
      ((oneAtATime (· ≠ prototypeId)).Guard (emitterHost.observe operations))
      ⟨(EmitterWorld.initial, []), []⟩
      (duringFirstListener [.enter (.method 1 (.addOnceListener (.string clicked) 7))])).map
      fun s => (onceCalls 1 clicked 7 s.world.2, onceRegistered 1 clicked 7 s.world.2)) =
        some (1, 2) := by
    decide +kernel
  obtain ⟨s, hs, hcounts⟩ := Option.map_eq_some_iff.mp hchecked
  obtain ⟨hcalls, hregistered⟩ := Prod.mk.inj hcounts
  have hrun := GuardedRun.of_checkedRun hs
  exact ⟨s, hrun.run_eq, hcalls, hregistered, onceCalls_le_onceRegistered hrun 1 clicked 7⟩

/-- With an emission of the event inside, both emissions call the listener. -/
theorem onceCalls_twice_of_nested :
    ∃ s, run (emitterHost.observe operations).step ⟨(EmitterWorld.initial, []), []⟩
        (duringFirstListener [.enter (.emitEvent 1 (.string clicked) []),
          returning .undefined, returning .undefined]) = some s ∧
      onceCalls 1 clicked 7 s.world.2 = 2 ∧ onceRegistered 1 clicked 7 s.world.2 = 1 := by
  have hcounts : ((run (emitterHost.observe operations).step
      ⟨(EmitterWorld.initial, []), []⟩
      (duringFirstListener [.enter (.emitEvent 1 (.string clicked) []),
        returning .undefined, returning .undefined])).map
      fun s => (onceCalls 1 clicked 7 s.world.2, onceRegistered 1 clicked 7 s.world.2)) =
        some (2, 1) := by
    decide +kernel
  obtain ⟨s, hs, hcounts⟩ := Option.map_eq_some_iff.mp hcounts
  exact ⟨s, hs, Prod.mk.inj hcounts⟩

end EventEmitter

end NekoScript
