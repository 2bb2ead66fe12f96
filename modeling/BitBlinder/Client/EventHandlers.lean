import BitBlinder.PySet
import BitBlinder.Runs

/-!
# `GeneratorMixin` and `ListenerMixin`

A generator keeps a set of handlers for each of its events, and a listener keeps
the set of its registrations, so every registration is in two places.
`_trigger_event` goes through the set of handlers itself, not through a copy:
what a handler raises is logged, but a set whose size a handler has changed
makes the loop raise.
-/

namespace BitBlinder.Client

set_option autoImplicit false

/-- The assertions of `add_event_handler`, `remove_event_handler` and `_trigger_event`. -/
inductive EventAssertion where
  /-- "… unknown event …" -/
  | unknownEvent
  /-- "… but there were no handlers at all" -/
  | noHandlers
  /-- "… but it was not registered" -/
  | notRegistered

structure Generator (κ : Type) where
  knownEventNames : List String
  eventListenerMapping : String → Option (PySet κ)

/-- Generators `γ`, listeners `ℓ` and handlers `κ`. -/
structure EventWorld (γ ℓ κ : Type) where
  generators : γ → Generator κ
  eventSets : ℓ → List (String × γ × κ)

/-- What a listener does. -/
inductive ListenerCall (γ ℓ κ : Type) where
  | startListening (listener : ℓ) (eventName : String) (eventObj : γ) (handler : κ)
  | stopListening (listener : ℓ) (eventName : String) (eventObj : γ)
  | cleanup (listener : ℓ)

/-- A handler does things as a listener, and may raise. -/
inductive HandlerAct (γ ℓ κ : Type) where
  | listener (call : ListenerCall γ ℓ κ)
  | raise

namespace EventWorld
variable {γ ℓ κ : Type} [DecidableEq γ] [DecidableEq ℓ] [DecidableEq κ] (H : Hashing κ)

/-- The handlers of an event; no entry is as good as no handlers. -/
def handlers (w : EventWorld γ ℓ κ) (g : γ) (eventName : String) : PySet κ :=
  ((w.generators g).eventListenerMapping eventName).getD PySet.empty

def setHandlers (w : EventWorld γ ℓ κ) (g : γ) (eventName : String) (s : PySet κ) : EventWorld γ ℓ κ :=
  { w with
    generators := Function.update w.generators g
      { w.generators g with
        eventListenerMapping := Function.update (w.generators g).eventListenerMapping eventName (some s) } }

def setEvents (w : EventWorld γ ℓ κ) (l : ℓ) (events : List (String × γ × κ)) : EventWorld γ ℓ κ :=
  { w with eventSets := Function.update w.eventSets l events }

/-- An assertion that fails is the second component; what was done before it stays. -/
def addEventHandler (w : EventWorld γ ℓ κ) (g : γ) (eventName : String) (handler : κ) :
    EventWorld γ ℓ κ × Option EventAssertion :=
  if eventName ∈ (w.generators g).knownEventNames then
    (w.setHandlers g eventName ((w.handlers g eventName).add H handler), none)
  else
    (w, some .unknownEvent)

def removeEventHandler (w : EventWorld γ ℓ κ) (g : γ) (eventName : String) (handler : κ) :
    EventWorld γ ℓ κ × Option EventAssertion :=
  if eventName ∈ (w.generators g).knownEventNames then
    match (w.generators g).eventListenerMapping eventName with
    | none => (w, some .noHandlers)
    | some s =>
      if handler ∈ s.members then (w.setHandlers g eventName (s.remove handler), none)
      else (w, some .notRegistered)
  else
    (w, some .unknownEvent)

def startListening (w : EventWorld γ ℓ κ) (l : ℓ) (eventName : String) (g : γ) (handler : κ) :
    EventWorld γ ℓ κ × Option EventAssertion :=
  let w := w.setEvents l (List.insert (eventName, g, handler) (w.eventSets l))
  w.addEventHandler H g eventName handler

/-- The second loop of `_stop_listening_for_event`. -/
def stopEach (l : ℓ) : List (String × γ × κ) → EventWorld γ ℓ κ → EventWorld γ ℓ κ × Option EventAssertion
  | [], w => (w, none)
  | event :: toRemove, w =>
    let w := w.setEvents l ((w.eventSets l).erase event)
    match w.removeEventHandler event.2.1 event.1 event.2.2 with
    | (w, none) => stopEach l toRemove w
    | (w, some failed) => (w, some failed)

def stopListening (w : EventWorld γ ℓ κ) (l : ℓ) (eventName : String) (g : γ) :
    EventWorld γ ℓ κ × Option EventAssertion :=
  stopEach l ((w.eventSets l).filter fun event => event.1 = eventName ∧ event.2.1 = g) w

/-- The loop of `_cleanup`. -/
def removeEach : List (String × γ × κ) → EventWorld γ ℓ κ → EventWorld γ ℓ κ × Option EventAssertion
  | [], w => (w, none)
  | event :: toRemove, w =>
    match w.removeEventHandler event.2.1 event.1 event.2.2 with
    | (w, none) => removeEach toRemove w
    | (w, some failed) => (w, some failed)

def cleanup (w : EventWorld γ ℓ κ) (l : ℓ) : EventWorld γ ℓ κ × Option EventAssertion :=
  match removeEach (w.eventSets l) w with
  | (w, none) => (w.setEvents l [], none)
  | (w, some failed) => (w, some failed)

def call (w : EventWorld γ ℓ κ) : ListenerCall γ ℓ κ → EventWorld γ ℓ κ × Option EventAssertion
  | .startListening l eventName g handler => w.startListening H l eventName g handler
  | .stopListening l eventName g => w.stopListening l eventName g
  | .cleanup l => w.cleanup l

/-- The states after each thing that a handler does, up to an exception. -/
def handlerStates : EventWorld γ ℓ κ → List (HandlerAct γ ℓ κ) → List (EventWorld γ ℓ κ)
  | _, [] => []
  | _, .raise :: _ => []
  | w, .listener c :: acts =>
    match w.call H c with
    | (w, none) => w :: handlerStates w acts
    | (w, some _) => [w]

/-- A handler that is called in `_trigger_event`; an exception is logged. -/
def runHandler (w : EventWorld γ ℓ κ) (acts : List (HandlerAct γ ℓ κ)) : EventWorld γ ℓ κ :=
  (w.handlerStates H acts).getLastD w

end EventWorld

/-- A call of a handler, with the state it found and those that it went through. -/
structure Turn (γ ℓ κ : Type) where
  before : EventWorld γ ℓ κ
  handler : κ
  during : List (EventWorld γ ℓ κ)

def Turn.after {γ ℓ κ : Type} (t : Turn γ ℓ κ) : EventWorld γ ℓ κ := t.during.getLastD t.before

/-- How `_trigger_event` ends: it returns, an assertion fails, or the set has another size. -/
inductive TriggerResult where
  | returned
  | asserted (failed : EventAssertion)
  | sizeChanged

namespace EventWorld
variable {γ ℓ κ : Type} [DecidableEq γ] [DecidableEq ℓ] [DecidableEq κ] (H : Hashing κ)

/-- The loop of `_trigger_event`. The handler that is called as the `n`-th does `body n handler`;
`fuel` bounds the number of turns. -/
def deliver (g : γ) (eventName : String) (body : Nat → κ → List (HandlerAct γ ℓ κ)) (used : Nat) :
    Nat → EventWorld γ ℓ κ → Nat → List (Turn γ ℓ κ) → Option (EventWorld γ ℓ κ × TriggerResult × List (Turn γ ℓ κ))
  | 0, _, _, _ => none
  | fuel + 1, w, position, turns =>
    match (w.handlers g eventName).next used position with
    | .sizeChanged => some (w, .sizeChanged, turns)
    | .exhausted => some (w, .returned, turns)
    | .yielded handler position =>
      let acts := body turns.length handler
      deliver g eventName body used fuel (w.runHandler H acts) position
        (turns ++ [⟨w, handler, w.handlerStates H acts⟩])

def triggerEvent (w : EventWorld γ ℓ κ) (g : γ) (eventName : String) (body : Nat → κ → List (HandlerAct γ ℓ κ))
    (fuel : Nat) : Option (EventWorld γ ℓ κ × TriggerResult × List (Turn γ ℓ κ)) :=
  if eventName ∈ (w.generators g).knownEventNames then
    match (w.generators g).eventListenerMapping eventName with
    | none => some (w, .returned, [])
    | some handlers => deliver H g eventName body handlers.members.length fuel w 0 []
  else
    some (w, .asserted .unknownEvent, [])

end EventWorld

/-! ### The two places of a registration -/

namespace EventWorld
variable {γ ℓ κ : Type} [DecidableEq γ] [DecidableEq ℓ] [DecidableEq κ] {H : Hashing κ}
variable {w : EventWorld γ ℓ κ} {owner : κ → ℓ}

omit [DecidableEq ℓ] [DecidableEq κ] in
theorem handlers_setHandlers (w : EventWorld γ ℓ κ) (g g' : γ) (e e' : String) (s : PySet κ) :
    (w.setHandlers g e s).handlers g' e' = if g' = g ∧ e' = e then s else w.handlers g' e' := by
  unfold handlers setHandlers
  dsimp only
  by_cases hg : g' = g
  · by_cases he : e' = e
    · simp [hg, he]
    · simp [hg, he]
  · simp [hg]

omit [DecidableEq γ] [DecidableEq κ] in
@[simp] theorem handlers_setEvents (w : EventWorld γ ℓ κ) (l : ℓ) (events : List (String × γ × κ)) (g : γ) (e : String) :
    (w.setEvents l events).handlers g e = w.handlers g e := rfl

/-- Every listener has exactly those registrations that the generators have of its handlers. -/
def Exact (owner : κ → ℓ) (w : EventWorld γ ℓ κ) : Prop :=
  ∀ l e g h, (e, g, h) ∈ w.eventSets l ↔ owner h = l ∧ h ∈ (w.handlers g e).members

structure Inv (owner : κ → ℓ) (w : EventWorld γ ℓ κ) : Prop where
  exact' : Exact owner w
  nodup : ∀ l, (w.eventSets l).Nodup
  known : ∀ g e, (w.generators g).eventListenerMapping e ≠ none → e ∈ (w.generators g).knownEventNames

omit [DecidableEq ℓ] in
/-- A handler that is registered is removed, and no assertion fails. -/
theorem removeEventHandler_eq {g : γ} {e : String} {h : κ} (hknown : e ∈ (w.generators g).knownEventNames)
    (hmem : h ∈ (w.handlers g e).members) :
    w.removeEventHandler g e h = (w.setHandlers g e ((w.handlers g e).remove h), none) := by
  unfold removeEventHandler
  rw [if_pos hknown]
  unfold handlers at hmem ⊢
  cases hmapping : (w.generators g).eventListenerMapping e with
  | none =>
    rw [hmapping] at hmem
    exact absurd hmem PySet.not_mem_empty
  | some s =>
    rw [hmapping] at hmem
    exact if_pos hmem

omit [DecidableEq ℓ] in
theorem mem_handlers_remove (w : EventWorld γ ℓ κ) (g g' : γ) (e e' : String) (h h' : κ) :
    h' ∈ ((w.setHandlers g e ((w.handlers g e).remove h)).handlers g' e').members ↔
      h' ∈ (w.handlers g' e').members ∧ (e', g', h') ≠ (e, g, h) := by
  rw [handlers_setHandlers]
  split
  · rename_i heq
    rw [heq.1, heq.2, PySet.mem_remove]
    simp
  · rename_i hne
    refine (and_iff_left ?_).symm
    intro heq
    cases heq
    exact hne ⟨rfl, rfl⟩

omit [DecidableEq ℓ] [DecidableEq κ] in
theorem known_setHandlers {g : γ} {e : String} {s : PySet κ} (hknown : e ∈ (w.generators g).knownEventNames)
    (h : ∀ g e, (w.generators g).eventListenerMapping e ≠ none → e ∈ (w.generators g).knownEventNames) (g' : γ)
    (e' : String) (hmapping : ((w.setHandlers g e s).generators g').eventListenerMapping e' ≠ none) :
    e' ∈ ((w.setHandlers g e s).generators g').knownEventNames := by
  unfold setHandlers at hmapping ⊢
  dsimp only at hmapping ⊢
  by_cases hg : g' = g
  · rw [hg, Function.update_self] at hmapping ⊢
    dsimp only at hmapping ⊢
    by_cases he : e' = e
    · rw [he]
      exact hknown
    · rw [Function.update_of_ne he] at hmapping
      exact h g e' hmapping
  · rw [Function.update_of_ne hg] at hmapping ⊢
    exact h g' e' hmapping

omit [DecidableEq γ] [DecidableEq ℓ] [DecidableEq κ] in
/-- An event of a listener is known to its generator and has the handler. -/
theorem Inv.registered (hi : Inv owner w) {l : ℓ} {e : String} {g : γ} {h : κ} (hmem : (e, g, h) ∈ w.eventSets l) :
    owner h = l ∧ e ∈ (w.generators g).knownEventNames ∧ h ∈ (w.handlers g e).members := by
  obtain ⟨howner, hhandler⟩ := (hi.exact' l e g h).mp hmem
  refine ⟨howner, hi.known g e ?_, hhandler⟩
  intro hnone
  rw [handlers, hnone] at hhandler
  exact PySet.not_mem_empty hhandler

/-- One turn of the loop of `_stop_listening_for_event`. -/
theorem Inv.stopOne (hi : Inv owner w) {l : ℓ} {e : String} {g : γ} {h : κ} (hmem : (e, g, h) ∈ w.eventSets l) :
    Inv owner ((w.setEvents l ((w.eventSets l).erase (e, g, h))).setHandlers g e ((w.handlers g e).remove h)) := by
  obtain ⟨howner, hknown, -⟩ := hi.registered hmem
  have hhandlers : ∀ e' g' h', h' ∈ (((w.setEvents l ((w.eventSets l).erase (e, g, h))).setHandlers g e
      ((w.handlers g e).remove h)).handlers g' e').members ↔
        h' ∈ (w.handlers g' e').members ∧ (e', g', h') ≠ (e, g, h) :=
    fun e' g' h' => mem_handlers_remove (w.setEvents l ((w.eventSets l).erase (e, g, h))) g g' e e' h h'
  refine ⟨fun l' e' g' h' => ?_, fun l' => ?_, known_setHandlers hknown hi.known⟩
  · rw [hhandlers e' g' h', ← and_assoc, ← hi.exact' l' e' g' h']
    unfold setHandlers setEvents
    dsimp only
    by_cases hl : l' = l
    · rw [hl, Function.update_self, (hi.nodup l).mem_erase_iff]
      exact and_comm
    · rw [Function.update_of_ne hl]
      refine (and_iff_left_of_imp fun hmem' => ?_).symm
      rintro heq
      rw [heq] at hmem'
      exact hl ((hi.registered hmem').1.symm.trans howner)
  · unfold setHandlers setEvents
    dsimp only
    by_cases hl : l' = l
    · rw [hl, Function.update_self]
      exact (hi.nodup l).erase _
    · rw [Function.update_of_ne hl]
      exact hi.nodup l'

theorem Inv.stopEach (hi : Inv owner w) (l : ℓ) (toRemove : List (String × γ × κ)) (hnodup : toRemove.Nodup)
    (hmem : ∀ event ∈ toRemove, event ∈ w.eventSets l) :
    (stopEach l toRemove w).2 = none ∧ Inv owner (stopEach l toRemove w).1 := by
  induction toRemove generalizing w with
  | nil => exact ⟨rfl, hi⟩
  | cons event toRemove ih =>
    obtain ⟨e, g, h⟩ := event
    obtain ⟨hhead, htail⟩ := List.nodup_cons.mp hnodup
    have hfirst := hmem _ List.mem_cons_self
    obtain ⟨-, hknown, hhandler⟩ := hi.registered hfirst
    have hremove := removeEventHandler_eq (w := w.setEvents l ((w.eventSets l).erase (e, g, h))) hknown hhandler
    rw [EventWorld.stopEach]
    dsimp only
    rw [hremove]
    refine ih (hi.stopOne hfirst) htail fun event hevent => ?_
    have hne : event ≠ (e, g, h) := by
      rintro rfl
      exact hhead hevent
    unfold setHandlers setEvents
    dsimp only
    rw [Function.update_self, (hi.nodup l).mem_erase_iff]
    exact ⟨hne, hmem event (List.mem_cons_of_mem _ hevent)⟩

theorem Inv.stopListening (hi : Inv owner w) (l : ℓ) (e : String) (g : γ) :
    (w.stopListening l e g).2 = none ∧ Inv owner (w.stopListening l e g).1 :=
  hi.stopEach l _ ((hi.nodup l).filter _) fun _ hevent => (List.mem_filter.mp hevent).1

omit [DecidableEq ℓ] in
/-- The loop of `_cleanup` removes the handlers of its events and nothing else. -/
theorem removeEach_eq (toRemove : List (String × γ × κ)) (hnodup : toRemove.Nodup)
    (hknown : ∀ g e, (w.generators g).eventListenerMapping e ≠ none → e ∈ (w.generators g).knownEventNames)
    (hmem : ∀ e g h, (e, g, h) ∈ toRemove → e ∈ (w.generators g).knownEventNames ∧ h ∈ (w.handlers g e).members) :
    (removeEach toRemove w).2 = none ∧ (removeEach toRemove w).1.eventSets = w.eventSets ∧
      (∀ g e, ((removeEach toRemove w).1.generators g).eventListenerMapping e ≠ none →
        e ∈ ((removeEach toRemove w).1.generators g).knownEventNames) ∧
      ∀ e g h, h ∈ ((removeEach toRemove w).1.handlers g e).members ↔
        h ∈ (w.handlers g e).members ∧ (e, g, h) ∉ toRemove := by
  induction toRemove generalizing w with
  | nil => exact ⟨rfl, rfl, hknown, fun e g h => (and_iff_left List.not_mem_nil).symm⟩
  | cons event toRemove ih =>
    obtain ⟨e, g, h⟩ := event
    obtain ⟨hhead, htail⟩ := List.nodup_cons.mp hnodup
    obtain ⟨hevent, hhandler⟩ := hmem e g h List.mem_cons_self
    have hmem' : ∀ e' g' h', (e', g', h') ∈ toRemove →
        e' ∈ ((w.setHandlers g e ((w.handlers g e).remove h)).generators g').knownEventNames ∧
          h' ∈ ((w.setHandlers g e ((w.handlers g e).remove h)).handlers g' e').members := by
      intro e' g' h' hrest
      obtain ⟨hevent', hhandler'⟩ := hmem e' g' h' (List.mem_cons_of_mem _ hrest)
      refine ⟨?_, (mem_handlers_remove w g g' e e' h h').mpr ⟨hhandler', ?_⟩⟩
      · unfold setHandlers
        dsimp only
        by_cases hg : g' = g
        · rw [hg, Function.update_self]
          rw [hg] at hevent'
          exact hevent'
        · rw [Function.update_of_ne hg]
          exact hevent'
      · intro heq
        rw [heq] at hrest
        exact hhead hrest
    obtain ⟨hnone, hsets, hkeep, hhandlers⟩ := ih htail (known_setHandlers hevent hknown) hmem'
    rw [removeEach, removeEventHandler_eq hevent hhandler]
    dsimp only
    refine ⟨hnone, hsets, hkeep, fun e' g' h' => ?_⟩
    rw [hhandlers, mem_handlers_remove, and_assoc, List.mem_cons, not_or]

theorem Inv.cleanup (hi : Inv owner w) (l : ℓ) : (w.cleanup l).2 = none ∧ Inv owner (w.cleanup l).1 := by
  obtain ⟨hnone, hsets, hknown, hhandlers⟩ := removeEach_eq (w := w) (w.eventSets l) (hi.nodup l) hi.known
    fun e g h hmem => (hi.registered hmem).2
  have hcleanup : w.cleanup l = ((removeEach (w.eventSets l) w).1.setEvents l [], none) := by
    rw [EventWorld.cleanup]
    split
    · rename_i w' heq
      rw [heq]
    · rename_i w' failed heq
      rw [heq] at hnone
      cases hnone
  rw [hcleanup]
  refine ⟨rfl, fun l' e g h => ?_, fun l' => ?_, hknown⟩
  · have hset : ((removeEach (w.eventSets l) w).1.setEvents l []).eventSets l' =
        if l' = l then [] else w.eventSets l' := by
      unfold setEvents
      dsimp only
      rw [hsets, Function.update_apply]
    rw [hset, handlers_setEvents, hhandlers, hi.exact' l e g h]
    split
    · rename_i hl
      rw [hl]
      exact iff_of_false List.not_mem_nil fun hall => hall.2.2 ⟨hall.1, hall.2.1⟩
    · rename_i hl
      rw [hi.exact' l' e g h]
      refine and_congr_right fun howner => (and_iff_left ?_).symm
      rintro ⟨howner', -⟩
      exact hl (howner.symm.trans howner')
  · unfold setEvents
    dsimp only
    rw [hsets, Function.update_apply]
    split
    · exact List.nodup_nil
    · exact hi.nodup l'

theorem Inv.startListening (hi : Inv owner w) {l : ℓ} {e : String} {g : γ} {h : κ} (howner : owner h = l)
    (hknown : e ∈ (w.generators g).knownEventNames) :
    (w.startListening H l e g h).2 = none ∧ Inv owner (w.startListening H l e g h).1 := by
  have hstart : w.startListening H l e g h =
      ((w.setEvents l (List.insert (e, g, h) (w.eventSets l))).setHandlers g e ((w.handlers g e).add H h), none) := by
    rw [EventWorld.startListening, addEventHandler]
    exact if_pos hknown
  rw [hstart]
  refine ⟨rfl, fun l' e' g' h' => ?_, fun l' => ?_, known_setHandlers hknown hi.known⟩
  · have hset : (e', g', h') ∈ ((w.setEvents l (List.insert (e, g, h) (w.eventSets l))).setHandlers g e
        ((w.handlers g e).add H h)).eventSets l' ↔
        (l' = l ∧ (e', g', h') = (e, g, h)) ∨ (e', g', h') ∈ w.eventSets l' := by
      unfold setHandlers setEvents
      dsimp only
      by_cases hl : l' = l
      · rw [hl, Function.update_self, List.mem_insert_iff]
        simp
      · rw [Function.update_of_ne hl]
        simp [hl]
    rw [hset, handlers_setHandlers, hi.exact' l' e' g' h', handlers_setEvents]
    by_cases hevent : g' = g ∧ e' = e
    · rw [if_pos hevent, PySet.mem_add, hevent.1, hevent.2]
      simp only [Prod.mk.injEq, true_and]
      constructor
      · rintro (⟨hl, rfl⟩ | ⟨ho, hmem⟩)
        · exact ⟨howner.trans hl.symm, Or.inl rfl⟩
        · exact ⟨ho, Or.inr hmem⟩
      · rintro ⟨ho, rfl | hmem⟩
        · exact Or.inl ⟨ho.symm.trans howner, rfl⟩
        · exact Or.inr ⟨ho, hmem⟩
    · rw [if_neg hevent]
      refine or_iff_right ?_
      rintro ⟨-, heq⟩
      cases heq
      exact hevent ⟨rfl, rfl⟩
  · unfold setHandlers setEvents
    dsimp only
    by_cases hl : l' = l
    · rw [hl, Function.update_self]
      exact (hi.nodup l).insert
    · rw [Function.update_of_ne hl]
      exact hi.nodup l'

/-- A listener registers handlers of its own only. -/
def Own (owner : κ → ℓ) (_ : EventWorld γ ℓ κ) : ListenerCall γ ℓ κ → Prop
  | .startListening l _ _ handler => owner handler = l
  | _ => True

/-- What is listened for is an event of the generator. -/
def Known (w : EventWorld γ ℓ κ) : ListenerCall γ ℓ κ → Prop
  | .startListening _ eventName g _ => eventName ∈ (w.generators g).knownEventNames
  | _ => True

def step (H : Hashing κ) (w : EventWorld γ ℓ κ) (c : ListenerCall γ ℓ κ) : Option (EventWorld γ ℓ κ) :=
  some (w.call H c).1

theorem Inv.call (hi : Inv owner w) {c : ListenerCall γ ℓ κ} (hown : Own owner w c) (hknown : Known w c) :
    (w.call H c).2 = none ∧ Inv owner (w.call H c).1 := by
  cases c with
  | startListening l e g h => exact hi.startListening hown hknown
  | stopListening l e g => exact hi.stopListening l e g
  | cleanup l => exact hi.cleanup l

/-- Listening for an event that is not known leaves an entry that no generator has. -/
theorem Inv.known_of_exact (hi : Inv owner w) {c : ListenerCall γ ℓ κ} (hexact : Exact owner (w.call H c).1) :
    Known w c := by
  cases c with
  | startListening l e g h =>
    by_contra hunknown
    have hstart : (w.call H (.startListening l e g h)).1 = w.setEvents l (List.insert (e, g, h) (w.eventSets l)) := by
      rw [EventWorld.call, EventWorld.startListening, addEventHandler]
      exact congrArg Prod.fst (if_neg hunknown)
    rw [hstart] at hexact
    have hmem : (e, g, h) ∈ (w.setEvents l (List.insert (e, g, h) (w.eventSets l))).eventSets l := by
      unfold setEvents
      dsimp only
      rw [Function.update_self]
      exact List.mem_insert_self
    have hhandler := ((hexact l e g h).mp hmem).2
    have hmapping : (w.generators g).eventListenerMapping e = none := by
      by_contra hsome
      exact hunknown (hi.known g e hsome)
    rw [handlers_setEvents, handlers, hmapping] at hhandler
    exact PySet.not_mem_empty hhandler
  | stopListening l e g => trivial
  | cleanup l => trivial

/-- Generators that know some events, and no registrations. -/
def init (known : γ → List String) : EventWorld γ ℓ κ := ⟨fun g => ⟨known g, fun _ => none⟩, fun _ => []⟩

omit [DecidableEq γ] [DecidableEq ℓ] [DecidableEq κ] in
theorem inv_init (known : γ → List String) : Inv owner (init known : EventWorld γ ℓ κ) where
  exact' _ _ _ _ := iff_of_false List.not_mem_nil fun hh => PySet.not_mem_empty hh.2
  nodup _ := List.nodup_nil
  known _ _ hne := absurd rfl hne

/-! ### The delivery -/

section Delivery
variable {g : γ} {e : String} {body : Nat → κ → List (HandlerAct γ ℓ κ)} {used fuel position : Nat}

/-- A handler that is not registered any more when its turn comes. -/
def UnregisteredBeforeTurn (g : γ) (e : String) (turns : List (Turn γ ℓ κ)) (h : κ) : Prop :=
  ∃ begun t rest, turns = begun ++ t :: rest ∧ h ∉ (begun ++ [t]).map Turn.handler ∧
    ∃ u ∈ t.during, h ∉ (u.handlers g e).members

/-- What a delivery should come to: it does not raise, the handlers that were registered and stay so
until their turn are called once, and only handlers that are registered are called. -/
structure Delivered (w : EventWorld γ ℓ κ) (g : γ) (e : String) (result : TriggerResult)
    (turns : List (Turn γ ℓ κ)) : Prop where
  returned : result = .returned
  once : ∀ h ∈ (w.handlers g e).members, ¬UnregisteredBeforeTurn g e turns h → (turns.map Turn.handler).count h = 1
  registered : ∀ t ∈ turns, t.handler ∈ (t.before.handlers g e).members

/-- The first `fuel` turns leave the handlers of the event as they are, at every point. -/
def Quiet (H : Hashing κ) (g : γ) (e : String) (body : Nat → κ → List (HandlerAct γ ℓ κ)) :
    Nat → EventWorld γ ℓ κ → Nat → Nat → Prop
  | 0, _, _, _ => True
  | fuel + 1, w, position, n =>
    match (w.handlers g e).next (w.handlers g e).members.length position with
    | .yielded h position =>
      (∀ u ∈ w.handlerStates H (body n h), u.handlers g e = w.handlers g e) ∧
        Quiet H g e body fuel (w.runHandler H (body n h)) position (n + 1)
    | _ => True

/-- Without changes the loop ends, and the handlers from its position on are called in order. -/
theorem deliver_quiet {s : PySet κ} (turns : List (Turn γ ℓ κ)) (hquiet : Quiet H g e body fuel w position turns.length)
    (hs : w.handlers g e = s) (hfuel : (s.rest position).length < fuel) :
    ∃ u new, deliver H g e body s.members.length fuel w position turns = some (u, .returned, turns ++ new) ∧
      new.map Turn.handler = s.rest position := by
  induction fuel generalizing w position turns with
  | zero => exact absurd hfuel (Nat.not_lt_zero _)
  | succ fuel ih =>
    rw [deliver]
    rw [Quiet, hs] at hquiet
    rcases PySet.next_eq (s := s) rfl position with ⟨hnil, hnext⟩ | ⟨h, position', hnext, hrest⟩
    · refine ⟨w, [], ?_, by rw [hnil]; rfl⟩
      rw [hs, hnext, List.append_nil]
    · rw [hnext] at hquiet
      obtain ⟨hsame, hquiet⟩ := hquiet
      have hafter : (w.runHandler H (body turns.length h)).handlers g e = s := by
        have hlast : w.runHandler H (body turns.length h) ∈ w :: w.handlerStates H (body turns.length h) :=
          List.getLastD_mem_cons
        rcases List.mem_cons.mp hlast with heq | hmem
        · exact (congrArg (fun u => handlers u g e) heq).trans hs
        · exact hsame _ hmem
      have hlength : turns.length + 1 =
          (turns ++ [⟨w, h, w.handlerStates H (body turns.length h)⟩] : List (Turn γ ℓ κ)).length := by simp
      rw [hlength] at hquiet
      rw [hrest, List.length_cons] at hfuel
      obtain ⟨u, new, hdeliver, hnew⟩ := ih _ hquiet hafter (by omega)
      refine ⟨u, ⟨w, h, w.handlerStates H (body turns.length h)⟩ :: new, ?_, ?_⟩
      · rw [hs, hnext]
        dsimp only
        rw [hdeliver, List.append_assoc]
        rfl
      · rw [List.map_cons, hnew, hrest]

/-- Only registered handlers are called, and the loop raises exactly when a turn leaves another number
of handlers. -/
theorem deliver_spec {turns all : List (Turn γ ℓ κ)} {u : EventWorld γ ℓ κ} {result : TriggerResult}
    (h : deliver H g e body used fuel w position turns = some (u, result, all)) :
    ∃ new, all = turns ++ new ∧ (∀ t ∈ new, t.handler ∈ (t.before.handlers g e).members) ∧
      (result = .returned ∨ result = .sizeChanged) ∧
      (result = .sizeChanged ↔ (w.handlers g e).members.length ≠ used ∨
        ∃ t ∈ new, (t.after.handlers g e).members.length ≠ used) := by
  induction fuel generalizing w position turns with
  | zero => cases h
  | succ fuel ih =>
    rw [deliver] at h
    by_cases hused : (w.handlers g e).members.length = used
    · rcases PySet.next_eq hused position with ⟨-, hnext⟩ | ⟨k, position', hnext, -⟩
      · rw [hnext] at h
        cases h
        refine ⟨[], (List.append_nil _).symm, by simp, Or.inl rfl, ?_⟩
        simp [hused]
      · have hmem := PySet.mem_of_next hnext
        rw [hnext] at h
        obtain ⟨new, hall, hregistered, hresult, hiff⟩ := ih h
        refine ⟨⟨w, k, w.handlerStates H (body turns.length k)⟩ :: new, ?_, ?_, hresult, ?_⟩
        · rw [hall, List.append_assoc]
          rfl
        · intro t ht
          rcases List.mem_cons.mp ht with rfl | ht
          · exact hmem
          · exact hregistered t ht
        · rw [hiff]
          have hafter : Turn.after ⟨w, k, w.handlerStates H (body turns.length k)⟩ =
              w.runHandler H (body turns.length k) := rfl
          simp [hused, hafter]
    · rw [PySet.next_eq_sizeChanged_iff.mpr hused] at h
      cases h
      exact ⟨[], (List.append_nil _).symm, by simp, Or.inr rfl, iff_of_true rfl (Or.inl hused)⟩

/-- More fuel than was used changes nothing. -/
theorem deliver_fuel {turns : List (Turn γ ℓ κ)} {r : EventWorld γ ℓ κ × TriggerResult × List (Turn γ ℓ κ)}
    (h : deliver H g e body used fuel w position turns = some r) (k : Nat) :
    deliver H g e body used (fuel + k) w position turns = some r := by
  induction fuel generalizing w position turns with
  | zero => cases h
  | succ fuel ih =>
    rw [Nat.add_right_comm, deliver]
    rw [deliver] at h
    split
    · rename_i hnext
      rwa [hnext] at h
    · rename_i hnext
      rwa [hnext] at h
    · rename_i hnext
      rw [hnext] at h
      exact ih h

/-- A delivery of a known event that no handler disturbs. -/
theorem triggerEvent_quiet (hknown : e ∈ (w.generators g).knownEventNames)
    (hquiet : Quiet H g e body ((w.handlers g e).members.length + 1) w 0 0)
    (hfuel : (w.handlers g e).members.length < fuel) :
    ∃ u turns, w.triggerEvent H g e body fuel = some (u, .returned, turns) ∧ Delivered w g e .returned turns := by
  unfold triggerEvent
  rw [if_pos hknown]
  cases hmapping : (w.generators g).eventListenerMapping e with
  | none =>
    have hempty : w.handlers g e = PySet.empty := by rw [handlers, hmapping]; rfl
    refine ⟨w, [], rfl, rfl, ?_, by simp⟩
    intro h hmem
    rw [hempty] at hmem
    exact absurd hmem PySet.not_mem_empty
  | some s =>
    have hs : w.handlers g e = s := by rw [handlers, hmapping]; rfl
    rw [hs] at hquiet hfuel
    obtain ⟨u, turns, hdeliver, hturns⟩ :=
      deliver_quiet [] hquiet hs (by rw [PySet.rest_zero]; exact Nat.lt_succ_self _)
    obtain ⟨k, rfl⟩ := Nat.exists_eq_add_of_lt hfuel
    have hdeliver := deliver_fuel hdeliver k
    obtain ⟨new, hnew, hregistered, -⟩ := deliver_spec hdeliver
    rw [Nat.add_right_comm] at hdeliver
    refine ⟨u, turns, hdeliver, rfl, fun h hmem _ => ?_, ?_⟩
    · rw [hturns, PySet.rest_zero]
      rw [hs] at hmem
      exact List.count_eq_one_of_mem s.nodup hmem
    · rw [List.nil_append] at hnew
      rw [hnew]
      exact hregistered

/-- A delivery of a known event raises exactly when some turn leaves another number of handlers. -/
theorem triggerEvent_raises_iff {u : EventWorld γ ℓ κ} {result : TriggerResult} {turns : List (Turn γ ℓ κ)}
    (hknown : e ∈ (w.generators g).knownEventNames)
    (h : w.triggerEvent H g e body fuel = some (u, result, turns)) :
    (∀ t ∈ turns, t.handler ∈ (t.before.handlers g e).members) ∧
      (result ≠ .returned ↔
        ∃ t ∈ turns, (t.after.handlers g e).members.length ≠ (w.handlers g e).members.length) := by
  unfold triggerEvent at h
  rw [if_pos hknown] at h
  cases hmapping : (w.generators g).eventListenerMapping e with
  | none =>
    rw [hmapping] at h
    cases h
    simp
  | some s =>
    have hs : w.handlers g e = s := by rw [handlers, hmapping]; rfl
    rw [hmapping] at h
    obtain ⟨new, hnew, hregistered, hresult, hiff⟩ := deliver_spec h
    rw [List.nil_append] at hnew
    rw [hnew]
    refine ⟨hregistered, ?_⟩
    rw [hs] at hiff ⊢
    have hstart : ¬s.members.length ≠ s.members.length := fun hne => hne rfl
    rw [or_iff_right hstart] at hiff
    rw [← hiff]
    rcases hresult with rfl | rfl <;> simp

end Delivery

/-- A delivery of a known event that no handler disturbs returns and calls every handler once; one in
which a handler leaves another number of handlers raises, and no other. The listeners' sets are those
of the generators, and no assertion fails, as long as only known events are listened for. -/
theorem events_delivered_iff (H : Hashing κ) (owner : κ → ℓ) :
    (∀ (w : EventWorld γ ℓ κ) (g : γ) (e : String) (body : Nat → κ → List (HandlerAct γ ℓ κ)) (fuel : Nat),
      e ∈ (w.generators g).knownEventNames → (w.handlers g e).members.length < fuel →
        (Quiet H g e body ((w.handlers g e).members.length + 1) w 0 0 →
          ∃ u turns, w.triggerEvent H g e body fuel = some (u, .returned, turns) ∧ Delivered w g e .returned turns) ∧
        ∀ u result turns, w.triggerEvent H g e body fuel = some (u, result, turns) →
          (∀ t ∈ turns, t.handler ∈ (t.before.handlers g e).members) ∧
            (result ≠ .returned ↔
              ∃ t ∈ turns, (t.after.handlers g e).members.length ≠ (w.handlers g e).members.length)) ∧
    ∀ (known : γ → List String) (calls : List (ListenerCall γ ℓ κ)) (t : EventWorld γ ℓ κ),
      Run (step H) (Own owner) (init known) calls t →
        ((∀ begun u, begun <+: calls → Run (step H) (Own owner) (init known) begun u →
          Exact owner u ∧ ∀ c, Own owner u c → Known u c → (u.call H c).2 = none) ↔
            EachStep (step H) Known (init known) calls) := by
  refine ⟨fun w g e body fuel hknown hfuel => ⟨fun hquiet => triggerEvent_quiet hknown hquiet hfuel, ?_⟩, ?_⟩
  · intro u result turns h
    exact triggerEvent_raises_iff hknown h
  · intro known calls t h
    refine h.forall_prefix_iff_of_ok (I := Inv owner) ?_ ?_ ?_ (inv_init known)
    · intro u hi
      exact ⟨hi.exact', fun c hown hknown => (hi.call hown hknown).1⟩
    · rintro s t c hi hown hstep hknown
      obtain rfl := Option.some.inj hstep
      exact (hi.call hown hknown).2
    · rintro s t c hi - hstep ⟨hexact, -⟩
      obtain rfl := Option.some.inj hstep
      exact hi.known_of_exact hexact

/-! ### A handler that unregisters itself -/

/-- A table that grows at its end. -/
def appending : Hashing Nat where
  place slots a := slots ++ [some a]
  perm slots a := by
    rw [List.reduceOption_append]
    exact List.perm_append_comm

/-- Two listeners of one event. -/
def twoListeners : EventWorld Unit Nat Nat where
  generators _ := ⟨["done"], fun _ => some ⟨[some 1, some 2], by decide⟩⟩
  eventSets l := if l = 1 ∨ l = 2 then [("done", (), l)] else []

theorem events_delivered_iff_two :
    (∃ u turns, twoListeners.triggerEvent appending () "done" (fun _ _ => [.raise]) 3 = some (u, .returned, turns) ∧
      Delivered twoListeners () "done" .returned turns) ∧
    ((∀ begun u, begun <+: [.startListening 1 "done" () 1, .cleanup 1] →
        Run (step appending) (Own id) (init fun _ => ["done"]) begun u →
          Exact id u ∧ ∀ c, Own id u c → Known u c → (u.call appending c).2 = none) ↔
      EachStep (step appending) Known (init fun _ : Unit => ["done"])
        [.startListening 1 "done" () 1, .cleanup (1 : Nat)]) := by
  constructor
  · refine ((events_delivered_iff appending id).1 twoListeners () "done" (fun _ _ => [.raise]) 3 (by decide)
      (by decide)).1 ⟨?_, ?_, trivial⟩
    · intro u hu
      cases hu
    · intro u hu
      cases hu
  · exact (events_delivered_iff appending id).2 (fun _ => ["done"]) _ _
      (.cons rfl rfl (.cons trivial rfl (.refl _)))

/-- The first handler stops listening, and the loop raises before the second one is called. -/
theorem triggerEvent_raises :
    ∃ u turns, twoListeners.triggerEvent appending () "done"
        (fun _ handler => [.listener (.stopListening handler "done" ())]) 3 = some (u, .sizeChanged, turns) ∧
      turns.map Turn.handler = [1] ∧ ¬UnregisteredBeforeTurn () "done" turns 2 ∧
      ¬Delivered twoListeners () "done" .sizeChanged turns := by
  refine ⟨_, _, rfl, rfl, ?_, fun h => nomatch h.returned⟩
  -- The only turn ends with the second handler still registered.
  rintro ⟨begun, t, rest, hturns, -, u, hu, hmem⟩
  cases begun with
  | nil =>
    obtain ⟨rfl, -⟩ := List.cons.inj hturns
    obtain rfl := List.mem_singleton.mp hu
    have hregistered : 2 ∈ ((twoListeners.call appending (.stopListening 1 "done" ())).1.handlers () "done").members := by
      decide
    exact hmem hregistered
  | cons b begun =>
    have hlength := congrArg List.length hturns
    simp only [List.length_append, List.length_cons, List.length_nil] at hlength
    omega

end EventWorld

end BitBlinder.Client
