import Mathlib.Algebra.Order.BigOperators.Group.Finset
import Mathlib.Algebra.Order.BigOperators.Group.List
import Mathlib.Algebra.Ring.Nat

/-!
# Deferreds and their callbacks

Twisted's `Deferred`s as a store of them. A deferred that fires runs its callbacks in
order, each with the result of the one before; a callback may fire another deferred,
whose callbacks run before it returns, and one that returns a deferred that has not
fired makes its own wait. `running` is the stack of those whose callbacks are being run.
-/

namespace BitBlinder

set_option autoImplicit false

/-- `calls` is how often `callback` or `errback` was called on it, `waiting` whether a callback
returned a deferred that has not fired. -/
structure Deferred (κ ρ : Type) where
  calls : Nat
  result : ρ
  waiting : Bool
  callbacks : List κ

structure Deferreds (κ ρ : Type) where
  next : Nat
  get : Nat → Deferred κ ρ
  running : List Nat

namespace Deferreds
variable {κ ρ : Type}

def set (h : Deferreds κ ρ) (d : Nat) (e : Deferred κ ρ) : Deferreds κ ρ :=
  { h with get := Function.update h.get d e }

/-- The new deferred is `h.next`. -/
def alloc (h : Deferreds κ ρ) (e : Deferred κ ρ) : Deferreds κ ρ :=
  { h.set h.next e with next := h.next + 1 }

def add (h : Deferreds κ ρ) (d : Nat) (callback : κ) : Deferreds κ ρ :=
  h.set d { h.get d with callbacks := (h.get d).callbacks ++ [callback] }

/-- The first callback is taken off, to be run. -/
def advance (h : Deferreds κ ρ) (d : Nat) : Deferreds κ ρ :=
  h.set d { h.get d with callbacks := (h.get d).callbacks.tail }

def setResult (h : Deferreds κ ρ) (d : Nat) (result : ρ) : Deferreds κ ρ :=
  h.set d { h.get d with result := result }

def run (h : Deferreds κ ρ) (d : Nat) : Deferreds κ ρ :=
  if (h.get d).callbacks.isEmpty then h else { h with running := d :: h.running }

/-- `callback` or `errback`: a second call raises and does nothing. -/
def fire (h : Deferreds κ ρ) (d : Nat) (result : ρ) : Deferreds κ ρ :=
  if (h.get d).calls = 0 then (h.set d { h.get d with calls := 1, result := result }).run d
  else h.set d { h.get d with calls := (h.get d).calls + 1 }

/-- The deferred on top of the stack waits. -/
def pause (h : Deferreds κ ρ) (d : Nat) : Deferreds κ ρ :=
  { h.set d { h.get d with waiting := true } with running := h.running.tail }

/-- The deferred that it waited for hands its result on. -/
def resume (h : Deferreds κ ρ) (d : Nat) (result : ρ) : Deferreds κ ρ :=
  (h.set d { h.get d with waiting := false, result := result }).run d

/-- A count over the callbacks of the first `n` deferreds. -/
def total (f : κ → Nat) (n : Nat) (h : Deferreds κ ρ) : Nat :=
  ∑ i ∈ Finset.range n, ((h.get i).callbacks.map f).sum

variable {h : Deferreds κ ρ} {d i n : Nat} {e : Deferred κ ρ} {callback : κ} {r : ρ} {f : κ → Nat}

theorem get_set : (h.set d e).get i = if i = d then e else h.get i := Function.update_apply _ _ _ _

@[simp] theorem next_set : (h.set d e).next = h.next := rfl

@[simp] theorem running_set : (h.set d e).running = h.running := rfl

theorem get_alloc : (h.alloc e).get i = if i = h.next then e else h.get i := get_set

theorem get_alloc_of_lt (hi : i < h.next) : (h.alloc e).get i = h.get i := by
  rw [get_alloc, if_neg (Nat.ne_of_lt hi)]

theorem get_alloc_self : (h.alloc e).get h.next = e := by
  rw [get_alloc, if_pos rfl]

@[simp] theorem next_alloc : (h.alloc e).next = h.next + 1 := rfl

@[simp] theorem running_alloc : (h.alloc e).running = h.running := rfl

@[simp] theorem get_run : (h.run d).get = h.get := by
  unfold run
  split <;> rfl

@[simp] theorem next_run : (h.run d).next = h.next := by
  unfold run
  split <;> rfl

theorem mem_running_run : i ∈ (h.run d).running → i = d ∨ i ∈ h.running := by
  unfold run
  split
  · exact Or.inr
  · exact List.mem_cons.mp

theorem mem_running_of_mem (hi : i ∈ h.running) : i ∈ (h.run d).running := by
  unfold run
  split
  · exact hi
  · exact List.mem_cons_of_mem d hi

/-- What is to run is on the stack. -/
theorem run_rest : ((h.run d).get d).callbacks = [] ∨ d ∈ (h.run d).running := by
  rw [get_run]
  unfold run
  split
  · case isTrue hempty => exact .inl (List.isEmpty_iff.mp hempty)
  · exact .inr List.mem_cons_self

theorem length_running_run : (h.run d).running.length ≤ h.running.length + 1 := by
  unfold run
  split
  · exact Nat.le_succ _
  · exact Nat.le_refl _

@[simp] theorem next_add : (h.add d callback).next = h.next := rfl

@[simp] theorem running_add : (h.add d callback).running = h.running := rfl

@[simp] theorem calls_add : ((h.add d callback).get i).calls = (h.get i).calls := by
  rw [add, get_set]
  split
  · case isTrue heq => rw [heq]
  · rfl

@[simp] theorem waiting_add : ((h.add d callback).get i).waiting = (h.get i).waiting := by
  rw [add, get_set]
  split
  · case isTrue heq => rw [heq]
  · rfl

theorem callbacks_add :
    ((h.add d callback).get i).callbacks = if i = d then (h.get d).callbacks ++ [callback] else (h.get i).callbacks := by
  rw [add, get_set]
  split <;> rfl

theorem mem_callbacks_add {k : κ} :
    k ∈ ((h.add d callback).get i).callbacks ↔ k ∈ (h.get i).callbacks ∨ i = d ∧ k = callback := by
  rw [callbacks_add]
  split
  · case isTrue heq => simp [heq]
  · case isFalse hne => simp [hne]

@[simp] theorem next_advance : (h.advance d).next = h.next := rfl

@[simp] theorem running_advance : (h.advance d).running = h.running := rfl

@[simp] theorem calls_advance : ((h.advance d).get i).calls = (h.get i).calls := by
  rw [advance, get_set]
  split
  · case isTrue heq => rw [heq]
  · rfl

@[simp] theorem waiting_advance : ((h.advance d).get i).waiting = (h.get i).waiting := by
  rw [advance, get_set]
  split
  · case isTrue heq => rw [heq]
  · rfl

theorem callbacks_advance :
    ((h.advance d).get i).callbacks = if i = d then (h.get d).callbacks.tail else (h.get i).callbacks := by
  rw [advance, get_set]
  split <;> rfl

theorem mem_callbacks_of_advance {k : κ} (hk : k ∈ ((h.advance d).get i).callbacks) : k ∈ (h.get i).callbacks := by
  rw [callbacks_advance] at hk
  split at hk
  · case isTrue heq => exact heq ▸ List.mem_of_mem_tail hk
  · exact hk

@[simp] theorem next_setResult : (h.setResult d r).next = h.next := rfl

@[simp] theorem running_setResult : (h.setResult d r).running = h.running := rfl

@[simp] theorem calls_setResult : ((h.setResult d r).get i).calls = (h.get i).calls := by
  rw [setResult, get_set]
  split
  · case isTrue heq => rw [heq]
  · rfl

@[simp] theorem waiting_setResult : ((h.setResult d r).get i).waiting = (h.get i).waiting := by
  rw [setResult, get_set]
  split
  · case isTrue heq => rw [heq]
  · rfl

@[simp] theorem callbacks_setResult : ((h.setResult d r).get i).callbacks = (h.get i).callbacks := by
  rw [setResult, get_set]
  split
  · case isTrue heq => rw [heq]
  · rfl

@[simp] theorem next_fire : (h.fire d r).next = h.next := by
  unfold fire
  split
  · exact next_run
  · rfl

theorem calls_fire : ((h.fire d r).get i).calls = if i = d then (h.get d).calls + 1 else (h.get i).calls := by
  unfold fire
  split
  · case isTrue hzero =>
    rw [get_run, get_set]
    split
    · exact (congrArg (· + 1) hzero).symm
    · rfl
  · rw [get_set]
    split <;> rfl

@[simp] theorem waiting_fire : ((h.fire d r).get i).waiting = (h.get i).waiting := by
  unfold fire
  split
  · rw [get_run, get_set]
    split
    · case isTrue heq => rw [heq]
    · rfl
  · rw [get_set]
    split
    · case isTrue heq => rw [heq]
    · rfl

@[simp] theorem callbacks_fire : ((h.fire d r).get i).callbacks = (h.get i).callbacks := by
  unfold fire
  split
  · rw [get_run, get_set]
    split
    · case isTrue heq => rw [heq]
    · rfl
  · rw [get_set]
    split
    · case isTrue heq => rw [heq]
    · rfl

/-- A deferred that has not fired runs its callbacks when it does. -/
theorem fire_rest (hzero : (h.get d).calls = 0) :
    ((h.fire d r).get d).callbacks = [] ∨ d ∈ (h.fire d r).running := by
  unfold fire
  rw [if_pos hzero]
  exact run_rest

theorem running_fire_of_nil (hnil : (h.get d).callbacks = []) : (h.fire d r).running = h.running := by
  unfold fire
  split
  · simp [run, get_set, hnil]
  · rfl

theorem mem_running_fire : i ∈ (h.fire d r).running → i = d ∨ i ∈ h.running := by
  unfold fire
  split
  · exact mem_running_run
  · exact Or.inr

theorem mem_running_fire_of_mem (hi : i ∈ h.running) : i ∈ (h.fire d r).running := by
  unfold fire
  split
  · exact mem_running_of_mem hi
  · exact hi

theorem length_running_fire : (h.fire d r).running.length ≤ h.running.length + 1 := by
  unfold fire
  split
  · exact length_running_run
  · exact Nat.le_succ _

/-- Firing a deferred and taking its first callback. -/
theorem advance_fire (hzero : (h.get d).calls = 0) (hne : (h.get d).callbacks ≠ []) :
    (h.fire d r).advance d = { (h.advance d).fire d r with running := d :: h.running } := by
  have hempty : (h.get d).callbacks.isEmpty = false := by simpa using hne
  have hget : ((h.fire d r).advance d).get = ((h.advance d).fire d r).get := by
    funext i
    simp only [advance, fire, hzero, if_true, get_run, get_set]
    split
    · rfl
    · rfl
  have hrunning : (h.fire d r).running = d :: h.running := by
    simp [fire, hzero, run, get_set, hempty]
  calc (h.fire d r).advance d
      = ⟨(h.fire d r).next, ((h.fire d r).advance d).get, (h.fire d r).running⟩ := rfl
    _ = ⟨((h.advance d).fire d r).next, ((h.advance d).fire d r).get, d :: h.running⟩ := by
        rw [hget, hrunning, next_fire, next_fire, next_advance]

@[simp] theorem next_pause : (h.pause d).next = h.next := rfl

@[simp] theorem running_pause : (h.pause d).running = h.running.tail := rfl

@[simp] theorem calls_pause : ((h.pause d).get i).calls = (h.get i).calls := by
  change ((h.set d _).get i).calls = _
  rw [get_set]
  split
  · case isTrue heq => rw [heq]
  · rfl

@[simp] theorem callbacks_pause : ((h.pause d).get i).callbacks = (h.get i).callbacks := by
  change ((h.set d _).get i).callbacks = _
  rw [get_set]
  split
  · case isTrue heq => rw [heq]
  · rfl

theorem waiting_pause : ((h.pause d).get i).waiting = if i = d then true else (h.get i).waiting := by
  change ((h.set d _).get i).waiting = _
  rw [get_set]
  split <;> rfl

theorem length_running_resume : (h.resume d r).running.length ≤ h.running.length + 1 := length_running_run

@[simp] theorem next_resume : (h.resume d r).next = h.next := next_run

@[simp] theorem calls_resume : ((h.resume d r).get i).calls = (h.get i).calls := by
  rw [resume, get_run, get_set]
  split
  · case isTrue heq => rw [heq]
  · rfl

@[simp] theorem callbacks_resume : ((h.resume d r).get i).callbacks = (h.get i).callbacks := by
  rw [resume, get_run, get_set]
  split
  · case isTrue heq => rw [heq]
  · rfl

theorem waiting_resume : ((h.resume d r).get i).waiting = if i = d then false else (h.get i).waiting := by
  rw [resume, get_run, get_set]
  split <;> rfl

/-! ## Counting callbacks -/

theorem total_congr {g : Deferreds κ ρ} (hcallbacks : ∀ i, (g.get i).callbacks = (h.get i).callbacks) :
    g.total f n = h.total f n :=
  Finset.sum_congr rfl fun i _ => by rw [hcallbacks i]

@[simp] theorem total_setResult : (h.setResult d r).total f n = h.total f n := total_congr fun _ => callbacks_setResult

@[simp] theorem total_fire : (h.fire d r).total f n = h.total f n := total_congr fun _ => callbacks_fire

@[simp] theorem total_pause : (h.pause d).total f n = h.total f n := total_congr fun _ => callbacks_pause

@[simp] theorem total_resume : (h.resume d r).total f n = h.total f n := total_congr fun _ => callbacks_resume

/-- One deferred changes, and the others count as before. -/
theorem total_change {g : Deferreds κ ρ} (hd : d < n) (hother : ∀ i, i ≠ d → (g.get i).callbacks = (h.get i).callbacks) :
    g.total f n + ((h.get d).callbacks.map f).sum = h.total f n + ((g.get d).callbacks.map f).sum := by
  have hmem : d ∈ Finset.range n := Finset.mem_range.mpr hd
  have hrest : ∑ i ∈ (Finset.range n).erase d, ((g.get i).callbacks.map f).sum =
      ∑ i ∈ (Finset.range n).erase d, ((h.get i).callbacks.map f).sum :=
    Finset.sum_congr rfl fun i hi => by rw [hother i (Finset.ne_of_mem_erase hi)]
  unfold total
  rw [← Finset.add_sum_erase _ _ hmem, ← Finset.add_sum_erase (Finset.range n) _ hmem, hrest]
  omega

theorem total_add (hd : d < n) : (h.add d callback).total f n = h.total f n + f callback := by
  have hchange := total_change (f := f) (h := h) (g := h.add d callback) hd fun i hi => by rw [callbacks_add, if_neg hi]
  rw [callbacks_add, if_pos rfl, List.map_append, List.sum_append] at hchange
  simp only [List.map_cons, List.map_nil, List.sum_cons, List.sum_nil, Nat.add_zero] at hchange
  omega

theorem total_add_le : (h.add d callback).total f n ≤ h.total f n + f callback := by
  by_cases hd : d < n
  · exact (total_add hd).le
  · refine le_of_eq_of_le (Finset.sum_congr rfl fun i hi => ?_) (Nat.le_add_right _ _)
    have hne : i ≠ d := fun heq => absurd (Finset.mem_range.mp hi) (by omega)
    rw [callbacks_add, if_neg hne]

theorem total_advance {cbs : List κ} (hd : d < n) (hcbs : (h.get d).callbacks = callback :: cbs) :
    (h.advance d).total f n + f callback = h.total f n := by
  have hchange := total_change (f := f) (h := h) (g := h.advance d) hd fun i hi => by rw [callbacks_advance, if_neg hi]
  rw [callbacks_advance, if_pos rfl, hcbs, List.tail_cons, List.map_cons, List.sum_cons] at hchange
  omega

theorem total_alloc_of_le (hn : n ≤ h.next) : (h.alloc e).total f n = h.total f n := by
  refine Finset.sum_congr rfl fun i hi => ?_
  have hne : i ≠ h.next := fun heq => absurd (Finset.mem_range.mp hi) (by omega)
  rw [get_alloc, if_neg hne]

theorem total_alloc : (h.alloc e).total f (h.next + 1) = h.total f h.next + (e.callbacks.map f).sum := by
  rw [total, Finset.sum_range_succ, get_alloc, if_pos rfl]
  exact congrArg (· + _) (total_alloc_of_le (Nat.le_refl _))

/-- A callback that is there is counted. -/
theorem le_total {k : κ} (hi : i < n) (hk : k ∈ (h.get i).callbacks) : f k ≤ h.total f n := by
  have hle : ((h.get i).callbacks.map f).sum ≤ h.total f n :=
    Finset.single_le_sum (f := fun i => ((h.get i).callbacks.map f).sum) (fun _ _ => Nat.zero_le _) (Finset.mem_range.mpr hi)
  exact (List.single_le_sum (fun _ _ => Nat.zero_le _) _ (List.mem_map_of_mem hk)).trans hle

end Deferreds

end BitBlinder
