import Mathlib.Data.List.Basic

/-!
# Deferred results

What callers rely on in Twisted's `Deferred`. A result travels along a chain of
callbacks and errbacks, and a failure whose errback returns is a success from
there on. A `DeferredList` over deferreds with names in `ι` collects their
results as they come in and fires with the last of them.
-/

namespace BitBlinder

set_option autoImplicit false

/-- The result behind an errback. -/
def addErrback {ε α : Type} (handler : ε → Except ε α) : Except ε α → Except ε α
  | .ok a => .ok a
  | .error e => handler e

structure DeferredList (ι ε α : Type) where
  entries : List (ι × Option (Except ε α))

namespace DeferredList
variable {ι ε α : Type}

/-- A list over deferreds of which some may have fired already. -/
def new (deferreds : List ι) (result : ι → Option (Except ε α)) : DeferredList ι ε α :=
  ⟨deferreds.map fun d => (d, result d)⟩

def deferreds (l : DeferredList ι ε α) : List ι := l.entries.map Prod.fst

/-- `_cbDeferred`, called by the deferred `d` with its result. -/
def collect [DecidableEq ι] (l : DeferredList ι ε α) (d : ι) (r : Except ε α) : DeferredList ι ε α :=
  ⟨l.entries.map fun e => if e.1 = d then (d, some r) else e⟩

/-- The results in the order of the deferreds, once all of them are there. -/
def results (l : DeferredList ι ε α) : Option (List (Except ε α)) :=
  if ∀ e ∈ l.entries, e.2.isSome = true then some (l.entries.filterMap Prod.snd) else none

@[simp] theorem deferreds_new (ds : List ι) (result : ι → Option (Except ε α)) :
    (new ds result).deferreds = ds := by
  simp [deferreds, new, Function.comp_def]

@[simp] theorem deferreds_collect [DecidableEq ι] (l : DeferredList ι ε α) (d : ι) (r : Except ε α) :
    (l.collect d r).deferreds = l.deferreds := by
  simp only [deferreds, collect, List.map_map]
  apply List.map_congr_left
  intro e _
  simp only [Function.comp_def]
  split
  · symm
    assumption
  · rfl

theorem mem_entries_collect [DecidableEq ι] {l : DeferredList ι ε α} {d : ι} {r : Except ε α}
    {e : ι × Option (Except ε α)} (h : e ∈ (l.collect d r).entries) : e ∈ l.entries ∨ e = (d, some r) := by
  obtain ⟨e', he', rfl⟩ := List.mem_map.mp h
  split
  · exact Or.inr rfl
  · exact Or.inl he'

/-- When the list fires, every one of its deferreds has fired. -/
theorem exists_result {l : DeferredList ι ε α} {rs : List (Except ε α)} (h : l.results = some rs) {d : ι}
    (hd : d ∈ l.deferreds) : ∃ r ∈ rs, (d, some r) ∈ l.entries := by
  unfold results at h
  split at h
  · rename_i hall
    obtain ⟨⟨d', r'⟩, he, rfl⟩ := List.mem_map.mp hd
    obtain ⟨r, hr⟩ := Option.isSome_iff_exists.mp (hall _ he)
    cases hr
    cases h
    exact ⟨r, List.mem_filterMap.mpr ⟨_, he, rfl⟩, he⟩
  · cases h

theorem mem_results {l : DeferredList ι ε α} {rs : List (Except ε α)} (h : l.results = some rs) {r : Except ε α}
    (hr : r ∈ rs) : ∃ d, (d, some r) ∈ l.entries := by
  unfold results at h
  split at h
  · cases h
    obtain ⟨⟨d, _⟩, he, rfl⟩ := List.mem_filterMap.mp hr
    exact ⟨d, he⟩
  · cases h

/-- The list does not fire before each of its deferreds has. -/
theorem results_eq_none {l : DeferredList ι ε α} {d : ι} (hd : d ∈ l.deferreds)
    (h : ∀ r, (d, some r) ∉ l.entries) : l.results = none := by
  cases hresults : l.results with
  | none => rfl
  | some rs =>
    obtain ⟨r, -, hr⟩ := exists_result hresults hd
    exact absurd hr (h r)

end DeferredList

end BitBlinder
