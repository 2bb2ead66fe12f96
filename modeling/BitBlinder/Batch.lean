import Mathlib.Data.List.Dedup
import Mathlib.Data.Nat.Find

/-!
# Batches that are admitted item by item

An item of a batch presents a key, is refused, or is malformed. A key that has not been
seen is recorded as soon as its item is reached. A malformed item ends the batch, and so
does an item that cannot be answered, but only after its key has been recorded: nothing
undoes what was recorded before. The batch is all or nothing exactly when no item that
has a new key is reached in a batch that does not come to its end.
-/

namespace BitBlinder.Batch

set_option autoImplicit false

inductive Item (κ : Type) where
  | malformed
  | refused
  | presents (key : κ) (answerable : Bool)

variable {κ : Type}

def Presents (items : List (Item κ)) (i : Nat) (key : κ) : Prop := ∃ answerable, items[i]? = some (.presents key answerable)

/-- The first item with a key that has not been seen. -/
def Fresh (seen : κ → Bool) (items : List (Item κ)) (i : Nat) (key : κ) : Prop :=
  Presents items i key ∧ seen key = false ∧ ∀ j < i, ¬Presents items j key

/-- An item at which a batch ends early. -/
def Fails (seen : κ → Bool) (items : List (Item κ)) (i : Nat) : Prop :=
  items[i]? = some .malformed ∨ ∃ key, items[i]? = some (.presents key false) ∧ Fresh seen items i key

/-- If there is an item at which the batch ends early, then no new key stands before the first such
item, nor in it. -/
def Whole (seen : κ → Bool) (items : List (Item κ)) : Prop :=
  ∀ i key, Fresh seen items i key → (∀ m < i, ¬Fails seen items m) → ∀ j, ¬Fails seen items j

variable {seen : κ → Bool} {item : Item κ} {items : List (Item κ)} {i : Nat} {key k : κ}

theorem presents_zero : Presents (item :: items) 0 key ↔ ∃ answerable, item = .presents key answerable := by
  simp [Presents]

theorem presents_succ : Presents (item :: items) (i + 1) key ↔ Presents items i key := by
  simp [Presents]

theorem fresh_zero :
    Fresh seen (item :: items) 0 key ↔ (∃ answerable, item = .presents key answerable) ∧ seen key = false := by
  simp [Fresh, presents_zero]

theorem fails_zero : Fails seen (item :: items) 0 ↔
    item = .malformed ∨ ∃ key, item = .presents key false ∧ seen key = false := by
  unfold Fails
  simp only [List.getElem?_cons_zero, Option.some.injEq]
  refine or_congr_right (exists_congr fun key => and_congr_right fun h => ?_)
  rw [fresh_zero]
  exact and_iff_right ⟨false, h⟩

theorem not_fails_nil : ¬Fails seen [] i := by
  simp [Fails]

theorem not_fresh_nil : ¬Fresh seen [] i key := by
  simp [Fresh, Presents]

theorem exists_fresh : (∃ i, Fresh seen items i key) ↔ (∃ i, Presents items i key) ∧ seen key = false := by
  constructor
  · rintro ⟨i, hpresents, hseen, -⟩
    exact ⟨⟨i, hpresents⟩, hseen⟩
  · rintro ⟨hpresents, hseen⟩
    classical
    exact ⟨Nat.find hpresents, Nat.find_spec hpresents, hseen, fun j hj => Nat.find_min hpresents hj⟩

/-- A property of the positions of a batch, by its first item. -/
theorem forall_position {p : Nat → Prop} : (∀ i, p i) ↔ p 0 ∧ ∀ i, p (i + 1) :=
  ⟨fun h => ⟨h 0, fun i => h (i + 1)⟩, fun h i => by cases i with | zero => exact h.1 | succ i => exact h.2 i⟩

variable [DecidableEq κ]

def record (key : κ) (seen : κ → Bool) : κ → Bool := fun k => k == key || seen k

/-- The keys that a batch records, and whether it comes to its end. -/
def process : (κ → Bool) → List (Item κ) → List κ × Bool
  | _, [] => ([], true)
  | _, .malformed :: _ => ([], false)
  | seen, .refused :: items => process seen items
  | seen, .presents key answerable :: items =>
    if seen key then
      process seen items
    else if answerable then
      (key :: (process (record key seen) items).1, (process (record key seen) items).2)
    else
      ([key], false)

/-- The keys of a batch that have not been seen, each once. -/
def freshKeys (seen : κ → Bool) (items : List (Item κ)) : List κ :=
  (items.filterMap fun
    | .presents key _ => if seen key then none else some key
    | _ => none).dedup

@[simp] theorem record_iff : record key seen k = true ↔ k = key ∨ seen k = true := by
  simp [record]

@[simp] theorem record_eq_false : record key seen k = false ↔ k ≠ key ∧ seen k = false := by
  simp [record]

theorem record_seen (h : seen key = true) : record key seen = seen := by
  funext k
  by_cases hk : k = key
  · simp [record, hk, h]
  · simp [record, hk]

/-- What has been seen after an item. -/
def after (item : Item κ) (seen : κ → Bool) : κ → Bool :=
  match item with
  | .presents key _ => record key seen
  | _ => seen

theorem after_eq_false :
    after item seen k = false ↔ (∀ answerable, item ≠ .presents k answerable) ∧ seen k = false := by
  cases item with
  | malformed => simp [after]
  | refused => simp [after]
  | presents key answerable =>
    simp only [after, record_eq_false]
    constructor
    · rintro ⟨hne, hseen⟩
      exact ⟨fun a h => hne (by cases h; rfl), hseen⟩
    · rintro ⟨hne, hseen⟩
      exact ⟨fun h => hne answerable (by rw [h]), hseen⟩

theorem fresh_succ : Fresh seen (item :: items) (i + 1) key ↔ Fresh (after item seen) items i key := by
  unfold Fresh
  rw [presents_succ, after_eq_false]
  constructor
  · rintro ⟨hpresents, hseen, hbefore⟩
    refine ⟨hpresents, ⟨fun a ha => ?_, hseen⟩, fun j hj hp => ?_⟩
    · exact hbefore 0 (Nat.succ_pos i) (presents_zero.mpr ⟨a, ha⟩)
    · exact hbefore (j + 1) (Nat.succ_lt_succ hj) (presents_succ.mpr hp)
  · rintro ⟨hpresents, ⟨hne, hseen⟩, hbefore⟩
    refine ⟨hpresents, hseen, fun j hj hp => ?_⟩
    cases j with
    | zero =>
      obtain ⟨a, ha⟩ := presents_zero.mp hp
      exact hne a ha
    | succ j => exact hbefore j (Nat.lt_of_succ_lt_succ hj) (presents_succ.mp hp)

theorem fails_succ : Fails seen (item :: items) (i + 1) ↔ Fails (after item seen) items i := by
  simp [Fails, fresh_succ]

theorem process_finished : (process seen items).2 = true ↔ ∀ i, ¬Fails seen items i := by
  induction items generalizing seen with
  | nil => simp [process, not_fails_nil]
  | cons item items ih =>
    rw [forall_position, fails_zero]
    simp only [fails_succ]
    cases item with
    | malformed => simp [process]
    | refused => simp [process, after, ih]
    | presents key answerable =>
      cases hseen : seen key with
      | true => simp [process, after, ih, hseen, record_seen hseen]
      | false =>
        cases answerable with
        | true => simp [process, after, ih, hseen]
        | false => simp [process, hseen]

/-- The keys that are recorded are the new ones that are reached. -/
theorem mem_process : k ∈ (process seen items).1 ↔ ∃ i, Fresh seen items i k ∧ ∀ m < i, ¬Fails seen items m := by
  induction items generalizing seen with
  | nil => simp [process, not_fresh_nil]
  | cons item items ih =>
    have hstep : (∃ i, Fresh seen (item :: items) i k ∧ ∀ m < i, ¬Fails seen (item :: items) m) ↔
        Fresh seen (item :: items) 0 k ∨ ¬Fails seen (item :: items) 0 ∧ k ∈ (process (after item seen) items).1 := by
      rw [ih]
      constructor
      · rintro ⟨i, hfresh, hreached⟩
        cases i with
        | zero => exact .inl hfresh
        | succ i =>
          refine .inr ⟨hreached 0 (Nat.succ_pos i), i, fresh_succ.mp hfresh, fun m hm => ?_⟩
          rw [← fails_succ]
          exact hreached (m + 1) (Nat.succ_lt_succ hm)
      · rintro (hfresh | ⟨hfirst, i, hfresh, hreached⟩)
        · exact ⟨0, hfresh, fun m hm => absurd hm (Nat.not_lt_zero m)⟩
        · refine ⟨i + 1, fresh_succ.mpr hfresh, fun m hm => ?_⟩
          cases m with
          | zero => exact hfirst
          | succ m =>
            rw [fails_succ]
            exact hreached m (Nat.lt_of_succ_lt_succ hm)
    rw [hstep, fresh_zero, fails_zero]
    cases item with
    | malformed => simp [process]
    | refused => simp [process, after]
    | presents key answerable =>
      cases hseen : seen key with
      | true =>
        have hnew : ¬(k = key ∧ seen k = false) := fun h => by simp [h.1, hseen] at h
        simp only [process, hseen, after, record_seen hseen, if_true]
        grind
      | false =>
        cases answerable with
        | true => simp [process, after, hseen]; grind
        | false => simp [process, hseen]; grind

theorem not_seen_of_mem_process (h : k ∈ (process seen items).1) : seen k = false := by
  obtain ⟨i, hfresh, -⟩ := mem_process.mp h
  exact hfresh.2.1

theorem nodup_process : (process seen items).1.Nodup := by
  induction items generalizing seen with
  | nil => exact List.nodup_nil
  | cons item items ih =>
    cases item with
    | malformed => exact List.nodup_nil
    | refused => exact ih
    | presents key answerable =>
      unfold process
      split
      · exact ih
      · split
        · refine List.nodup_cons.mpr ⟨fun h => ?_, ih⟩
          exact (record_eq_false.mp (not_seen_of_mem_process h)).1 rfl
        · exact List.nodup_singleton key

/-- A batch is all or nothing: if it ends early, it has recorded no key. -/
theorem whole_iff : Whole seen items ↔ ((process seen items).2 = false → (process seen items).1 = []) := by
  constructor
  · intro hwhole hfails
    refine List.eq_nil_iff_forall_not_mem.mpr fun key hkey => ?_
    obtain ⟨i, hfresh, hreached⟩ := mem_process.mp hkey
    have hfinished := process_finished.mpr (hwhole i key hfresh hreached)
    rw [hfails] at hfinished
    cases hfinished
  · intro h i key hfresh hreached
    refine process_finished.mp (Bool.of_not_eq_false fun hfails => ?_)
    have hkey : key ∈ (process seen items).1 := mem_process.mpr ⟨i, hfresh, hreached⟩
    rw [h hfails] at hkey
    cases hkey

theorem mem_freshKeys : k ∈ freshKeys seen items ↔ ∃ i, Fresh seen items i k := by
  rw [exists_fresh, freshKeys, List.mem_dedup, List.mem_filterMap]
  constructor
  · rintro ⟨item, hitem, hk⟩
    cases item with
    | malformed => cases hk
    | refused => cases hk
    | presents key answerable =>
      obtain ⟨i, hi⟩ := List.getElem?_of_mem hitem
      cases hseen : seen key with
      | true => simp [hseen] at hk
      | false =>
        obtain rfl : key = k := by simpa [hseen] using hk
        exact ⟨⟨i, answerable, hi⟩, hseen⟩
  · rintro ⟨⟨i, answerable, hi⟩, hseen⟩
    exact ⟨.presents k answerable, List.mem_of_getElem? hi, by simp [hseen]⟩

/-- A batch that comes to its end records all its new keys. -/
theorem length_process (h : (process seen items).2 = true) :
    (process seen items).1.length = (freshKeys seen items).length := by
  have hreached := process_finished.mp h
  refine ((List.perm_ext_iff_of_nodup nodup_process (List.nodup_dedup _)).mpr fun k => ?_).length_eq
  rw [mem_process]
  refine Iff.trans ?_ mem_freshKeys.symm
  exact exists_congr fun i => and_iff_left fun m _ => hreached m

end BitBlinder.Batch
