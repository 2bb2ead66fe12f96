import Mathlib.Data.List.ReduceOption
import Mathlib.Data.List.Nodup

/-!
# Sets as hash tables, and the iteration over them

A set is a table of slots. An insertion may rearrange the table, in a way that
no program can rely on; a removal frees one slot. An iterator remembers its
position and the number of keys at its start: it raises when that number is
another one, and looks for the next key from its position otherwise.
-/

namespace BitBlinder

set_option autoImplicit false

universe u

/-- The tables that insertions lead to: the old keys and the new one, in any arrangement. -/
structure Hashing (α : Type u) where
  place : List (Option α) → α → List (Option α)
  perm : ∀ slots a, (place slots a).reduceOption.Perm (a :: slots.reduceOption)

structure PySet (α : Type u) where
  slots : List (Option α)
  nodup : slots.reduceOption.Nodup

namespace PySet
variable {α : Type u}

/-- The keys in the order of the table. -/
def members (s : PySet α) : List α := s.slots.reduceOption

def empty : PySet α := ⟨[], List.nodup_nil⟩

@[simp] theorem not_mem_empty {a : α} : a ∉ (empty : PySet α).members := List.not_mem_nil

/-- What the next step of an iteration comes to. -/
inductive Next (α : Type u) where
  | sizeChanged
  | exhausted
  | yielded (a : α) (position : Nat)

/-- The first key from `position` on, and the position behind it. -/
def scan : List (Option α) → Nat → Option (α × Nat)
  | [], _ => none
  | none :: rest, position => scan rest (position + 1)
  | some a :: _, position => some (a, position + 1)

def next (s : PySet α) (used position : Nat) : Next α :=
  if s.members.length = used then
    match scan (s.slots.drop position) position with
    | none => .exhausted
    | some (a, position) => .yielded a position
  else
    .sizeChanged

/-- The keys that an iteration has not come to. -/
def rest (s : PySet α) (position : Nat) : List α := (s.slots.drop position).reduceOption

theorem rest_zero (s : PySet α) : s.rest 0 = s.members := rfl

theorem scan_eq (slots : List (Option α)) (position : Nat) :
    (slots.reduceOption = [] ∧ scan slots position = none) ∨
      ∃ a k, scan slots position = some (a, position + k) ∧
        slots.reduceOption = a :: (slots.drop k).reduceOption := by
  induction slots generalizing position with
  | nil => exact Or.inl ⟨rfl, rfl⟩
  | cons slot slots ih =>
    cases slot with
    | none =>
      rcases ih (position + 1) with ⟨hnil, hscan⟩ | ⟨a, k, hscan, hrest⟩
      · exact Or.inl ⟨hnil, hscan⟩
      · refine Or.inr ⟨a, k + 1, ?_, hrest⟩
        rw [scan, hscan, Nat.add_assoc, Nat.add_comm 1 k]
    | some a => exact Or.inr ⟨a, 1, rfl, rfl⟩

/-- An iteration over a set of the number of keys it had at its start ends where no keys are left, and
yields the next one otherwise. -/
theorem next_eq {s : PySet α} {used : Nat} (h : s.members.length = used) (position : Nat) :
    (s.rest position = [] ∧ s.next used position = .exhausted) ∨
      ∃ a position', s.next used position = .yielded a position' ∧ s.rest position = a :: s.rest position' := by
  rcases scan_eq (s.slots.drop position) position with ⟨hnil, hscan⟩ | ⟨a, k, hscan, hrest⟩
  · refine Or.inl ⟨hnil, ?_⟩
    rw [next, if_pos h, hscan]
  · refine Or.inr ⟨a, position + k, ?_, ?_⟩
    · rw [next, if_pos h, hscan]
    · rw [rest, hrest, List.drop_drop]
      rfl

theorem mem_of_next {s : PySet α} {used position position' : Nat} {a : α}
    (h : s.next used position = .yielded a position') : a ∈ s.members := by
  by_cases hused : s.members.length = used
  · rcases next_eq hused position with ⟨-, hnext⟩ | ⟨b, position'', hnext, hrest⟩
    · rw [hnext] at h
      cases h
    · rw [hnext] at h
      cases h
      have hmem : a ∈ s.rest position := by
        rw [hrest]
        exact List.mem_cons_self
      exact ((List.drop_sublist position s.slots).filterMap id).subset hmem
  · rw [next, if_neg hused] at h
    cases h

theorem next_eq_sizeChanged_iff {s : PySet α} {used position : Nat} :
    s.next used position = .sizeChanged ↔ s.members.length ≠ used := by
  constructor
  · intro h hused
    rcases next_eq hused position with ⟨-, hnext⟩ | ⟨b, position'', hnext, -⟩
    · rw [hnext] at h
      cases h
    · rw [hnext] at h
      cases h
  · intro h
    rw [next, if_neg h]

variable [DecidableEq α] (H : Hashing α)

def add (s : PySet α) (a : α) : PySet α :=
  if h : a ∈ s.members then
    s
  else
    ⟨H.place s.slots a, (H.perm s.slots a).nodup_iff.mpr (List.nodup_cons.mpr ⟨h, s.nodup⟩)⟩

theorem reduceOption_erase (slots : List (Option α)) (a : α) :
    (slots.map fun slot => if slot = some a then none else slot).reduceOption =
      slots.reduceOption.filter fun b => b ≠ a := by
  induction slots with
  | nil => rfl
  | cons slot slots ih =>
    cases slot with
    | none => simpa using ih
    | some b =>
      by_cases hb : b = a
      · simpa [hb] using ih
      · simpa [hb] using ih

/-- `remove` of a key that is there. -/
def remove (s : PySet α) (a : α) : PySet α where
  slots := s.slots.map fun slot => if slot = some a then none else slot
  nodup := by
    rw [reduceOption_erase]
    exact s.nodup.filter _

@[simp] theorem mem_add {s : PySet α} {a b : α} : b ∈ (s.add H a).members ↔ b = a ∨ b ∈ s.members := by
  unfold add
  split
  · rename_i h
    constructor
    · exact Or.inr
    · rintro (rfl | hb)
      · exact h
      · exact hb
  · exact (H.perm s.slots a).mem_iff.trans List.mem_cons

@[simp] theorem mem_remove {s : PySet α} {a b : α} : b ∈ (s.remove a).members ↔ b ∈ s.members ∧ b ≠ a := by
  unfold members remove
  rw [reduceOption_erase, List.mem_filter, decide_eq_true_eq]

end PySet

end BitBlinder
