import Mathlib.Data.List.AList
import Mathlib.Data.List.DropRight

/-!
# A bounded cache with a queue of its keys

A table of values and a queue of its keys, from whose front keys are taken out
of both when the queue has more than `n` of them. `Holds` compares the two with
the log of everything that was put in: the cache is the end of the log.
-/

namespace BitBlinder

set_option autoImplicit false

universe u v

section
variable {α : Type u} {l : List α} {n : Nat}

theorem rtake_of_le (h : l.length ≤ n) : l.rtake n = l := by
  rw [List.rtake, Nat.sub_eq_zero_of_le h, List.drop_zero]

theorem rtake_concat_of_lt (h : l.length < n) (a : α) : (l ++ [a]).rtake n = l.rtake n ++ [a] := by
  have hnext : (l ++ [a]).length ≤ n := by
    rw [List.length_append]
    exact h
  rw [rtake_of_le hnext, rtake_of_le (Nat.le_of_lt h)]

/-- The first of the last `n` goes when another is added. -/
theorem rtake_concat_of_le (hn : 0 < n) (h : n ≤ l.length) (a : α) :
    (l ++ [a]).rtake n = (l.rtake n).tail ++ [a] := by
  have hnext : l.length + 1 - n = l.length - n + 1 := by omega
  have hle : l.length - n + 1 ≤ l.length := by omega
  simp only [List.rtake, List.length_append, List.length_singleton, hnext]
  rw [List.drop_append_of_le_length hle, List.tail_drop]

theorem rtake_append_of_le {l' : List α} (h : l'.length ≤ n) :
    (l ++ l').rtake n = l.rtake (n - l'.length) ++ l' := by
  have hcut : (l ++ l').length - n = l.length - (n - l'.length) := by
    rw [List.length_append]
    omega
  unfold List.rtake
  rw [hcut, List.drop_append_of_le_length (Nat.sub_le _ _)]

theorem length_rtake (l : List α) (n : Nat) : (l.rtake n).length = min n l.length := by
  simp only [List.rtake, List.length_drop]
  omega

end

namespace FifoCache

variable {κ : Type u} {ν : Type v} [DecidableEq κ]

structure Holds (n : Nat) (queue : List κ) (table : AList fun _ : κ => ν) (log : List (κ × ν)) : Prop where
  queue_eq : queue = (log.rtake n).map Prod.fst
  nodup : queue.Nodup
  keys : ∀ k, k ∈ queue ↔ k ∈ table
  found : ∀ e ∈ log.rtake n, table.lookup e.1 = some e.2

variable {n : Nat} {queue : List κ} {table : AList fun _ : κ => ν} {log : List (κ × ν)}

theorem holds_empty (n : Nat) : Holds n ([] : List κ) (∅ : AList fun _ : κ => ν) [] where
  queue_eq := by simp
  nodup := List.nodup_nil
  keys k := by simp
  found e he := by simp at he

namespace Holds

theorem length_eq (h : Holds n queue table log) : queue.length = min n log.length := by
  rw [h.queue_eq, List.length_map, length_rtake]

theorem length_le (h : Holds n queue table log) : queue.length ≤ n := by
  rw [h.length_eq]
  exact Nat.min_le_left _ _

/-- While there is room, nothing leaves the cache. -/
theorem push (h : Holds n queue table log) (hroom : queue.length < n) {k : κ} (hk : k ∉ table) (v : ν) :
    Holds n (queue ++ [k]) (table.insert k v) (log ++ [(k, v)]) := by
  have hlength : log.length < n := by
    have hqueue := h.length_eq
    omega
  have hlog := rtake_concat_of_lt hlength (k, v)
  refine ⟨?_, ?_, fun other => ?_, fun e he => ?_⟩
  · rw [hlog, List.map_append, ← h.queue_eq]
    rfl
  · rw [← List.concat_eq_append]
    exact h.nodup.concat fun hmem => hk ((h.keys k).mp hmem)
  · rw [AList.mem_insert, List.mem_append, List.mem_singleton, h.keys, or_comm]
  · rw [hlog] at he
    rcases List.mem_append.mp he with he | he
    · have hold := h.found e he
      have hne : e.1 ≠ k := by
        intro hek
        rw [hek, AList.lookup_eq_none.mpr hk] at hold
        cases hold
      rw [AList.lookup_insert_ne hne, hold]
    · cases List.mem_singleton.mp he
      exact AList.lookup_insert table

/-- A full cache gives up its first key. -/
theorem push_full (h : Holds n queue table log) {first : κ} {rest : List κ} (hqueue : queue = first :: rest)
    (hfull : queue.length = n) {k : κ} (hk : k ∉ table) (v : ν) :
    Holds n (rest ++ [k]) ((table.insert k v).erase first) (log ++ [(k, v)]) := by
  have hpos : 0 < n := by
    rw [← hfull, hqueue]
    exact Nat.succ_pos _
  have hlength : n ≤ log.length := by
    have hlength := h.length_eq
    omega
  have hlog := rtake_concat_of_le hpos hlength (k, v)
  have htail : (log.rtake n).tail.map Prod.fst = rest := by
    rw [List.map_tail, ← h.queue_eq, hqueue]
    rfl
  have hnodup := h.nodup
  rw [hqueue] at hnodup
  obtain ⟨hfirst, hrest⟩ := List.nodup_cons.mp hnodup
  have hmem : ∀ other, other ∈ first :: rest ↔ other ∈ table := by
    rw [← hqueue]
    exact h.keys
  have hne : first ≠ k := fun hfk => hk (hfk ▸ (hmem first).mp List.mem_cons_self)
  refine ⟨?_, ?_, fun other => ?_, fun e he => ?_⟩
  · rw [hlog, List.map_append, htail]
    rfl
  · rw [← List.concat_eq_append]
    exact hrest.concat fun hmemRest => hk ((hmem k).mp (List.mem_cons_of_mem _ hmemRest))
  · rw [AList.mem_erase, AList.mem_insert, ← hmem, List.mem_append, List.mem_singleton, List.mem_cons]
    constructor
    · rintro (hother | rfl)
      · exact ⟨fun hof => hfirst (hof ▸ hother), Or.inr (Or.inr hother)⟩
      · exact ⟨hne.symm, Or.inl rfl⟩
    · rintro ⟨hof, rfl | rfl | hother⟩
      · exact Or.inr rfl
      · exact absurd rfl hof
      · exact Or.inl hother
  · rw [hlog] at he
    rcases List.mem_append.mp he with he | he
    · have hold := h.found e (List.mem_of_mem_tail he)
      have hrestMem : e.1 ∈ rest := by
        rw [← htail]
        exact List.mem_map_of_mem he
      have hek : e.1 ≠ k := fun hek => hk (hek ▸ (hmem e.1).mp (List.mem_cons_of_mem _ hrestMem))
      have hef : e.1 ≠ first := fun hef => hfirst (hef ▸ hrestMem)
      rw [AList.lookup_erase_ne hef, AList.lookup_insert_ne hek, hold]
    · cases List.mem_singleton.mp he
      rw [AList.lookup_erase_ne hne.symm, AList.lookup_insert]

end Holds

end FifoCache

end BitBlinder
