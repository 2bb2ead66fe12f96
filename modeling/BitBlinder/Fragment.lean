import Mathlib.Data.List.Basic

/-!
# Cutting a string into cells of one size

The last cell is filled with a padding symbol. A string is determined by its
cells up to the padding, and the cells are determined by the string and their
size.
-/

namespace BitBlinder

set_option autoImplicit false

universe u
variable {α : Type u} (pad : α) (w : Nat)

/-- The loop that cuts off `w` symbols at a time; `fuel` bounds the number of cells. -/
def fragment : Nat → List α → List (List α)
  | 0, _ => []
  | fuel + 1, msg =>
    if 0 < msg.length then
      (msg.take w ++ List.replicate (w - (msg.take w).length) pad) :: fragment fuel (msg.drop w)
    else
      []

variable {pad w}

theorem length_of_mem_fragment {fuel : Nat} {msg cell : List α} (h : cell ∈ fragment pad w fuel msg) :
    cell.length = w := by
  induction fuel generalizing msg with
  | zero => simp [fragment] at h
  | succ fuel ih =>
    unfold fragment at h
    split at h
    · rcases List.mem_cons.mp h with rfl | h
      · simp only [List.length_append, List.length_take, List.length_replicate]
        omega
      · exact ih h
    · simp at h

theorem flatten_length_of_uniform {cells : List (List α)} (h : ∀ c ∈ cells, c.length = w) :
    cells.flatten.length = cells.length * w := by
  induction cells with
  | nil => simp
  | cons c cells ih =>
    have hc := h c List.mem_cons_self
    have hrest := ih fun c' hc' => h c' (List.mem_cons_of_mem c hc')
    simp only [List.flatten_cons, List.length_append, List.length_cons, hc, hrest, Nat.add_mul]
    omega

/-- The cells spell the message and padding, and the last cell is needed. -/
theorem flatten_fragment (pad : α) {fuel : Nat} {msg : List α} (hw : 0 < w) (hfuel : msg.length ≤ fuel) :
    ∃ n, (fragment pad w fuel msg).flatten = msg ++ List.replicate n pad ∧
      (fragment pad w fuel msg).length * w < msg.length + w := by
  induction fuel generalizing msg with
  | zero =>
    have hmsg : msg = [] := List.length_eq_zero_iff.mp (by omega)
    subst hmsg
    exact ⟨0, rfl, by simpa [fragment] using hw⟩
  | succ fuel ih =>
    unfold fragment
    split
    · rename_i hpos
      by_cases hlong : w ≤ msg.length
      · have htake : (msg.take w).length = w := by
          rw [List.length_take]
          omega
        have hdrop : (msg.drop w).length ≤ fuel := by
          rw [List.length_drop]
          omega
        obtain ⟨n, hflat, hlen⟩ := ih hdrop
        refine ⟨n, ?_, ?_⟩
        · rw [List.flatten_cons, hflat, htake, Nat.sub_self, List.replicate_zero, List.append_nil,
            ← List.append_assoc, List.take_append_drop]
        · rw [List.length_drop] at hlen
          rw [List.length_cons, Nat.add_mul]
          omega
      · have htake : msg.take w = msg := List.take_of_length_le (by omega)
        have hdrop : msg.drop w = [] := List.drop_eq_nil_of_le (by omega)
        have hnil : fragment pad w fuel (msg.drop w) = [] := by
          rw [hdrop]
          cases fuel <;> simp [fragment]
        refine ⟨w - msg.length, ?_, ?_⟩
        · simp [htake, hnil]
        · simp only [hnil, List.length_cons, List.length_nil]
          omega
    · rename_i hpos
      have hmsg : msg = [] := List.length_eq_zero_iff.mp (by omega)
      subst hmsg
      exact ⟨0, rfl, by simpa using hw⟩

theorem eq_of_flatten_eq {cells cells' : List (List α)} (hw : 0 < w)
    (h : ∀ c ∈ cells, c.length = w) (h' : ∀ c ∈ cells', c.length = w)
    (hflat : cells.flatten = cells'.flatten) : cells = cells' := by
  induction cells generalizing cells' with
  | nil =>
    cases cells' with
    | nil => rfl
    | cons c' cells' =>
      have hc' := h' c' List.mem_cons_self
      simp only [List.flatten_nil, List.flatten_cons] at hflat
      have hlen := congrArg List.length hflat
      simp only [List.length_nil, List.length_append] at hlen
      omega
  | cons c cells ih =>
    have hc := h c List.mem_cons_self
    cases cells' with
    | nil =>
      simp only [List.flatten_nil, List.flatten_cons] at hflat
      have hlen := congrArg List.length hflat
      simp only [List.length_nil, List.length_append] at hlen
      omega
    | cons c' cells' =>
      have hc' := h' c' List.mem_cons_self
      simp only [List.flatten_cons] at hflat
      obtain ⟨hhead, htail⟩ := List.append_inj hflat (hc.trans hc'.symm)
      rw [hhead, ih (fun x hx => h x (List.mem_cons_of_mem c hx))
        (fun x hx => h' x (List.mem_cons_of_mem c' hx)) htail]

theorem fragment_length_unique (pad : α) {fuel k : Nat} {msg : List α} (hw : 0 < w)
    (hfuel : msg.length ≤ fuel) (hle : msg.length ≤ k * w) (hlt : k * w < msg.length + w) :
    k = (fragment pad w fuel msg).length := by
  obtain ⟨n, hflat, hlen⟩ := flatten_fragment pad hw hfuel
  have huniform : ∀ c ∈ fragment pad w fuel msg, c.length = w := fun c hc =>
    length_of_mem_fragment hc
  have hcells := flatten_length_of_uniform huniform
  rw [hflat, List.length_append] at hcells
  have hk : k < (fragment pad w fuel msg).length + 1 := by
    apply Nat.lt_of_mul_lt_mul_right (a := w)
    rw [Nat.add_mul]
    omega
  have hk' : (fragment pad w fuel msg).length < k + 1 := by
    apply Nat.lt_of_mul_lt_mul_right (a := w)
    rw [Nat.add_mul]
    omega
  omega

/-- Cells that spell the message and padding, without a superfluous cell, are its fragments. -/
theorem eq_fragment {fuel n : Nat} {msg : List α} {cells : List (List α)} (hw : 0 < w)
    (hfuel : msg.length ≤ fuel) (h : ∀ c ∈ cells, c.length = w)
    (hflat : cells.flatten = msg ++ List.replicate n pad)
    (hlen : cells.length * w < msg.length + w) : cells = fragment pad w fuel msg := by
  obtain ⟨n', hflat', -⟩ := flatten_fragment pad hw hfuel
  have huniform : ∀ c ∈ fragment pad w fuel msg, c.length = w := fun c hc =>
    length_of_mem_fragment hc
  have hl := flatten_length_of_uniform h
  have hl' := flatten_length_of_uniform huniform
  rw [hflat, List.length_append, List.length_replicate] at hl
  rw [hflat', List.length_append, List.length_replicate] at hl'
  have hcount := fragment_length_unique pad hw hfuel (by omega) hlen
  have hn : n = n' := by
    rw [hcount] at hl
    omega
  apply eq_of_flatten_eq hw h huniform
  rw [hflat, hflat', hn]

end BitBlinder
