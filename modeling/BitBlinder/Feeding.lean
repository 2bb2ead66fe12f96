import Mathlib.Logic.Basic

/-!
# Machines that are fed in parts

A machine turns as long as it can on what it holds, and then waits until more is pushed
to it. Two feedings of the same stream end alike when a push and a turn may be exchanged,
as far as is seen of them. `whileTrue` is a loop of Python whose body returns or goes on.
-/

namespace BitBlinder

set_option autoImplicit false

universe u v w

/-- `size` is more than the turns that a state takes by itself. -/
structure Feed (σ : Type u) (α : Type v) where
  turn : σ → Option σ
  push : List α → σ → σ
  size : σ → Nat
  turn_size : ∀ {p q}, turn p = some q → size q < size p
  push_nil : ∀ p, push [] p = p
  push_append : ∀ a b p, push (a ++ b) p = push b (push a p)

inductive Loop (τ : Type u) where
  | again (t : τ)
  | back (t : τ)

def whileTrue {τ : Type u} (body : τ → Loop τ) : Nat → τ → τ
  | 0, t => t
  | fuel + 1, t =>
    match body t with
    | .again t' => whileTrue body fuel t'
    | .back t' => t'

namespace Feed
variable {σ : Type u} {α : Type v} (m : Feed σ α) {p q : σ} {a b : List α}

def drain : Nat → σ → σ
  | 0, p => p
  | n + 1, p =>
    match m.turn p with
    | some q => drain n q
    | none => p

def settle (p : σ) : σ := m.drain (m.size p) p

def feed (p : σ) (a : List α) : σ := m.settle (m.push a p)

variable {m}

theorem drain_of_none (h : m.turn p = none) (n : Nat) : m.drain n p = p := by
  cases n with
  | zero => rfl
  | succ n => simp only [drain, h]

theorem drain_eq_settle {n : Nat} (h : m.size p ≤ n) : m.drain n p = m.settle p := by
  have hall : ∀ n k p, m.size p ≤ n → m.size p ≤ k → m.drain n p = m.drain k p := by
    intro n
    induction n with
    | zero =>
      intro k p hn _
      cases hturn : m.turn p with
      | none => rw [drain_of_none hturn, drain_of_none hturn]
      | some q =>
        have hsize := m.turn_size hturn
        omega
    | succ n ih =>
      intro k p hn hk
      cases hturn : m.turn p with
      | none => rw [drain_of_none hturn, drain_of_none hturn]
      | some q =>
        have hsize := m.turn_size hturn
        cases k with
        | zero => omega
        | succ k =>
          simp only [drain, hturn]
          exact ih k q (by omega) (by omega)
  exact hall n (m.size p) p h (Nat.le_refl _)

theorem settle_of_none (h : m.turn p = none) : m.settle p = p := drain_of_none h _

theorem settle_of_turn (h : m.turn p = some q) : m.settle p = m.settle q := by
  have hsize := m.turn_size h
  obtain ⟨n, hn⟩ : ∃ n, m.size p = n + 1 := ⟨m.size p - 1, by omega⟩
  calc m.settle p = m.drain n q := by simp only [settle, hn, drain, h]
    _ = m.settle q := drain_eq_settle (by omega)

/-- What is shown for the states that wait and passes back along a turn. -/
theorem turn_induction {motive : σ → Prop} (rest : ∀ p, m.turn p = none → motive p)
    (step : ∀ p q, m.turn p = some q → motive q → motive p) (p : σ) : motive p := by
  induction hn : m.size p using Nat.strongRecOn generalizing p with
  | ind n ih =>
    cases hturn : m.turn p with
    | none => exact rest p hturn
    | some q =>
      have hsize := m.turn_size hturn
      exact step p q hturn (ih (m.size q) (by omega) q rfl)

theorem turn_settle (p : σ) : m.turn (m.settle p) = none := by
  induction p using turn_induction with
  | rest p h => rw [settle_of_none h, h]
  | step p q h ih => rw [settle_of_turn h, ih]

theorem settle_invariant {I : σ → Prop} (kept : ∀ {p q}, I p → m.turn p = some q → I q) (hp : I p) :
    I (m.settle p) := by
  induction p using turn_induction with
  | rest p h => rwa [settle_of_none h]
  | step p q h ih =>
    rw [settle_of_turn h]
    exact ih (kept hp h)

/-- A loop whose body goes on as the machine turns, and returns what the machine comes to. -/
theorem settle_eq_whileTrue {τ : Type w} (body : τ → Loop τ) (before after : τ → σ) (I Post : τ → Prop)
    (again : ∀ {t t'}, I t → body t = .again t' → I t' ∧ m.turn (before t) = some (before t'))
    (back : ∀ {t t'}, I t → body t = .back t' → Post t' ∧ m.settle (before t) = after t')
    {t : τ} (ht : I t) {fuel : Nat} (hfuel : m.size (before t) < fuel) :
    Post (whileTrue body fuel t) ∧ m.settle (before t) = after (whileTrue body fuel t) := by
  induction fuel generalizing t with
  | zero => omega
  | succ fuel ih =>
    simp only [whileTrue]
    cases hbody : body t with
    | again t' =>
      obtain ⟨ht', hturn⟩ := again ht hbody
      have hsize := m.turn_size hturn
      rw [settle_of_turn hturn]
      exact ih ht' (by omega)
    | back t' => exact back ht hbody

/-! ## Cutting a stream in two ways -/

variable (m) in
/-- A push and a turn may be exchanged in the states that are safe, as far as `obs` sees. -/
structure Exchange {ω : Type w} (obs : σ → ω) (Safe : σ → Prop) : Prop where
  kept : ∀ {p q}, Safe p → m.turn p = some q → Safe q
  early : ∀ {p q b}, b ≠ [] → Safe (m.push b p) → m.turn p = some q →
    Safe (m.push b q) ∧ obs (m.settle (m.push b p)) = obs (m.settle (m.push b q))

variable {ω : Type w} {obs : σ → ω} {Safe : σ → Prop}

theorem Exchange.push_settle (h : m.Exchange obs Safe) (hp : Safe (m.push b p)) :
    Safe (m.push b (m.settle p)) ∧ obs (m.settle (m.push b p)) = obs (m.settle (m.push b (m.settle p))) := by
  induction p using turn_induction with
  | rest p hturn =>
    rw [settle_of_none hturn]
    exact ⟨hp, rfl⟩
  | step p q hturn ih =>
    rw [settle_of_turn hturn]
    by_cases hb : b = []
    · subst hb
      rw [m.push_nil] at hp
      obtain ⟨hsafe, heq⟩ := ih (by rw [m.push_nil]; exact h.kept hp hturn)
      refine ⟨hsafe, ?_⟩
      rw [m.push_nil] at heq ⊢
      rw [settle_of_turn hturn, heq]
    · obtain ⟨hq, hobs⟩ := h.early hb hp hturn
      obtain ⟨hsafe, heq⟩ := ih hq
      exact ⟨hsafe, hobs.trans heq⟩

/-- A safe stream is seen the same however it is cut. -/
theorem Exchange.obs_foldl (h : m.Exchange obs Safe) (hrest : m.turn p = none) {cuts : List (List α)}
    (hp : Safe (m.push cuts.flatten p)) : obs (cuts.foldl m.feed p) = obs (m.feed p cuts.flatten) := by
  induction cuts generalizing p with
  | nil =>
    have hwhole : m.feed p [] = p := by rw [feed, m.push_nil, settle_of_none hrest]
    rw [List.flatten_nil, hwhole]
    rfl
  | cons c cuts ih =>
    rw [List.flatten_cons, m.push_append] at hp
    obtain ⟨hsafe, hobs⟩ := h.push_settle hp
    calc obs ((c :: cuts).foldl m.feed p) = obs (m.feed (m.feed p c) cuts.flatten) := ih (turn_settle _) hsafe
      _ = obs (m.feed p (c :: cuts).flatten) := by
        rw [feed, feed, feed, List.flatten_cons, m.push_append, hobs]

end Feed
end BitBlinder
