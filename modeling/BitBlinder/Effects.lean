import Mathlib.Order.RelClasses

/-!
# Stateful code with exceptions

Rules for `EStateM`, in which an exception keeps the changes made before it.
`Outcome x s Q E` says that `x`, run from `s`, returns with `Q` or raises with
`E`; it is computed through a program by the `outcome_` equations. `Moves R x`
says that every run of `x` relates its first state to its last, however it
ends; with a preorder `R` it is proved one statement at a time.
-/

namespace BitBlinder.Effects

set_option autoImplicit false

variable {ε σ α β : Type}

def Outcome (x : EStateM ε σ α) (s : σ) (Q : α → σ → Prop) (E : ε → σ → Prop) : Prop :=
  match x s with
  | .ok a t => Q a t
  | .error e t => E e t

/-- A statement that is executed only under a condition. -/
def when (c : Prop) [Decidable c] (x : EStateM ε σ Unit) : EStateM ε σ Unit :=
  if c then x else pure ()

/-- Running `h` when `x` raises; what `x` has done stays done. -/
def rescue (x h : EStateM ε σ Unit) : EStateM ε σ Unit := fun s =>
  match x s with
  | .ok _ t => .ok () t
  | .error _ t => h t

def attempt (x : Except ε α) : EStateM ε σ α :=
  match x with
  | .ok a => pure a
  | .error e => throw e

/-- The state in which a computation ends. -/
def finish (x : EStateM ε σ α) (s : σ) : σ :=
  match x s with
  | .ok _ t => t
  | .error _ t => t

section Outcome
variable {x : EStateM ε σ α} {f : α → EStateM ε σ β} {s : σ}
  {Q Q' : α → σ → Prop} {E E' : ε → σ → Prop}

@[simp] theorem outcome_pure (a : α) : Outcome (pure a : EStateM ε σ α) s Q E ↔ Q a s := Iff.rfl

@[simp] theorem outcome_throw (e : ε) : Outcome (throw e : EStateM ε σ α) s Q E ↔ E e s := Iff.rfl

@[simp] theorem outcome_get {Q : σ → σ → Prop} :
    Outcome (get : EStateM ε σ σ) s Q E ↔ Q s s := Iff.rfl

@[simp] theorem outcome_modify {g : σ → σ} {Q : PUnit → σ → Prop} :
    Outcome (modify g : EStateM ε σ PUnit) s Q E ↔ Q ⟨⟩ (g s) := Iff.rfl

@[simp] theorem outcome_bind {Q : β → σ → Prop} :
    Outcome (x >>= f) s Q E ↔ Outcome x s (fun a t => Outcome (f a) t Q E) E := by
  simp only [Outcome, bind, EStateM.bind]
  cases x s <;> rfl

@[simp] theorem outcome_attempt {x : Except ε α} : Outcome (attempt x : EStateM ε σ α) s Q E ↔
    match x with
    | .ok a => Q a s
    | .error e => E e s := by
  cases x <;> rfl

@[simp] theorem outcome_ite {c : Prop} [Decidable c] {y : EStateM ε σ α} :
    Outcome (if c then x else y) s Q E ↔ if c then Outcome x s Q E else Outcome y s Q E := by
  split <;> rfl

@[simp] theorem outcome_when {c : Prop} [Decidable c] {x : EStateM ε σ Unit} {Q : Unit → σ → Prop} :
    Outcome (when c x) s Q E ↔ if c then Outcome x s Q E else Q () s := by
  unfold when
  rw [outcome_ite, outcome_pure]

@[simp] theorem outcome_rescue {x h : EStateM ε σ Unit} {Q : Unit → σ → Prop} :
    Outcome (rescue x h) s Q E ↔ Outcome x s Q fun _ t => Outcome h t Q E := by
  simp only [Outcome, rescue]
  cases x s <;> rfl

theorem eq_ok_iff {a : α} {t : σ} : x s = .ok a t ↔ Outcome x s (fun b u => b = a ∧ u = t) fun _ _ => False := by
  unfold Outcome
  cases x s with
  | ok b u => simp
  | error e u => simp

theorem outcome_of_eq_ok {a : α} {t : σ} (h : x s = .ok a t) : Outcome x s Q E ↔ Q a t := by
  simp only [Outcome, h]

theorem bind_eq_ok {a : α} {t : σ} (h : x s = .ok a t) : (x >>= f) s = f a t := by
  simp only [bind, EStateM.bind, h]

theorem get_bind (f : σ → EStateM ε σ β) (s : σ) : (get >>= f) s = f s s := rfl

theorem modify_bind (g : σ → σ) (f : PUnit → EStateM ε σ β) (s : σ) : (modify g >>= f) s = f ⟨⟩ (g s) := rfl

theorem finish_bind {a : α} {t : σ} (h : x s = .ok a t) : finish (x >>= f) s = finish (f a) t := by
  simp only [finish, bind_eq_ok h]

theorem Outcome.mono (h : Outcome x s Q E) (hQ : ∀ a t, Q a t → Q' a t) (hE : ∀ e t, E e t → E' e t) :
    Outcome x s Q' E' := by
  unfold Outcome at h ⊢
  cases hx : x s with
  | ok a t =>
    rw [hx] at h
    exact hQ a t h
  | error e t =>
    rw [hx] at h
    exact hE e t h

theorem outcome_trivial (x : EStateM ε σ α) (s : σ) : Outcome x s (fun _ _ => True) fun _ _ => True := by
  unfold Outcome
  cases x s with
  | ok a t => trivial
  | error e t => trivial

theorem Outcome.and (h : Outcome x s Q E) (h' : Outcome x s Q' E') :
    Outcome x s (fun a t => Q a t ∧ Q' a t) fun e t => E e t ∧ E' e t := by
  unfold Outcome at h h' ⊢
  cases hx : x s with
  | ok a t =>
    rw [hx] at h h'
    exact ⟨h, h'⟩
  | error e t =>
    rw [hx] at h h'
    exact ⟨h, h'⟩

theorem outcome_bind_attempt {x : Except ε α} {Q : β → σ → Prop} (hok : ∀ a, Outcome (f a) s Q E)
    (herror : ∀ e, E e s) : Outcome (attempt x >>= f) s Q E := by
  cases x with
  | ok a => exact hok a
  | error e => exact herror e

theorem outcome_finish {I : σ → Prop} : Outcome x s (fun _ => I) (fun _ => I) ↔ I (finish x s) := by
  simp only [Outcome, finish]
  cases x s <;> rfl

end Outcome

def Moves (R : σ → σ → Prop) (x : EStateM ε σ α) : Prop :=
  ∀ s, Outcome x s (fun _ => R s) (fun _ => R s)

namespace Moves
variable {R : σ → σ → Prop}

theorem finish {x : EStateM ε σ α} (h : Moves R x) (s : σ) : R s (finish x s) :=
  outcome_finish.mp (h s)

theorem mono {R' : σ → σ → Prop} {x : EStateM ε σ α} (h : Moves R x) (hR : ∀ {s t}, R s t → R' s t) :
    Moves R' x :=
  fun s => (h s).mono (fun _ _ hst => hR hst) fun _ _ hst => hR hst

/-- A property that a program keeps from the states that have it. -/
theorem of_invariant {I : σ → Prop} {x : EStateM ε σ α}
    (h : ∀ s, I s → Outcome x s (fun _ => I) fun _ => I) : Moves (fun s t => I s → I t) x := by
  intro s
  unfold Outcome at h ⊢
  cases hx : x s with
  | ok a t =>
    intro hs
    have ht := h s hs
    rwa [hx] at ht
  | error e t =>
    intro hs
    have ht := h s hs
    rwa [hx] at ht

theorem invariant {I : σ → Prop} {x : EStateM ε σ α} (h : Moves (fun s t => I s → I t) x) {s : σ} (hs : I s) :
    Outcome x s (fun _ => I) fun _ => I :=
  (h s).mono (fun _ _ ht => ht hs) fun _ _ ht => ht hs

theorem modify {g : σ → σ} (h : ∀ s, R s (g s)) : Moves R (modify g : EStateM ε σ PUnit) := h

/-- The value of an attempt is known where it is used. -/
theorem bind_attempt [Std.Refl R] {x : Except ε α} {f : α → EStateM ε σ β}
    (hf : ∀ a, x = .ok a → Moves R (f a)) : Moves R (attempt x >>= f) := by
  cases x with
  | ok a => exact hf a rfl
  | error e => exact fun s => refl_of R s

theorem ite {c : Prop} [Decidable c] {x y : EStateM ε σ α} (hx : c → Moves R x)
    (hy : ¬c → Moves R y) : Moves R (if c then x else y) := by
  split
  · exact hx ‹_›
  · exact hy ‹_›

/-- A property established by the first statement and kept by the second. -/
theorem after {I : σ → Prop} {x : EStateM ε σ α} {f : α → EStateM ε σ β} {s : σ}
    (hx : Outcome x s (fun _ => I) fun _ => I) (hf : ∀ a, Moves R (f a))
    (kept : ∀ {s t}, R s t → I s → I t) : Outcome (x >>= f) s (fun _ => I) fun _ => I := by
  rw [outcome_bind]
  refine hx.mono ?_ fun _ _ h => h
  intro a t ht
  exact (hf a t).mono (fun _ _ htu => kept htu ht) fun _ _ htu => kept htu ht

section Preorder
variable [IsPreorder σ R]

theorem pure (a : α) : Moves R (pure a : EStateM ε σ α) := fun s => refl_of R s

theorem throw (e : ε) : Moves R (throw e : EStateM ε σ α) := fun s => refl_of R s

theorem get : Moves R (get : EStateM ε σ σ) := fun s => refl_of R s

theorem attempt (x : Except ε α) : Moves R (attempt x : EStateM ε σ α) := by
  cases x with
  | ok a => exact Moves.pure a
  | error e => exact Moves.throw e

theorem bind {x : EStateM ε σ α} {f : α → EStateM ε σ β} (hx : Moves R x)
    (hf : ∀ a, Moves R (f a)) : Moves R (x >>= f) := by
  intro s
  rw [outcome_bind]
  refine (hx s).mono ?_ fun _ _ h => h
  intro a t hst
  exact (hf a t).mono (fun _ _ htu => trans_of R hst htu) fun _ _ htu => trans_of R hst htu

theorem when {c : Prop} [Decidable c] {x : EStateM ε σ Unit} (hx : c → Moves R x) :
    Moves R (when c x) :=
  .ite hx fun _ => .pure ()

theorem rescue {x h : EStateM ε σ Unit} (hx : Moves R x) (hh : Moves R h) :
    Moves R (rescue x h) := by
  intro s
  rw [outcome_rescue]
  refine (hx s).mono (fun _ _ hst => hst) ?_
  intro e t hst
  exact (hh t).mono (fun _ _ htu => trans_of R hst htu) fun _ _ htu => trans_of R hst htu

end Preorder

end Moves

/-- The property is there after a program if it was there before. -/
def Kept (I : σ → Prop) (s t : σ) : Prop := I s → I t

instance (I : σ → Prop) : IsPreorder σ (Kept I) where
  refl _ := id
  trans _ _ _ hst htu hs := htu (hst hs)

end BitBlinder.Effects
