import Mathlib.Data.List.Perm.Basic

/-!
# Runs of a guarded step function

`step s a = some t` says that action `a` is enabled in `s` and leads to `t`.
A run is a finite sequence of enabled actions; `ok` restricts the states in
which an action may be taken, so that one induction serves both the
unrestricted runs and the runs whose steps all meet a condition. `EachStep`
states such a condition along a list of actions without asking for its end.
-/

namespace BitBlinder

set_option autoImplicit false

universe u v
variable {σ : Type u} {α : Type v}

inductive Run (step : σ → α → Option σ) (ok : σ → α → Prop) : σ → List α → σ → Prop where
  | refl (s : σ) : Run step ok s [] s
  | cons {s t r : σ} {a : α} {as : List α} :
      ok s a → step s a = some t → Run step ok t as r → Run step ok s (a :: as) r

def exec (step : σ → α → Option σ) : σ → List α → Option σ
  | s, [] => some s
  | s, a :: as => (step s a).bind fun t => exec step t as

def EachStep (step : σ → α → Option σ) (ok : σ → α → Prop) : σ → List α → Prop
  | _, [] => True
  | s, a :: as => ok s a ∧
      match step s a with
      | some t => EachStep step ok t as
      | none => True

instance decidableEachStep (step : σ → α → Option σ) (ok : σ → α → Prop)
    [∀ s a, Decidable (ok s a)] : ∀ s as, Decidable (EachStep step ok s as)
  | _, [] => isTrue trivial
  | s, a :: as =>
    have : Decidable (match step s a with
        | some t => EachStep step ok t as
        | none => True) :=
      match step s a with
      | some t => decidableEachStep step ok t as
      | none => isTrue trivial
    inferInstanceAs (Decidable (_ ∧ _))

variable {step : σ → α → Option σ} {ok : σ → α → Prop}

theorem eachStep_of_forall (h : ∀ s a, ok s a) (s : σ) (as : List α) : EachStep step ok s as := by
  induction as generalizing s with
  | nil => trivial
  | cons a as ih =>
    refine ⟨h s a, ?_⟩
    cases step s a with
    | none => trivial
    | some t => exact ih t

theorem eachStep_true (s : σ) (as : List α) : EachStep step (fun _ _ => True) s as :=
  eachStep_of_forall (fun _ _ => trivial) s as

/-- What holds initially and is kept by every admissible step holds after every run. -/
theorem Run.invariant {I : σ → Prop}
    (kept : ∀ {s t a}, I s → ok s a → step s a = some t → I t)
    {s t : σ} {as : List α} (h : Run step ok s as t) (hs : I s) : I t := by
  induction h with
  | refl => exact hs
  | cons hok hstep _ ih => exact ih (kept hs hok hstep)

theorem Run.append {s t u : σ} {as bs : List α} (h : Run step ok s as t) (h' : Run step ok t bs u) :
    Run step ok s (as ++ bs) u := by
  induction h with
  | refl => exact h'
  | cons hok hstep _ ih => exact .cons hok hstep (ih h')

/-- A run comes by a state after each part of its actions. -/
theorem Run.split {s u : σ} {as bs : List α} (h : Run step ok s (as ++ bs) u) :
    ∃ t, Run step ok s as t ∧ Run step ok t bs u := by
  induction as generalizing s with
  | nil => exact ⟨s, .refl s, h⟩
  | cons a as ih =>
    cases h with
    | cons hok hstep hrest =>
      obtain ⟨t, hhead, htail⟩ := ih hrest
      exact ⟨t, .cons hok hstep hhead, htail⟩

theorem run_of_exec {s t : σ} {as : List α}
    (h : exec step s as = some t) (hok : EachStep step ok s as) : Run step ok s as t := by
  induction as generalizing s with
  | nil =>
    have hst : s = t := Option.some.inj h
    subst hst
    exact .refl s
  | cons a as ih =>
    obtain ⟨u, hu, hrest⟩ := Option.bind_eq_some_iff.mp h
    obtain ⟨hhead, htail⟩ := hok
    rw [hu] at htail
    exact .cons hhead hu (ih hrest htail)

/-- A run that ends as computed. -/
theorem exists_run {s : σ} {as : List α} {p : σ → Bool} (h : (exec step s as).any p = true)
    (hok : EachStep step ok s as) : ∃ t, Run step ok s as t ∧ p t = true := by
  obtain ⟨t, ht, hp⟩ := (Option.any_eq_true _ _).mp h
  exact ⟨t, run_of_exec ht hok, hp⟩

/-- Two conditions that agree as long as an invariant holds agree along every list
of actions, when the first of them also keeps the invariant. -/
theorem eachStep_iff {dom P Q : σ → α → Prop} {I : σ → Prop}
    (agree : ∀ {s a}, I s → dom s a → (P s a ↔ Q s a))
    (kept : ∀ {s t a}, I s → dom s a → P s a → step s a = some t → I t)
    {s : σ} {as : List α} (hs : I s) (hdom : EachStep step dom s as) :
    EachStep step P s as ↔ EachStep step Q s as := by
  induction as generalizing s with
  | nil => exact Iff.rfl
  | cons a as ih =>
    obtain ⟨hda, hdas⟩ := hdom
    simp only [EachStep]
    cases hstep : step s a with
    | none => simp [agree hs hda]
    | some t =>
      rw [hstep] at hdas
      constructor
      · rintro ⟨hp, hps⟩
        exact ⟨(agree hs hda).mp hp, (ih (kept hs hda hp hstep) hdas).mp hps⟩
      · rintro ⟨hq, hqs⟩
        have hp := (agree hs hda).mpr hq
        exact ⟨hp, (ih (kept hs hda hp hstep) hdas).mpr hqs⟩

/-- A condition that an invariant gives holds at every step of a run. -/
theorem Run.eachStep {I : σ → Prop} {P : σ → α → Prop}
    (holds : ∀ {s t a}, I s → ok s a → step s a = some t → P s a)
    (kept : ∀ {s t a}, I s → ok s a → step s a = some t → I t)
    {s t : σ} {as : List α} (h : Run step ok s as t) (hs : I s) : EachStep step P s as := by
  induction h with
  | refl => trivial
  | cons hok hstep _ ih =>
    simp only [EachStep, hstep]
    exact ⟨holds hs hok hstep, ih (kept hs hok hstep)⟩

/-- Two conditions that agree on the steps that are taken, as long as an invariant holds. -/
theorem Run.eachStep_iff {P Q : σ → α → Prop} {I : σ → Prop}
    (agree : ∀ {s t a}, I s → step s a = some t → (P s a ↔ Q s a))
    (kept : ∀ {s t a}, I s → step s a = some t → I t)
    {s t : σ} {as : List α} (h : Run step ok s as t) (hs : I s) : EachStep step P s as ↔ EachStep step Q s as := by
  induction h with
  | refl => exact Iff.rfl
  | cons _ hstep _ ih =>
    simp only [EachStep, hstep]
    rw [agree hs hstep, ih (kept hs hstep)]

/-- Every state of a run is good exactly when every step of it meets a condition, where good states
lead to good states under the condition and only then. -/
theorem Run.forall_prefix_iff_of_ok {I good : σ → Prop} {P : σ → α → Prop}
    (holds : ∀ {s}, I s → good s)
    (kept : ∀ {s t a}, I s → ok s a → step s a = some t → P s a → I t)
    (needed : ∀ {s t a}, I s → ok s a → step s a = some t → good t → P s a)
    {s t : σ} {as : List α} (h : Run step ok s as t) (hs : I s) :
    (∀ start u, start <+: as → Run step ok s start u → good u) ↔ EachStep step P s as := by
  induction h with
  | refl s =>
    refine iff_of_true (fun start u hstart hrun => ?_) trivial
    obtain rfl := List.prefix_nil.mp hstart
    cases hrun
    exact holds hs
  | @cons s t r a as hok hstep _ ih =>
    simp only [EachStep, hstep]
    constructor
    · intro hall
      have hp := needed hs hok hstep (hall [a] t (List.prefix_append [a] as) (.cons hok hstep (.refl t)))
      refine ⟨hp, (ih (kept hs hok hstep hp)).mp fun start u hstart hrun => ?_⟩
      exact hall (a :: start) u ((List.prefix_cons_inj a).mpr hstart) (.cons hok hstep hrun)
    · rintro ⟨hp, hps⟩ start u hstart hrun
      cases hrun with
      | refl => exact holds hs
      | cons _ hstep' hrun' =>
        obtain ⟨rfl, hstart'⟩ := List.cons_prefix_cons.mp hstart
        obtain rfl := Option.some.inj (hstep.symm.trans hstep')
        exact (ih (kept hs hok hstep hp)).mpr hps _ _ hstart' hrun'

/-- The same where the steps are good or not whatever `ok` says. -/
theorem Run.forall_prefix_iff {I good : σ → Prop} {P : σ → α → Prop}
    (holds : ∀ {s}, I s → good s)
    (kept : ∀ {s t a}, I s → step s a = some t → P s a → I t)
    (needed : ∀ {s t a}, I s → step s a = some t → good t → P s a)
    {s t : σ} {as : List α} (h : Run step ok s as t) (hs : I s) :
    (∀ start u, start <+: as → Run step ok s start u → good u) ↔ EachStep step P s as :=
  h.forall_prefix_iff_of_ok holds (fun hi _ => kept hi) (fun hi _ => needed hi) hs

/-- What each step keeps exactly under a condition holds at the end if and only if it held at the
start and every step met the condition. -/
theorem Run.iff_eachStep {I good : σ → Prop} {P : σ → α → Prop}
    (inv : ∀ {s t a}, I s → step s a = some t → I t)
    (agree : ∀ {s t a}, I s → step s a = some t → (good t ↔ good s ∧ P s a))
    {s t : σ} {as : List α} (h : Run step ok s as t) (hs : I s) : good t ↔ good s ∧ EachStep step P s as := by
  induction h with
  | refl s => exact (and_iff_left trivial).symm
  | cons hok hstep _ ih =>
    simp only [EachStep, hstep]
    rw [ih (inv hs hstep), agree hs hstep]
    exact and_assoc

/-- What the steps along a list of actions add up to. -/
def tally (step : σ → α → Option σ) (amount : σ → α → Nat) : σ → List α → Nat
  | _, [] => 0
  | s, a :: as => amount s a +
      match step s a with
      | some t => tally step amount t as
      | none => 0

theorem tally_eq_zero_iff {amount : σ → α → Nat} (s : σ) (as : List α) :
    tally step amount s as = 0 ↔ EachStep step (fun s a => amount s a = 0) s as := by
  induction as generalizing s with
  | nil => exact iff_of_true rfl trivial
  | cons a as ih =>
    simp only [tally, EachStep, Nat.add_eq_zero_iff]
    cases step s a with
    | none => simp
    | some t => rw [ih t]

theorem eachStep_and {P Q : σ → α → Prop} (s : σ) (as : List α) :
    EachStep step (fun s a => P s a ∧ Q s a) s as ↔ EachStep step P s as ∧ EachStep step Q s as := by
  induction as generalizing s with
  | nil => exact iff_of_true trivial ⟨trivial, trivial⟩
  | cons a as ih =>
    simp only [EachStep]
    cases step s a with
    | none => simp
    | some t =>
      simp only [ih t]
      exact and_and_and_comm

/-- What comes in and does not go out stays. -/
theorem Run.conserved {I : σ → Prop} {measure : σ → Nat} {income loss : σ → α → Nat}
    (inv : ∀ {s t a}, I s → step s a = some t → I t)
    (kept : ∀ {s t a}, I s → step s a = some t → measure t + loss s a = measure s + income s a)
    {s t : σ} {as : List α} (h : Run step ok s as t) (hs : I s) :
    measure t + tally step loss s as = measure s + tally step income s as := by
  induction h with
  | refl => rfl
  | @cons s t r a as hok hstep _ ih =>
    have hhead := kept hs hstep
    have htail := ih (inv hs hstep)
    simp only [tally, hstep]
    omega

/-- Taking one of several pending operations out of their list. -/
theorem cons_eraseIdx_perm {l : List α} {j : Nat} {p : α} (h : l[j]? = some p) :
    (p :: l.eraseIdx j).Perm l := by
  obtain ⟨hlt, hget⟩ := List.getElem?_eq_some_iff.mp h
  rw [← hget]
  exact List.getElem_cons_eraseIdx_perm hlt

theorem mem_modify {l : List α} {j : Nat} {f : α → α} {p : α} (h : p ∈ l.modify j f) :
    p ∈ l ∨ ∃ q ∈ l, p = f q := by
  induction l generalizing j with
  | nil => simp at h
  | cons a l ih =>
    cases j with
    | zero =>
      rcases List.mem_cons.mp h with rfl | h
      · exact Or.inr ⟨a, List.mem_cons_self, rfl⟩
      · exact Or.inl (List.mem_cons_of_mem _ h)
    | succ j =>
      rcases List.mem_cons.mp h with rfl | h
      · exact Or.inl List.mem_cons_self
      · rcases ih h with h | ⟨q, hq, rfl⟩
        · exact Or.inl (List.mem_cons_of_mem _ h)
        · exact Or.inr ⟨q, List.mem_cons_of_mem _ hq, rfl⟩

/-- Changing one of several pending operations. -/
theorem modify_perm {l : List α} {j : Nat} {p : α} (h : l[j]? = some p) (f : α → α) :
    (l.modify j f).Perm (f p :: l.eraseIdx j) := by
  induction l generalizing j with
  | nil => simp at h
  | cons a l ih =>
    cases j with
    | zero =>
      have ha : a = p := by simpa using h
      subst ha
      simp
    | succ j =>
      have hl : l[j]? = some p := by simpa using h
      simp only [List.modify_succ_cons, List.eraseIdx_cons_succ]
      exact ((ih hl).cons a).trans (.swap _ _ _)

end BitBlinder
