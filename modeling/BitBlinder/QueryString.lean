import Mathlib.Data.List.Induction
import Mathlib.Data.List.Nodup
import Mathlib.Algebra.Order.BigOperators.Group.List
import Mathlib.Algebra.Order.Group.Nat
import Mathlib.Algebra.Ring.Nat
import Mathlib.Tactic.Push

/-!
# Query strings

`quote` and `unquote`, and the two readers of a query string: `parseQsl` lists the
parameters, `parseQs` collects the values of each name. A query string that is
put together of unquoted names and quoted values is read back if and only if the
names stand for themselves.
-/

namespace BitBlinder.QueryString

set_option autoImplicit false

abbrev Text := List UInt8

def amp : UInt8 := 38
def semicolon : UInt8 := 59
def equals : UInt8 := 61
def percent : UInt8 := 37
def plus : UInt8 := 43
def space : UInt8 := 32

/-! ### Escapes -/

/-- A digit as it is written. -/
def hexDigit (n : Nat) : UInt8 := UInt8.ofNat (if n < 10 then 48 + n else 55 + n)

def hexValue (c : UInt8) : Option Nat :=
  if 48 ≤ c ∧ c ≤ 57 then some (c.toNat - 48)
  else if 65 ≤ c ∧ c ≤ 70 then some (c.toNat - 55)
  else if 97 ≤ c ∧ c ≤ 102 then some (c.toNat - 87)
  else none

def hexPair (a b : UInt8) : Option UInt8 :=
  match hexValue a, hexValue b with
  | some x, some y => some (UInt8.ofNat (16 * x + y))
  | _, _ => none

/-- Letters, digits and `_.-` are never quoted. -/
def alwaysSafe (c : UInt8) : Bool :=
  (48 ≤ c && c ≤ 57) || (65 ≤ c && c ≤ 90) || (97 ≤ c && c ≤ 122) || c == 95 || c == 46 || c == 45

def quote (safe : Text) (s : Text) : Text :=
  s.flatMap fun c =>
    if alwaysSafe c || c ∈ safe then [c] else [percent, hexDigit (c.toNat / 16), hexDigit (c.toNat % 16)]

/-- A percent sign that two digits do not follow stands for itself. -/
def unquote : Text → Text
  | [] => []
  | [c] => [c]
  | [c, a] => c :: unquote [a]
  | c :: a :: b :: s =>
    if c = percent then
      match hexPair a b with
      | some x => x :: unquote s
      | none => c :: unquote (a :: b :: s)
    else c :: unquote (a :: b :: s)

def unplus (s : Text) : Text := s.map fun c => if c = plus then space else c

def decode (s : Text) : Text := unquote (unplus s)

theorem unplus_unplus (s : Text) : unplus (unplus s) = unplus s := by
  unfold unplus
  rw [List.map_map]
  refine List.map_congr_left fun c _ => if_neg ?_
  dsimp only
  split
  · decide
  · assumption

theorem unquote_cons_cons (c a b : UInt8) (s : Text) :
    unquote (c :: a :: b :: s) =
      if c = percent then
        match hexPair a b with
        | some x => x :: unquote s
        | none => c :: unquote (a :: b :: s)
      else c :: unquote (a :: b :: s) := rfl

theorem unquote_cons_of_ne {c : UInt8} (h : c ≠ percent) (s : Text) : unquote (c :: s) = c :: unquote s := by
  match s with
  | [] => rfl
  | [_] => rfl
  | _ :: _ :: _ => rw [unquote_cons_cons, if_neg h]

theorem unquote_escape {a b x : UInt8} (h : hexPair a b = some x) (s : Text) :
    unquote (percent :: a :: b :: s) = x :: unquote s := by
  rw [unquote_cons_cons, if_pos rfl, h]

/-- An escape makes a text shorter. -/
theorem length_unquote (s : Text) :
    (unquote s).length ≤ s.length ∧ ((unquote s).length = s.length → unquote s = s) := by
  induction s using unquote.induct with
  | case1 => exact ⟨Nat.le_refl _, fun _ => rfl⟩
  | case2 c => exact ⟨Nat.le_refl _, fun _ => rfl⟩
  | case3 c a ih => exact ⟨Nat.le_refl _, fun _ => rfl⟩
  | case4 a b s x hx ih =>
    rw [unquote_escape hx]
    simp only [List.length_cons]
    exact ⟨by omega, fun h => by omega⟩
  | case5 a b s hx ih =>
    rw [unquote_cons_cons, if_pos rfl, hx]
    simp only [List.length_cons] at ih ⊢
    exact ⟨by omega, fun h => by rw [ih.2 (by omega)]⟩
  | case6 c a b s hc ih =>
    rw [unquote_cons_of_ne hc]
    simp only [List.length_cons] at ih ⊢
    exact ⟨by omega, fun h => by rw [ih.2 (by omega)]⟩

theorem unquote_eq_nil_iff {s : Text} : unquote s = [] ↔ s = [] := by
  constructor
  · intro h
    match s with
    | [] => rfl
    | [_] => exact h
    | [_, _] => cases h
    | c :: a :: b :: s =>
      rw [unquote_cons_cons] at h
      split at h
      · split at h
        · cases h
        · cases h
      · cases h
  · rintro rfl
    rfl

theorem decode_eq_nil_iff {s : Text} : decode s = [] ↔ s = [] := by
  unfold decode unplus
  rw [unquote_eq_nil_iff, List.map_eq_nil_iff]

theorem length_decode_le (s : Text) : (decode s).length ≤ s.length := by
  have hlength := (length_unquote (unplus s)).1
  unfold unplus at hlength
  rw [List.length_map] at hlength
  exact hlength

theorem decode_eq_unplus {s : Text} (h : (decode s).length = s.length) : decode s = unplus s := by
  refine (length_unquote (unplus s)).2 (h.trans ?_)
  unfold unplus
  rw [List.length_map]

theorem hexPair_hexDigit (c : UInt8) : hexPair (hexDigit (c.toNat / 16)) (hexDigit (c.toNat % 16)) = some c := by
  have hvalue : ∀ n < 16, hexValue (hexDigit n) = some n := by decide
  have hlt := UInt8.toNat_lt c
  unfold hexPair
  rw [hvalue _ (by omega), hvalue _ (by omega)]
  dsimp only
  rw [Nat.div_add_mod, UInt8.ofNat_toNat]

/-- What is special in a query string. -/
def Special (c : UInt8) : Prop := c = amp ∨ c = semicolon ∨ c = equals ∨ c = plus

instance (c : UInt8) : Decidable (Special c) := inferInstanceAs (Decidable (_ ∨ _))

/-- Nothing special and no percent sign goes through unquoted. -/
def Harmless (safe : Text) : Prop := ∀ c ∈ safe, ¬Special c ∧ c ≠ percent

theorem safe_not_special {safe : Text} (hsafe : Harmless safe) {c : UInt8} (h : (alwaysSafe c || c ∈ safe) = true) :
    ¬Special c ∧ c ≠ percent := by
  rcases Bool.or_eq_true_iff.mp h with halways | hmem
  · constructor
    · rintro (rfl | rfl | rfl | rfl) <;> exact absurd halways (by decide)
    · rintro rfl
      exact absurd halways (by decide)
  · exact hsafe c (of_decide_eq_true hmem)

theorem quote_not_special {safe : Text} (hsafe : Harmless safe) (s : Text) : ∀ c ∈ quote safe s, ¬Special c := by
  have hdigit : ∀ n < 16, ¬Special (hexDigit n) := by decide
  intro c hc
  obtain ⟨d, -, hd⟩ := List.mem_flatMap.mp hc
  have hlt := UInt8.toNat_lt d
  split at hd
  · rename_i hsafe'
    rw [List.mem_singleton.mp hd]
    exact (safe_not_special hsafe hsafe').1
  · simp only [List.mem_cons, List.not_mem_nil, or_false] at hd
    rcases hd with rfl | rfl | rfl
    · decide
    · exact hdigit _ (by omega)
    · exact hdigit _ (by omega)

theorem unplus_quote {safe : Text} (hsafe : Harmless safe) (s : Text) : unplus (quote safe s) = quote safe s := by
  refine (List.map_congr_left fun c hc => ?_).trans (List.map_id _)
  exact if_neg fun hplus => quote_not_special hsafe s c hc (Or.inr (Or.inr (Or.inr hplus)))

theorem unquote_quote {safe : Text} (hsafe : Harmless safe) (s : Text) : unquote (quote safe s) = s := by
  induction s with
  | nil => rfl
  | cons c s ih =>
    have hcons : quote safe (c :: s) = (if alwaysSafe c || c ∈ safe then [c]
      else [percent, hexDigit (c.toNat / 16), hexDigit (c.toNat % 16)]) ++ quote safe s := List.flatMap_cons
    rw [hcons]
    split
    · rename_i hsafe'
      rw [List.singleton_append, unquote_cons_of_ne (safe_not_special hsafe hsafe').2, ih]
    · simp only [List.cons_append, List.nil_append]
      rw [unquote_escape (hexPair_hexDigit c), ih]

/-- Every text is read back as it was before it was quoted. -/
theorem decode_quote {safe : Text} (hsafe : Harmless safe) (s : Text) : decode (quote safe s) = s := by
  unfold decode
  rw [unplus_quote hsafe, unquote_quote hsafe]

/-! ### Parameters -/

/-- The parts between the separators. -/
def pairs (qs : Text) : List Text := (qs.splitOn amp).flatMap fun s => s.splitOn semicolon

def rawName (nameValue : Text) : Text := nameValue.takeWhile (· ≠ equals)

/-- The text after the first equals sign, if there is one. -/
def rawValue (nameValue : Text) : Option Text :=
  if equals ∈ nameValue then some ((nameValue.dropWhile (· ≠ equals)).drop 1) else none

def readPair (keepBlankValues : Bool) (nameValue : Text) : Option (Text × Text) :=
  if nameValue = [] then none
  else
    match rawValue nameValue with
    | none => if keepBlankValues then some (decode (rawName nameValue), []) else none
    | some value =>
      if value ≠ [] ∨ keepBlankValues then some (decode (rawName nameValue), decode value) else none

def parseQsl (keepBlankValues : Bool) (qs : Text) : List (Text × Text) :=
  (pairs qs).filterMap (readPair keepBlankValues)

/-- All parameters, also those without a value. -/
def params (qs : Text) : List (Text × Text) := parseQsl true qs

theorem parseQsl_false (qs : Text) : parseQsl false qs = (params qs).filter fun p => p.2 ≠ [] := by
  unfold params parseQsl
  rw [List.filter_filterMap]
  congr 1
  funext nameValue
  unfold readPair
  split
  · rfl
  · split
    · rfl
    · rename_i value _
      by_cases hvalue : value = []
      · subst hvalue
        rfl
      · have hdecode : decode value ≠ [] := fun h => hvalue (decode_eq_nil_iff.mp h)
        rw [if_pos (Or.inl hvalue), if_pos (Or.inr rfl), Option.filter_some, if_pos (decide_eq_true hdecode)]

theorem pairs_append (s t : Text) : pairs (s ++ amp :: t) = pairs s ++ pairs t := by
  unfold pairs
  rw [List.splitOn_append_cons_self, List.flatMap_append]

theorem params_append (s t : Text) : params (s ++ amp :: t) = params s ++ params t := by
  unfold params parseQsl
  rw [pairs_append, List.filterMap_append]

theorem pairs_cons (c : UInt8) (s : Text) :
    pairs (c :: s) = if c = amp ∨ c = semicolon then [] :: pairs s else (pairs s).modifyHead (c :: ·) := by
  unfold pairs
  rw [List.splitOn_cons_eq_if_modifyHead]
  by_cases hamp : c = amp
  · subst hamp
    simp
  · rw [if_neg (by simpa using hamp)]
    obtain ⟨head, tail, heq⟩ := List.exists_cons_of_ne_nil (List.splitOn_ne_nil amp s)
    rw [heq, List.modifyHead_cons, List.flatMap_cons, List.flatMap_cons, List.splitOn_cons_eq_if_modifyHead]
    by_cases hsemicolon : c = semicolon
    · subst hsemicolon
      simp
    · rw [if_neg (by simpa using hsemicolon), if_neg (by simp [hamp, hsemicolon])]
      obtain ⟨head', tail', heq'⟩ := List.exists_cons_of_ne_nil (List.splitOn_ne_nil semicolon head)
      rw [heq', List.modifyHead_cons, List.cons_append, List.cons_append, List.modifyHead_cons]

theorem pairs_ne_nil (s : Text) : pairs s ≠ [] := by
  intro h
  obtain ⟨head, tail, heq⟩ := List.exists_cons_of_ne_nil (List.splitOn_ne_nil amp s)
  unfold pairs at h
  rw [heq, List.flatMap_cons] at h
  exact List.splitOn_ne_nil semicolon head (List.append_eq_nil_iff.mp h).1

theorem pairs_eq_singleton {s : Text} (h : ∀ c ∈ s, c ≠ amp ∧ c ≠ semicolon) : pairs s = [s] := by
  unfold pairs
  rw [List.splitOn_eq_singleton fun hmem => (h amp hmem).1 rfl, List.flatMap_cons,
    List.splitOn_eq_singleton fun hmem => (h semicolon hmem).2 rfl]
  rfl

theorem params_intercalate (parts : List Text) : params ([amp].intercalate parts) = parts.flatMap params := by
  match parts with
  | [] => rfl
  | [part] => simp [List.intercalate]
  | part :: next :: parts =>
    have hjoin : [amp].intercalate (part :: next :: parts) = part ++ amp :: [amp].intercalate (next :: parts) := by
      simp [List.intercalate]
    rw [hjoin, params_append, params_intercalate (next :: parts)]
    exact List.flatMap_cons.symm

/-! ### How long names are -/

def nameSize (args : List (Text × Text)) : Nat := (args.map fun p => p.1.length).sum

theorem nameSize_append (args args' : List (Text × Text)) :
    nameSize (args ++ args') = nameSize args + nameSize args' := by
  unfold nameSize
  rw [List.map_append, List.sum_append]

theorem nameSize_perm {args args' : List (Text × Text)} (h : args.Perm args') : nameSize args = nameSize args' :=
  (h.map _).sum_eq

theorem nameSize_sublist {args args' : List (Text × Text)} (h : args.Sublist args') : nameSize args ≤ nameSize args' :=
  (h.map _).sum_le_sum fun _ _ => Nat.zero_le _

theorem nameSize_flatMap (f : Text × Text → List (Text × Text)) (args : List (Text × Text)) :
    nameSize (args.flatMap f) = (args.map fun p => nameSize (f p)).sum := by
  induction args with
  | nil => rfl
  | cons p args ih => rw [List.flatMap_cons, nameSize_append, ih, List.map_cons, List.sum_cons]

/-- The characters that stand in names, as they are written. -/
def rawSize (s : Text) : Nat := ((pairs s).map fun nameValue => (rawName nameValue).length).sum

theorem nameSize_params_le (s : Text) : nameSize (params s) ≤ rawSize s := by
  unfold params parseQsl rawSize
  induction pairs s with
  | nil => exact Nat.le_refl 0
  | cons nameValue rest ih =>
    rw [List.filterMap_cons, List.map_cons, List.sum_cons]
    cases hread : readPair true nameValue with
    | none =>
      dsimp only
      omega
    | some p =>
      have hname : p.1.length ≤ (rawName nameValue).length := by
        unfold readPair at hread
        split at hread
        · cases hread
        · split at hread
          · rw [← Option.some.inj hread]
            exact length_decode_le _
          · rw [if_pos (Or.inr rfl)] at hread
            rw [← Option.some.inj hread]
            exact length_decode_le _
      dsimp only
      unfold nameSize at ih ⊢
      rw [List.map_cons, List.sum_cons]
      omega

/-- A character that neither ends a parameter nor its name. -/
def Plain (c : UInt8) : Prop := c ≠ amp ∧ c ≠ semicolon ∧ c ≠ equals

instance (c : UInt8) : Decidable (Plain c) := inferInstanceAs (Decidable (_ ∧ _))

theorem rawSize_cons_le (c : UInt8) (s : Text) : rawSize (c :: s) ≤ rawSize s + if Plain c then 1 else 0 := by
  unfold rawSize
  rw [pairs_cons]
  split
  · rename_i hseparator
    rw [List.map_cons, List.sum_cons]
    simp [rawName]
  · obtain ⟨head, tail, heq⟩ := List.exists_cons_of_ne_nil (pairs_ne_nil s)
    rw [heq, List.modifyHead_cons, List.map_cons, List.map_cons, List.sum_cons, List.sum_cons]
    unfold rawName
    by_cases hequals : c = equals
    · subst hequals
      rw [List.takeWhile_cons_of_neg (by simp), List.length_nil]
      omega
    · rename_i hseparator
      have hplain : Plain c := ⟨fun h => hseparator (Or.inl h), fun h => hseparator (Or.inr h), hequals⟩
      rw [List.takeWhile_cons_of_pos (by simpa using hequals), List.length_cons, if_pos hplain]
      omega

theorem rawSize_append_le (s t : Text) : rawSize (s ++ t) ≤ s.countP (fun c => Plain c) + rawSize t := by
  induction s with
  | nil => simp
  | cons c s ih =>
    have hcons := rawSize_cons_le c (s ++ t)
    rw [List.cons_append, List.countP_cons]
    simp only [decide_eq_true_eq]
    omega

theorem eq_of_sum_le {f g : Text × Text → Nat} {args : List (Text × Text)} (hle : ∀ p ∈ args, f p ≤ g p)
    (hsum : (args.map g).sum ≤ (args.map f).sum) : ∀ p ∈ args, f p = g p := by
  by_contra hne
  push Not at hne
  obtain ⟨p, hp, hne⟩ := hne
  exact absurd (List.sum_lt_sum f g hle ⟨p, hp, Nat.lt_of_le_of_ne (hle p hp) hne⟩) (Nat.not_lt.mpr hsum)

theorem params_pair {name value : Text} (hname : ∀ c ∈ name, Plain c)
    (hvalue : ∀ c ∈ value, c ≠ amp ∧ c ≠ semicolon) :
    params (name ++ equals :: value) = [(decode name, decode value)] := by
  have hpairs : pairs (name ++ equals :: value) = [name ++ equals :: value] := by
    apply pairs_eq_singleton
    intro c hc
    rcases List.mem_append.mp hc with hc | hc
    · exact ⟨(hname c hc).1, (hname c hc).2.1⟩
    · rcases List.mem_cons.mp hc with rfl | hc
      · decide
      · exact hvalue c hc
  have hrawName : rawName (name ++ equals :: value) = name := by
    unfold rawName
    rw [List.takeWhile_append_of_pos fun c hc => decide_eq_true (hname c hc).2.2]
    simp
  have hrawValue : rawValue (name ++ equals :: value) = some value := by
    unfold rawValue
    rw [if_pos (List.mem_append_right _ List.mem_cons_self),
      List.dropWhile_append_of_pos fun c hc => decide_eq_true (hname c hc).2.2]
    simp
  have hne : name ++ equals :: value ≠ [] := List.append_ne_nil_of_right_ne_nil _ (List.cons_ne_nil _ _)
  unfold params parseQsl
  rw [hpairs, List.filterMap_cons, List.filterMap_nil]
  unfold readPair
  rw [if_neg hne, hrawValue]
  dsimp only
  rw [if_pos (Or.inr rfl), hrawName]

/-! ### A query string that is put together -/

/-- A name, not quoted, and a value, quoted. -/
def written (safe : Text) (p : Text × Text) : Text := p.1 ++ equals :: quote safe p.2

section
variable {safe : Text} (hsafe : Harmless safe)
include hsafe

theorem quote_no_separator (s : Text) : ∀ c ∈ quote safe s, c ≠ amp ∧ c ≠ semicolon :=
  fun c hc => ⟨fun h => quote_not_special hsafe s c hc (Or.inl h),
    fun h => quote_not_special hsafe s c hc (Or.inr (Or.inl h))⟩

theorem rawSize_value (s : Text) : rawSize (equals :: quote safe s) = 0 := by
  unfold rawSize
  rw [pairs_eq_singleton]
  · simp [rawName]
  · intro c hc
    rcases List.mem_cons.mp hc with rfl | hc
    · decide
    · exact quote_no_separator hsafe s c hc

theorem nameSize_written_le (p : Text × Text) :
    nameSize (params (written safe p)) ≤ p.1.countP fun c => Plain c := by
  have hparams := nameSize_params_le (written safe p)
  have happend := rawSize_append_le p.1 (equals :: quote safe p.2)
  rw [rawSize_value hsafe] at happend
  unfold written at hparams ⊢
  omega

theorem params_written {p : Text × Text} (h : ∀ c ∈ p.1, Plain c) :
    params (written safe p) = [(decode p.1, p.2)] := by
  unfold written
  rw [params_pair h (quote_no_separator hsafe p.2), decode_quote hsafe]

/-- A name that stands for itself when it is not quoted. -/
def Verbatim (name : Text) : Prop := (∀ c ∈ name, Plain c) ∧ decode name = name

instance (name : Text) : Decidable (Verbatim name) :=
  have := List.decidableBAll Plain name
  inferInstanceAs (Decidable (_ ∧ _))

theorem params_join (args : List (Text × Text)) (h : ∀ p ∈ args, Verbatim p.1) :
    params ([amp].intercalate (args.map (written safe))) = args := by
  rw [params_intercalate]
  induction args with
  | nil => rfl
  | cons p args ih =>
    have hp := h p List.mem_cons_self
    rw [List.map_cons, List.flatMap_cons, ih fun q hq => h q (List.mem_cons_of_mem p hq),
      params_written hsafe hp.1, hp.2]
    rfl

/-- Names that do not become longer can only be those that stand for themselves. -/
theorem verbatim_of_perm {args args' : List (Text × Text)} (hsize : nameSize args ≤ nameSize args')
    (hnames : ∀ p ∈ args, p.1 ∈ args'.map Prod.fst)
    (h : (params ([amp].intercalate (args.map (written safe)))).Perm args') :
    (∀ p ∈ args, Verbatim p.1) ∧ args.length = args'.length := by
  rw [params_intercalate, List.flatMap_map] at h
  have htotal := nameSize_perm h
  rw [nameSize_flatMap] at htotal
  have hle : ∀ p ∈ args, nameSize (params (written safe p)) ≤ p.1.length := fun p _ =>
    Nat.le_trans (nameSize_written_le hsafe p) List.countP_le_length
  have hplain : ∀ p ∈ args, ∀ c ∈ p.1, Plain c := by
    intro p hp c hc
    have hcount := eq_of_sum_le hle (by unfold nameSize at hsize htotal ⊢; omega) p hp
    have hall := List.countP_eq_length.mp (Nat.le_antisymm List.countP_le_length
      (hcount ▸ nameSize_written_le hsafe p))
    exact of_decide_eq_true (hall c hc)
  have hread : args.flatMap (fun p => params (written safe p)) = args.map fun p => (decode p.1, p.2) := by
    rw [List.map_eq_flatMap]
    exact List.flatMap_congr fun p hp => params_written hsafe (hplain p hp)
  rw [hread] at h
  have hunplus : ∀ p ∈ args, decode p.1 = unplus p.1 := by
    have hless := nameSize_perm h
    unfold nameSize at hless hsize
    rw [List.map_map] at hless
    intro p hp
    exact decode_eq_unplus (eq_of_sum_le (fun p _ => length_decode_le p.1) (by
      exact hless ▸ hsize) p hp)
  refine ⟨fun p hp => ⟨hplain p hp, ?_⟩, by simpa using h.length_eq⟩
  obtain ⟨q, hq, hname⟩ := List.mem_map.mp (hnames p hp)
  obtain ⟨r, hr, rfl⟩ := List.mem_map.mp (h.symm.subset hq)
  rw [hunplus p hp, ← hname, hunplus r hr]
  exact unplus_unplus r.1

end

/-! ### The values of each name -/

/-- A name with its values, of which there is at least one. -/
structure Arg where
  name : Text
  first : Text
  more : List Text

namespace Arg

/-- The name with its first value. -/
def entry (a : Arg) : Text × Text := (a.name, a.first)

end Arg

def insertArg : List Arg → Text × Text → List Arg
  | [], p => [⟨p.1, p.2, []⟩]
  | a :: args, p =>
    if a.name = p.1 then { a with more := a.more ++ [p.2] } :: args else a :: insertArg args p

def parseQs (qs : Text) : List Arg := (parseQsl false qs).foldl insertArg []

/-- Parameters of which a second one of a name is left out. -/
def insertFirst (args : List (Text × Text)) (p : Text × Text) : List (Text × Text) :=
  if p.1 ∈ args.map Prod.fst then args else args ++ [p]

def firsts (args : List (Text × Text)) : List (Text × Text) := args.foldl insertFirst []

theorem entries_insertArg (args : List Arg) (p : Text × Text) :
    (insertArg args p).map Arg.entry = insertFirst (args.map Arg.entry) p := by
  unfold insertFirst
  induction args with
  | nil => rfl
  | cons a args ih =>
    rw [insertArg, List.map_cons, List.map_cons]
    by_cases hname : a.name = p.1
    · have hmem : p.1 ∈ a.entry.1 :: (args.map Arg.entry).map Prod.fst := List.mem_cons.mpr (Or.inl hname.symm)
      rw [if_pos hname, if_pos hmem]
      rfl
    · have hmem : p.1 ∈ a.entry.1 :: (args.map Arg.entry).map Prod.fst ↔ p.1 ∈ (args.map Arg.entry).map Prod.fst :=
        ⟨fun h => (List.mem_cons.mp h).resolve_left fun heq => hname heq.symm, List.mem_cons_of_mem _⟩
      rw [if_neg hname, List.map_cons, ih]
      by_cases hold : p.1 ∈ (args.map Arg.entry).map Prod.fst
      · rw [if_pos hold, if_pos (hmem.mpr hold)]
      · rw [if_neg hold, if_neg fun h => hold (hmem.mp h), List.cons_append]

theorem entries_parseQs (qs : Text) : (parseQs qs).map Arg.entry = firsts (parseQsl false qs) := by
  unfold parseQs firsts
  have hfold : ∀ (ps : List (Text × Text)) (args : List Arg),
      (ps.foldl insertArg args).map Arg.entry = ps.foldl insertFirst (args.map Arg.entry) := by
    intro ps
    induction ps with
    | nil => exact fun _ => rfl
    | cons p ps ih =>
      intro args
      rw [List.foldl_cons, List.foldl_cons, ih, entries_insertArg]
  exact hfold _ []

theorem firsts_append_singleton (args : List (Text × Text)) (p : Text × Text) :
    firsts (args ++ [p]) = insertFirst (firsts args) p := by
  unfold firsts
  rw [List.foldl_append, List.foldl_cons, List.foldl_nil]

theorem firsts_sublist (args : List (Text × Text)) : (firsts args).Sublist args := by
  induction args using List.reverseRecOn with
  | nil => exact List.Sublist.refl _
  | append_singleton args p ih =>
    rw [firsts_append_singleton]
    unfold insertFirst
    split
    · exact ih.trans (List.sublist_append_left _ _)
    · exact ih.append (List.Sublist.refl _)

theorem names_firsts (args : List (Text × Text)) (name : Text) :
    name ∈ (firsts args).map Prod.fst ↔ name ∈ args.map Prod.fst := by
  induction args using List.reverseRecOn with
  | nil => rfl
  | append_singleton args p ih =>
    rw [firsts_append_singleton, List.map_append, List.mem_append, List.map_singleton, List.mem_singleton, ← ih]
    unfold insertFirst
    split
    · rename_i hold
      exact ⟨Or.inl, fun h => h.elim id fun heq => heq ▸ hold⟩
    · rw [List.map_append, List.mem_append, List.map_singleton, List.mem_singleton]

theorem nodup_firsts (args : List (Text × Text)) : ((firsts args).map Prod.fst).Nodup := by
  induction args using List.reverseRecOn with
  | nil => exact List.nodup_nil
  | append_singleton args p ih =>
    rw [firsts_append_singleton]
    unfold insertFirst
    split
    · exact ih
    · rename_i hnew
      rw [List.map_append, List.map_singleton]
      exact ih.append (List.nodup_singleton _) (by simpa using hnew)

theorem firsts_of_nodup {args : List (Text × Text)} (h : (args.map Prod.fst).Nodup) : firsts args = args := by
  induction args using List.reverseRecOn with
  | nil => rfl
  | append_singleton args p ih =>
    rw [List.map_append, List.nodup_append] at h
    rw [firsts_append_singleton, ih h.1]
    exact if_neg fun hold => h.2.2 _ hold p.1 (List.mem_singleton.mpr rfl) rfl

/-- Leaving out whole names does not change which values come first. -/
theorem firsts_filter (keep : Text → Bool) (args : List (Text × Text)) :
    (firsts args).filter (fun p => keep p.1) = firsts (args.filter fun p => keep p.1) := by
  induction args using List.reverseRecOn with
  | nil => rfl
  | append_singleton args p ih =>
    rw [firsts_append_singleton, List.filter_append]
    by_cases hkeep : keep p.1 = true
    · have hp : ([p].filter fun p => keep p.1) = [p] := List.filter_cons_of_pos hkeep
      have hmem : p.1 ∈ (firsts (args.filter fun p => keep p.1)).map Prod.fst ↔ p.1 ∈ (firsts args).map Prod.fst := by
        rw [← ih]
        constructor
        · exact fun h => (List.filter_sublist.map _).subset h
        · intro h
          obtain ⟨q, hq, hname⟩ := List.mem_map.mp h
          exact List.mem_map.mpr ⟨q, List.mem_filter.mpr ⟨hq, hname ▸ hkeep⟩, hname⟩
      rw [hp, firsts_append_singleton]
      unfold insertFirst
      by_cases hold : p.1 ∈ (firsts args).map Prod.fst
      · rw [if_pos hold, if_pos (hmem.mpr hold), ih]
      · rw [if_neg hold, if_neg fun h => hold (hmem.mp h), List.filter_append, ih, hp]
    · have hp : ([p].filter fun p => keep p.1) = [] := List.filter_cons_of_neg hkeep
      rw [hp, List.append_nil, ← ih]
      unfold insertFirst
      split
      · rfl
      · rw [List.filter_append, hp, List.append_nil]

end BitBlinder.QueryString
