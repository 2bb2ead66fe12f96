import BitBlinder.Basic

/-!
# Strings of numbers and separators

`str` and `int` of a number, and where a string is cut at a separator. A string is a
list of characters.
-/

namespace BitBlinder.PyText

set_option autoImplicit false

abbrev Text := List Char

/-! ### Numbers -/

/-- `str` of a number. -/
def strInt : Int → Text
  | .ofNat n => Nat.toDigits 10 n
  | .negSucc n => '-' :: Nat.toDigits 10 (n + 1)

def isSpace (c : Char) : Bool := c.toNat ∈ [9, 10, 11, 12, 13, 32]

def strip (text : Text) : Text := ((text.dropWhile isSpace).reverse.dropWhile isSpace).reverse

def readDigits (text : Text) : PyExcept Nat :=
  if text ≠ [] ∧ text.all Char.isDigit then .ok (Nat.ofDigitChars 10 text 0)
  else .error (.valueError ("invalid literal for int() with base 10: " ++ String.ofList text))

/-- `int` of a string. -/
def readInt (text : Text) : PyExcept Int :=
  match strip text with
  | '-' :: digits => (readDigits digits).map fun n => -(n : Int)
  | '+' :: digits => (readDigits digits).map fun n => (n : Int)
  | digits => (readDigits digits).map fun n => (n : Int)

theorem strip_of_no_space {text : Text} (h : ∀ c ∈ text, isSpace c = false) : strip text = text := by
  have hdrop : ∀ {t : Text}, (∀ c ∈ t, isSpace c = false) → t.dropWhile isSpace = t := by
    intro t ht
    cases t with
    | nil => rfl
    | cons c t => exact List.dropWhile_cons_of_neg (by simp [ht c List.mem_cons_self])
  unfold strip
  rw [hdrop h, hdrop fun c hc => h c (List.mem_reverse.mp hc), List.reverse_reverse]

theorem isSpace_of_isDigit {c : Char} (h : c.isDigit) : isSpace c = false := by
  have hbounds := Char.isDigit_iff_toNat.mp h
  have hlow : 48 ≤ c.toNat := hbounds.1
  unfold isSpace
  simp only [List.mem_cons, List.not_mem_nil, or_false, decide_eq_false_iff_not]
  omega

theorem isDigit_toDigits {n : Nat} {c : Char} (h : c ∈ Nat.toDigits 10 n) : c.isDigit :=
  Nat.isDigit_of_mem_toDigits (by decide) (by decide) h

theorem readDigits_of_isDigit {s : Text} (hne : s ≠ []) (h : ∀ c ∈ s, c.isDigit) :
    readDigits s = .ok (Nat.ofDigitChars 10 s 0) := if_pos ⟨hne, List.all_eq_true.mpr h⟩

theorem readInt_of_isDigit {s : Text} (hne : s ≠ []) (h : ∀ c ∈ s, c.isDigit) :
    readInt s = .ok (Nat.ofDigitChars 10 s 0 : Nat) := by
  unfold readInt
  rw [strip_of_no_space fun c hc => isSpace_of_isDigit (h c hc)]
  split
  · exact absurd (h '-' List.mem_cons_self) (by decide)
  · exact absurd (h '+' List.mem_cons_self) (by decide)
  · rw [readDigits_of_isDigit hne h]
    rfl

theorem readInt_strInt (n : Int) : readInt (strInt n) = .ok n := by
  cases n with
  | ofNat n =>
    have hread := readInt_of_isDigit Nat.toDigits_ne_nil fun c hc => isDigit_toDigits (n := n) hc
    rwa [Nat.ofDigitChars_ten_toDigits] at hread
  | negSucc n =>
    have hstrip : strip ('-' :: Nat.toDigits 10 (n + 1)) = '-' :: Nat.toDigits 10 (n + 1) := by
      refine strip_of_no_space fun c hc => ?_
      rcases List.mem_cons.mp hc with rfl | hc
      · rfl
      · exact isSpace_of_isDigit (isDigit_toDigits hc)
    unfold readInt strInt
    dsimp only
    rw [hstrip]
    change (readDigits (Nat.toDigits 10 (n + 1))).map (fun m => -(m : Int)) = _
    rw [readDigits_of_isDigit Nat.toDigits_ne_nil fun c hc => isDigit_toDigits hc, Nat.ofDigitChars_ten_toDigits]
    rfl

/-- The strings of a list of numbers are all read. -/
theorem mapM_readInt {texts : List Text} (h : ∀ s ∈ texts, s ≠ [] ∧ ∀ c ∈ s, c.isDigit) :
    texts.mapM readInt = .ok (texts.map fun s => ((Nat.ofDigitChars 10 s 0 : Nat) : Int)) := by
  induction texts with
  | nil => rfl
  | cons s texts ih =>
    obtain ⟨hne, hdigits⟩ := h s List.mem_cons_self
    rw [List.mapM_cons, readInt_of_isDigit hne hdigits, ih fun t ht => h t (List.mem_cons_of_mem s ht)]
    rfl

/-! ### Letters -/

def lower (text : Text) : Text := text.map Char.toLower

theorem toLower_of_isDigit {c : Char} (h : c.isDigit) : c.toLower = c := by
  have hbounds := Char.isDigit_iff_toNat.mp h
  have hhigh : c.toNat ≤ 57 := hbounds.2
  have hval : ¬ (c.val ≥ 'A'.val ∧ c.val ≤ 'Z'.val) := by
    rintro ⟨hA, -⟩
    have hA' : 65 ≤ c.toNat := UInt32.le_iff_toNat_le.mp hA
    omega
  exact dif_neg hval

theorem lower_of_isDigit {s : Text} (h : ∀ c ∈ s, c.isDigit) : lower s = s := by
  have hmap : s.map Char.toLower = s.map id := List.map_congr_left fun c hc => toLower_of_isDigit (h c hc)
  rwa [List.map_id] at hmap

/-! ### Separators -/

theorem ne_of_not_mem {s : Text} {c : Char} (h : c ∉ s) : ∀ d ∈ s, decide (d ≠ c) = true := by
  intro d hd
  refine decide_eq_true ?_
  rintro rfl
  exact h hd

theorem dropWhile_append_cons {s : Text} {c : Char} (h : c ∉ s) (rest : Text) :
    (s ++ c :: rest).dropWhile (· ≠ c) = c :: rest := by
  rw [List.dropWhile_append_of_pos (ne_of_not_mem h), List.dropWhile_cons_of_neg (by simp)]

theorem takeWhile_append_cons {s : Text} {c : Char} (h : c ∉ s) (rest : Text) :
    (s ++ c :: rest).takeWhile (· ≠ c) = s := by
  rw [List.takeWhile_append_of_pos (ne_of_not_mem h), List.takeWhile_cons_of_neg (by simp), List.append_nil]

theorem dropWhile_not_mem {s : Text} {c : Char} (h : c ∉ s) : s.dropWhile (· ≠ c) = [] := by
  have happend : (s ++ []).dropWhile (· ≠ c) = [] := List.dropWhile_append_of_pos (ne_of_not_mem h)
  rwa [List.append_nil] at happend

theorem takeWhile_not_mem {s : Text} {c : Char} (h : c ∉ s) : s.takeWhile (· ≠ c) = s := by
  have happend : (s ++ []).takeWhile (· ≠ c) = s ++ [] := List.takeWhile_append_of_pos (ne_of_not_mem h)
  rwa [List.append_nil] at happend

/-- `split` at a separator of two characters. -/
def splitPair (a b : Char) : Text → List Text
  | [] => [[]]
  | [c] => [[c]]
  | c :: d :: s => if c = a ∧ d = b then [] :: splitPair a b s else (splitPair a b (d :: s)).modifyHead (c :: ·)

theorem splitPair_cons_of_ne {a b c : Char} (h : c ≠ a) (s : Text) :
    splitPair a b (c :: s) = (splitPair a b s).modifyHead (c :: ·) := by
  cases s with
  | nil => rfl
  | cons d s =>
    have hne : ¬ (c = a ∧ d = b) := fun heq => h heq.1
    exact if_neg hne

theorem splitPair_append {a b : Char} {s : Text} (h : a ∉ s) (t : Text) :
    splitPair a b (s ++ a :: b :: t) = s :: splitPair a b t := by
  induction s with
  | nil => exact if_pos ⟨rfl, rfl⟩
  | cons c s ih =>
    have hc : c ≠ a := by
      rintro rfl
      exact h List.mem_cons_self
    rw [List.cons_append, splitPair_cons_of_ne hc, ih fun ha => h (List.mem_cons_of_mem c ha),
      List.modifyHead_cons]

theorem splitPair_of_not_mem {a b : Char} {s : Text} (h : a ∉ s) : splitPair a b s = [s] := by
  induction s with
  | nil => rfl
  | cons c s ih =>
    have hc : c ≠ a := by
      rintro rfl
      exact h List.mem_cons_self
    rw [splitPair_cons_of_ne hc, ih fun ha => h (List.mem_cons_of_mem c ha), List.modifyHead_cons]

end BitBlinder.PyText
