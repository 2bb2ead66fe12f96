import Mathlib.Data.List.Infix
import Mathlib.Data.List.Lex
import BitBlinder.PyText

/-!
# The order of version strings

A version string is compared by the list of its numbers, in which the number of the release
candidate comes after the components, and 10^9 stands there for a release. The loop
runs over the first list. When one version has more components than the other, a component of the
longer one meets the candidate number of the shorter one.
-/

namespace BitBlinder.Versions

set_option autoImplicit false

open PyText

/-! ### `compare_versions_strings` -/

def rc : Text := ['r', 'c']

/-- Converts a string like `0.4.9rc5` to the list of its numbers. -/
def makeVersionTuple (versionString : Text) : PyExcept (List Int) :=
  let vals := versionString.splitOn '.'
  let last := vals.getLastD []
  let last := if rc <:+: lower last then last else last ++ "rc1000000000".toList
  let last2 := splitPair 'r' 'c' (lower last)
  -- `remove` takes the first component that is equal to the last one
  ((vals.dropLast ++ [last]).erase last ++ last2).mapM readInt

def compareTuples : List Int → List Int → PyExcept Bool
  | [], _ => .ok false
  | _ :: _, [] => .error .indexError
  | x :: xs, y :: ys => if x > y then .ok true else if x < y then .ok false else compareTuples xs ys

def compareVersionsStrings (versionString1 versionString2 : Text) : PyExcept Bool := do
  let versionTuple1 ← makeVersionTuple versionString1
  let versionTuple2 ← makeVersionTuple versionString2
  compareTuples versionTuple1 versionTuple2

/-! ### The updater -/

/-- The constants of `System`, `ProgramState`, its `Conf` and `Globals`. -/
structure Settings where
  isWindows : Bool
  useGtk : Bool
  baseHttp : Text
  baseHttps : Text
  updateFileName : Text

structure Updater where
  newVersion : Option Text
  trueHash : Option Text
  updateString : Option Text
  downloadingUpdate : Bool
  baseUrl : Text

inductive Link where
  | html (text url : Text)
  | text (url : Text)

inductive Action where
  | httpDownload (url fileName : Text)
  | showMsgbox (text title : Text) (link : Option Link)

def init (conf : Settings) : Updater where
  newVersion := none
  trueHash := none
  updateString := none
  downloadingUpdate := false
  baseUrl := conf.baseHttps ++ "/media/".toList ++ (if conf.isWindows then "windows/" else "linux/").toList

def downloadUpdate (conf : Settings) (self : Updater) (newVersionData : List Text) :
    PyExcept (Updater × List Action) :=
  match newVersionData with
  | newVersion :: trueHash :: updateString :: _ =>
    let self := { self with newVersion := some newVersion, trueHash := some trueHash, updateString := some updateString }
    if conf.isWindows then
      if self.downloadingUpdate then .ok (self, [])
      else
        let fileName := "BitBlinderInstaller-".toList ++ newVersion ++ ".exe".toList
        .ok ({ self with downloadingUpdate := true },
          [.httpDownload (self.baseUrl ++ fileName) (conf.updateFileName ++ ".download".toList),
            .showMsgbox ("BitBlinder found a new version (".toList ++ newVersion ++
              ")!\n\nDownloading update now... (you can choose whether to restart later)".toList) "Notice".toList none])
    else
      let url := conf.baseHttp ++ "/download/".toList
      .ok (self, [.showMsgbox ("A new linux package is available!  Changes:\n\n".toList ++ updateString ++
        "\n\nGo download and install it from:".toList) "Update Available".toList
          (some (if conf.useGtk then .html url url else .text url))])
  | _ => .error .indexError

/-- The parts of the answer of the web server. -/
def dataParts (data : Text) : List Text := splitPair '\n' '\n' (data.filter (· ≠ '\r'))

/-- `current` is the version of the running program. -/
def updateRequestDone (conf : Settings) (current : Text) (self : Updater) (data : Text) :
    PyExcept (Bool × Updater × List Action) := do
  let data := dataParts data
  if ← compareVersionsStrings (data.headD []) current then
    let (self, actions) ← downloadUpdate conf self data
    return (true, self, actions)
  else
    return (false, self, [])

/-! ### Versions -/

/-- A number as it is written, of any number of digits. -/
structure Number where
  digits : Text
  ne_nil : digits ≠ []
  isDigit : ∀ c ∈ digits, c.isDigit
  small : Nat.ofDigitChars 10 digits 0 < 10 ^ 9

def Number.value (n : Number) : Int := (Nat.ofDigitChars 10 n.digits 0 : Nat)

theorem Number.value_lt (n : Number) : n.value < 10 ^ 9 := by
  have hsmall := n.small
  unfold Number.value
  omega

/-- The suffix of a release candidate, `rc` in any case. -/
structure Candidate where
  mark : Text
  isMark : lower mark = rc
  number : Number

structure Version where
  init : List Number
  last : Number
  candidate : Option Candidate

namespace Version

/-- The numbers before the candidate's. -/
def components (v : Version) : List Int := (v.init ++ [v.last]).map Number.value

def number (v : Version) : Option Int := v.candidate.map fun r => r.number.value

def suffix (v : Version) : Text :=
  match v.candidate with
  | none => []
  | some r => r.mark ++ r.number.digits

def text (v : Version) : Text := List.intercalate ['.'] (v.init.map Number.digits ++ [v.last.digits ++ v.suffix])

end Version

/-! ### The order -/

/-- Candidates come in the order of their numbers and the release after all of them. -/
def Earlier : Option Int → Option Int → Prop
  | some m, some n => m < n
  | some _, none => True
  | none, _ => False

/-- Components are compared number by number and a proper prefix comes first. -/
def Newer (v w : Version) : Prop :=
  List.Lex (· < ·) w.components v.components ∨ w.components = v.components ∧ Earlier w.number v.number

theorem earlier_irrefl (m : Option Int) : ¬ Earlier m m := by
  cases m with
  | none => exact id
  | some m => exact Int.lt_irrefl m

theorem earlier_trans {l m n : Option Int} (hlm : Earlier l m) (hmn : Earlier m n) : Earlier l n := by
  cases l with
  | none => exact hlm.elim
  | some l =>
    cases m with
    | none => exact hmn.elim
    | some m =>
      cases n with
      | none => trivial
      | some n => exact Int.lt_trans hlm hmn

theorem earlier_total {m n : Option Int} (h : m ≠ n) : Earlier m n ∨ Earlier n m := by
  cases m with
  | none =>
    cases n with
    | none => exact absurd rfl h
    | some n => exact Or.inr trivial
  | some m =>
    cases n with
    | none => exact Or.inl trivial
    | some n => exact Int.lt_or_gt_of_ne fun heq => h (congrArg some heq)

theorem newer_irrefl (v : Version) : ¬ Newer v v := by
  rintro (hlex | ⟨-, hearlier⟩)
  · exact List.lex_irrefl Int.lt_irrefl v.components hlex
  · exact earlier_irrefl v.number hearlier

theorem newer_trans {u v w : Version} (huv : Newer u v) (hvw : Newer v w) : Newer u w := by
  rcases huv with huv | ⟨heq, huv⟩
  · rcases hvw with hvw | ⟨heq', -⟩
    · exact Or.inl (List.lex_trans (fun h h' => Int.lt_trans h h') hvw huv)
    · exact Or.inl (heq' ▸ huv)
  · rcases hvw with hvw | ⟨heq', hvw⟩
    · exact Or.inl (heq ▸ hvw)
    · exact Or.inr ⟨heq'.trans heq, earlier_trans hvw huv⟩

theorem newer_asymm {v w : Version} (hvw : Newer v w) : ¬ Newer w v :=
  fun hwv => newer_irrefl v (newer_trans hvw hwv)

theorem newer_total {v w : Version} (h : v.components ≠ w.components ∨ v.number ≠ w.number) :
    Newer v w ∨ Newer w v := by
  by_cases heq : v.components = w.components
  · rcases earlier_total (h.resolve_left (not_not_intro heq)) with hearlier | hearlier
    · exact Or.inr (Or.inr ⟨heq, hearlier⟩)
    · exact Or.inl (Or.inr ⟨heq.symm, hearlier⟩)
  · rcases trichotomous_of (List.Lex (· < ·)) v.components w.components with hlex | heq' | hlex
    · exact Or.inr (Or.inl hlex)
    · exact absurd heq' heq
    · exact Or.inl (Or.inl hlex)

/-! ### The list of numbers of a version -/

theorem not_isDigit_of_mark {mark : Text} (h : lower mark = rc) : ∃ c ∈ mark, ¬ c.isDigit := by
  obtain ⟨c, hc, hlower⟩ := List.mem_map.mp (show 'r' ∈ lower mark from h ▸ List.mem_cons_self)
  refine ⟨c, hc, fun hdigit => ?_⟩
  rw [toLower_of_isDigit hdigit] at hlower
  rw [hlower] at hdigit
  exact absurd hdigit (by decide)

theorem dot_not_mem_digits {s : Text} (h : ∀ c ∈ s, c.isDigit) : '.' ∉ s :=
  fun hdot => absurd (h '.' hdot) (by decide)

theorem dot_not_mem_mark {mark : Text} (h : lower mark = rc) : '.' ∉ mark := by
  intro hdot
  have hmem : Char.toLower '.' ∈ lower mark := List.mem_map_of_mem hdot
  rw [h] at hmem
  exact absurd hmem (by decide)

theorem r_not_mem_digits {s : Text} (h : ∀ c ∈ s, c.isDigit) : 'r' ∉ s :=
  fun hr => absurd (h 'r' hr) (by decide)

/-- A last component that has been completed to digits, a mark and digits gives two numbers. -/
theorem makeVersionTuple_parts {numbers : List Text} {tail last mark number : Text}
    (hnumbers : ∀ s ∈ numbers ++ [last, number], s ≠ [] ∧ ∀ c ∈ s, c.isDigit) (hmark : lower mark = rc)
    (hdot : '.' ∉ tail)
    (htail : (if rc <:+: lower tail then tail else tail ++ "rc1000000000".toList) = last ++ (mark ++ number)) :
    makeVersionTuple (List.intercalate ['.'] (numbers ++ [tail])) =
      .ok ((numbers ++ [last, number]).map fun s => ((Nat.ofDigitChars 10 s 0 : Nat) : Int)) := by
  have hlast := hnumbers last (List.mem_append_right numbers List.mem_cons_self)
  have hnumber := hnumbers number (List.mem_append_right numbers (List.mem_cons_of_mem last List.mem_cons_self))
  have hsplit : (List.intercalate ['.'] (numbers ++ [tail])).splitOn '.' = numbers ++ [tail] := by
    refine List.splitOn_intercalate '.' (fun s hs => ?_) (List.append_ne_nil_of_right_ne_nil _ (List.cons_ne_nil _ _))
    rcases List.mem_append.mp hs with hs | hs
    · exact dot_not_mem_digits (hnumbers s (List.mem_append_left _ hs)).2
    · exact List.mem_singleton.mp hs ▸ hdot
  have hlast2 : splitPair 'r' 'c' (lower (last ++ (mark ++ number))) = [last, number] := by
    have hlower : lower (last ++ (mark ++ number)) = last ++ 'r' :: 'c' :: number := by
      unfold lower
      rw [List.map_append, List.map_append]
      change lower last ++ (lower mark ++ lower number) = _
      rw [lower_of_isDigit hlast.2, lower_of_isDigit hnumber.2, hmark]
      rfl
    rw [hlower, splitPair_append (r_not_mem_digits hlast.2), splitPair_of_not_mem (r_not_mem_digits hnumber.2)]
  have herase : (numbers ++ [last ++ (mark ++ number)]).erase (last ++ (mark ++ number)) = numbers := by
    have hmem : last ++ (mark ++ number) ∉ numbers := by
      intro hmem
      obtain ⟨c, hc, hdigit⟩ := not_isDigit_of_mark hmark
      exact hdigit ((hnumbers _ (List.mem_append_left _ hmem)).2 c
        (List.mem_append_right last (List.mem_append_left number hc)))
    rw [List.erase_append_right _ hmem, List.erase_cons_head, List.append_nil]
  unfold makeVersionTuple
  dsimp only
  rw [hsplit, List.getLastD_concat, List.dropLast_concat, htail, hlast2, herase, mapM_readInt hnumbers]

/-- The number after the components: the candidate's, and 10^9 for a release. -/
def Version.rank (v : Version) : Int := v.number.getD (10 ^ 9)

theorem makeVersionTuple_text (v : Version) : makeVersionTuple v.text = .ok (v.components ++ [v.rank]) := by
  have hdigits : ∀ n : Number, n.digits ≠ [] ∧ ∀ c ∈ n.digits, c.isDigit := fun n => ⟨n.ne_nil, n.isDigit⟩
  have hnumbers : ∀ {number : Text}, (number ≠ [] ∧ ∀ c ∈ number, c.isDigit) →
      ∀ s ∈ v.init.map Number.digits ++ [v.last.digits, number], s ≠ [] ∧ ∀ c ∈ s, c.isDigit := by
    intro number hnumber s hs
    rcases List.mem_append.mp hs with hs | hs
    · obtain ⟨n, -, rfl⟩ := List.mem_map.mp hs
      exact hdigits n
    · rcases List.mem_cons.mp hs with rfl | hs
      · exact hdigits v.last
      · exact List.mem_singleton.mp hs ▸ hnumber
  unfold Version.text Version.components Version.rank Version.number Version.suffix
  cases hcandidate : v.candidate with
  | none =>
    have htail : (if rc <:+: lower (v.last.digits ++ []) then v.last.digits ++ []
        else v.last.digits ++ [] ++ "rc1000000000".toList) = v.last.digits ++ (rc ++ "1000000000".toList) := by
      rw [List.append_nil, lower_of_isDigit v.last.isDigit, if_neg]
      · rfl
      · exact fun h => r_not_mem_digits v.last.isDigit (h.subset List.mem_cons_self)
    have hdot : '.' ∉ v.last.digits ++ [] := (List.append_nil _).symm ▸ dot_not_mem_digits v.last.isDigit
    rw [makeVersionTuple_parts (hnumbers ⟨by decide, List.all_eq_true.mp (by decide)⟩) rfl hdot htail]
    simp only [List.map_append, List.map_map, List.append_assoc]
    rfl
  | some r =>
    have htail : (if rc <:+: lower (v.last.digits ++ (r.mark ++ r.number.digits))
        then v.last.digits ++ (r.mark ++ r.number.digits)
        else v.last.digits ++ (r.mark ++ r.number.digits) ++ "rc1000000000".toList) =
        v.last.digits ++ (r.mark ++ r.number.digits) := by
      refine if_pos ⟨lower v.last.digits, lower r.number.digits, ?_⟩
      unfold lower
      rw [List.map_append, List.map_append, List.append_assoc]
      exact congrArg (fun m => _ ++ (m ++ _)) r.isMark.symm
    have hdot : '.' ∉ v.last.digits ++ (r.mark ++ r.number.digits) := by
      intro hmem
      rcases List.mem_append.mp hmem with hmem | hmem
      · exact dot_not_mem_digits v.last.isDigit hmem
      · rcases List.mem_append.mp hmem with hmem | hmem
        · exact dot_not_mem_mark r.isMark hmem
        · exact dot_not_mem_digits r.number.isDigit hmem
    rw [makeVersionTuple_parts (hnumbers (hdigits r.number)) r.isMark hdot htail]
    simp only [List.map_append, List.map_map, List.append_assoc]
    rfl

/-! ### The answers -/

/-- The comparison returns, and returns whether `P` holds. -/
def Decides (x : PyExcept Bool) (P : Prop) : Prop := ∃ b, x = .ok b ∧ (b = true ↔ P)

theorem decides_ok {b : Bool} {P : Prop} : Decides (.ok b) P ↔ (b = true ↔ P) := by
  constructor
  · rintro ⟨b', hok, hb⟩
    exact Except.ok.inj hok ▸ hb
  · exact fun h => ⟨b, rfl, h⟩

theorem not_decides_error {e : PyError} {P : Prop} : ¬ Decides (.error e) P := by
  rintro ⟨b, hok, -⟩
  exact nomatch hok

theorem Decides.congr {x : PyExcept Bool} {P Q : Prop} (h : P ↔ Q) : Decides x P ↔ Decides x Q :=
  exists_congr fun _ => and_congr_right fun _ => iff_congr Iff.rfl h

/-- What the loop should return for the components `c`, `d` and the last numbers `m`, `n`. -/
def Above (c d : List Int) (m n : Int) : Prop := List.Lex (· < ·) d c ∨ d = c ∧ n < m

/-- A component of the longer list stands against the last number of the shorter one. -/
def Reads (c d : List Int) (m n : Int) : Prop :=
  (∀ y rest, d = c ++ y :: rest → m ≤ y) ∧ ∀ x rest, c = d ++ x :: rest → n < x

theorem above_cons {x : Int} {c d : List Int} {m n : Int} : Above (x :: c) (x :: d) m n ↔ Above c d m n := by
  unfold Above
  rw [List.cons_lex_cons_iff, List.cons.injEq]
  constructor
  · rintro ((hlt | ⟨-, hlex⟩) | ⟨⟨-, heq⟩, hlt⟩)
    · exact absurd hlt (Int.lt_irrefl x)
    · exact Or.inl hlex
    · exact Or.inr ⟨heq, hlt⟩
  · rintro (hlex | ⟨heq, hlt⟩)
    · exact Or.inl (Or.inr ⟨rfl, hlex⟩)
    · exact Or.inr ⟨⟨rfl, heq⟩, hlt⟩

theorem reads_cons {x : Int} {c d : List Int} {m n : Int} : Reads (x :: c) (x :: d) m n ↔ Reads c d m n := by
  unfold Reads
  simp only [List.cons_append, List.cons.injEq, true_and]

theorem reads_of_ne {x y : Int} {c d : List Int} {m n : Int} (h : x ≠ y) : Reads (x :: c) (y :: d) m n :=
  ⟨fun _ _ heq => absurd (List.cons.inj heq).1.symm h, fun _ _ heq => absurd (List.cons.inj heq).1 h⟩

theorem compareTuples_gt {x y : Int} {xs ys : List Int} (h : y < x) :
    compareTuples (x :: xs) (y :: ys) = .ok true := if_pos h

theorem compareTuples_lt {x y : Int} {xs ys : List Int} (h : x < y) :
    compareTuples (x :: xs) (y :: ys) = .ok false := (if_neg (Int.not_lt.mpr h.le)).trans (if_pos h)

theorem compareTuples_eq {x : Int} {xs ys : List Int} : compareTuples (x :: xs) (x :: ys) = compareTuples xs ys :=
  (if_neg (Int.lt_irrefl x)).trans (if_neg (Int.lt_irrefl x))

/-- Lists of the same components are decided by the last numbers. -/
theorem decides_nil_nil (m n : Int) : Decides (compareTuples [m] [n]) (Above [] [] m n) := by
  have habove : Above [] [] m n ↔ n < m :=
    ⟨fun h => (h.resolve_left List.not_lex_nil).2, fun h => Or.inr ⟨rfl, h⟩⟩
  rw [Decides.congr habove]
  rcases lt_trichotomy m n with hlt | rfl | hgt
  · rw [compareTuples_lt hlt]
    exact decides_ok.mpr (iff_of_false Bool.false_ne_true (Int.lt_asymm hlt))
  · rw [compareTuples_eq]
    exact decides_ok.mpr (iff_of_false Bool.false_ne_true (Int.lt_irrefl m))
  · rw [compareTuples_gt hgt]
    exact decides_ok.mpr (iff_of_true rfl hgt)

/-- The last number `m` stands against the component `y`. -/
theorem decides_nil_cons_iff (m y n : Int) (d : List Int) :
    Decides (compareTuples [m] (y :: (d ++ [n]))) (Above [] (y :: d) m n) ↔ Reads [] (y :: d) m n := by
  have habove : Above [] (y :: d) m n ↔ False :=
    iff_false_intro fun h => h.elim List.not_lex_nil fun h => nomatch h.1
  have hreads : Reads [] (y :: d) m n ↔ m ≤ y := by
    constructor
    · exact fun h => h.1 y d rfl
    · refine fun h => ⟨fun z rest heq => ?_, fun _ _ heq => nomatch heq⟩
      exact (List.cons.inj heq).1 ▸ h
  rw [Decides.congr habove, hreads]
  rcases lt_trichotomy m y with hlt | rfl | hgt
  · rw [compareTuples_lt hlt]
    exact decides_ok.trans (iff_of_true (iff_of_false Bool.false_ne_true id) hlt.le)
  · rw [compareTuples_eq]
    exact decides_ok.trans (iff_of_true (iff_of_false Bool.false_ne_true id) le_rfl)
  · rw [compareTuples_gt hgt]
    exact decides_ok.trans (iff_of_false (fun h => h.mp rfl) (Int.not_le.mpr hgt))

/-- The component `x` stands against the last number `n`, and after it the second list is at its end. -/
theorem decides_cons_nil_iff (x m n : Int) (c : List Int) :
    Decides (compareTuples (x :: (c ++ [m])) [n]) (Above (x :: c) [] m n) ↔ Reads (x :: c) [] m n := by
  have habove : Above (x :: c) [] m n ↔ True := iff_true_intro (Or.inl List.Lex.nil)
  have hreads : Reads (x :: c) [] m n ↔ n < x := by
    constructor
    · exact fun h => h.2 x c rfl
    · refine fun h => ⟨fun _ _ heq => (nomatch heq), fun z rest heq => ?_⟩
      exact (List.cons.inj heq).1 ▸ h
  rw [Decides.congr habove, hreads]
  rcases lt_trichotomy x n with hlt | rfl | hgt
  · rw [compareTuples_lt hlt]
    exact decides_ok.trans (iff_of_false (fun h => Bool.false_ne_true (h.mpr trivial)) (Int.lt_asymm hlt))
  · have hend : compareTuples (c ++ [m]) [] = .error .indexError := by
      cases c with
      | nil => rfl
      | cons z c => rfl
    rw [compareTuples_eq, hend]
    exact iff_of_false not_decides_error (Int.lt_irrefl x)
  · rw [compareTuples_gt hgt]
    exact decides_ok.trans (iff_of_true (iff_of_true rfl trivial) hgt)

theorem not_above_of_lt {x y : Int} {c d : List Int} {m n : Int} (h : x < y) : ¬Above (x :: c) (y :: d) m n := by
  rintro (hlex | ⟨heq, -⟩)
  · rcases List.cons_lex_cons_iff.mp hlex with hgt | ⟨heq, -⟩
    · exact Int.lt_asymm h hgt
    · exact h.ne' heq
  · exact h.ne' (List.cons.inj heq).1

/-- The loop is right if and only if what stands against each other is of the right order. -/
theorem compareTuples_decides_iff (c d : List Int) (m n : Int) :
    Decides (compareTuples (c ++ [m]) (d ++ [n])) (Above c d m n) ↔ Reads c d m n := by
  induction c generalizing d with
  | nil =>
    cases d with
    | nil => exact iff_of_true (decides_nil_nil m n) ⟨fun _ _ h => (nomatch h), fun _ _ h => (nomatch h)⟩
    | cons y d => exact decides_nil_cons_iff m y n d
  | cons x c ih =>
    cases d with
    | nil => exact decides_cons_nil_iff x m n c
    | cons y d =>
      rw [List.cons_append, List.cons_append]
      rcases lt_trichotomy x y with hlt | rfl | hgt
      · rw [compareTuples_lt hlt]
        exact iff_of_true (decides_ok.mpr (iff_of_false Bool.false_ne_true (not_above_of_lt hlt))) (reads_of_ne hlt.ne)
      · rw [compareTuples_eq, Decides.congr above_cons, reads_cons, ih]
      · rw [compareTuples_gt hgt]
        exact iff_of_true (decides_ok.mpr (iff_of_true rfl (Or.inl (List.Lex.rel hgt)))) (reads_of_ne hgt.ne')

theorem number_lt {v : Version} {n : Int} (h : v.number = some n) : n < 10 ^ 9 := by
  obtain ⟨r, -, rfl⟩ := Option.map_eq_some_iff.mp h
  exact r.number.value_lt

theorem component_lt {v : Version} {x : Int} (h : x ∈ v.components) : x < 10 ^ 9 := by
  obtain ⟨n, -, rfl⟩ := List.mem_map.mp h
  exact n.value_lt

theorem rank_of_number {v : Version} {n : Int} (h : v.number = some n) : v.rank = n :=
  congrArg (fun m => Option.getD m (10 ^ 9)) h

theorem rank_of_release {v : Version} (h : v.number = none) : v.rank = 10 ^ 9 :=
  congrArg (fun m => Option.getD m (10 ^ 9)) h

theorem earlier_iff_rank (v w : Version) : Earlier w.number v.number ↔ w.rank < v.rank := by
  cases hv : v.number with
  | none =>
    rw [rank_of_release hv]
    cases hw : w.number with
    | none => exact iff_of_false id (rank_of_release hw ▸ Int.lt_irrefl _)
    | some n => exact iff_of_true trivial (rank_of_number hw ▸ number_lt hw)
  | some m =>
    rw [rank_of_number hv]
    cases hw : w.number with
    | none => exact iff_of_false id (rank_of_release hw ▸ Int.not_lt.mpr (number_lt hv).le)
    | some n => exact rank_of_number hw ▸ Iff.rfl

theorem newer_iff_above (v w : Version) : Newer v w ↔ Above v.components w.components v.rank w.rank :=
  or_congr_right (and_congr_right fun _ => earlier_iff_rank v w)

/-- When `w` continues `v` with a component `y`, `v` is a candidate of a number up to `y`, and when
`v` continues `w` with `x`, `w` is a candidate of a smaller number than `x`. -/
def Understood (v w : Version) : Prop :=
  (∀ y rest, w.components = v.components ++ y :: rest → ∃ n, v.number = some n ∧ n ≤ y) ∧
    ∀ x rest, v.components = w.components ++ x :: rest → ∃ n, w.number = some n ∧ n < x

theorem rank_le_iff {v w : Version} {y : Int} (hy : y ∈ w.components) :
    v.rank ≤ y ↔ ∃ n, v.number = some n ∧ n ≤ y := by
  cases hv : v.number with
  | none =>
    rw [rank_of_release hv]
    exact iff_of_false (Int.not_le.mpr (component_lt hy)) fun ⟨n, hn, _⟩ => nomatch hn
  | some m =>
    rw [rank_of_number hv]
    exact ⟨fun h => ⟨m, rfl, h⟩, fun ⟨n, hn, h⟩ => Option.some.inj hn ▸ h⟩

theorem rank_lt_iff {v w : Version} {x : Int} (hx : x ∈ v.components) :
    w.rank < x ↔ ∃ n, w.number = some n ∧ n < x := by
  cases hw : w.number with
  | none =>
    rw [rank_of_release hw]
    exact iff_of_false (Int.not_lt.mpr (component_lt hx).le) fun ⟨n, hn, _⟩ => nomatch hn
  | some m =>
    rw [rank_of_number hw]
    exact ⟨fun h => ⟨m, rfl, h⟩, fun ⟨n, hn, h⟩ => Option.some.inj hn ▸ h⟩

theorem reads_iff_understood (v w : Version) :
    Reads v.components w.components v.rank w.rank ↔ Understood v w := by
  refine and_congr (forall_congr' fun y => forall_congr' fun rest => ?_)
    (forall_congr' fun x => forall_congr' fun rest => ?_)
  · refine forall_congr' fun heq => rank_le_iff (w := w) ?_
    exact heq ▸ List.mem_append_right _ List.mem_cons_self
  · refine forall_congr' fun heq => rank_lt_iff (v := v) ?_
    exact heq ▸ List.mem_append_right _ List.mem_cons_self

/-- Two version strings are compared by the order of versions if and only if they are understood. -/
theorem compareVersionsStrings_decides_iff (v w : Version) :
    Decides (compareVersionsStrings v.text w.text) (Newer v w) ↔ Understood v w := by
  unfold compareVersionsStrings
  rw [makeVersionTuple_text, makeVersionTuple_text]
  simp only [PyExcept.ok_bind]
  rw [Decides.congr (newer_iff_above v w), compareTuples_decides_iff, reads_iff_understood]

/-! ### The updater's answer -/

theorem downloadUpdate_returns (conf : Settings) (self : Updater) (newVersion trueHash updateString : Text)
    (rest : List Text) :
    ∃ self' actions, downloadUpdate conf self (newVersion :: trueHash :: updateString :: rest) = .ok (self', actions) := by
  unfold downloadUpdate
  dsimp only
  split
  · split
    · exact ⟨_, _, rfl⟩
    · exact ⟨_, _, rfl⟩
  · exact ⟨_, _, rfl⟩

theorem updateRequestDone_newer {conf : Settings} {current version : Text} {self self' : Updater} {data : Text}
    {parts : List Text} {actions : List Action} (hparts : dataParts data = version :: parts)
    (hcompare : compareVersionsStrings version current = .ok true)
    (hdownload : downloadUpdate conf self (dataParts data) = .ok (self', actions)) :
    updateRequestDone conf current self data = .ok (true, self', actions) := by
  unfold updateRequestDone
  dsimp only
  rw [hdownload, hparts, List.headD_cons, hcompare]
  rfl

theorem updateRequestDone_upToDate {conf : Settings} {current version : Text} {self : Updater} {data : Text}
    {parts : List Text} (hparts : dataParts data = version :: parts)
    (hcompare : compareVersionsStrings version current = .ok false) :
    updateRequestDone conf current self data = .ok (false, self, []) := by
  unfold updateRequestDone
  dsimp only
  rw [hparts, List.headD_cons, hcompare]
  rfl

/-! ### Version strings as an order -/

/-- The first version string is found to be greater than the second. -/
def After (v w : Version) : Prop := compareVersionsStrings v.text w.text = .ok true

/-- Among the versions of `S` the comparison is the strict total order of versions, and the updater follows it. -/
structure OrderedOn (S : Version → Prop) : Prop where
  returns : ∀ {v w}, S v → S w → ∃ b, compareVersionsStrings v.text w.text = .ok b
  irrefl : ∀ {v}, S v → ¬ After v v
  asymm : ∀ {v w}, S v → S w → After v w → ¬ After w v
  trans : ∀ {u v w}, S u → S v → S w → After u v → After v w → After u w
  total : ∀ {v w}, S v → S w → v.components ≠ w.components ∨ v.number ≠ w.number → After v w ∨ After w v
  component : ∀ {v w}, S v → S w → ∀ c x y a b, v.components = c ++ x :: a → w.components = c ++ y :: b →
    y < x → After v w
  extension : ∀ {v w}, S v → S w → ∀ x rest, v.components = w.components ++ x :: rest → After v w
  release : ∀ {v w}, S v → S w → v.components = w.components → v.number = none → w.number ≠ none → After v w
  candidates : ∀ {v w}, S v → S w → v.components = w.components →
    ∀ m n, v.number = some m → w.number = some n → (After v w ↔ n < m)
  offers : ∀ {server current}, S server → S current → Newer server current →
    ∀ conf self data trueHash updateString rest, dataParts data = server.text :: trueHash :: updateString :: rest →
      ∃ self' actions, downloadUpdate conf self (dataParts data) = .ok (self', actions) ∧
        updateRequestDone conf current.text self data = .ok (true, self', actions)
  upToDate : ∀ {server current}, S server → S current → ¬ Newer server current →
    ∀ conf self data parts, dataParts data = server.text :: parts →
      updateRequestDone conf current.text self data = .ok (false, self, [])

/-- A version of `S` that another one of `S` continues is a candidate of a smaller number than the
first further component. -/
def Separate (S : Version → Prop) : Prop :=
  ∀ v w, S v → S w → ∀ x rest, v.components = w.components ++ x :: rest → ∃ n, w.number = some n ∧ n < x
/-- Versions of one number of components are separate. -/
theorem separate_of_length (k : Nat) : Separate fun v => v.components.length = k := by
  intro v w hv hw x rest heq
  have hlength := congrArg List.length heq
  rw [List.length_append, List.length_cons, hv, hw] at hlength
  omega

theorem newer_of_component {v w : Version} {c : List Int} {x y : Int} {a b : List Int}
    (hv : v.components = c ++ x :: a) (hw : w.components = c ++ y :: b) (h : y < x) : Newer v w := by
  refine Or.inl ?_
  rw [hv, hw]
  exact List.Lex.append_left _ (List.Lex.rel h) c

theorem newer_of_extension {v w : Version} {x : Int} {rest : List Int}
    (h : v.components = w.components ++ x :: rest) : Newer v w := by
  have hlex : List.Lex (· < ·) (w.components ++ []) (w.components ++ x :: rest) :=
    List.Lex.append_left _ List.Lex.nil w.components
  rw [List.append_nil] at hlex
  exact Or.inl (h ▸ hlex)

theorem newer_iff_earlier {v w : Version} (h : v.components = w.components) :
    Newer v w ↔ Earlier w.number v.number := by
  constructor
  · rintro (hlex | ⟨-, hearlier⟩)
    · exact absurd (h ▸ hlex) (List.lex_irrefl Int.lt_irrefl w.components)
    · exact hearlier
  · exact fun hearlier => Or.inr ⟨h.symm, hearlier⟩

/-- On separate versions the comparison is the order of versions. -/
theorem decides_of_separate {S : Version → Prop} (h : Separate S) {v w : Version} (hv : S v) (hw : S w) :
    Decides (compareVersionsStrings v.text w.text) (Newer v w) := by
  refine (compareVersionsStrings_decides_iff v w).mpr ⟨fun y rest heq => ?_, h v w hv hw⟩
  obtain ⟨n, hn, hlt⟩ := h w v hw hv y rest heq
  exact ⟨n, hn, hlt.le⟩

theorem after_iff_newer {v w : Version} (h : Decides (compareVersionsStrings v.text w.text) (Newer v w)) :
    After v w ↔ Newer v w := by
  obtain ⟨b, hok, hb⟩ := h
  unfold After
  rw [hok, ← hb, Except.ok.injEq]

theorem compare_eq_false {v w : Version} (h : Decides (compareVersionsStrings v.text w.text) (Newer v w))
    (hnot : ¬ Newer v w) : compareVersionsStrings v.text w.text = .ok false := by
  obtain ⟨b, hok, hb⟩ := h
  rw [hok, Bool.eq_false_of_not_eq_true fun hb' => hnot (hb.mp hb')]

theorem orderedOn_iff (S : Version → Prop) : OrderedOn S ↔ Separate S := by
  constructor
  · intro h v w hv hw x rest heq
    have hafter : After v w := h.extension hv hw x rest heq
    have hdecides : Decides (compareVersionsStrings v.text w.text) (Newer v w) :=
      ⟨true, hafter, iff_of_true rfl (newer_of_extension heq)⟩
    exact ((compareVersionsStrings_decides_iff v w).mp hdecides).2 x rest heq
  · intro h
    have hdecides : ∀ {v w}, S v → S w → Decides (compareVersionsStrings v.text w.text) (Newer v w) :=
      fun hv hw => decides_of_separate h hv hw
    have hiff : ∀ {v w}, S v → S w → (After v w ↔ Newer v w) := fun hv hw => after_iff_newer (hdecides hv hw)
    constructor
    case returns =>
      intro v w hv hw
      obtain ⟨b, hok, -⟩ := hdecides hv hw
      exact ⟨b, hok⟩
    case irrefl => exact fun hv hafter => newer_irrefl _ ((hiff hv hv).mp hafter)
    case asymm => exact fun hv hw hvw hwv => newer_asymm ((hiff hv hw).mp hvw) ((hiff hw hv).mp hwv)
    case trans =>
      exact fun hu hv hw huv hvw => (hiff hu hw).mpr (newer_trans ((hiff hu hv).mp huv) ((hiff hv hw).mp hvw))
    case total => exact fun hv hw hne => (newer_total hne).imp (hiff hv hw).mpr (hiff hw hv).mpr
    case component => exact fun hv hw _ _ _ _ _ hc hd hlt => (hiff hv hw).mpr (newer_of_component hc hd hlt)
    case extension => exact fun hv hw _ _ heq => (hiff hv hw).mpr (newer_of_extension heq)
    case release =>
      intro v w hv hw heq hrelease hcandidate
      obtain ⟨n, hn⟩ := Option.ne_none_iff_exists'.mp hcandidate
      refine (hiff hv hw).mpr ((newer_iff_earlier heq).mpr ?_)
      rw [hrelease, hn]
      trivial
    case candidates =>
      intro v w hv hw heq m n hm hn
      rw [hiff hv hw, newer_iff_earlier heq, hm, hn]
      exact Iff.rfl
    case offers =>
      intro server current hserver hcurrent hnewer conf self data trueHash updateString rest hparts
      obtain ⟨self', actions, hdownload⟩ :=
        downloadUpdate_returns conf self server.text trueHash updateString rest
      rw [← hparts] at hdownload
      exact ⟨self', actions, hdownload,
        updateRequestDone_newer hparts ((hiff hserver hcurrent).mpr hnewer) hdownload⟩
    case upToDate =>
      intro server current hserver hcurrent hnot conf self data parts hparts
      exact updateRequestDone_upToDate hparts (compare_eq_false (hdecides hserver hcurrent) hnot)

section Continued

private def zero : Number := ⟨['0'], by decide, List.all_eq_true.mp (by decide), by decide⟩
private def one : Number := ⟨['1'], by decide, List.all_eq_true.mp (by decide), by decide⟩
private def five : Number := ⟨['5'], by decide, List.all_eq_true.mp (by decide), by decide⟩
private def eight : Number := ⟨['8'], by decide, List.all_eq_true.mp (by decide), by decide⟩

private def oldRelease : Version := ⟨[zero, five], eight, none⟩
private def newRelease : Version := ⟨[zero, five, eight], one, none⟩

/-- `0.5.8.1` is found to be older than `0.5.8`, is never offered to it, and cannot be compared with `0.5.8rc1`. -/
theorem continued_version :
    ¬ OrderedOn (fun _ => True) ∧
      compareVersionsStrings "0.5.8.1".toList "0.5.8".toList = .ok false ∧
      compareVersionsStrings "0.5.8".toList "0.5.8.1".toList = .ok true ∧
      compareVersionsStrings "0.5.8.1".toList "0.5.8rc1".toList = .error .indexError ∧
      ∀ conf self, updateRequestDone conf "0.5.8".toList self "0.5.8.1\n\nhash\n\nchanges".toList =
        .ok (false, self, []) := by
  have hold : compareVersionsStrings "0.5.8.1".toList "0.5.8".toList = .ok false := by decide
  refine ⟨fun h => ?_, hold, by decide, by decide, fun conf self => ?_⟩
  · have hafter : After newRelease oldRelease := h.extension trivial trivial 1 [] (by decide)
    have hnew : compareVersionsStrings newRelease.text oldRelease.text = .ok false := by decide
    exact nomatch hnew.symm.trans hafter
  · have hparts : dataParts "0.5.8.1\n\nhash\n\nchanges".toList =
        ["0.5.8.1".toList, "hash".toList, "changes".toList] := by decide
    exact updateRequestDone_upToDate hparts hold

end Continued

end BitBlinder.Versions
