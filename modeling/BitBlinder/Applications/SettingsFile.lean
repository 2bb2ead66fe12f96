import Mathlib.Data.List.Nodup
import BitBlinder.PyText

/-!
# `SettingsFile`: settings that are written to a file and read back

Each declared setting has a default and a range, and a text from the file is
converted and checked by them. What fails the check is logged and shown to the
user, but assigned all the same, as far as it was converted.

A float range is left out: no setting is declared with one.
-/

namespace BitBlinder.Applications

set_option autoImplicit false

open PyText

inductive SettingValue where
  | int (n : Int)
  | bool (b : Bool)
  | str (text : Text)
  deriving DecidableEq

/-- A tuple of two numbers, a tuple of strings, a string, or something else. -/
inductive SettingRange where
  | ints (low high : Int)
  | options (names : List Text)
  | text (range : Text)
  | other

/-- An entry of `settings_to_save`, `defaults` and `ranges`. -/
structure Setting where
  name : Text
  default : SettingValue
  range : SettingRange

/-- What the checks ask of the libraries: `int` of a string, which takes digits of all scripts,
`os.path.isdir`, `isIPAddress`, and a regular expression that is compiled and matched. -/
structure SettingChecks where
  int : Text → PyExcept Int
  isdir : Text → Bool
  isIPAddress : Text → Bool
  regexMatch : Text → Text → PyExcept Bool
  int_strInt : ∀ n, int (strInt n) = .ok n

/-- `str` of a value. -/
def SettingValue.str' : SettingValue → Text
  | .int n => strInt n
  | .bool true => "True".toList
  | .bool false => "False".toList
  | .str text => text

def SettingValue.isBool : SettingValue → Bool
  | .bool _ => true
  | _ => false

def trueTexts : List Text := ["1", "true", "t", "y", "yes", "on"].map String.toList

/-- `repr` of a tuple, given that of its parts. -/
def reprTuple : List String → String
  | [part] => "(" ++ part ++ ",)"
  | parts => "(" ++ ", ".intercalate parts ++ ")"

def notInRange (value range : String) : PyError := .assertionError (value ++ " not in range " ++ range)

section
variable (c : SettingChecks)

/-- A text for a number: the value that is assigned, and whether it was accepted. -/
def loadInt (loaded : Text) (check : Int → PyExcept Unit) : SettingValue × PyExcept Unit :=
  match c.int loaded with
  | .error e => (.str loaded, .error e)
  | .ok n => (.int n, check n)

/-- The checks of a range that is a string. -/
def loadText (range loaded : Text) : SettingValue × PyExcept Unit :=
  let text := String.ofList loaded
  if range = "folder".toList then
    (.str loaded, if c.isdir loaded then .ok () else .error (.assertionError (text ++ " is not a valid directory")))
  else if range = "ip".toList then
    (.str loaded, if loaded = [] ∨ c.isIPAddress loaded = true then .ok ()
      else .error (.assertionError (text ++ " is not a valid ip address")))
  else if range ∈ ["GB", "KBps"].map String.toList then loadInt c loaded fun _ => .ok ()
  else if range = "password".toList then (.str loaded, .ok ())
  else if range = "scheduler".toList then (.str loaded, .ok ())
  else if range = "anonymity level".toList then
    loadInt c loaded fun n =>
      if n ∈ ([1, 2, 3] : List Int) then .ok ()
      else .error (.assertionError "anonymity value not in range (1,3)")
  else
    (.str loaded, do
      let matched ← c.regexMatch range loaded
      if matched then return ()
      else throw (.assertionError
        ("settings string (" ++ text ++ ") does not match expression (" ++ String.ofList range ++ ")")))

/-- The body of the loop of `unpickle` for a declared setting. -/
def loadValue (s : Setting) (loaded : Text) : SettingValue × PyExcept Unit :=
  match s.range with
  | .ints low high =>
    loadInt c loaded fun n =>
      let range := reprTuple [toString low, toString high]
      if ¬n ≤ high then .error (notInRange (toString n) range)
      else if ¬low ≤ n then .error (notInRange (toString n) range)
      else .ok ()
  | .options names =>
    (.str loaded, if loaded ∈ names then .ok ()
      else .error (notInRange (String.ofList loaded) (reprTuple (names.map fun name => "'" ++ String.ofList name ++ "'"))))
  | .text range =>
    if s.default.isBool then (.bool (lower loaded ∈ trueTexts), .ok ()) else loadText c range loaded
  | .other =>
    if s.default.isBool then (.bool (lower loaded ∈ trueTexts), .ok ())
    else (.str loaded, .error (.exception "Unknown range/value combination"))

/-- The attributes of an object; only those that are set are read. -/
abbrev SettingAttrs := Text → SettingValue

/-- The loop of `unpickle`: the attributes, and the failures that were shown by the name of the option. -/
def unpickleLoop (settings : List Setting) : List (Text × Text) → SettingAttrs → SettingAttrs × List (Text × PyError)
  | [], attrs => (attrs, [])
  | (name, loaded) :: config, attrs =>
    match settings.find? fun s => s.name = name with
    | none => unpickleLoop settings config attrs
    | some s =>
      let (value, result) := loadValue c s loaded
      let (final, shown) := unpickleLoop settings config (Function.update attrs name value)
      match result with
      | .ok () => (final, shown)
      | .error e => (final, (name, e) :: shown)

end

/-- `settings` are the names of `settings_to_save` with their entries of `defaults` and `ranges`. -/
structure PickledSettings where
  settings : List Setting
  attrs : SettingAttrs
  nodup : (settings.map Setting.name).Nodup

namespace PickledSettings

/-- A name that is declared again gets the new range and keeps its default. -/
def setRange (settings : List Setting) (name : Text) (range : SettingRange) : List Setting :=
  settings.map fun s => if s.name = name then { s with range := range } else s

theorem names_setRange (settings : List Setting) (name : Text) (range : SettingRange) :
    (setRange settings name range).map Setting.name = settings.map Setting.name := by
  unfold setRange
  rw [List.map_map]
  refine List.map_congr_left fun s _ => ?_
  rw [Function.comp_apply]
  split <;> rfl

/-- A name without a range or a text to show is an old attribute that is set only. -/
def addAttribute (obj : PickledSettings) (name : Text) (value : SettingValue) (range : Option SettingRange)
    (displayName : Text) : PickledSettings :=
  let attrs := Function.update obj.attrs name value
  match range with
  | none => { obj with attrs := attrs }
  | some range =>
    if hname : name ∈ obj.settings.map Setting.name then
      { settings := setRange obj.settings name range
        attrs := attrs
        nodup := by
          rw [names_setRange]
          exact obj.nodup }
    else if displayName = [] then { obj with attrs := attrs }
    else
      { settings := obj.settings ++ [⟨name, value, range⟩]
        attrs := attrs
        nodup := by
          rw [List.map_append]
          refine List.Nodup.append obj.nodup (List.nodup_singleton name) ?_
          intro other hother heq
          rw [List.mem_singleton.mp heq] at hother
          exact hname hother }

def unpickle (c : SettingChecks) (obj : PickledSettings) (config : List (Text × Text)) : PickledSettings :=
  { obj with attrs := (unpickleLoop c obj.settings config obj.attrs).1 }

/-- The file has each value as a text. -/
def pickle (obj : PickledSettings) : List (Text × Text) :=
  obj.settings.map fun s => (s.name, (obj.attrs s.name).str')

end PickledSettings

/-! ### What a range asks for -/

section
variable (c : SettingChecks)

/-- A value of the type of the setting that satisfies its range. -/
def Setting.Valid (s : Setting) (v : SettingValue) : Prop :=
  match s.range with
  | .ints low high => ∃ n, v = .int n ∧ low ≤ n ∧ n ≤ high
  | .options names => ∃ text, v = .str text ∧ text ∈ names
  | .text range =>
    if s.default.isBool then ∃ b, v = .bool b
    else if range = "folder".toList then ∃ text, v = .str text ∧ c.isdir text = true
    else if range = "ip".toList then ∃ text, v = .str text ∧ (text = [] ∨ c.isIPAddress text = true)
    else if range ∈ ["GB", "KBps"].map String.toList then ∃ n, v = .int n
    else if range = "password".toList then ∃ text, v = .str text
    else if range = "scheduler".toList then ∃ text, v = .str text
    else if range = "anonymity level".toList then ∃ n, v = .int n ∧ n ∈ ([1, 2, 3] : List Int)
    else ∃ text, v = .str text ∧ c.regexMatch range text = .ok true
  | .other => s.default.isBool = true ∧ ∃ b, v = .bool b

/-- A text of which the conversion is such a value. -/
def Setting.Accepts (s : Setting) (loaded : Text) : Prop :=
  match s.range with
  | .ints low high => ∃ n, c.int loaded = .ok n ∧ low ≤ n ∧ n ≤ high
  | .options names => loaded ∈ names
  | .text range =>
    if s.default.isBool then True
    else if range = "folder".toList then c.isdir loaded = true
    else if range = "ip".toList then loaded = [] ∨ c.isIPAddress loaded = true
    else if range ∈ ["GB", "KBps"].map String.toList then ∃ n, c.int loaded = .ok n
    else if range = "password".toList then True
    else if range = "scheduler".toList then True
    else if range = "anonymity level".toList then ∃ n, c.int loaded = .ok n ∧ n ∈ ([1, 2, 3] : List Int)
    else c.regexMatch range loaded = .ok true
  | .other => s.default.isBool = true

variable {c}

theorem loadInt_cases {loaded : Text} {check : Int → PyExcept Unit} {P : Int → Prop}
    (hcheck : ∀ n, check n = .ok () ↔ P n) :
    ((loadInt c loaded check).2 = .ok () ↔ ∃ n, c.int loaded = .ok n ∧ P n) ∧
      ((∃ n, (loadInt c loaded check).1 = .int n ∧ P n) ↔ ∃ n, c.int loaded = .ok n ∧ P n) := by
  unfold loadInt
  cases c.int loaded with
  | error e => simp
  | ok n => simp [hcheck]

/-- The text is accepted exactly when it is, and what is assigned is valid exactly then. -/
theorem loadText_cases (s : Setting) {range : Text} (hrange : s.range = .text range) (hbool : s.default.isBool = false)
    (loaded : Text) :
    ((loadText c range loaded).2 = .ok () ↔ s.Accepts c loaded) ∧
      (s.Valid c (loadText c range loaded).1 ↔ s.Accepts c loaded) := by
  unfold loadText Setting.Accepts Setting.Valid
  rw [hrange]
  simp only [hbool, Bool.false_eq_true, ↓reduceIte]
  by_cases hfolder : range = "folder".toList
  · simp only [if_pos hfolder]
    by_cases hdir : c.isdir loaded = true <;> simp [hdir]
  simp only [if_neg hfolder]
  by_cases hip : range = "ip".toList
  · simp only [if_pos hip]
    by_cases haddress : loaded = [] ∨ c.isIPAddress loaded = true <;> simp [haddress]
  simp only [if_neg hip]
  by_cases hunit : range ∈ ["GB", "KBps"].map String.toList
  · simp only [if_pos hunit]
    have hcases := @loadInt_cases c loaded (fun _ => .ok ()) (fun _ => True) fun _ => iff_of_true rfl trivial
    simpa using hcases
  simp only [if_neg hunit]
  by_cases hpassword : range = "password".toList
  · simp [hpassword]
  simp only [if_neg hpassword]
  by_cases hscheduler : range = "scheduler".toList
  · simp [hscheduler]
  simp only [if_neg hscheduler]
  by_cases hlevel : range = "anonymity level".toList
  · simp only [if_pos hlevel]
    refine loadInt_cases fun n => ?_
    by_cases hn : n ∈ ([1, 2, 3] : List Int) <;> simp [hn]
  simp only [if_neg hlevel]
  rcases hmatch : c.regexMatch range loaded with e | ⟨_ | _⟩ <;> simp [hmatch, bind, Except.bind]

theorem loadValue_cases (s : Setting) (loaded : Text) :
    ((loadValue c s loaded).2 = .ok () ↔ s.Accepts c loaded) ∧
      (s.Valid c (loadValue c s loaded).1 ↔ s.Accepts c loaded) := by
  unfold loadValue
  cases hrange : s.range with
  | ints low high =>
    unfold Setting.Accepts Setting.Valid
    rw [hrange]
    refine loadInt_cases fun n => ?_
    by_cases hhigh : n ≤ high
    · by_cases hlow : low ≤ n <;> simp [hhigh, hlow]
    · simp [hhigh]
  | options names =>
    unfold Setting.Accepts Setting.Valid
    rw [hrange]
    by_cases hmem : loaded ∈ names <;> simp [hmem]
  | text range =>
    dsimp only
    by_cases hbool : s.default.isBool = true
    · unfold Setting.Accepts Setting.Valid
      rw [hrange]
      simp [hbool]
    · rw [if_neg hbool]
      exact loadText_cases s hrange (by simpa using hbool) loaded
  | other =>
    unfold Setting.Accepts Setting.Valid
    rw [hrange]
    by_cases hbool : s.default.isBool = true <;> simp [hbool]

end

/-! ### What is left of a file -/

namespace PickledSettings
variable {c : SettingChecks}

theorem find?_eq_some {settings : List Setting} (hnodup : (settings.map Setting.name).Nodup) {s : Setting}
    (hs : s ∈ settings) : settings.find? (fun t => t.name = s.name) = some s := by
  induction settings with
  | nil => cases hs
  | cons t settings ih =>
    rw [List.map_cons, List.nodup_cons] at hnodup
    rcases List.mem_cons.mp hs with rfl | hs
    · exact List.find?_cons_of_pos (by simp)
    · have hne : t.name ≠ s.name := by
        intro heq
        rw [heq] at hnodup
        exact hnodup.1 (List.mem_map_of_mem hs)
      rw [List.find?_cons_of_neg (by simpa using hne)]
      exact ih hnodup.2 hs

/-- Each setting has the value that its own text was converted to, or the one that it had. -/
theorem unpickleLoop_eq {settings : List Setting} (hnodup : (settings.map Setting.name).Nodup) {s : Setting}
    (hs : s ∈ settings) {config : List (Text × Text)} (hconfig : (config.map Prod.fst).Nodup) (attrs : SettingAttrs) :
    (unpickleLoop c settings config attrs).1 s.name =
      match config.lookup s.name with
      | none => attrs s.name
      | some loaded => (loadValue c s loaded).1 := by
  induction config generalizing attrs with
  | nil => rfl
  | cons entry config ih =>
    obtain ⟨name, loaded⟩ := entry
    rw [List.map_cons, List.nodup_cons] at hconfig
    obtain ⟨hname, hconfig⟩ := hconfig
    have ih := fun attrs => ih hconfig attrs
    rw [unpickleLoop]
    by_cases heq : s.name = name
    · subst heq
      have hlookup : config.lookup s.name = none := by
        rw [List.lookup_eq_none_iff]
        intro entry hentry
        simp only [bne_iff_ne, ne_eq]
        intro heq
        rw [heq] at hname
        exact hname (List.mem_map.mpr ⟨entry, hentry, rfl⟩)
      rw [find?_eq_some hnodup hs, List.lookup_cons_self]
      dsimp only
      have hfinal := ih (Function.update attrs s.name (loadValue c s loaded).1)
      rw [hlookup, Function.update_self] at hfinal
      split <;> exact hfinal
    · have hskip : List.lookup s.name ((name, loaded) :: config) = config.lookup s.name := by
        rw [List.lookup_cons, beq_false_of_ne heq]
      rw [hskip]
      split
      · exact ih attrs
      · rename_i t _
        have hfinal := ih (Function.update attrs name (loadValue c t loaded).1)
        rw [Function.update_of_ne heq] at hfinal
        dsimp only
        split <;> exact hfinal

theorem unpickle_attrs (obj : PickledSettings) {s : Setting} (hs : s ∈ obj.settings) {config : List (Text × Text)}
    (hconfig : (config.map Prod.fst).Nodup) :
    (obj.unpickle c config).attrs s.name =
      match config.lookup s.name with
      | none => obj.attrs s.name
      | some loaded => (loadValue c s loaded).1 := unpickleLoop_eq obj.nodup hs hconfig obj.attrs

/-- Every setting has a valid value, and one whose text is not accepted has the value that it had. -/
def LoadedWell (c : SettingChecks) (obj : PickledSettings) (config : List (Text × Text)) : Prop :=
  ∀ s ∈ obj.settings, s.Valid c ((obj.unpickle c config).attrs s.name) ∧
    ∀ loaded, config.lookup s.name = some loaded → ¬s.Accepts c loaded →
      (obj.unpickle c config).attrs s.name = obj.attrs s.name

theorem loadedWell_iff (obj : PickledSettings) (hvalid : ∀ s ∈ obj.settings, s.Valid c (obj.attrs s.name))
    {config : List (Text × Text)} (hconfig : (config.map Prod.fst).Nodup) :
    obj.LoadedWell c config ↔ ∀ s ∈ obj.settings, ∀ loaded, config.lookup s.name = some loaded → s.Accepts c loaded := by
  constructor
  · intro h s hs loaded hlookup
    have hassigned := (h s hs).1
    rw [unpickle_attrs obj hs hconfig, hlookup] at hassigned
    exact (loadValue_cases s loaded).2.mp hassigned
  · intro h s hs
    rw [unpickle_attrs obj hs hconfig]
    cases hlookup : config.lookup s.name with
    | none => exact ⟨hvalid s hs, fun loaded hsome => by cases hsome⟩
    | some loaded =>
      refine ⟨(loadValue_cases s loaded).2.mpr (h s hs loaded hlookup), fun loaded' hsome hrejected => ?_⟩
      obtain rfl := Option.some.inj hsome
      exact absurd (h s hs _ hlookup) hrejected

/-! ### A file that was written -/

theorem lookup_pickle (obj : PickledSettings) {s : Setting} (hs : s ∈ obj.settings) :
    obj.pickle.lookup s.name = some (obj.attrs s.name).str' := by
  have hlookup : ∀ settings : List Setting, s ∈ settings →
      (settings.map fun t => (t.name, (obj.attrs t.name).str')).lookup s.name = some (obj.attrs s.name).str' := by
    intro settings hmem
    induction settings with
    | nil => cases hmem
    | cons t settings ih =>
      rw [List.map_cons]
      by_cases heq : s.name = t.name
      · rw [heq, List.lookup_cons_self]
      · rw [List.lookup_cons, beq_false_of_ne heq]
        refine ih ?_
        rcases List.mem_cons.mp hmem with rfl | hmem
        · exact absurd rfl heq
        · exact hmem
  exact hlookup obj.settings hs

theorem loadInt_str (n : Int) (check : Int → PyExcept Unit) :
    (loadInt c (SettingValue.int n).str' check).1 = .int n := by
  unfold loadInt SettingValue.str'
  dsimp only
  rw [c.int_strInt]

theorem loadText_str {s : Setting} {range : Text} (hrange : s.range = .text range) (hbool : s.default.isBool = false)
    {v : SettingValue} (h : s.Valid c v) : (loadText c range v.str').1 = v := by
  unfold Setting.Valid at h
  unfold loadText
  rw [hrange] at h
  simp only [hbool, Bool.false_eq_true, ↓reduceIte] at h
  by_cases hfolder : range = "folder".toList
  · rw [if_pos hfolder] at h ⊢
    obtain ⟨text, rfl, -⟩ := h
    rfl
  rw [if_neg hfolder] at h ⊢
  by_cases hip : range = "ip".toList
  · rw [if_pos hip] at h ⊢
    obtain ⟨text, rfl, -⟩ := h
    rfl
  rw [if_neg hip] at h ⊢
  by_cases hunit : range ∈ ["GB", "KBps"].map String.toList
  · rw [if_pos hunit] at h ⊢
    obtain ⟨n, rfl⟩ := h
    exact loadInt_str n _
  rw [if_neg hunit] at h ⊢
  by_cases hpassword : range = "password".toList
  · rw [if_pos hpassword] at h ⊢
    obtain ⟨text, rfl⟩ := h
    rfl
  rw [if_neg hpassword] at h ⊢
  by_cases hscheduler : range = "scheduler".toList
  · rw [if_pos hscheduler] at h ⊢
    obtain ⟨text, rfl⟩ := h
    rfl
  rw [if_neg hscheduler] at h ⊢
  by_cases hlevel : range = "anonymity level".toList
  · rw [if_pos hlevel] at h ⊢
    obtain ⟨n, rfl, -⟩ := h
    exact loadInt_str n _
  rw [if_neg hlevel] at h ⊢
  obtain ⟨text, rfl, -⟩ := h
  rfl

/-- The text of a valid value is converted back to it. -/
theorem loadValue_str {s : Setting} {v : SettingValue} (h : s.Valid c v) : (loadValue c s v.str').1 = v := by
  have hbool : ∀ b, (.bool (lower (SettingValue.bool b).str' ∈ trueTexts) : SettingValue) = .bool b := by
    intro b
    cases b <;> decide
  unfold loadValue
  cases hrange : s.range with
  | ints low high =>
    unfold Setting.Valid at h
    rw [hrange] at h
    obtain ⟨n, rfl, -⟩ := h
    exact loadInt_str n _
  | options names =>
    unfold Setting.Valid at h
    rw [hrange] at h
    obtain ⟨text, rfl, -⟩ := h
    rfl
  | text range =>
    dsimp only
    by_cases hdefault : s.default.isBool = true
    · unfold Setting.Valid at h
      rw [hrange] at h
      dsimp only at h
      rw [if_pos hdefault] at h ⊢
      obtain ⟨b, rfl⟩ := h
      exact hbool b
    · rw [if_neg hdefault]
      exact loadText_str hrange (by simpa using hdefault) h
  | other =>
    unfold Setting.Valid at h
    rw [hrange] at h
    obtain ⟨hdefault, b, rfl⟩ := h
    dsimp only
    rw [if_pos hdefault]
    exact hbool b

/-- An object with the same declarations gets the values that were written. -/
theorem unpickle_pickle (obj target : PickledSettings) (hsame : target.settings = obj.settings)
    (hvalid : ∀ s ∈ obj.settings, s.Valid c (obj.attrs s.name)) :
    ∀ s ∈ obj.settings, (target.unpickle c obj.pickle).attrs s.name = obj.attrs s.name := by
  intro s hs
  have hnames : (obj.pickle.map Prod.fst).Nodup := by
    have hmap : obj.pickle.map Prod.fst = obj.settings.map Setting.name := by
      rw [pickle, List.map_map]
      rfl
    rw [hmap]
    exact obj.nodup
  have htarget : s ∈ target.settings := by
    rw [hsame]
    exact hs
  rw [unpickle_attrs target htarget hnames, lookup_pickle obj hs]
  exact loadValue_str (hvalid s hs)

/-- After any file, all settings are valid and the rejected ones unchanged if and only if every text
for a declared setting is accepted; what is written from valid values is read back. -/
theorem settings_loadedWell_iff (c : SettingChecks) (obj : PickledSettings)
    (hvalid : ∀ s ∈ obj.settings, s.Valid c (obj.attrs s.name)) :
    (∀ config : List (Text × Text), (config.map Prod.fst).Nodup →
      (obj.LoadedWell c config ↔
        ∀ s ∈ obj.settings, ∀ loaded, config.lookup s.name = some loaded → s.Accepts c loaded)) ∧
    (∀ config config' : List (Text × Text), (config.map Prod.fst).Nodup → (config'.map Prod.fst).Nodup →
      ∀ s ∈ obj.settings, config.lookup s.name = config'.lookup s.name →
        (obj.unpickle c config).attrs s.name = (obj.unpickle c config').attrs s.name) ∧
    ∀ target : PickledSettings, target.settings = obj.settings →
      ∀ s ∈ obj.settings, (target.unpickle c obj.pickle).attrs s.name = obj.attrs s.name := by
  refine ⟨fun config hconfig => loadedWell_iff obj hvalid hconfig, fun config config' hconfig hconfig' s hs hlookup => ?_,
    fun target hsame => unpickle_pickle obj target hsame hvalid⟩
  rw [unpickle_attrs obj hs hconfig, unpickle_attrs obj hs hconfig', hlookup]

/-! ### A port that is out of range -/

/-- Checks with numbers in ASCII, no folders and no expressions. -/
def plainChecks : SettingChecks where
  int := readInt
  isdir _ := false
  isIPAddress _ := false
  regexMatch _ _ := .ok false
  int_strInt := readInt_strInt

def noSettings : PickledSettings := ⟨[], fun _ => .str [], List.nodup_nil⟩

/-- The declaration of the OR port. -/
def portSettings : PickledSettings :=
  noSettings.addAttribute "orPort".toList (.int 80) (some (.ints 1 65535)) "OR Port".toList

theorem portSettings_valid : ∀ s ∈ portSettings.settings, s.Valid plainChecks (portSettings.attrs s.name) := by
  intro s hs
  have hmem : s ∈ [(⟨"orPort".toList, .int 80, .ints 1 65535⟩ : Setting)] := hs
  rw [List.mem_singleton.mp hmem]
  exact ⟨80, by decide, by decide, by decide⟩

theorem settings_loadedWell_iff_port :
    (portSettings.LoadedWell plainChecks [("orPort".toList, "443".toList)] ↔
      ∀ s ∈ portSettings.settings, ∀ loaded, List.lookup s.name [("orPort".toList, "443".toList)] = some loaded →
        s.Accepts plainChecks loaded) ∧
    ∀ s ∈ portSettings.settings,
      (portSettings.unpickle plainChecks portSettings.pickle).attrs s.name = portSettings.attrs s.name :=
  ⟨(settings_loadedWell_iff plainChecks portSettings portSettings_valid).1 _ (List.nodup_singleton _),
    (settings_loadedWell_iff plainChecks portSettings portSettings_valid).2.2 portSettings rfl⟩

/-- A number above the range is shown as a bad value and assigned. -/
theorem unpickle_assigns_rejected :
    (∀ s ∈ portSettings.settings, s.Valid plainChecks s.default) ∧
      (portSettings.unpickle plainChecks [("orPort".toList, "70000".toList)]).attrs "orPort".toList = .int 70000 ∧
      (portSettings.unpickle plainChecks [("orPort".toList, "http".toList)]).attrs "orPort".toList =
        .str "http".toList ∧
      ¬portSettings.LoadedWell plainChecks [("orPort".toList, "70000".toList)] := by
  have hassigned : (portSettings.unpickle plainChecks [("orPort".toList, "70000".toList)]).attrs "orPort".toList =
      .int 70000 := by decide
  refine ⟨?_, hassigned, by decide, fun hwell => ?_⟩
  · intro s hs
    have hmem : s ∈ [(⟨"orPort".toList, .int 80, .ints 1 65535⟩ : Setting)] := hs
    rw [List.mem_singleton.mp hmem]
    exact ⟨80, rfl, by decide, by decide⟩
  · obtain ⟨n, hn, -, hhigh⟩ := (hwell ⟨"orPort".toList, .int 80, .ints 1 65535⟩ List.mem_cons_self).1
    rw [hassigned] at hn
    cases hn
    revert hhigh
    decide

end PickledSettings

end BitBlinder.Applications
