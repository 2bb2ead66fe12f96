import BitBlinder.PyText
import Mathlib.Data.List.Nodup
import Mathlib.Data.List.Sort

/-!
# Events as lines of a log

The event classes of `serverCommon/Events.py` with `save` and `load`, and `load_event` of
`EventLogging.py`. The values of a line are not quoted, and the decoder finds the end of a
value by the last space in front of the next `=`. It gets every value back, and its type
from calling the type of the attribute, which makes any boolean `True`.
-/

namespace BitBlinder.Events

set_option autoImplicit false

open PyText

/-! ### Values -/

inductive ValueType where
  | str
  | int
  | bool
  deriving DecidableEq

inductive Value where
  | str (text : Text)
  | int (n : Int)
  | bool (b : Bool)
  deriving DecidableEq

namespace Value

def type : Value → ValueType
  | str _ => .str
  | int _ => .int
  | bool _ => .bool

/-- `str` of a value. -/
def text : Value → Text
  | str text => text
  | int n => strInt n
  | bool true => "True".toList
  | bool false => "False".toList

end Value

/-- The call of a type with a string. A string that is not empty is true. -/
def ValueType.call (text : Text) : ValueType → PyExcept Value
  | str => .ok (.str text)
  | int => (readInt text).map Value.int
  | bool => .ok (.bool (text ≠ []))

/-! ### Event classes -/

abbrev Attrs := List (Text × Value)

inductive EventType where
  | serverEvent
  | individualEvent
  | aggregateEvent
  | emailSent
  | emailOpened
  | emailLinkVisit
  | accountCreated
  | unsubscribed
  | serverDown
  | bankLogin
  | bankPayment
  | bankRequest
  | bankDeposit
  | cpuUsage
  deriving DecidableEq

namespace EventType

def all : List EventType :=
  [serverEvent, individualEvent, aggregateEvent, emailSent, emailOpened, emailLinkVisit, accountCreated, unsubscribed,
    serverDown, bankLogin, bankPayment, bankRequest, bankDeposit, cpuUsage]

def name : EventType → Text
  | serverEvent => "ServerEvent".toList
  | individualEvent => "IndividualEvent".toList
  | aggregateEvent => "AggregateEvent".toList
  | emailSent => "EmailSent".toList
  | emailOpened => "EmailOpened".toList
  | emailLinkVisit => "EmailLinkVisit".toList
  | accountCreated => "AccountCreated".toList
  | unsubscribed => "Unsubscribed".toList
  | serverDown => "ServerDown".toList
  | bankLogin => "BankLogin".toList
  | bankPayment => "BankPayment".toList
  | bankRequest => "BankRequest".toList
  | bankDeposit => "BankDeposit".toList
  | cpuUsage => "CpuUsage".toList

/-- The attributes that the constructor sets, next to the name and the time. -/
def attributes : EventType → Attrs
  | serverEvent | individualEvent => []
  | aggregateEvent | bankPayment | bankRequest | bankDeposit => [("source".toList, .str []), ("amount".toList, .int 0)]
  | emailSent => [("address".toList, .str []), ("hexkey".toList, .str []), ("variant".toList, .str [])]
  | emailOpened => [("hexkey".toList, .str [])]
  | emailLinkVisit => [("hexkey".toList, .str []), ("os".toList, .str [])]
  | accountCreated => [("username".toList, .str []), ("hexkey".toList, .str []), ("mailinglist".toList, .bool false)]
  | unsubscribed => [("address".toList, .str [])]
  | serverDown => [("url".toList, .str [])]
  | bankLogin => [("username".toList, .str [])]
  | cpuUsage => [("usage".toList, .str [])]

def eventTime : Text := "eventTime".toList

/-- The attributes of a new event. -/
def new (t : EventType) (now : Int) : Attrs := t.attributes ++ [(eventTime, .int now)]

def types (attrs : Attrs) : List (Text × ValueType) := attrs.map fun a => (a.1, a.2.type)

/-- `eval` of the name of a class. -/
def ofName (text : Text) : Option EventType := all.find? fun t => t.name = text

end EventType

/-- An event of which the attributes have the types that its class declares. -/
structure ServerEvent where
  eventType : EventType
  attrs : Attrs
  typed : EventType.types attrs = EventType.types (eventType.new 0)

/-! ### Saving -/

/-- The order of strings. -/
def keyLe : Text → Text → Bool
  | [], _ => true
  | _ :: _, [] => false
  | a :: s, b :: t => a.toNat < b.toNat || (a = b && keyLe s t)

/-- The keys are sorted. -/
def sorted (attrs : Attrs) : Attrs := attrs.insertionSort fun a b => keyLe a.1 b.1

def saveAttr (data : Text) (a : Text × Value) : PyExcept Text :=
  if '=' ∈ a.2.text then .error (.assertionError "'=' is not allowed in event strings!")
  else if '\n' ∈ a.2.text then .error (.assertionError "newlines are not allowed in event strings!")
  else .ok (data ++ ' ' :: a.1 ++ '=' :: a.2.text)

def ServerEvent.save (e : ServerEvent) : PyExcept Text := (sorted e.attrs).foldlM saveAttr e.eventType.name

/-! ### Loading -/

/-- The groups of `^(.+?)=([^=]*)(.*)$` in a string without newlines. -/
def valueRegex : Text → Option (Text × Text × Text)
  | [] => none
  | c :: s =>
    match s.dropWhile (· ≠ '=') with
    | [] => none
    | _ :: after => some (c :: s.takeWhile (· ≠ '='), after.takeWhile (· ≠ '='), after.dropWhile (· ≠ '='))

/-- `rsplit(" ", 1)`, where it gives two parts. -/
def rsplit (s : Text) : Option (Text × Text) :=
  if ' ' ∈ s then
    some (((s.reverse.dropWhile (· ≠ ' ')).drop 1).reverse, (s.reverse.takeWhile (· ≠ ' ')).reverse)
  else none

def getattr (attrs : Attrs) (key : Text) : PyExcept Value :=
  match attrs.find? fun a => a.1 = key with
  | some a => .ok a.2
  | none => .error .attributeError

def setattr (key : Text) (value : Value) (attrs : Attrs) : Attrs :=
  attrs.map fun a => if a.1 = key then (key, value) else a

def loadAttr (key value : Text) (attrs : Attrs) : PyExcept Attrs := do
  let attr ← getattr attrs key
  let value ← attr.type.call value
  return setattr key value attrs

/-- Each round takes a key at least, so the length is enough. -/
def load : Nat → Text → Attrs → PyExcept Attrs
  | _, [], attrs => .ok attrs
  | 0, _ :: _, attrs => .ok attrs
  | fuel + 1, data, attrs =>
    match valueRegex data with
    | none => .error .attributeError
    | some (key, middleData, []) => do
      let attrs ← loadAttr key middleData attrs
      load fuel [] attrs
    | some (key, middleData, restOfData) =>
      match rsplit middleData with
      | none => .error (.valueError "need more than 1 value to unpack")
      | some (value, nextKey) => do
        let attrs ← loadAttr key value attrs
        load fuel (nextKey ++ restOfData) attrs

/-- `now` is the time at which the line is read. -/
def loadEvent (now : Int) (line : Text) : PyExcept (EventType × Attrs) :=
  let data := line.filter (· ≠ '\n')
  if ' ' ∉ data then .error (.valueError "need more than 1 value to unpack")
  else
    match EventType.ofName (data.takeWhile (· ≠ ' ')) with
    | none => .error .attributeError
    | some t => do
      let rest := (data.dropWhile (· ≠ ' ')).drop 1
      let attrs ← load rest.length rest (t.new now)
      return (t, attrs)

/-! ### Values come back -/

/-- What is left of a value whose type is called with its text. -/
def Value.reloaded : Value → Value
  | .bool _ => .bool true
  | v => v

theorem Value.type_reloaded (v : Value) : v.reloaded.type = v.type := by
  cases v <;> rfl

theorem Value.reloaded_eq_iff (v : Value) : v.reloaded = v ↔ v ≠ .bool false := by
  cases v with
  | str text => simp [reloaded]
  | int n => simp [reloaded]
  | bool b => cases b <;> simp [reloaded]

theorem call_text (v : Value) : v.type.call v.text = .ok v.reloaded := by
  cases v with
  | str text => rfl
  | int n =>
    unfold Value.type ValueType.call Value.text
    dsimp only
    rw [readInt_strInt]
    rfl
  | bool b => cases b <;> rfl

/-! ### Where a value ends -/

/-- A key that an attribute may have. -/
structure Key (key : Text) : Prop where
  ne_nil : key ≠ []
  no_equals : '=' ∉ key
  no_space : ' ' ∉ key
  no_newline : '\n' ∉ key

theorem valueRegex_key {key : Text} (hkey : Key key) (after : Text) :
    valueRegex (key ++ '=' :: after) = some (key, after.takeWhile (· ≠ '='), after.dropWhile (· ≠ '=')) := by
  obtain ⟨c, s, rfl⟩ := List.exists_cons_of_ne_nil hkey.ne_nil
  have hs : '=' ∉ s := fun h => hkey.no_equals (List.mem_cons_of_mem c h)
  rw [List.cons_append, valueRegex, dropWhile_append_cons hs, takeWhile_append_cons hs]

theorem rsplit_append {nextKey : Text} (h : ' ' ∉ nextKey) (value : Text) :
    rsplit (value ++ ' ' :: nextKey) = some (value, nextKey) := by
  have hreverse : (value ++ ' ' :: nextKey).reverse = nextKey.reverse ++ ' ' :: value.reverse := by
    rw [List.reverse_append, List.reverse_cons, List.append_assoc, List.singleton_append]
  have hmem : ' ' ∉ nextKey.reverse := fun hmem => h (List.mem_reverse.mp hmem)
  unfold rsplit
  rw [if_pos (List.mem_append_right _ List.mem_cons_self), hreverse, dropWhile_append_cons hmem,
    takeWhile_append_cons hmem, List.drop_one, List.tail_cons, List.reverse_reverse, List.reverse_reverse]

/-! ### Attributes -/

section
variable {attrs : Attrs} {key : Text} {value : Value}

theorem types_setattr (hnodup : (attrs.map Prod.fst).Nodup) (h : (key, value.type) ∈ EventType.types attrs) :
    EventType.types (setattr key value attrs) = EventType.types attrs := by
  unfold EventType.types setattr
  rw [List.map_map]
  apply List.map_congr_left
  intro a ha
  rw [Function.comp_apply]
  split
  · rename_i hkey
    obtain ⟨b, hb, heq⟩ := List.mem_map.mp h
    have hfst : b.1 = a.1 := (Prod.mk.inj heq).1.trans hkey.symm
    obtain rfl := List.inj_on_of_nodup_map hnodup hb ha hfst
    exact heq.symm
  · rfl

theorem getattr_type {t : ValueType} (hnodup : (attrs.map Prod.fst).Nodup) (h : (key, t) ∈ EventType.types attrs) :
    ∃ v, getattr attrs key = .ok v ∧ v.type = t := by
  obtain ⟨a, ha, heq⟩ := List.mem_map.mp h
  obtain ⟨rfl, rfl⟩ := Prod.mk.inj heq
  have hfind : ∃ b, (attrs.find? fun b => b.1 = a.1) = some b := by
    rw [← Option.isSome_iff_exists, List.find?_isSome]
    exact ⟨a, ha, decide_eq_true rfl⟩
  obtain ⟨b, hb⟩ := hfind
  have hfound := List.find?_some hb
  have hkey : b.1 = a.1 := of_decide_eq_true hfound
  obtain rfl := List.inj_on_of_nodup_map hnodup (List.mem_of_find?_eq_some hb) ha hkey
  exact ⟨b.2, by rw [getattr, hb], rfl⟩

/-- The text of a value is read back into its attribute. -/
theorem loadAttr_text (hnodup : (attrs.map Prod.fst).Nodup) (h : (key, value.type) ∈ EventType.types attrs) :
    loadAttr key value.text attrs = .ok (setattr key value.reloaded attrs) := by
  obtain ⟨v, hv, htype⟩ := getattr_type hnodup h
  unfold loadAttr
  rw [hv, PyExcept.ok_bind, htype, call_text]
  rfl

end

/-! ### Lines -/

/-- The attributes with a space between one and the next. -/
def joined : Attrs → Text
  | [] => []
  | [a] => a.1 ++ '=' :: a.2.text
  | a :: b :: attrs => a.1 ++ '=' :: (a.2.text ++ ' ' :: joined (b :: attrs))

def setattrs (fields attrs : Attrs) : Attrs := fields.foldl (fun attrs a => setattr a.1 a.2.reloaded attrs) attrs

/-- What the lines of a class are made of: attributes with keys, and values without an equals sign. -/
structure Loadable (fields : Attrs) (columns : List (Text × ValueType)) : Prop where
  key : ∀ a ∈ fields, Key a.1
  no_equals : ∀ a ∈ fields, '=' ∉ a.2.text
  column : ∀ a ∈ fields, (a.1, a.2.type) ∈ columns

theorem Loadable.tail {a : Text × Value} {fields : Attrs} {columns : List (Text × ValueType)}
    (h : Loadable (a :: fields) columns) : Loadable fields columns where
  key := fun b hb => h.key b (List.mem_cons_of_mem a hb)
  no_equals := fun b hb => h.no_equals b (List.mem_cons_of_mem a hb)
  column := fun b hb => h.column b (List.mem_cons_of_mem a hb)

theorem keys_types (attrs : Attrs) : (EventType.types attrs).map Prod.fst = attrs.map Prod.fst := by
  unfold EventType.types
  rw [List.map_map]
  rfl

theorem joined_cons (a : Text × Value) (fields : Attrs) : ∃ after, joined (a :: fields) = a.1 ++ '=' :: after := by
  cases fields with
  | nil => exact ⟨_, rfl⟩
  | cons b fields => exact ⟨_, rfl⟩

theorem load_last {data key value : Text} (h : valueRegex data = some (key, value, [])) (fuel : Nat) (attrs : Attrs) :
    load (fuel + 1) data attrs = loadAttr key value attrs >>= fun attrs => load fuel [] attrs := by
  cases data with
  | nil => cases h
  | cons c data =>
    rw [load, h]
    exact List.cons_ne_nil c data

theorem load_next {data key middleData : Text} {c : Char} {after : Text}
    (h : valueRegex data = some (key, middleData, c :: after)) (fuel : Nat) (attrs : Attrs) :
    load (fuel + 1) data attrs =
      match rsplit middleData with
      | none => .error (.valueError "need more than 1 value to unpack")
      | some (value, nextKey) => loadAttr key value attrs >>= fun attrs => load fuel (nextKey ++ c :: after) attrs := by
  cases data with
  | nil => cases h
  | cons d data =>
    rw [load, h]
    exact List.cons_ne_nil d data

/-- The decoder takes the attributes off the line one after the other. -/
theorem load_joined {columns : List (Text × ValueType)} (hcolumns : (columns.map Prod.fst).Nodup) {fields : Attrs}
    (h : Loadable fields columns) {fuel : Nat} (hfuel : fields.length ≤ fuel) {attrs : Attrs}
    (htypes : EventType.types attrs = columns) : load fuel (joined fields) attrs = .ok (setattrs fields attrs) := by
  induction fields generalizing fuel attrs with
  | nil => cases fuel <;> rfl
  | cons a fields ih =>
    obtain ⟨fuel, rfl⟩ : ∃ n, fuel = n + 1 := ⟨fuel - 1, by rw [List.length_cons] at hfuel; omega⟩
    have hkey := h.key a List.mem_cons_self
    have hvalue := h.no_equals a List.mem_cons_self
    have hnodup : (attrs.map Prod.fst).Nodup := by
      rw [← keys_types, htypes]
      exact hcolumns
    have hcolumn : (a.1, a.2.type) ∈ EventType.types attrs := htypes ▸ h.column a List.mem_cons_self
    have hreloaded : (a.1, a.2.reloaded.type) ∈ EventType.types attrs := by
      rw [Value.type_reloaded]
      exact hcolumn
    have hload := loadAttr_text hnodup hcolumn
    have hfuel : fields.length ≤ fuel := Nat.le_of_succ_le_succ hfuel
    have hnext := ih h.tail hfuel ((types_setattr hnodup hreloaded).trans htypes)
    cases fields with
    | nil =>
      have hregex : valueRegex (joined [a]) = some (a.1, a.2.text, []) := by
        rw [joined, valueRegex_key hkey, takeWhile_not_mem hvalue, dropWhile_not_mem hvalue]
      rw [load_last hregex, hload]
      exact hnext
    | cons b fields =>
      have hnextKey := h.key b (List.mem_cons_of_mem a List.mem_cons_self)
      obtain ⟨after, hafter⟩ := joined_cons b fields
      have hregex : valueRegex (joined (a :: b :: fields)) = some (a.1, a.2.text ++ ' ' :: b.1, '=' :: after) := by
        have hmiddle : '=' ∉ a.2.text ++ ' ' :: b.1 := by
          simp [hvalue, hnextKey.no_equals]
        rw [joined, valueRegex_key hkey, hafter, ← List.cons_append, ← List.append_assoc,
          takeWhile_append_cons hmiddle, dropWhile_append_cons hmiddle]
      rw [load_next hregex, rsplit_append hnextKey.no_space]
      dsimp only
      rw [hload, PyExcept.ok_bind, ← hafter]
      exact hnext

/-! ### All attributes -/

/-- The attribute of a key as it is after the fields were set. -/
def found (fields : Attrs) (key : Text) : Text × Value :=
  match fields.find? fun a => a.1 = key with
  | some a => (a.1, a.2.reloaded)
  | none => (key, .str [])

theorem setattrs_eq {fields : Attrs} (hnodup : (fields.map Prod.fst).Nodup) (attrs : Attrs) :
    setattrs fields attrs = attrs.map fun a => if a.1 ∈ fields.map Prod.fst then found fields a.1 else a := by
  induction fields generalizing attrs with
  | nil => exact (List.map_id _).symm
  | cons f fields ih =>
    rw [List.map_cons, List.nodup_cons] at hnodup
    have hstep : setattrs (f :: fields) attrs = setattrs fields (setattr f.1 f.2.reloaded attrs) := rfl
    rw [hstep, ih hnodup.2]
    unfold setattr
    rw [List.map_map]
    apply List.map_congr_left
    intro a _
    rw [Function.comp_apply]
    by_cases hkey : a.1 = f.1
    · have hfound : found (f :: fields) a.1 = (f.1, f.2.reloaded) := by
        have hfind : ((f :: fields).find? fun b => b.1 = a.1) = some f :=
          List.find?_cons_of_pos (decide_eq_true hkey.symm)
        unfold found
        rw [hfind]
      rw [if_pos hkey, if_neg hnodup.1, List.map_cons, if_pos (List.mem_cons.mpr (Or.inl hkey)), hfound]
    · have hfound : found (f :: fields) a.1 = found fields a.1 := by
        have hfind : ((f :: fields).find? fun b => b.1 = a.1) = fields.find? fun b => b.1 = a.1 :=
          List.find?_cons_of_neg fun heq => hkey (of_decide_eq_true heq).symm
        unfold found
        rw [hfind]
      rw [if_neg hkey, List.map_cons, hfound]
      by_cases hmem : a.1 ∈ fields.map Prod.fst
      · rw [if_pos hmem, if_pos (List.mem_cons_of_mem _ hmem)]
      · rw [if_neg hmem, if_neg fun h => hmem ((List.mem_cons.mp h).resolve_left hkey)]

/-- In whichever order the attributes of an event are set, each gets its value. -/
theorem setattrs_perm {fields attrs attrs' : Attrs} (hperm : fields.Perm attrs') (hnodup : (attrs'.map Prod.fst).Nodup)
    (hkeys : attrs.map Prod.fst = attrs'.map Prod.fst) :
    setattrs fields attrs = attrs'.map fun a => (a.1, a.2.reloaded) := by
  have hfields : (fields.map Prod.fst).Nodup := (hperm.map Prod.fst).nodup_iff.mpr hnodup
  have hall : ∀ a ∈ attrs, a.1 ∈ fields.map Prod.fst := by
    intro a ha
    refine (hperm.map Prod.fst).symm.subset ?_
    rw [← hkeys]
    exact List.mem_map_of_mem ha
  have hfound : ∀ a ∈ attrs', found fields a.1 = (a.1, a.2.reloaded) := by
    intro a ha
    have hmem := hperm.symm.subset ha
    obtain ⟨b, hb⟩ : ∃ b, (fields.find? fun b => b.1 = a.1) = some b := by
      rw [← Option.isSome_iff_exists, List.find?_isSome]
      exact ⟨a, hmem, decide_eq_true rfl⟩
    have hkey := List.find?_some hb
    obtain rfl := List.inj_on_of_nodup_map hfields (List.mem_of_find?_eq_some hb) hmem (of_decide_eq_true hkey)
    unfold found
    rw [hb]
  calc setattrs fields attrs = attrs.map fun a => if a.1 ∈ fields.map Prod.fst then found fields a.1 else a :=
        setattrs_eq hfields attrs
    _ = attrs.map fun a => found fields a.1 := List.map_congr_left fun a ha => if_pos (hall a ha)
    _ = (attrs.map Prod.fst).map (found fields) := by
      rw [List.map_map]
      rfl
    _ = attrs'.map fun a => found fields a.1 := by
      rw [hkeys, List.map_map]
      rfl
    _ = attrs'.map fun a => (a.1, a.2.reloaded) := List.map_congr_left hfound

/-! ### The line of an event -/

def Plain (a : Text × Value) : Prop := '=' ∉ a.2.text ∧ '\n' ∉ a.2.text

instance (a : Text × Value) : Decidable (Plain a) := inferInstanceAs (Decidable (_ ∧ _))

theorem saveAttrs_of_plain {fields : Attrs} (h : ∀ a ∈ fields, Plain a) (data : Text) :
    fields.foldlM saveAttr data = .ok (data ++ fields.flatMap fun a => ' ' :: (a.1 ++ '=' :: a.2.text)) := by
  induction fields generalizing data with
  | nil => exact congrArg Except.ok (List.append_nil data).symm
  | cons a fields ih =>
    obtain ⟨hequals, hnewline⟩ := h a List.mem_cons_self
    have hstep : saveAttr data a = .ok (data ++ ' ' :: (a.1 ++ '=' :: a.2.text)) := by
      unfold saveAttr
      rw [if_neg hequals, if_neg hnewline, List.append_assoc]
      rfl
    rw [List.foldlM_cons, hstep, PyExcept.ok_bind, ih fun b hb => h b (List.mem_cons_of_mem a hb), List.flatMap_cons,
      List.append_assoc]

theorem space_joined {fields : Attrs} (h : fields ≠ []) :
    (fields.flatMap fun a => ' ' :: (a.1 ++ '=' :: a.2.text)) = ' ' :: joined fields := by
  induction fields with
  | nil => exact absurd rfl h
  | cons a fields ih =>
    cases fields with
    | nil => exact List.append_nil _
    | cons b fields =>
      rw [List.flatMap_cons, ih (List.cons_ne_nil b fields), joined, List.cons_append, List.append_assoc, List.cons_append]

theorem length_joined (fields : Attrs) : fields.length ≤ (joined fields).length := by
  induction fields with
  | nil => exact Nat.le_refl 0
  | cons a fields ih =>
    cases fields with
    | nil =>
      rw [joined]
      simp only [List.length_append, List.length_cons, List.length_nil]
      omega
    | cons b fields =>
      rw [joined]
      simp only [List.length_append, List.length_cons] at ih ⊢
      omega

namespace EventType

theorem keys_new (t : EventType) : ∀ key ∈ (t.new 0).map Prod.fst, Key key := by
  have hkeys : ∀ key ∈ (t.new 0).map Prod.fst, key ≠ [] ∧ '=' ∉ key ∧ ' ' ∉ key ∧ '\n' ∉ key := by
    cases t <;> decide
  intro key hkey
  obtain ⟨hne, hequals, hspace, hnewline⟩ := hkeys key hkey
  exact ⟨hne, hequals, hspace, hnewline⟩

theorem nodup_new (t : EventType) : ((t.new 0).map Prod.fst).Nodup := by
  cases t <;> decide

theorem nodup_columns (t : EventType) : ((types (t.new 0)).map Prod.fst).Nodup := by
  rw [keys_types]
  exact t.nodup_new

theorem name_plain (t : EventType) : ' ' ∉ t.name ∧ '\n' ∉ t.name := by
  cases t <;> decide

theorem ofName_name (t : EventType) : ofName t.name = some t := by
  cases t <;> decide

theorem types_new (t : EventType) (now : Int) : types (t.new now) = types (t.new 0) := by
  unfold types new
  rw [List.map_append, List.map_append]
  rfl

end EventType

namespace ServerEvent
variable (e : ServerEvent)

theorem keys_attrs : e.attrs.map Prod.fst = (e.eventType.new 0).map Prod.fst := by
  rw [← keys_types, e.typed, keys_types]

theorem attrs_ne_nil : e.attrs ≠ [] := by
  intro h
  have hkeys := congrArg List.length e.keys_attrs
  rw [h] at hkeys
  unfold EventType.new at hkeys
  rw [List.map_append, List.length_append] at hkeys
  simp at hkeys

theorem sorted_perm : (sorted e.attrs).Perm e.attrs := List.perm_insertionSort _ _

/-- The attributes without the name of the event. -/
theorem save_eq (h : ∀ a ∈ e.attrs, Plain a) : e.save = .ok (e.eventType.name ++ ' ' :: joined (sorted e.attrs)) := by
  have hplain : ∀ a ∈ sorted e.attrs, Plain a := fun a ha => h a (e.sorted_perm.subset ha)
  have hne : sorted e.attrs ≠ [] := fun heq => e.attrs_ne_nil (List.perm_nil.mp (heq ▸ e.sorted_perm.symm))
  unfold save
  rw [saveAttrs_of_plain hplain, space_joined hne]

theorem loadable (h : ∀ a ∈ e.attrs, Plain a) : Loadable (sorted e.attrs) (EventType.types (e.eventType.new 0)) where
  key := fun a ha => e.eventType.keys_new a.1 (e.keys_attrs ▸ List.mem_map_of_mem (e.sorted_perm.subset ha))
  no_equals := fun a ha => (h a (e.sorted_perm.subset ha)).1
  column := fun _ ha => e.typed ▸ List.mem_map_of_mem (f := fun b => (b.1, b.2.type)) (e.sorted_perm.subset ha)

theorem joined_no_newline {fields : Attrs} (h : ∀ a ∈ fields, Key a.1 ∧ Plain a) : '\n' ∉ joined fields := by
  induction fields with
  | nil => exact List.not_mem_nil
  | cons a fields ih =>
    obtain ⟨hkey, hplain⟩ := h a List.mem_cons_self
    have hrest := ih fun b hb => h b (List.mem_cons_of_mem a hb)
    cases fields with
    | nil => simp [joined, hkey.no_newline, hplain.2]
    | cons b fields => simp [joined, hkey.no_newline, hplain.2, hrest]

/-- What is read from the line of an event. -/
theorem loadEvent_line (h : ∀ a ∈ e.attrs, Plain a) (now : Int) :
    loadEvent now (e.eventType.name ++ ' ' :: joined (sorted e.attrs) ++ ['\n']) =
      .ok (e.eventType, e.attrs.map fun a => (a.1, a.2.reloaded)) := by
  have hloadable := e.loadable h
  have hnewline : '\n' ∉ e.eventType.name ++ ' ' :: joined (sorted e.attrs) := by
    have hjoined := joined_no_newline fun a ha => ⟨hloadable.key a ha, h a (e.sorted_perm.subset ha)⟩
    simp [e.eventType.name_plain.2, hjoined]
  have hdata : (e.eventType.name ++ ' ' :: joined (sorted e.attrs) ++ ['\n']).filter (· ≠ '\n') =
      e.eventType.name ++ ' ' :: joined (sorted e.attrs) := by
    rw [List.filter_append, List.filter_eq_self.mpr (ne_of_not_mem hnewline)]
    exact List.append_nil _
  have hload := load_joined e.eventType.nodup_columns hloadable (length_joined (sorted e.attrs))
    (e.eventType.types_new now)
  have hkeys : (e.eventType.new now).map Prod.fst = e.attrs.map Prod.fst := by
    rw [← keys_types, e.eventType.types_new, keys_types, e.keys_attrs]
  have hnodup : (e.attrs.map Prod.fst).Nodup := by
    rw [e.keys_attrs]
    exact e.eventType.nodup_new
  unfold loadEvent
  rw [hdata]
  dsimp only
  rw [if_neg (not_not_intro (List.mem_append_right _ List.mem_cons_self)),
    takeWhile_append_cons e.eventType.name_plain.1, dropWhile_append_cons e.eventType.name_plain.1,
    EventType.ofName_name]
  dsimp only
  rw [List.drop_one, List.tail_cons, hload, setattrs_perm e.sorted_perm hnodup hkeys]
  rfl

end ServerEvent

/-- An event comes back from its line if and only if none of its values is `False`. -/
theorem loadEvent_save_iff (e : ServerEvent) (now : Int) (h : ∀ a ∈ e.attrs, Plain a) :
    ∃ line, e.save = .ok line ∧
      (loadEvent now (line ++ ['\n']) = .ok (e.eventType, e.attrs) ↔ ∀ a ∈ e.attrs, a.2 ≠ .bool false) := by
  refine ⟨_, e.save_eq h, ?_⟩
  rw [e.loadEvent_line h now]
  constructor
  · intro heq a ha
    have hmap := (Prod.mk.inj (Except.ok.inj heq)).2
    have hattr := List.map_inj_left.mp (hmap.trans (List.map_id e.attrs).symm) a ha
    exact (Value.reloaded_eq_iff a.2).mp (congrArg Prod.snd hattr)
  · intro hvalues
    have hmap : e.attrs.map (fun a => (a.1, a.2.reloaded)) = e.attrs := by
      refine (List.map_congr_left fun a ha => ?_).trans (List.map_id _)
      exact Prod.ext rfl ((Value.reloaded_eq_iff a.2).mpr (hvalues a ha))
    rw [hmap]

def exampleLogin : ServerEvent where
  eventType := .bankLogin
  attrs := [("username".toList, .str " a  username ".toList), ("eventTime".toList, .int (-5))]
  typed := by decide

theorem exampleLogin_plain : ∀ a ∈ exampleLogin.attrs, Plain a := by decide

theorem loadEvent_save_login :
    ∃ line, exampleLogin.save = .ok line ∧
      (loadEvent 7 (line ++ ['\n']) = .ok (exampleLogin.eventType, exampleLogin.attrs) ↔
        ∀ a ∈ exampleLogin.attrs, a.2 ≠ .bool false) :=
  loadEvent_save_iff exampleLogin 7 exampleLogin_plain

/-- An account that is not on the mailing list. -/
def exampleAccount : ServerEvent where
  eventType := .accountCreated
  attrs := [("username".toList, .str "kans".toList), ("hexkey".toList, .str []), ("mailinglist".toList, .bool false),
    ("eventTime".toList, .int 1250000000)]
  typed := by decide

theorem mailinglist_is_true :
    ¬∃ line, exampleAccount.save = .ok line ∧
      loadEvent 7 (line ++ ['\n']) = .ok (exampleAccount.eventType, exampleAccount.attrs) := by
  have hplain : ∀ a ∈ exampleAccount.attrs, Plain a := by decide
  rintro ⟨line, hsave, hload⟩
  rw [exampleAccount.save_eq hplain] at hsave
  rw [← Except.ok.inj hsave, exampleAccount.loadEvent_line hplain] at hload
  exact absurd (Prod.mk.inj (Except.ok.inj hload)).2 (by decide)

end BitBlinder.Events
