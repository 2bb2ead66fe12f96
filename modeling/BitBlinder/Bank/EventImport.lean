import BitBlinder.Totals
import BitBlinder.Bank.Events
import Mathlib.Logic.Function.Basic

/-!
# Importing a log as it grows

`parse_events` with the `insert` of the event classes. `timestamp` is what the database
has for a time of `int_to_ctime`, and raises for a time without a year. An aggregate event
is added to the row of its hour and source. `inserted` lists the events that were inserted,
and no function reads it; what was inserted before an exception is not told.
-/

namespace BitBlinder.Events

set_option autoImplicit false

open PyText

/-- The class does its own `insert`, has that of `AggregateEvent` or has none. -/
inductive InsertKind where
  | individual
  | aggregate
  | none
  deriving DecidableEq

def EventType.kind : EventType → InsertKind
  | serverEvent => .none
  | aggregateEvent | bankPayment | bankRequest | bankDeposit => .aggregate
  | individualEvent | emailSent | emailOpened | emailLinkVisit | accountCreated | unsubscribed | serverDown | bankLogin
  | cpuUsage => .individual

/-- The attributes of an aggregate event. -/
structure Aggregate where
  eventTime : Int
  source : Text
  amount : Int

def _AGGREGATE_INTERVAL : Int := 60 * 60

def Aggregate.exactTime (a : Aggregate) : Int := a.eventTime - a.eventTime % _AGGREGATE_INTERVAL

def getTime (attrs : Attrs) : PyExcept Int :=
  match getattr attrs EventType.eventTime with
  | .ok (.int eventTime) => .ok eventTime
  | _ => .error .attributeError

def aggregateOf (attrs : Attrs) : PyExcept Aggregate :=
  match getattr attrs EventType.eventTime, getattr attrs "source".toList, getattr attrs "amount".toList with
  | .ok (.int eventTime), .ok (.str source), .ok (.int amount) => .ok { eventTime, source, amount }
  | _, _, _ => .error .attributeError

/-- A larger number is a `long`. -/
def isIntType (n : Int) : Bool := -2 ^ 63 ≤ n && n < 2 ^ 63

/-- Each event class has a table. -/
structure Database (τ : Type) where
  individual : EventType → List (τ × Attrs)
  aggregate : EventType → List ((τ × Text) × Int)
  inserted : List (EventType × Attrs)

section
variable {τ : Type} [DecidableEq τ] (timestamp : Int → PyExcept τ)

namespace Database

def empty : Database τ where
  individual := fun _ => []
  aggregate := fun _ => []
  inserted := []

def insertRow (t : EventType) (attrs : Attrs) (db : Database τ) : PyExcept (Database τ) := do
  let eventTime ← getTime attrs
  let time ← timestamp eventTime
  return { db with
    individual := Function.update db.individual t (db.individual t ++ [(time, attrs.filter (·.1 ≠ EventType.eventTime))]) }

/-- `AggregateEvent.insert`. -/
def insertAggregate (t : EventType) (a : Aggregate) (db : Database τ) : PyExcept (Database τ) :=
  if isIntType a.eventTime = false then
    .error (.assertionError "eventTime must be an integer number of seconds!")
  else do
    let exactTime ← timestamp a.exactTime
    let numRows := (Totals.rowsOf (exactTime, a.source) (db.aggregate t)).length
    if 0 < numRows then
      if numRows ≠ 1 then
        throw (.assertionError "Should never be multiple rows for the same time and source!")
      else
        return { db with
          aggregate := Function.update db.aggregate t (Totals.addTo (exactTime, a.source) a.amount (db.aggregate t)) }
    else
      return { db with
        aggregate := Function.update db.aggregate t (db.aggregate t ++ [((exactTime, a.source), a.amount)]) }

def insert (event : EventType × Attrs) (db : Database τ) : PyExcept (Database τ) := do
  let db ←
    match event.1.kind with
    | .individual => db.insertRow timestamp event.1 event.2
    | .aggregate => do
      let a ← aggregateOf event.2
      db.insertAggregate timestamp event.1 a
    | .none => throw .attributeError
  return { db with inserted := db.inserted ++ [event] }

end Database

/-! ### Reading the file -/

/-- A line with its newline, or what there is of one at the end of the file. -/
def readline (data : Text) : Text × Text :=
  if '\n' ∈ data then (data.takeWhile (· ≠ '\n') ++ ['\n'], (data.dropWhile (· ≠ '\n')).drop 1) else (data, [])

/-- Each round but the last takes a newline at least. -/
def parseLoop (now : Int) (numLines : Nat) :
    Nat → Text → Nat → Option Int → Database τ → PyExcept (Option Int × Nat × Database τ)
  | 0, _, lineNum, earliestTime, db => .ok (earliestTime, lineNum, db)
  | fuel + 1, data, lineNum, earliestTime, db =>
    let (line, rest) := readline data
    let lineNum := lineNum + 1
    if line = [] then .ok (earliestTime, lineNum, db)
    else if '\n' ∉ line then .ok (earliestTime, lineNum, db)
    else if ¬numLines < lineNum then parseLoop now numLines fuel rest lineNum earliestTime db
    else do
      let event ← loadEvent now line
      let time ← getTime event.2
      let db ← db.insert timestamp event
      parseLoop now numLines fuel rest lineNum (some (earliestTime.getD time)) db

/-- The earliest time and the number of lines, with the database. -/
def parseEvents (now : Int) (data : Text) (numLines : Nat) (db : Database τ) : PyExcept (Int × Nat × Database τ) := do
  let (earliestTime, lineNum, db) ← parseLoop timestamp now numLines (data.length + 1) data 0 none db
  return (earliestTime.getD now, lineNum - 1, db)

/-- The file is parsed time after time, each with the number of lines that the last one returned. -/
def imports : List (Int × Text) → Nat → Database τ → PyExcept (Nat × Database τ)
  | [], numLines, db => .ok (numLines, db)
  | (now, data) :: later, numLines, db => do
    let (_, numLines, db) ← parseEvents timestamp now data numLines db
    imports later numLines db

end

/-! ### Lines -/

/-- The lines of a file that have their newline, without it. -/
def completeLines (data : Text) : List Text := (data.splitOn '\n').dropLast

theorem completeLines_of_not_mem {data : Text} (h : '\n' ∉ data) : completeLines data = [] := by
  unfold completeLines
  rw [List.splitOn_eq_singleton h]
  rfl

theorem completeLines_cons {line : Text} (h : '\n' ∉ line) (rest : Text) :
    completeLines (line ++ '\n' :: rest) = line :: completeLines rest := by
  unfold completeLines
  rw [List.splitOn_append_cons_self_of_not_mem h, List.dropLast_cons_of_ne_nil (List.splitOn_ne_nil _ _)]

/-- A file that grows keeps its complete lines. -/
theorem completeLines_append (data more : Text) : completeLines data <+: completeLines (data ++ more) := by
  by_cases hmem : '\n' ∈ data
  · obtain ⟨line, rest, heq, hline⟩ := List.eq_append_cons_of_mem hmem
    have hrest := completeLines_append rest more
    rw [heq, completeLines_cons hline, List.append_assoc, List.cons_append, completeLines_cons hline]
    exact (List.prefix_cons_inj line).mpr hrest
  · rw [completeLines_of_not_mem hmem]
    exact List.nil_prefix
termination_by data.length
decreasing_by
  rw [heq, List.length_append, List.length_cons]
  omega

theorem readline_cons {line : Text} (h : '\n' ∉ line) (rest : Text) :
    readline (line ++ '\n' :: rest) = (line ++ ['\n'], rest) := by
  unfold readline
  rw [if_pos (List.mem_append_right _ List.mem_cons_self), takeWhile_append_cons h, dropWhile_append_cons h]
  rfl

section
variable {τ : Type} [DecidableEq τ] (timestamp : Int → PyExcept τ)

/-- Each of the lines is loaded and inserted. -/
def insertLines (now : Int) : List Text → Option Int → Database τ → PyExcept (Option Int × Database τ)
  | [], earliestTime, db => .ok (earliestTime, db)
  | line :: lines, earliestTime, db => do
    let event ← loadEvent now (line ++ ['\n'])
    let time ← getTime event.2
    let db ← db.insert timestamp event
    insertLines now lines (some (earliestTime.getD time)) db

/-- Both ends of the loop leave the number of the complete lines and one. -/
theorem parseLoop_eq (now : Int) (numLines : Nat) {fuel : Nat} {data : Text} (hfuel : data.length < fuel) (lineNum : Nat)
    (earliestTime : Option Int) (db : Database τ) :
    parseLoop timestamp now numLines fuel data lineNum earliestTime db =
      (insertLines timestamp now ((completeLines data).drop (numLines - lineNum)) earliestTime db).map fun r =>
        (r.1, lineNum + (completeLines data).length + 1, r.2) := by
  induction fuel generalizing data lineNum earliestTime db with
  | zero => exact absurd hfuel (Nat.not_lt_zero _)
  | succ fuel ih =>
    rw [parseLoop]
    by_cases hmem : '\n' ∈ data
    · obtain ⟨line, rest, rfl, hline⟩ := List.eq_append_cons_of_mem hmem
      have hne : line ++ ['\n'] ≠ [] := List.append_ne_nil_of_right_ne_nil _ (List.cons_ne_nil _ _)
      have hlength : rest.length < fuel := by
        rw [List.length_append, List.length_cons] at hfuel
        omega
      rw [readline_cons hline, completeLines_cons hline]
      dsimp only
      rw [if_neg hne, if_neg (not_not_intro (List.mem_append_right _ List.mem_cons_self)), List.length_cons]
      by_cases hskip : numLines < lineNum + 1
      · have hzero : numLines - lineNum = 0 := by omega
        have hrest : numLines - (lineNum + 1) = 0 := by omega
        rw [if_neg (not_not_intro hskip), hzero, List.drop_zero, insertLines]
        cases loadEvent now (line ++ ['\n']) with
        | error e => rfl
        | ok event =>
          rw [PyExcept.ok_bind, PyExcept.ok_bind]
          cases getTime event.2 with
          | error e => rfl
          | ok time =>
            rw [PyExcept.ok_bind, PyExcept.ok_bind]
            cases db.insert timestamp event with
            | error e => rfl
            | ok db =>
              rw [PyExcept.ok_bind, PyExcept.ok_bind, ih hlength, hrest, List.drop_zero]
              congr 1
              funext r
              rw [Nat.add_right_comm lineNum 1, ← Nat.add_assoc lineNum]
      · have hdrop : numLines - lineNum = numLines - (lineNum + 1) + 1 := by omega
        rw [if_pos hskip, ih hlength, hdrop, List.drop_succ_cons]
        congr 1
        funext r
        rw [Nat.add_right_comm lineNum 1, ← Nat.add_assoc lineNum]
    · have hreadline : readline data = (data, []) := if_neg hmem
      rw [hreadline, completeLines_of_not_mem hmem, List.drop_nil]
      dsimp only
      rw [if_pos hmem]
      split <;> rfl

/-- The lines that were not there before are inserted, and all complete lines are counted. -/
theorem parseEvents_eq (now : Int) (data : Text) (numLines : Nat) (db : Database τ) :
    parseEvents timestamp now data numLines db =
      (insertLines timestamp now ((completeLines data).drop numLines) none db).map fun r =>
        (r.1.getD now, (completeLines data).length, r.2) := by
  unfold parseEvents
  rw [parseLoop_eq timestamp now numLines (Nat.lt_succ_self _)]
  rw [Nat.sub_zero]
  cases insertLines timestamp now ((completeLines data).drop numLines) none db with
  | error e => rfl
  | ok r =>
    change Except.ok (r.1.getD now, 0 + (completeLines data).length + 1 - 1, r.2) = _
    rw [Nat.zero_add, Nat.add_sub_cancel]
    rfl

end

/-! ### One row for each hour and source -/

def aggregates (t : EventType) (events : List (EventType × Attrs)) : List Aggregate :=
  events.filterMap fun e => if e.1 = t ∧ t.kind = .aggregate then (aggregateOf e.2).toOption else none

theorem aggregates_append (t : EventType) (events events' : List (EventType × Attrs)) :
    aggregates t (events ++ events') = aggregates t events ++ aggregates t events' := List.filterMap_append ..

theorem aggregates_singleton_self {t : EventType} {attrs : Attrs} {a : Aggregate} (hkind : t.kind = .aggregate)
    (h : aggregateOf attrs = .ok a) : aggregates t [(t, attrs)] = [a] := by
  unfold aggregates
  rw [List.filterMap_cons, if_pos ⟨rfl, hkind⟩, h]
  rfl

theorem aggregates_singleton_of_ne {t t' : EventType} (h : t' = t → t.kind ≠ .aggregate) (attrs : Attrs) :
    aggregates t [(t', attrs)] = [] := by
  unfold aggregates
  rw [List.filterMap_cons, if_neg fun ⟨heq, hkind⟩ => h heq hkind]
  rfl

section
variable {τ : Type} (timestamp : Int → PyExcept τ)

def entryOf (a : Aggregate) : Option ((τ × Text) × Int) :=
  (timestamp a.exactTime).toOption.map fun time => ((time, a.source), a.amount)

/-- The event has an `insert` that does not raise. -/
def Insertable (event : EventType × Attrs) : Prop :=
  (∃ eventTime, getTime event.2 = .ok eventTime ∧ (event.1.kind = .individual → ∃ time, timestamp eventTime = .ok time)) ∧
    match event.1.kind with
    | .individual => True
    | .aggregate => ∃ a time, aggregateOf event.2 = .ok a ∧ isIntType a.eventTime = true ∧ timestamp a.exactTime = .ok time
    | .none => False

def Loads (line : Text) (event : EventType × Attrs) : Prop := ∀ now, loadEvent now (line ++ ['\n']) = .ok event

def WellFormed (line : Text) : Prop := ∃ event, Loads line event ∧ Insertable timestamp event

section
variable {timestamp}

/-- The line of a saved event is well formed if the event that it stands for can be inserted. -/
theorem wellFormed_line (e : ServerEvent) (h : ∀ a ∈ e.attrs, Plain a)
    (hinsert : Insertable timestamp (e.eventType, e.attrs.map fun a => (a.1, a.2.reloaded))) :
    WellFormed timestamp (e.eventType.name ++ ' ' :: joined (sorted e.attrs)) :=
  ⟨_, fun now => e.loadEvent_line h now, hinsert⟩

/-- A line stands for one event. -/
theorem Loads.insertable {line : Text} {event : EventType × Attrs} (hload : Loads line event)
    (hline : WellFormed timestamp line) : Insertable timestamp event := by
  obtain ⟨event', hload', hevent⟩ := hline
  obtain rfl := Except.ok.inj ((hload 0).symm.trans (hload' 0))
  exact hevent

theorem insertable_of_loads {lines : List Text} {events : List (EventType × Attrs)}
    (hloads : List.Forall₂ Loads lines events) (hlines : ∀ line ∈ lines, WellFormed timestamp line) :
    ∀ event ∈ events, Insertable timestamp event := by
  induction hloads with
  | nil => exact fun _ h => absurd h List.not_mem_nil
  | cons hload _ ih =>
    intro event hevent
    rcases List.mem_cons.mp hevent with rfl | hevent
    · exact hload.insertable (hlines _ List.mem_cons_self)
    · exact ih (fun line hline => hlines line (List.mem_cons_of_mem _ hline)) event hevent

theorem exists_time_of_insertable {t : EventType} {events : List (EventType × Attrs)}
    (h : ∀ event ∈ events, Insertable timestamp event) :
    ∀ a ∈ aggregates t events, ∃ time, timestamp a.exactTime = .ok time := by
  intro a ha
  obtain ⟨event, hevent, hsome⟩ := List.mem_filterMap.mp ha
  split at hsome
  · rename_i hclass
    have hkind := (h event hevent).2
    rw [hclass.1, hclass.2] at hkind
    obtain ⟨a', time, haggregate, -, htime⟩ := hkind
    rw [haggregate] at hsome
    obtain rfl : a' = a := Option.some.inj hsome
    exact ⟨time, htime⟩
  · cases hsome

end

theorem entryOf_of_ok {a : Aggregate} {time : τ} (h : timestamp a.exactTime = .ok time) :
    entryOf timestamp a = some ((time, a.source), a.amount) := by
  unfold entryOf
  rw [h]
  rfl

theorem insertRow_eq {attrs : Attrs} {eventTime : Int} {time : τ} (hget : getTime attrs = .ok eventTime)
    (htime : timestamp eventTime = .ok time) (t : EventType) (db : Database τ) :
    db.insertRow timestamp t attrs = .ok { db with
      individual :=
        Function.update db.individual t (db.individual t ++ [(time, attrs.filter (·.1 ≠ EventType.eventTime))]) } := by
  unfold Database.insertRow
  rw [hget, PyExcept.ok_bind, htime]
  rfl

variable [DecidableEq τ]

/-- The rows of an aggregate class sum up its events. -/
def Database.Kept (db : Database τ) : Prop :=
  ∀ t : EventType, Totals.Summarises ((aggregates t db.inserted).filterMap (entryOf timestamp)) (db.aggregate t)

theorem empty_kept : (Database.empty : Database τ).Kept timestamp := fun _ => Totals.Summarises.nil

variable {timestamp}

/-- The assertion on the number of rows holds, and the amount is posted. -/
theorem insertAggregate_eq {db : Database τ} (h : db.Kept timestamp) {a : Aggregate} {time : τ}
    (hint : isIntType a.eventTime = true) (htime : timestamp a.exactTime = .ok time) (t : EventType) :
    db.insertAggregate timestamp t a = .ok { db with
      aggregate := Function.update db.aggregate t (Totals.post (time, a.source) a.amount (db.aggregate t)) } := by
  unfold Database.insertAggregate
  rw [hint, if_neg (by decide), htime, PyExcept.ok_bind]
  unfold Totals.post
  by_cases hnone : Totals.rowsOf (time, a.source) (db.aggregate t) = []
  · rw [if_pos hnone, hnone]
    rfl
  · have hone := (h t).length_rowsOf hnone
    rw [if_neg hnone]
    dsimp only
    rw [hone]
    rfl

theorem insert_kept {db : Database τ} (h : db.Kept timestamp) {event : EventType × Attrs}
    (hevent : Insertable timestamp event) :
    ∃ db', db.insert timestamp event = .ok db' ∧ db'.inserted = db.inserted ++ [event] ∧ db'.Kept timestamp := by
  obtain ⟨t, attrs⟩ := event
  obtain ⟨⟨eventTime, hget, htimestamp⟩, hkind⟩ := hevent
  unfold Database.insert
  dsimp only at hget htimestamp hkind ⊢
  cases hclass : t.kind with
  | individual =>
    obtain ⟨time, htime⟩ := htimestamp hclass
    dsimp only
    rw [insertRow_eq timestamp hget htime, PyExcept.ok_bind]
    refine ⟨_, rfl, rfl, fun t' => ?_⟩
    dsimp only
    rw [aggregates_append, aggregates_singleton_of_ne fun heq hkind' => ?_, List.append_nil]
    · exact h t'
    · rw [← heq, hclass] at hkind'
      cases hkind'
  | aggregate =>
    rw [hclass] at hkind
    obtain ⟨a, time, haggregate, hint, htime⟩ := hkind
    dsimp only
    rw [haggregate, PyExcept.ok_bind, insertAggregate_eq h hint htime, PyExcept.ok_bind]
    refine ⟨_, rfl, rfl, fun t' => ?_⟩
    dsimp only
    rw [aggregates_append, List.filterMap_append]
    by_cases heq : t' = t
    · subst heq
      rw [aggregates_singleton_self hclass haggregate, Function.update_self, List.filterMap_cons,
        entryOf_of_ok timestamp htime]
      exact (h t').post _ _
    · rw [aggregates_singleton_of_ne fun heq' => absurd heq'.symm heq, Function.update_of_ne heq, List.filterMap_nil,
        List.append_nil]
      exact h t'
  | none =>
    rw [hclass] at hkind
    exact hkind.elim

/-- Lines that are well formed are inserted one after the other. -/
theorem insertLines_kept (now : Int) {lines : List Text} (hlines : ∀ line ∈ lines, WellFormed timestamp line)
    (earliestTime : Option Int) {db : Database τ} (h : db.Kept timestamp) :
    ∃ events earliestTime' db', insertLines timestamp now lines earliestTime db = .ok (earliestTime', db') ∧
      List.Forall₂ Loads lines events ∧ db'.inserted = db.inserted ++ events ∧ db'.Kept timestamp := by
  induction lines generalizing earliestTime db with
  | nil => exact ⟨[], earliestTime, db, rfl, .nil, (List.append_nil _).symm, h⟩
  | cons line lines ih =>
    obtain ⟨event, hload, hevent⟩ := hlines line List.mem_cons_self
    obtain ⟨time, hget, -⟩ := hevent.1
    obtain ⟨db₁, hinsert, hinserted₁, hkept₁⟩ := insert_kept h hevent
    obtain ⟨events, earliestTime', db₂, hrest, hloads, hinserted₂, hkept₂⟩ :=
      ih (fun other hother => hlines other (List.mem_cons_of_mem line hother)) (some (earliestTime.getD time)) hkept₁
    refine ⟨event :: events, earliestTime', db₂, ?_, .cons hload hloads, ?_, hkept₂⟩
    · rw [insertLines, hload now, PyExcept.ok_bind, hget, PyExcept.ok_bind, hinsert, PyExcept.ok_bind]
      exact hrest
    · rw [hinserted₂, hinserted₁, List.append_assoc]
      rfl

end

/-! ### A file that grows -/

/-- Each time the file is read, it has what it had before and may have more. -/
def Grows : Text → List (Int × Text) → Prop
  | _, [] => True
  | before, (_, data) :: later => before <+: data ∧ Grows data later

/-- The file when it is read for the last time. -/
def lastData : Text → List (Int × Text) → Text
  | before, [] => before
  | _, (_, data) :: later => lastData data later

theorem Grows.prefix_last {before : Text} {files : List (Int × Text)} (h : Grows before files) :
    before <+: lastData before files := by
  induction files generalizing before with
  | nil => exact List.prefix_rfl
  | cons file later ih => exact h.1.trans (ih h.2)

theorem completeLines_prefix {data data' : Text} (h : data <+: data') : completeLines data <+: completeLines data' := by
  obtain ⟨more, rfl⟩ := h
  exact completeLines_append data more

section
variable {τ : Type} [DecidableEq τ] {timestamp : Int → PyExcept τ}

/-- The imports insert the lines that the file has gained, each once and in their order. -/
theorem imports_kept {before : Text} {files : List (Int × Text)} (hgrows : Grows before files)
    (hlines : ∀ line ∈ completeLines (lastData before files), WellFormed timestamp line) {db : Database τ}
    (h : db.Kept timestamp) :
    ∃ events db', imports timestamp files (completeLines before).length db =
        .ok ((completeLines (lastData before files)).length, db') ∧
      List.Forall₂ Loads ((completeLines (lastData before files)).drop (completeLines before).length) events ∧
      db'.inserted = db.inserted ++ events ∧ db'.Kept timestamp := by
  induction files generalizing before db with
  | nil =>
    refine ⟨[], db, rfl, ?_, (List.append_nil _).symm, h⟩
    rw [lastData, List.drop_length]
    exact .nil
  | cons file later ih =>
    obtain ⟨now, data⟩ := file
    obtain ⟨hbefore, hlater⟩ := hgrows
    obtain ⟨old, hold⟩ := completeLines_prefix hbefore
    obtain ⟨rest, hrest⟩ := completeLines_prefix hlater.prefix_last
    have hnew : ∀ line ∈ (completeLines data).drop (completeLines before).length, WellFormed timestamp line := by
      intro line hline
      refine hlines line ?_
      rw [lastData, ← hrest]
      exact List.mem_append_left _ (List.mem_of_mem_drop hline)
    obtain ⟨events₁, earliestTime, db₁, hinsert, hloads₁, hinserted₁, hkept₁⟩ := insertLines_kept now hnew none h
    obtain ⟨events₂, db₂, himports, hloads₂, hinserted₂, hkept₂⟩ := ih hlater hlines hkept₁
    refine ⟨events₁ ++ events₂, db₂, ?_, ?_, ?_, hkept₂⟩
    · rw [imports, parseEvents_eq, hinsert]
      exact himports
    · have hdrop : (completeLines (lastData before ((now, data) :: later))).drop (completeLines before).length =
          (completeLines data).drop (completeLines before).length ++
            (completeLines (lastData data later)).drop (completeLines data).length := by
        rw [lastData, ← hrest, List.drop_left, ← hold, List.drop_append_of_le_length]
        rw [List.length_append]
        exact Nat.le_add_right _ _
      rw [hdrop]
      exact List.rel_append hloads₁ hloads₂
    · rw [hinserted₂, hinserted₁, List.append_assoc]

/-- The sum of the amounts of an hour and a source. -/
def hourTotal (exactTime : Int) (source : Text) (events : List Aggregate) : Int :=
  ((events.filter fun a => a.exactTime = exactTime ∧ a.source = source).map Aggregate.amount).sum

theorem total_entries (hinj : ∀ m n time, timestamp m = .ok time → timestamp n = .ok time → m = n) {exactTime : Int}
    {time : τ} (htime : timestamp exactTime = .ok time) (source : Text) (events : List Aggregate) :
    Totals.total (time, source) (events.filterMap (entryOf timestamp)) = hourTotal exactTime source events := by
  induction events with
  | nil => rfl
  | cons a events ih =>
    unfold hourTotal Totals.total Totals.rowsOf at ih ⊢
    by_cases hmatch : a.exactTime = exactTime ∧ a.source = source
    · have hentry : entryOf timestamp a = some ((time, a.source), a.amount) := entryOf_of_ok timestamp (hmatch.1 ▸ htime)
      rw [List.filterMap_cons, hentry]
      dsimp only
      rw [List.filter_cons_of_pos (by simp [hmatch.2]), List.filter_cons_of_pos (by simp [hmatch]), List.map_cons,
        List.map_cons, List.sum_cons, List.sum_cons, ih]
    · have hskip : ∀ entry ∈ entryOf timestamp a, entry.1 ≠ (time, source) := by
        intro entry hentry hkey
        cases hstamp : timestamp a.exactTime with
        | error e =>
          unfold entryOf at hentry
          rw [hstamp] at hentry
          cases hentry
        | ok time' =>
          rw [entryOf_of_ok timestamp hstamp] at hentry
          cases hentry
          obtain ⟨rfl, hsource⟩ := Prod.mk.inj hkey
          exact hmatch ⟨hinj _ _ _ hstamp htime, hsource⟩
      rw [List.filterMap_cons]
      cases hentry : entryOf timestamp a with
      | none =>
        dsimp only
        rw [List.filter_cons_of_neg (by simpa using hmatch), ih]
      | some entry =>
        dsimp only
        rw [List.filter_cons_of_neg (by simpa using hskip entry hentry), List.filter_cons_of_neg (by simpa using hmatch),
          ih]

/-- The table of a class has one row for each hour and source of its events, with the sum of their amounts. -/
structure Summed (timestamp : Int → PyExcept τ) (events : List Aggregate) (rows : List ((τ × Text) × Int)) : Prop where
  row : ∀ a ∈ events, ∃ time, timestamp a.exactTime = .ok time ∧
    Totals.rowsOf (time, a.source) rows = [((time, a.source), hourTotal a.exactTime a.source events)]
  event : ∀ row ∈ rows, ∃ a ∈ events, timestamp a.exactTime = .ok row.1.1 ∧ a.source = row.1.2

theorem summed_of_summarises (hinj : ∀ m n time, timestamp m = .ok time → timestamp n = .ok time → m = n)
    {events : List Aggregate} (hevents : ∀ a ∈ events, ∃ time, timestamp a.exactTime = .ok time)
    {rows : List ((τ × Text) × Int)} (h : Totals.Summarises (events.filterMap (entryOf timestamp)) rows) :
    Summed timestamp events rows where
  row := fun a ha => by
    obtain ⟨time, htime⟩ := hevents a ha
    have hmem : (time, a.source) ∈ (events.filterMap (entryOf timestamp)).map Prod.fst :=
      List.mem_map.mpr ⟨_, List.mem_filterMap.mpr ⟨a, ha, entryOf_of_ok timestamp htime⟩, rfl⟩
    exact ⟨time, htime, by rw [h.rowsOf_of_mem hmem, total_entries hinj htime]⟩
  event := fun row hrow => by
    obtain ⟨entry, hentry, hkey⟩ := List.mem_map.mp (h.mem_row hrow).1
    obtain ⟨a, ha, hsome⟩ := List.mem_filterMap.mp hentry
    obtain ⟨time, htime⟩ := hevents a ha
    rw [entryOf_of_ok timestamp htime] at hsome
    obtain rfl := Option.some.inj hsome
    exact ⟨a, ha, by rw [htime, ← hkey], by rw [← hkey]⟩

/-- However often the growing file is imported, each line that is complete at the end was inserted once and in the order of the
file, and the aggregate tables hold the sums. -/
theorem imports_exactly_once (hinj : ∀ m n time, timestamp m = .ok time → timestamp n = .ok time → m = n)
    (files : List (Int × Text)) (hgrows : Grows [] files)
    (hlines : ∀ line ∈ completeLines (lastData [] files), WellFormed timestamp line) :
    ∃ events db, imports timestamp files 0 Database.empty = .ok ((completeLines (lastData [] files)).length, db) ∧
      List.Forall₂ Loads (completeLines (lastData [] files)) events ∧ db.inserted = events ∧
      ∀ t : EventType, t.kind = .aggregate → Summed timestamp (aggregates t events) (db.aggregate t) := by
  obtain ⟨events, db, himports, hloads, hinserted, hkept⟩ := imports_kept hgrows hlines (empty_kept timestamp)
  obtain rfl : db.inserted = events := hinserted
  refine ⟨db.inserted, db, himports, hloads, rfl, fun t _ => summed_of_summarises hinj ?_ (hkept t)⟩
  exact exists_time_of_insertable (insertable_of_loads hloads hlines)

end

def exampleDeposit : ServerEvent where
  eventType := .bankDeposit
  attrs := [("source".toList, .str "bank".toList), ("amount".toList, .int 5), ("eventTime".toList, .int 7205)]
  typed := by decide

def exampleLine : Text := exampleDeposit.eventType.name ++ ' ' :: joined (sorted exampleDeposit.attrs)

/-- The line twice, of which the second is read in two parts. -/
def exampleFiles : List (Int × Text) :=
  [(8000, exampleLine ++ '\n' :: exampleLine.take 20), (9000, exampleLine ++ '\n' :: exampleLine ++ ['\n'])]

theorem imports_exactly_once_example :
    ∃ events db, imports (fun n => .ok n) exampleFiles 0 Database.empty =
        .ok ((completeLines (lastData [] exampleFiles)).length, db) ∧
      List.Forall₂ Loads (completeLines (lastData [] exampleFiles)) events ∧ db.inserted = events ∧
      ∀ t : EventType, t.kind = .aggregate → Summed (fun n => .ok n) (aggregates t events) (db.aggregate t) := by
  refine imports_exactly_once (fun m n time hm hn => ?_) exampleFiles ?_ ?_
  · exact (Except.ok.inj hm).trans (Except.ok.inj hn).symm
  · refine ⟨List.nil_prefix, ?_, trivial⟩
    decide
  · intro line hline
    have hplain : ∀ a ∈ exampleDeposit.attrs, Plain a := by decide
    have hlines : completeLines (lastData [] exampleFiles) = [exampleLine, exampleLine] := by decide
    have heq : line = exampleLine := by
      rw [hlines] at hline
      rcases List.mem_cons.mp hline with rfl | hline
      · rfl
      · exact List.mem_singleton.mp hline
    rw [heq]
    refine wellFormed_line exampleDeposit hplain ⟨⟨7205, rfl, fun h => by cases h⟩, ?_⟩
    exact ⟨⟨7205, "bank".toList, 5⟩, 7200, rfl, rfl, rfl⟩

end BitBlinder.Events
