import BitBlinder.Runs
import BitBlinder.Bank.EventImport

/-!
# The passes of `EventLogParser` over a log file

A pass parses the lines that the file has gained and notes their number in the
row of the file. The events are inserted one by one in the transaction that
holds the row, and the commit is in a `finally` clause: a line that raises skips
the row, but what was inserted before it is committed. A statement that the
database refuses aborts the transaction, and the commit keeps nothing.
-/

namespace BitBlinder.Events

set_option autoImplicit false

open PyText

/-- A line is rejected by an exception of the program or by the database. -/
inductive Rejection where
  | raised (e : PyError)
  | refused
  deriving DecidableEq

structure FileRow where
  eventNumber : Nat
  lastMTime : Text

/-- The tables of the events and `event_file_information`, by file and folder name. -/
structure LogStore (τ : Type) where
  db : Database τ
  files : Text × Text → List FileRow

/-- A file as a pass finds it. `mtime` is the text of its modification time. -/
structure LogFile where
  name : Text × Text
  data : Text
  mtime : Text
  isOld : Bool

inductive PassResult where
  | removed
  | unmodified
  | parsed (startTime : Int) (newEvents : Nat)
  | failed
  deriving DecidableEq

section
-- `refuses` are the events whose statements the database raises for.
variable {τ : Type} [DecidableEq τ] (timestamp : Int → PyExcept τ) (refuses : Database τ → EventType × Attrs → Bool)

/-- A line is loaded and inserted. -/
def importLine (now : Int) (line : Text) (earliestTime : Option Int) (db : Database τ) :
    Except Rejection (Option Int × Database τ) := do
  let event ← (loadEvent now line).mapError .raised
  let time ← (getTime event.2).mapError .raised
  let next ← (db.insert timestamp event).mapError .raised
  if refuses db event then throw .refused
  return (some (earliestTime.getD time), next)

/-- The loop of `parse_events` with the state that it leaves in the transaction. -/
def parseLoopIn (now : Int) (numLines : Nat) :
    Nat → Text → Nat → Option Int → Database τ → Database τ × Except Rejection (Option Int × Nat)
  | 0, _, lineNum, earliestTime, db => (db, .ok (earliestTime, lineNum))
  | fuel + 1, data, lineNum, earliestTime, db =>
    let (line, rest) := readline data
    let lineNum := lineNum + 1
    if line = [] then (db, .ok (earliestTime, lineNum))
    else if '\n' ∉ line then (db, .ok (earliestTime, lineNum))
    else if ¬numLines < lineNum then parseLoopIn now numLines fuel rest lineNum earliestTime db
    else
      match importLine timestamp refuses now line earliestTime db with
      | .error e => (db, .error e)
      | .ok (earliestTime, db) => parseLoopIn now numLines fuel rest lineNum earliestTime db

def parseEventsIn (now : Int) (data : Text) (numLines : Nat) (db : Database τ) :
    Database τ × Except Rejection (Int × Nat) :=
  let (db, result) := parseLoopIn timestamp refuses now numLines (data.length + 1) data 0 none db
  (db, result.map fun r => (r.1.getD now, r.2 - 1))

/-- `_update_file_row` or `_insert_file_row`. -/
def LogStore.setRow (s : LogStore τ) (file : LogFile) (rowExisted : Bool) (newNumEvents : Nat) : LogStore τ :=
  let row : FileRow := ⟨newNumEvents, file.mtime⟩
  let rows := s.files file.name
  let rows := if rowExisted then rows.map fun _ => row else rows ++ [row]
  { s with files := Function.update s.files file.name rows }

/-- `parse_events` and what is committed after it. -/
def parseAndCommit (now : Int) (file : LogFile) (numEvents : Nat) (rowExisted : Bool) (s : LogStore τ) :
    LogStore τ × PassResult :=
  match parseEventsIn timestamp refuses now file.data numEvents s.db with
  | (_, .error .refused) => (s, .failed)
  | (db, .error (.raised _)) => ({ s with db := db }, .failed)
  | (db, .ok (startTime, newNumEvents)) =>
    (LogStore.setRow { s with db := db } file rowExisted newNumEvents, .parsed startTime (newNumEvents - numEvents))

/-- The part of `_update_events` for one file. -/
def updateFile (now : Int) (file : LogFile) (s : LogStore τ) : LogStore τ × PassResult :=
  if file.isOld then ({ s with files := Function.update s.files file.name [] }, .removed)
  else
    match s.files file.name with
    | [] => parseAndCommit timestamp refuses now file 0 false s
    | [row] =>
      if file.mtime = row.lastMTime then (s, .unmodified)
      else parseAndCommit timestamp refuses now file row.eventNumber true s
    | _ => (s, .failed)

/-! ### Lines that are imported -/

/-- Each of the lines is imported, up to one that is rejected. -/
def importLines (now : Int) : List Text → Option Int → Database τ → Database τ × Except Rejection (Option Int)
  | [], earliestTime, db => (db, .ok earliestTime)
  | line :: lines, earliestTime, db =>
    match importLine timestamp refuses now (line ++ ['\n']) earliestTime db with
    | .error e => (db, .error e)
    | .ok (earliestTime, db) => importLines now lines earliestTime db

theorem parseLoopIn_eq (now : Int) (numLines : Nat) {fuel : Nat} {data : Text} (hfuel : data.length < fuel)
    (lineNum : Nat) (earliestTime : Option Int) (db : Database τ) :
    parseLoopIn timestamp refuses now numLines fuel data lineNum earliestTime db =
      (importLines timestamp refuses now ((completeLines data).drop (numLines - lineNum)) earliestTime db).map id
        fun r => r.map fun earliestTime => (earliestTime, lineNum + (completeLines data).length + 1) := by
  induction fuel generalizing data lineNum earliestTime db with
  | zero => exact absurd hfuel (Nat.not_lt_zero _)
  | succ fuel ih =>
    rw [parseLoopIn]
    by_cases hmem : '\n' ∈ data
    · obtain ⟨line, rest, rfl, hline⟩ := List.eq_append_cons_of_mem hmem
      have hne : line ++ ['\n'] ≠ [] := List.append_ne_nil_of_right_ne_nil _ (List.cons_ne_nil _ _)
      have hlength : rest.length < fuel := by
        rw [List.length_append, List.length_cons] at hfuel
        omega
      have hcount : lineNum + (completeLines (line ++ '\n' :: rest)).length + 1 =
          lineNum + 1 + (completeLines rest).length + 1 := by
        rw [completeLines_cons hline, List.length_cons]
        omega
      rw [readline_cons hline, hcount, completeLines_cons hline]
      dsimp only
      rw [if_neg hne, if_neg (not_not_intro (List.mem_append_right _ List.mem_cons_self))]
      by_cases hskip : numLines < lineNum + 1
      · have hzero : numLines - lineNum = 0 := by omega
        have hrest : numLines - (lineNum + 1) = 0 := by omega
        rw [if_neg (not_not_intro hskip), hzero, List.drop_zero, importLines]
        cases importLine timestamp refuses now (line ++ ['\n']) earliestTime db with
        | error e => rfl
        | ok r =>
          dsimp only
          rw [ih hlength, hrest, List.drop_zero]
      · have hdrop : numLines - lineNum = numLines - (lineNum + 1) + 1 := by omega
        rw [if_pos hskip, ih hlength, hdrop, List.drop_succ_cons]
    · have hreadline : readline data = (data, []) := if_neg hmem
      rw [hreadline, completeLines_of_not_mem hmem, List.drop_nil]
      dsimp only
      rw [if_pos hmem]
      split <;> rfl

theorem parseEventsIn_eq (now : Int) (data : Text) (numLines : Nat) (db : Database τ) :
    parseEventsIn timestamp refuses now data numLines db =
      (importLines timestamp refuses now ((completeLines data).drop numLines) none db).map id
        fun r => r.map fun earliestTime => (earliestTime.getD now, (completeLines data).length) := by
  unfold parseEventsIn
  rw [parseLoopIn_eq timestamp refuses now numLines (Nat.lt_succ_self _), Nat.sub_zero]
  dsimp only [Prod.map]
  cases (importLines timestamp refuses now ((completeLines data).drop numLines) none db).2 with
  | error e => rfl
  | ok earliestTime =>
    dsimp only [Except.map]
    rw [Nat.zero_add, Nat.add_sub_cancel]

variable {timestamp refuses}

/-- A line that is imported was loaded, and its event inserted. -/
theorem importLine_of_ok {now : Int} {line : Text} {earliestTime earliestTime' : Option Int} {db db' : Database τ}
    (h : importLine timestamp refuses now line earliestTime db = .ok (earliestTime', db')) :
    ∃ event time, loadEvent now line = .ok event ∧ getTime event.2 = .ok time ∧ db.insert timestamp event = .ok db' := by
  unfold importLine at h
  cases hevent : loadEvent now line with
  | error e =>
    rw [hevent] at h
    cases h
  | ok event =>
    rw [hevent] at h
    cases htime : getTime event.2 with
    | error e =>
      simp only [Except.mapError, Except.bind, bind, htime] at h
      cases h
    | ok time =>
      cases hnext : db.insert timestamp event with
      | error e =>
        simp only [Except.mapError, Except.bind, bind, htime, hnext] at h
        cases h
      | ok next =>
        simp only [Except.mapError, Except.bind, bind, htime, hnext] at h
        split at h
        · cases h
        · cases h
          exact ⟨event, time, rfl, htime, hnext⟩

variable (timestamp refuses) in
/-- What was imported before the end or the first line that is rejected. -/
theorem importLines_split (now : Int) (lines : List Text) (earliestTime : Option Int) (db : Database τ) :
    (∃ earliestTime' db', importLines timestamp refuses now lines earliestTime db = (db', .ok earliestTime')) ∨
      ∃ good bad rest earliestTime' db' e, lines = good ++ bad :: rest ∧
        importLines timestamp refuses now good earliestTime db = (db', .ok earliestTime') ∧
        importLine timestamp refuses now (bad ++ ['\n']) earliestTime' db' = .error e ∧
        importLines timestamp refuses now lines earliestTime db = (db', .error e) := by
  induction lines generalizing earliestTime db with
  | nil => exact Or.inl ⟨earliestTime, db, rfl⟩
  | cons line lines ih =>
    rcases hline : importLine timestamp refuses now (line ++ ['\n']) earliestTime db with e | r
    · refine Or.inr ⟨[], line, lines, earliestTime, db, e, rfl, rfl, hline, ?_⟩
      rw [importLines, hline]
    · obtain ⟨earliestTime₁, db₁⟩ := r
      have hstep : ∀ lines, importLines timestamp refuses now (line :: lines) earliestTime db =
          importLines timestamp refuses now lines earliestTime₁ db₁ := by
        intro lines
        rw [importLines, hline]
      rcases ih earliestTime₁ db₁ with
        ⟨earliestTime₂, db₂, h⟩ | ⟨good, bad, rest, earliestTime₂, db₂, e, rfl, hgood, hbad, h⟩
      · exact Or.inl ⟨earliestTime₂, db₂, by rw [hstep, h]⟩
      · refine Or.inr ⟨line :: good, bad, rest, earliestTime₂, db₂, e, rfl, ?_, hbad, ?_⟩
        · rw [hstep, hgood]
        · rw [hstep, h]

/-- The first rejected line decides. -/
theorem importLines_of_split {now : Int} {good : List Text} {bad : Text} {earliestTime earliestTime' : Option Int}
    {db db' : Database τ} {e : Rejection}
    (hgood : importLines timestamp refuses now good earliestTime db = (db', .ok earliestTime'))
    (hbad : importLine timestamp refuses now (bad ++ ['\n']) earliestTime' db' = .error e) (rest : List Text) :
    importLines timestamp refuses now (good ++ bad :: rest) earliestTime db = (db', .error e) := by
  induction good generalizing earliestTime db with
  | nil =>
    cases hgood
    rw [List.nil_append, importLines, hbad]
  | cons line good ih =>
    rw [importLines] at hgood
    rcases hline : importLine timestamp refuses now (line ++ ['\n']) earliestTime db with e' | ⟨earliestTime₁, db₁⟩
    · rw [hline] at hgood
      cases hgood
    · rw [hline] at hgood
      rw [List.cons_append, importLines, hline]
      exact ih hgood

end

/-! ### Without refusals -/

section
variable {τ : Type} [DecidableEq τ] {timestamp : Int → PyExcept τ}

theorem importLine_eq_ok_iff {now : Int} {line : Text} {earliestTime earliestTime' : Option Int} {db db' : Database τ} :
    importLine timestamp (fun _ _ => false) now line earliestTime db = .ok (earliestTime', db') ↔
      ∃ event time, loadEvent now line = .ok event ∧ getTime event.2 = .ok time ∧
        db.insert timestamp event = .ok db' ∧ earliestTime' = some (earliestTime.getD time) := by
  constructor
  · intro h
    obtain ⟨event, time, hload, hget, hinsert⟩ := importLine_of_ok h
    refine ⟨event, time, hload, hget, hinsert, ?_⟩
    unfold importLine at h
    simp only [hload, hget, hinsert, Except.mapError, Except.bind, bind] at h
    exact (Prod.mk.inj (Except.ok.inj h)).1.symm
  · rintro ⟨event, time, hload, hget, hinsert, rfl⟩
    unfold importLine
    simp only [hload, hget, hinsert, Except.mapError, Except.bind, bind]
    rfl

theorem insertLines_eq_ok_iff {now : Int} {lines : List Text} {earliestTime earliestTime' : Option Int}
    {db db' : Database τ} :
    insertLines timestamp now lines earliestTime db = .ok (earliestTime', db') ↔
      importLines timestamp (fun _ _ => false) now lines earliestTime db = (db', .ok earliestTime') := by
  induction lines generalizing earliestTime db with
  | nil =>
    rw [insertLines, importLines]
    simp only [Except.ok.injEq, Prod.mk.injEq]
    exact and_comm
  | cons line lines ih =>
    rw [importLines]
    rcases hline : importLine timestamp (fun _ _ => false) now (line ++ ['\n']) earliestTime db with
      e | ⟨earliestTime₁, db₁⟩
    · refine iff_of_false (fun h => ?_) (by simp)
      rw [insertLines] at h
      obtain ⟨event, hload, h⟩ := PyExcept.bind_eq_ok h
      obtain ⟨time, hget, h⟩ := PyExcept.bind_eq_ok h
      obtain ⟨db₁, hinsert, -⟩ := PyExcept.bind_eq_ok h
      rw [importLine_eq_ok_iff.mpr ⟨event, time, hload, hget, hinsert, rfl⟩] at hline
      cases hline
    · obtain ⟨event, time, hload, hget, hinsert, rfl⟩ := importLine_eq_ok_iff.mp hline
      rw [insertLines, hload, PyExcept.ok_bind, hget, PyExcept.ok_bind, hinsert, PyExcept.ok_bind]
      exact ih

/-- A database that refuses nothing: what is returned and what is in the transaction are the same. -/
theorem parseEvents_eq_ok_iff {now startTime : Int} {data : Text} {numLines newNumEvents : Nat} {db db' : Database τ} :
    parseEvents timestamp now data numLines db = .ok (startTime, newNumEvents, db') ↔
      parseEventsIn timestamp (fun _ _ => false) now data numLines db = (db', .ok (startTime, newNumEvents)) := by
  rw [parseEvents_eq, parseEventsIn_eq]
  constructor
  · intro h
    rcases hinsert : insertLines timestamp now ((completeLines data).drop numLines) none db with e | ⟨earliestTime, db₁⟩
    · rw [hinsert] at h
      cases h
    · rw [hinsert] at h
      cases h
      rw [insertLines_eq_ok_iff] at hinsert
      rw [hinsert]
      rfl
  · intro h
    rcases himport : importLines timestamp (fun _ _ => false) now ((completeLines data).drop numLines) none db with
      ⟨db₁, e | earliestTime⟩
    · rw [himport] at h
      cases h
    · rw [himport] at h
      cases h
      rw [← insertLines_eq_ok_iff] at himport
      rw [himport]
      rfl

end

/-! ### What is in the tables -/

section
variable {τ : Type} (timestamp : Int → PyExcept τ)

/-- The row of an individual event. -/
def individualRow (event : EventType × Attrs) : Option (τ × Attrs) :=
  ((getTime event.2).toOption.bind fun eventTime => (timestamp eventTime).toOption).map fun time =>
    (time, event.2.filter (·.1 ≠ EventType.eventTime))

def individualRows (t : EventType) (events : List (EventType × Attrs)) : List (τ × Attrs) :=
  (events.filter fun event => event.1 = t ∧ t.kind = .individual).filterMap (individualRow timestamp)

variable [DecidableEq τ]

/-- The individual tables have a row for each event, and the aggregate tables sum them up. -/
structure Database.Stores (db : Database τ) : Prop where
  rows : ∀ t, db.individual t = individualRows timestamp t db.inserted
  kept : db.Kept timestamp

theorem empty_stores : (Database.empty : Database τ).Stores timestamp := ⟨fun _ => rfl, empty_kept timestamp⟩

variable {timestamp} {refuses : Database τ → EventType × Attrs → Bool}

/-- An event that was inserted could be. -/
theorem insertable_of_insert {db db' : Database τ} {event : EventType × Attrs} {eventTime : Int}
    (hget : getTime event.2 = .ok eventTime) (h : db.insert timestamp event = .ok db') :
    Insertable timestamp event := by
  unfold Database.insert at h
  unfold Insertable
  cases hkind : event.1.kind with
  | individual =>
    rw [hkind] at h
    obtain ⟨db₁, h₁, -⟩ := PyExcept.bind_eq_ok h
    unfold Database.insertRow at h₁
    rw [hget, PyExcept.ok_bind] at h₁
    obtain ⟨time, htime, -⟩ := PyExcept.bind_eq_ok h₁
    exact ⟨⟨eventTime, hget, fun _ => ⟨time, htime⟩⟩, trivial⟩
  | aggregate =>
    rw [hkind] at h
    obtain ⟨a, ha, h⟩ := PyExcept.bind_eq_ok h
    obtain ⟨db₁, h₁, -⟩ := PyExcept.bind_eq_ok h
    unfold Database.insertAggregate at h₁
    split at h₁
    · cases h₁
    · rename_i hint
      obtain ⟨time, htime, -⟩ := PyExcept.bind_eq_ok h₁
      exact ⟨⟨eventTime, hget, fun hne => by cases hne⟩, a, time, ha, by simpa using hint, htime⟩
  | none =>
    rw [hkind] at h
    cases h

theorem insert_individual {db db' : Database τ} {event : EventType × Attrs} {eventTime : Int}
    (hget : getTime event.2 = .ok eventTime) (h : db.insert timestamp event = .ok db') (t : EventType) :
    db'.individual t = db.individual t ++ individualRows timestamp t [event] := by
  obtain ⟨t', attrs⟩ := event
  unfold Database.insert at h
  dsimp only at hget h
  unfold individualRows
  cases hkind : t'.kind with
  | individual =>
    rw [hkind] at h
    obtain ⟨db₁, h₁, h⟩ := PyExcept.bind_eq_ok h
    unfold Database.insertRow at h₁
    rw [hget, PyExcept.ok_bind] at h₁
    obtain ⟨time, htime, h₁⟩ := PyExcept.bind_eq_ok h₁
    obtain rfl := Except.ok.inj h₁
    obtain rfl := Except.ok.inj h
    have hrow : individualRow timestamp (t', attrs) = some (time, attrs.filter (·.1 ≠ EventType.eventTime)) := by
      unfold individualRow
      rw [hget]
      dsimp only [Except.toOption, Option.bind_some]
      rw [htime]
      rfl
    dsimp only
    rw [Function.update_apply]
    by_cases heq : t = t'
    · rw [if_pos heq, heq, List.filter_cons_of_pos (by simp [hkind]), List.filterMap_cons, hrow]
      rfl
    · rw [if_neg heq, List.filter_cons_of_neg (by simp [Ne.symm heq])]
      exact (List.append_nil _).symm
  | aggregate =>
    rw [hkind] at h
    obtain ⟨a, ha, h⟩ := PyExcept.bind_eq_ok h
    obtain ⟨db₁, h₁, h⟩ := PyExcept.bind_eq_ok h
    obtain rfl := Except.ok.inj h
    have hsame : db₁.individual = db.individual := by
      unfold Database.insertAggregate at h₁
      split at h₁
      · cases h₁
      · obtain ⟨time, -, h₁⟩ := PyExcept.bind_eq_ok h₁
        dsimp only at h₁
        split at h₁
        · split at h₁
          · cases h₁
          · obtain rfl := Except.ok.inj h₁
            rfl
        · obtain rfl := Except.ok.inj h₁
          rfl
    dsimp only
    rw [hsame, List.filter_cons_of_neg]
    · exact (List.append_nil _).symm
    · simp only [decide_eq_true_eq, not_and]
      rintro rfl
      rw [hkind]
      exact InsertKind.noConfusion
  | none =>
    rw [hkind] at h
    cases h

/-- Inserting keeps what the tables are. -/
theorem Database.Stores.insert {db db' : Database τ} (h : db.Stores timestamp) {event : EventType × Attrs}
    {eventTime : Int} (hget : getTime event.2 = .ok eventTime) (hinsert : db.insert timestamp event = .ok db') :
    db'.inserted = db.inserted ++ [event] ∧ db'.Stores timestamp := by
  obtain ⟨db₁, hinsert₁, hinserted, hkept⟩ := insert_kept h.kept (insertable_of_insert hget hinsert)
  obtain rfl := Except.ok.inj (hinsert.symm.trans hinsert₁)
  refine ⟨hinserted, fun t => ?_, hkept⟩
  rw [insert_individual hget hinsert, h.rows t, hinserted]
  unfold individualRows
  rw [List.filter_append, List.filterMap_append]

/-- The line was loaded as this event at some time. -/
def LoadedAs (line : Text) (event : EventType × Attrs) : Prop := ∃ now, loadEvent now (line ++ ['\n']) = .ok event

/-- Lines that are imported add their events, one for each. -/
theorem importLines_stores {now : Int} {lines : List Text} {earliestTime earliestTime' : Option Int}
    {db db' : Database τ} (hstores : db.Stores timestamp)
    (h : importLines timestamp refuses now lines earliestTime db = (db', .ok earliestTime')) :
    ∃ events, List.Forall₂ LoadedAs lines events ∧ db'.inserted = db.inserted ++ events ∧ db'.Stores timestamp := by
  induction lines generalizing earliestTime db with
  | nil =>
    cases h
    exact ⟨[], .nil, (List.append_nil _).symm, hstores⟩
  | cons line lines ih =>
    rw [importLines] at h
    rcases hline : importLine timestamp refuses now (line ++ ['\n']) earliestTime db with e | ⟨earliestTime₁, db₁⟩
    · rw [hline] at h
      cases h
    · rw [hline] at h
      obtain ⟨event, time, hload, hget, hinsert⟩ := importLine_of_ok hline
      obtain ⟨hinserted₁, hstores₁⟩ := hstores.insert hget hinsert
      obtain ⟨events, hevents, hinserted, hstores'⟩ := ih hstores₁ h
      refine ⟨event :: events, .cons ⟨now, hload⟩ hevents, ?_, hstores'⟩
      rw [hinserted, hinserted₁, List.append_assoc]
      rfl

end

/-! ### One pass -/

/-- How many events of a file are noted. -/
def LogStore.noted {τ : Type} (s : LogStore τ) (name : Text × Text) : Nat :=
  match s.files name with
  | [row] => row.eventNumber
  | _ => 0

/-- The file is parsed in a pass. -/
def LogStore.Parses {τ : Type} (s : LogStore τ) (file : LogFile) : Prop :=
  file.isOld = false ∧ (s.files file.name = [] ∨ ∃ row, s.files file.name = [row] ∧ file.mtime ≠ row.lastMTime)

section
variable {τ : Type} [DecidableEq τ] (timestamp : Int → PyExcept τ) (refuses : Database τ → EventType × Attrs → Bool)

/-- No line raises after one that the pass inserts: the first line that is rejected is the first new
one, or the database refuses it. -/
def Clean (now : Int) (file : LogFile) (s : LogStore τ) : Prop :=
  s.Parses file → ∀ good bad rest, (completeLines file.data).drop (s.noted file.name) = good ++ bad :: rest →
    ∀ earliestTime db e, importLines timestamp refuses now good none s.db = (db, .ok earliestTime) →
      importLine timestamp refuses now (bad ++ ['\n']) earliestTime db = .error e → good = [] ∨ e = .refused

variable {timestamp refuses} {now : Int} {file : LogFile} {s : LogStore τ}

variable (timestamp refuses) in
/-- A pass that does not parse leaves everything, but for a file that is too old. -/
theorem updateFile_of_not_parses (now : Int) (hold : file.isOld = false) (h : ¬s.Parses file) :
    updateFile timestamp refuses now file s = (s, .unmodified) ∨
      updateFile timestamp refuses now file s = (s, .failed) ∧ 1 < (s.files file.name).length := by
  unfold updateFile
  rw [hold, if_neg Bool.false_ne_true]
  unfold LogStore.Parses at h
  rcases hrows : s.files file.name with _ | ⟨row, _ | ⟨row', rest⟩⟩
  · exact absurd ⟨hold, Or.inl hrows⟩ h
  · by_cases hmtime : file.mtime = row.lastMTime
    · exact Or.inl (if_pos hmtime)
    · exact absurd ⟨hold, Or.inr ⟨row, hrows, hmtime⟩⟩ h
  · exact Or.inr ⟨rfl, Nat.succ_lt_succ (Nat.succ_pos _)⟩

variable (timestamp refuses) in
/-- A pass that parses ends with all lines imported and noted, or with a line that is rejected. -/
theorem updateFile_of_parses (now : Int) (h : s.Parses file) :
    (∃ earliestTime db, importLines timestamp refuses now ((completeLines file.data).drop (s.noted file.name)) none s.db =
        (db, .ok earliestTime) ∧
      updateFile timestamp refuses now file s =
        ({ db := db, files := Function.update s.files file.name [⟨(completeLines file.data).length, file.mtime⟩] },
          .parsed (earliestTime.getD now) ((completeLines file.data).length - s.noted file.name))) ∨
      ∃ good bad rest earliestTime db e, (completeLines file.data).drop (s.noted file.name) = good ++ bad :: rest ∧
        importLines timestamp refuses now good none s.db = (db, .ok earliestTime) ∧
        importLine timestamp refuses now (bad ++ ['\n']) earliestTime db = .error e ∧
        updateFile timestamp refuses now file s = (if e = .refused then s else { s with db := db }, .failed) := by
  obtain ⟨hold, hrows⟩ := h
  have hparse : ∃ rowExisted, updateFile timestamp refuses now file s =
      parseAndCommit timestamp refuses now file (s.noted file.name) rowExisted s ∧
        ∀ newRow, (if rowExisted then (s.files file.name).map fun _ => newRow else s.files file.name ++ [newRow]) =
          [newRow] := by
    unfold updateFile LogStore.noted
    rw [hold, if_neg Bool.false_ne_true]
    rcases hrows with hnil | ⟨row, hrow, hmtime⟩
    · rw [hnil]
      exact ⟨false, rfl, fun newRow => rfl⟩
    · rw [hrow]
      exact ⟨true, if_neg hmtime, fun newRow => rfl⟩
  obtain ⟨rowExisted, hupdate, hrow⟩ := hparse
  rw [hupdate]
  unfold parseAndCommit
  rw [parseEventsIn_eq]
  rcases importLines_split timestamp refuses now
      ((completeLines file.data).drop (s.noted file.name)) none s.db with
    ⟨earliestTime, db, hall⟩ | ⟨good, bad, rest, earliestTime, db, e, hlines, hgood, hbad, hall⟩
  · refine Or.inl ⟨earliestTime, db, hall, ?_⟩
    rw [hall]
    dsimp only [Prod.map, Except.map, id]
    unfold LogStore.setRow
    dsimp only
    rw [hrow]
  · refine Or.inr ⟨good, bad, rest, earliestTime, db, e, hlines, hgood, hbad, ?_⟩
    rw [hall]
    cases e with
    | raised e => rfl
    | refused => rfl

/-- A pass that is told to have parsed has noted all complete lines. -/
theorem noted_of_parsed {t : LogStore τ} {startTime : Int} {newEvents : Nat}
    (h : updateFile timestamp refuses now file s = (t, .parsed startTime newEvents)) :
    t.noted file.name = (completeLines file.data).length := by
  by_cases hold : file.isOld = true
  · unfold updateFile at h
    rw [if_pos hold] at h
    cases h
  · have hold : file.isOld = false := by simpa using hold
    by_cases hparses : s.Parses file
    · rcases updateFile_of_parses timestamp refuses now hparses with
        ⟨earliestTime, db, -, hupdate⟩ | ⟨good, bad, rest, earliestTime, db, e, -, -, -, hupdate⟩
      · rw [hupdate] at h
        cases h
        unfold LogStore.noted
        dsimp only
        rw [Function.update_self]
      · rw [hupdate] at h
        cases h
    · rcases updateFile_of_not_parses timestamp refuses now hold hparses with
        hupdate | ⟨hupdate, -⟩
      · rw [hupdate] at h
        cases h
      · rw [hupdate] at h
        cases h

/-- A pass that fails leaves no trace if and only if it is clean. -/
theorem updateFile_failed_iff (hstores : s.db.Stores timestamp) (hold : file.isOld = false)
    (hfailed : (updateFile timestamp refuses now file s).2 = .failed) :
    (updateFile timestamp refuses now file s).1 = s ↔ Clean timestamp refuses now file s := by
  by_cases hparses : s.Parses file
  · rcases updateFile_of_parses timestamp refuses now hparses with
      ⟨earliestTime, db, -, hupdate⟩ | ⟨good, bad, rest, earliestTime, db, e, hlines, hgood, hbad, hupdate⟩
    · rw [hupdate] at hfailed
      cases hfailed
    · rw [hupdate]
      constructor
      · intro hsame _ good' bad' rest' hlines' earliestTime' db' e' hgood' hbad'
        -- Both splits end with the same error, of which the state tells whether it was refused.
        have hfirst := importLines_of_split hgood hbad rest
        have hfirst' := importLines_of_split hgood' hbad' rest'
        rw [← hlines] at hfirst
        rw [← hlines', hfirst] at hfirst'
        obtain ⟨rfl, he⟩ := Prod.mk.inj hfirst'
        obtain rfl := Except.error.inj he
        by_cases hrefused : e = .refused
        · exact Or.inr hrefused
        · rw [if_neg hrefused] at hsame
          obtain ⟨events, hevents, hinserted, -⟩ := importLines_stores hstores hgood'
          have hdb : db = s.db := congrArg LogStore.db hsame
          rw [hdb, List.self_eq_append_right] at hinserted
          rw [hinserted] at hevents
          exact Or.inl (List.forall₂_nil_right_iff.mp hevents)
      · intro hclean
        rcases hclean hparses good bad rest hlines earliestTime db e hgood hbad with rfl | rfl
        · cases hgood
          split <;> rfl
        · rw [if_pos rfl]
  · rcases updateFile_of_not_parses timestamp refuses now hold hparses with
      hupdate | ⟨hupdate, -⟩
    · rw [hupdate] at hfailed
      cases hfailed
    · rw [hupdate]
      exact iff_of_true rfl fun hparses' => absurd hparses' hparses

end

/-! ### Pass after pass -/

/-- The store, the complete lines of each file at its last pass, and the events by the file that they
came from. -/
structure Passes (τ : Type) where
  store : LogStore τ
  contents : Text × Text → List Text
  log : List ((Text × Text) × (EventType × Attrs))

namespace Passes
variable {τ : Type} [DecidableEq τ] (timestamp : Int → PyExcept τ) (refuses : Database τ → EventType × Attrs → Bool)

def start : Passes τ := ⟨⟨Database.empty, fun _ => []⟩, fun _ => [], []⟩

def pass (p : Passes τ) (a : Int × LogFile) : Option (Passes τ) :=
  let store := (updateFile timestamp refuses a.1 a.2 p.store).1
  some {
    store := store
    contents := Function.update p.contents a.2.name (completeLines a.2.data)
    log := p.log ++ (store.db.inserted.drop p.store.db.inserted.length).map fun event => (a.2.name, event) }

/-- The file is not removed, and has the lines that were noted; the others may have changed. -/
def Evolves (p : Passes τ) (a : Int × LogFile) : Prop :=
  a.2.isOld = false ∧ (completeLines a.2.data).take (p.store.noted a.2.name) =
    (p.contents a.2.name).take (p.store.noted a.2.name)

def eventsOf (p : Passes τ) (name : Text × Text) : List (EventType × Attrs) :=
  (p.log.filter fun r => r.1 = name).map Prod.snd

/-- The tables have the events of the lines that are noted, each once. -/
structure ExactlyOnce (p : Passes τ) : Prop where
  log : p.log.map Prod.snd = p.store.db.inserted
  stores : p.store.db.Stores timestamp
  lines : ∀ name, List.Forall₂ LoadedAs ((p.contents name).take (p.store.noted name)) (p.eventsOf name)

structure Inv (p : Passes τ) : Prop extends ExactlyOnce timestamp p where
  noted_le : ∀ name, p.store.noted name ≤ (p.contents name).length
  rows : ∀ name, (p.store.files name).length ≤ 1

variable {timestamp refuses}

theorem inv_start : Inv timestamp (start : Passes τ) where
  log := rfl
  stores := empty_stores timestamp
  lines _ := .nil
  noted_le _ := Nat.le_refl _
  rows _ := Nat.zero_le _

omit [DecidableEq τ] in
/-- The events that a pass adds are those of its file. -/
theorem eventsOf_append (p : Passes τ) (store : LogStore τ) (contents : Text × Text → List Text) (name name' : Text × Text)
    (events : List (EventType × Attrs)) :
    eventsOf ⟨store, contents, p.log ++ events.map fun event => (name, event)⟩ name' =
      if name' = name then p.eventsOf name' ++ events else p.eventsOf name' := by
  unfold eventsOf
  dsimp only
  rw [List.filter_append, List.map_append]
  split
  · rename_i heq
    have hall : ∀ r ∈ events.map fun event => (name, event), decide (r.1 = name') = true := by
      intro r hr
      obtain ⟨event, -, rfl⟩ := List.mem_map.mp hr
      exact decide_eq_true heq.symm
    rw [List.filter_eq_self.mpr hall, List.map_map]
    exact congrArg _ (List.map_id events)
  · rename_i hne
    have hnone : ∀ r ∈ events.map fun event => (name, event), ¬decide (r.1 = name') = true := by
      intro r hr
      obtain ⟨event, -, rfl⟩ := List.mem_map.mp hr
      exact fun heq => hne (of_decide_eq_true heq).symm
    rw [List.filter_eq_nil_iff.mpr hnone, List.map_nil, List.append_nil]

/-- A pass that changes nothing but what the file has behind the lines that are noted. -/
theorem Inv.unchanged {p : Passes τ} (h : Inv timestamp p) {name : Text × Text} {lines : List Text}
    (hlines : lines.take (p.store.noted name) = (p.contents name).take (p.store.noted name)) :
    Inv timestamp ⟨p.store, Function.update p.contents name lines, p.log⟩ := by
  refine ⟨⟨h.log, h.stores, fun name' => ?_⟩, fun name' => ?_, h.rows⟩
  · have hevents := h.lines name'
    dsimp only
    by_cases heq : name' = name
    · rw [heq, Function.update_self, hlines]
      rw [heq] at hevents
      exact hevents
    · rw [Function.update_of_ne heq]
      exact hevents
  · have hle := h.noted_le name'
    dsimp only
    by_cases heq : name' = name
    · rw [heq, Function.update_self]
      rw [heq] at hle
      have hlength := congrArg List.length hlines
      rw [List.length_take, List.length_take, Nat.min_eq_left hle] at hlength
      omega
    · rw [Function.update_of_ne heq]
      exact hle

theorem pass_eq (p : Passes τ) (a : Int × LogFile) {store : LogStore τ} {result : PassResult}
    {events : List (EventType × Attrs)} (hupdate : updateFile timestamp refuses a.1 a.2 p.store = (store, result))
    (hevents : store.db.inserted = p.store.db.inserted ++ events) :
    pass timestamp refuses p a = some ⟨store, Function.update p.contents a.2.name (completeLines a.2.data),
      p.log ++ events.map fun event => (a.2.name, event)⟩ := by
  unfold pass
  rw [hupdate]
  dsimp only
  rw [hevents, List.drop_left]

theorem pass_same (p : Passes τ) (a : Int × LogFile) {result : PassResult}
    (hupdate : updateFile timestamp refuses a.1 a.2 p.store = (p.store, result)) :
    pass timestamp refuses p a = some ⟨p.store, Function.update p.contents a.2.name (completeLines a.2.data), p.log⟩ := by
  rw [pass_eq p a hupdate (List.append_nil _).symm, List.map_nil, List.append_nil]

theorem Inv.pass {p q : Passes τ} {a : Int × LogFile} (h : Inv timestamp p) (hevolves : Evolves p a)
    (hpass : Passes.pass timestamp refuses p a = some q) (hclean : Clean timestamp refuses a.1 a.2 p.store) :
    Inv timestamp q := by
  obtain ⟨hold, hlines⟩ := hevolves
  by_cases hparses : p.store.Parses a.2
  · rcases updateFile_of_parses timestamp refuses a.1 hparses with
      ⟨earliestTime, db, hall, hupdate⟩ | ⟨good, bad, rest, earliestTime, db, e, hsplit, hgood, hbad, hupdate⟩
    · obtain ⟨events, hevents, hinserted, hstores⟩ := importLines_stores h.stores hall
      rw [pass_eq p a hupdate hinserted] at hpass
      obtain rfl := Option.some.inj hpass
      have hnoted : ∀ name, LogStore.noted ⟨db, Function.update p.store.files a.2.name
          [⟨(completeLines a.2.data).length, a.2.mtime⟩]⟩ name =
            if name = a.2.name then (completeLines a.2.data).length else p.store.noted name := by
        intro name
        unfold LogStore.noted
        dsimp only
        by_cases heq : name = a.2.name
        · rw [heq, Function.update_self, if_pos rfl]
        · rw [Function.update_of_ne heq, if_neg heq]
      refine ⟨⟨?_, hstores, fun name => ?_⟩, fun name => ?_, fun name => ?_⟩
      · dsimp only
        rw [List.map_append, h.log, hinserted, List.map_map]
        exact congrArg _ (List.map_id events)
      · rw [eventsOf_append]
        dsimp only
        rw [hnoted]
        by_cases heq : name = a.2.name
        · rw [if_pos heq, if_pos heq, heq, Function.update_self, List.take_length]
          have hsplit := List.take_append_drop (p.store.noted a.2.name) (completeLines a.2.data)
          rw [← hsplit, hlines]
          exact List.rel_append (h.lines a.2.name) hevents
        · rw [if_neg heq, if_neg heq, Function.update_of_ne heq]
          exact h.lines name
      · dsimp only
        rw [hnoted, Function.update_apply]
        split
        · exact Nat.le_refl _
        · exact h.noted_le name
      · dsimp only
        rw [Function.update_apply]
        split
        · exact Nat.le_refl _
        · exact h.rows name
    · have hsame : updateFile timestamp refuses a.1 a.2 p.store = (p.store, .failed) := by
        rw [hupdate]
        rcases hclean hparses good bad rest hsplit earliestTime db e hgood hbad with rfl | rfl
        · cases hgood
          split <;> rfl
        · rw [if_pos rfl]
      rw [pass_same p a hsame] at hpass
      obtain rfl := Option.some.inj hpass
      exact h.unchanged hlines
  · rcases updateFile_of_not_parses timestamp refuses a.1 hold hparses with
      hupdate | ⟨hupdate, -⟩
    · rw [pass_same p a hupdate] at hpass
      obtain rfl := Option.some.inj hpass
      exact h.unchanged hlines
    · rw [pass_same p a hupdate] at hpass
      obtain rfl := Option.some.inj hpass
      exact h.unchanged hlines

/-- A pass that is not clean leaves events that are not noted. -/
theorem Inv.clean_of_exactlyOnce {p q : Passes τ} {a : Int × LogFile} (h : Inv timestamp p)
    (hpass : Passes.pass timestamp refuses p a = some q) (hq : ExactlyOnce timestamp q) :
    Clean timestamp refuses a.1 a.2 p.store := by
  intro hparses good bad rest hsplit earliestTime db e hgood hbad
  have hall := importLines_of_split hgood hbad rest
  rw [← hsplit] at hall
  rcases updateFile_of_parses timestamp refuses a.1 hparses with
    ⟨earliestTime', db', hall', -⟩ | ⟨good', bad', rest', earliestTime', db', e', hsplit', hgood', hbad', hupdate⟩
  · rw [hall] at hall'
    cases hall'
  · have hall' := importLines_of_split hgood' hbad' rest'
    rw [← hsplit', hall] at hall'
    obtain ⟨rfl, he⟩ := Prod.mk.inj hall'
    obtain rfl := Except.error.inj he
    by_cases hrefused : e = .refused
    · exact Or.inr hrefused
    · rw [if_neg hrefused] at hupdate
      obtain ⟨events, hevents, hinserted, -⟩ := importLines_stores h.stores hgood
      rw [pass_eq p a hupdate hinserted] at hpass
      obtain rfl := Option.some.inj hpass
      have hnew := (hq.lines a.2.name).length_eq
      have hbefore := (h.lines a.2.name).length_eq
      rw [eventsOf_append, if_pos rfl, List.length_append, ← hbefore, List.length_take, List.length_take] at hnew
      have hnoted : LogStore.noted { p.store with db := db } a.2.name = p.store.noted a.2.name := rfl
      dsimp only at hnew
      rw [hnoted, Nat.min_eq_left (h.noted_le a.2.name)] at hnew
      have hzero : events = [] := List.length_eq_zero_iff.mp (by omega)
      rw [hzero] at hevents
      exact Or.inl (List.forall₂_nil_right_iff.mp hevents)

/-- A pass that fails leaves no trace exactly when no line raises after one that was inserted, and one
that parses notes all complete lines. After any passes, each line that is noted is in the tables once
exactly when all passes were so. -/
theorem exactlyOnce_iff_clean (timestamp : Int → PyExcept τ) (refuses : Database τ → EventType × Attrs → Bool) :
    (∀ (s : LogStore τ) (now : Int) (file : LogFile), s.db.Stores timestamp → file.isOld = false →
      (updateFile timestamp refuses now file s).2 = .failed →
        ((updateFile timestamp refuses now file s).1 = s ↔ Clean timestamp refuses now file s)) ∧
    (∀ (s t : LogStore τ) (now : Int) (file : LogFile) (startTime : Int) (newEvents : Nat),
      updateFile timestamp refuses now file s = (t, .parsed startTime newEvents) →
        t.noted file.name = (completeLines file.data).length) ∧
    ∀ (passes : List (Int × LogFile)) (p : Passes τ), Run (Passes.pass timestamp refuses) Evolves start passes p →
      ((∀ begun q, begun <+: passes → Run (Passes.pass timestamp refuses) Evolves start begun q →
        ExactlyOnce timestamp q) ↔
          EachStep (Passes.pass timestamp refuses) (fun p a => Clean timestamp refuses a.1 a.2 p.store) start passes) := by
  refine ⟨fun s now file hstores hold hfailed => updateFile_failed_iff hstores hold hfailed,
    fun s t now file startTime newEvents h => noted_of_parsed h, fun passes p h => ?_⟩
  refine h.forall_prefix_iff_of_ok (I := Inv timestamp) Inv.toExactlyOnce ?_ ?_ inv_start
  · intro p q a hinv hevolves hpass hclean
    exact hinv.pass hevolves hpass hclean
  · intro p q a hinv _ hpass hq
    exact hinv.clean_of_exactlyOnce hpass hq

/-! ### A line that is repaired -/

/-- The example line and a line that cannot be loaded. -/
def brokenFile : LogFile where
  name := ("events.out".toList, "bank".toList)
  data := exampleLine ++ '\n' :: "broken".toList ++ ['\n']
  mtime := "1.0".toList
  isOld := false

/-- The same with the second line repaired. -/
def repairedFile : LogFile where
  name := ("events.out".toList, "bank".toList)
  data := exampleLine ++ '\n' :: exampleLine ++ ['\n']
  mtime := "2.0".toList
  isOld := false

theorem exactlyOnce_iff_clean_repaired :
    (∀ begun q, begun <+: [(8000, { brokenFile with data := "broken\n".toList }), (9000, repairedFile)] →
      Run (Passes.pass (fun n => .ok n) fun _ _ => false) Evolves start begun q → ExactlyOnce (fun n => .ok n) q) ↔
      EachStep (Passes.pass (fun n => .ok n) fun _ _ => false)
        (fun p a => Clean (fun n => .ok n) (fun _ _ => false) a.1 a.2 p.store) start
        [(8000, { brokenFile with data := "broken\n".toList }), (9000, repairedFile)] :=
  (exactlyOnce_iff_clean (fun n => .ok n) fun _ _ => false).2.2 _ _
    (.cons ⟨rfl, rfl⟩ rfl (.cons ⟨rfl, by decide⟩ rfl (.refl _)))

/-- The amount of the rows of a class. -/
def amounts (s : LogStore Int) (t : EventType) : List Int := (s.db.aggregate t).map Prod.snd

/-- The first pass fails and stores the first line, and the second one stores it again. -/
theorem failed_pass_leaves_trace :
    ∃ p q : Passes Int,
      Run (Passes.pass (fun n => .ok n) fun _ _ => false) Evolves start [(8000, brokenFile)] p ∧
      Run (Passes.pass (fun n => .ok n) fun _ _ => false) Evolves start [(8000, brokenFile), (9000, repairedFile)] q ∧
      (updateFile (fun n => .ok n) (fun _ _ => false) 8000 brokenFile (start : Passes Int).store).2 = .failed ∧
      amounts (start : Passes Int).store .bankDeposit = [] ∧ amounts p.store .bankDeposit = [5] ∧
      p.store.noted brokenFile.name = 0 ∧ q.store.noted repairedFile.name = 2 ∧
      amounts q.store .bankDeposit = [15] := by
  refine ⟨_, _, .cons ⟨rfl, rfl⟩ rfl (.refl _), .cons ⟨rfl, rfl⟩ rfl (.cons ⟨rfl, by decide⟩ rfl (.refl _)),
    ?_, rfl, ?_, ?_, ?_, ?_⟩ <;> decide

end Passes

end BitBlinder.Events
