import BitBlinder.Basic
import BitBlinder.Effects
import BitBlinder.Runs

/-!
# How the bank's servers follow the intervals

`BankUtil.py` of the bank, with the table that `CreateACoinIntervals.py` fills.
A lookup reads the table and, once the rows have come, sets the timer for the
next lookup. Times are seconds, as the database and `int(time.time())` have
them. The two callbacks belong to the server that tracks the intervals.
-/

namespace BitBlinder.Bank

set_option autoImplicit false

open Effects

def MAX_BANK_CLOCK_SKEW : Int := 60
def EXPIRED_CHECK_INTERVAL : Int := 60

structure AcoinIntervalRow where
  intervalId : Int
  validAfter : Int
  spoilsOn : Int

namespace AcoinIntervalRow

/-- The second interval comes right after the first. -/
def Follows (a b : AcoinIntervalRow) : Prop := b.intervalId = a.intervalId + 1 ∧ b.validAfter = a.spoilsOn

/-- The second interval comes after the first at some time. -/
def Before (a b : AcoinIntervalRow) : Prop := a.intervalId < b.intervalId ∧ a.spoilsOn ≤ b.validAfter

/-- A time from which the interval is valid and at which it has not spoiled. -/
def Covers (a : AcoinIntervalRow) (now : Int) : Prop := a.validAfter ≤ now ∧ now < a.spoilsOn

instance (a : AcoinIntervalRow) (now : Int) : Decidable (a.Covers now) := inferInstanceAs (Decidable (_ ∧ _))

/-- `valid_after < now and spoils_on > now`. -/
def Current (a : AcoinIntervalRow) (now : Int) : Prop := a.validAfter < now ∧ now < a.spoilsOn

instance (a : AcoinIntervalRow) (now : Int) : Decidable (a.Current now) := inferInstanceAs (Decidable (_ ∧ _))

end AcoinIntervalRow

/-- A table of contiguous intervals with consecutive ids. -/
structure IntervalTable where
  rows : List AcoinIntervalRow
  lasting : ∀ a ∈ rows, a.validAfter < a.spoilsOn
  contiguous : rows.IsChain AcoinIntervalRow.Follows

namespace IntervalTable

/-- The loop of `CreateACoinIntervals.py`; `base` is the end of the last interval there is. -/
def insertIntervalRows (lifetime : Int) : Nat → Int → Int → List AcoinIntervalRow
  | 0, _, _ => []
  | number + 1, base, highestInterval =>
    { intervalId := highestInterval + 1, validAfter := base, spoilsOn := base + lifetime } ::
      insertIntervalRows lifetime number (base + lifetime) (highestInterval + 1)

theorem insertIntervalRows_isChain (lifetime : Int) (number : Nat) (base highestInterval : Int) :
    (insertIntervalRows lifetime number base highestInterval).IsChain AcoinIntervalRow.Follows := by
  induction number generalizing base highestInterval with
  | zero => exact .nil
  | succ number ih =>
    cases number with
    | zero => exact .singleton _
    | succ number => exact .cons_cons ⟨rfl, rfl⟩ (ih (base + lifetime) (highestInterval + 1))

theorem insertIntervalRows_lasting {lifetime : Int} (hlifetime : 0 < lifetime) (number : Nat)
    (base highestInterval : Int) :
    ∀ a ∈ insertIntervalRows lifetime number base highestInterval, a.validAfter < a.spoilsOn := by
  induction number generalizing base highestInterval with
  | zero => exact fun a ha => by cases ha
  | succ number ih =>
    intro a ha
    rcases List.mem_cons.mp ha with rfl | ha
    · exact Int.lt_add_of_pos_right base hlifetime
    · exact ih _ _ a ha

/-- The table that is made from nothing. -/
def create (lifetime : Int) (hlifetime : 0 < lifetime) (number : Nat) (base : Int) : IntervalTable where
  rows := insertIntervalRows lifetime number base 0
  lasting := insertIntervalRows_lasting hlifetime number base 0
  contiguous := insertIntervalRows_isChain lifetime number base 0

/-! ### The query -/

/-- `get_current_acoin_interval_sql`: a subquery of more than one row is an error, and the rows of
the second part have a higher id than those of the first. -/
def currentAcoinInterval (table : IntervalTable) (now : Int) : Option (List (Int × Int)) :=
  match table.rows.filter fun a => a.Current now with
  | [] => some []
  | [a] => some ((a.intervalId, a.spoilsOn) ::
      (table.rows.filter fun b => b.intervalId = a.intervalId + 1).map fun b => (b.intervalId, b.spoilsOn))
  | _ => none

theorem pairwise_before {rows : List AcoinIntervalRow} (hlasting : ∀ a ∈ rows, a.validAfter < a.spoilsOn)
    (hchain : rows.IsChain AcoinIntervalRow.Follows) : rows.Pairwise AcoinIntervalRow.Before := by
  induction rows with
  | nil => exact .nil
  | cons a rows ih =>
    have hrest := ih (fun b hb => hlasting b (List.mem_cons_of_mem a hb)) (List.IsChain.of_cons hchain)
    refine List.pairwise_cons.mpr ⟨fun c hc => ?_, hrest⟩
    cases rows with
    | nil => cases hc
    | cons b rows =>
      obtain ⟨hid, hvalid⟩ : AcoinIntervalRow.Follows a b := (List.isChain_cons_cons.mp hchain).1
      rcases List.mem_cons.mp hc with rfl | hc
      · exact ⟨by omega, by omega⟩
      · obtain ⟨hid', hvalid'⟩ := (List.pairwise_cons.mp hrest).1 c hc
        have hb := hlasting b (List.mem_cons_of_mem a List.mem_cons_self)
        exact ⟨by omega, by omega⟩

/-- What no two elements of a list have is found once. -/
theorem filter_eq_singleton {α : Type} {p : α → Bool} {l : List α} {a : α}
    (h : l.Pairwise fun x y => ¬(p x = true ∧ p y = true)) (ha : a ∈ l) (hp : p a = true) :
    l.filter p = [a] := by
  induction l with
  | nil => cases ha
  | cons b l ih =>
    obtain ⟨hb, hl⟩ := List.pairwise_cons.mp h
    rcases List.mem_cons.mp ha with rfl | ha
    · rw [List.filter_cons_of_pos hp, List.filter_eq_nil_iff.mpr fun c hc hpc => hb c hc ⟨hp, hpc⟩]
    · rw [List.filter_cons_of_neg fun hpb => hb a ha ⟨hpb, hp⟩]
      exact ih hl ha

theorem eq_of_filter {α : Type} {p : α → Bool} {l : List α} {a b : α} (h : l.filter p = [b]) (ha : a ∈ l)
    (hp : p a = true) : a = b := by
  have hmem : a ∈ l.filter p := List.mem_filter.mpr ⟨ha, hp⟩
  rw [h] at hmem
  exact List.mem_singleton.mp hmem

variable (table : IntervalTable) {now : Int} {a b : AcoinIntervalRow}

theorem filter_current (ha : a ∈ table.rows) (hcurrent : a.Current now) :
    (table.rows.filter fun a => a.Current now) = [a] := by
  apply filter_eq_singleton _ ha (decide_eq_true hcurrent)
  apply (pairwise_before table.lasting table.contiguous).imp
  rintro x y ⟨-, hspoils⟩ ⟨hx, hy⟩
  obtain ⟨-, hx⟩ := of_decide_eq_true hx
  obtain ⟨hy, -⟩ := of_decide_eq_true hy
  omega

theorem filter_id (hb : b ∈ table.rows) :
    (table.rows.filter fun c => c.intervalId = b.intervalId) = [b] := by
  apply filter_eq_singleton _ hb (decide_eq_true rfl)
  apply (pairwise_before table.lasting table.contiguous).imp
  rintro x y ⟨hid, -⟩ ⟨hx, hy⟩
  have hx := of_decide_eq_true hx
  have hy := of_decide_eq_true hy
  omega

/-- A time is covered once, and an id is used once. -/
theorem covers_unique (ha : a ∈ table.rows) (hb : b ∈ table.rows) (hca : a.Covers now) (hcb : b.Covers now) :
    a = b := by
  have hfilter : (table.rows.filter fun a => a.Covers now) = [b] := by
    apply filter_eq_singleton _ hb (decide_eq_true hcb)
    apply (pairwise_before table.lasting table.contiguous).imp
    rintro x y ⟨-, hspoils⟩ ⟨hx, hy⟩
    obtain ⟨-, hx⟩ := of_decide_eq_true hx
    obtain ⟨hy, -⟩ := of_decide_eq_true hy
    omega
  exact eq_of_filter hfilter ha (decide_eq_true hca)

theorem id_unique (ha : a ∈ table.rows) (hb : b ∈ table.rows) (hid : a.intervalId = b.intervalId) : a = b :=
  eq_of_filter (table.filter_id hb) ha (decide_eq_true hid)

/-- The query has two rows exactly strictly inside of an interval that another follows. -/
theorem currentAcoinInterval_eq_some_two {current next : Int × Int} :
    table.currentAcoinInterval now = some [current, next] ↔
      ∃ a ∈ table.rows, ∃ b ∈ table.rows, a.Current now ∧ b.intervalId = a.intervalId + 1 ∧
        current = (a.intervalId, a.spoilsOn) ∧ next = (b.intervalId, b.spoilsOn) := by
  constructor
  · intro h
    unfold currentAcoinInterval at h
    split at h
    · cases h
    · rename_i a hrows
      have ha : a ∈ table.rows.filter fun a => a.Current now := by
        rw [hrows]
        exact List.mem_singleton_self a
      obtain ⟨ha, hcurrent⟩ := List.mem_filter.mp ha
      obtain ⟨hfirst, hrest⟩ := List.cons.inj (Option.some.inj h)
      have hnext : next ∈ (table.rows.filter fun b => b.intervalId = a.intervalId + 1).map
          fun b => (b.intervalId, b.spoilsOn) := by
        rw [hrest]
        exact List.mem_singleton_self next
      obtain ⟨b, hb, hnext⟩ := List.mem_map.mp hnext
      obtain ⟨hb, hid⟩ := List.mem_filter.mp hb
      exact ⟨a, ha, b, hb, of_decide_eq_true hcurrent, of_decide_eq_true hid, hfirst.symm, hnext.symm⟩
    · cases h
  · rintro ⟨a, ha, b, hb, hcurrent, hid, rfl, rfl⟩
    unfold currentAcoinInterval
    rw [table.filter_current ha hcurrent]
    dsimp only
    rw [← hid, table.filter_id hb]
    rfl

end IntervalTable

/-! ### Lookups -/

/-- The callbacks of `update_local_acoin_interval`, for a server with the state `β`; the first one
gets `Globals.CURRENT_ACOIN_INTERVAL`, and does nothing where the source passes `None`. -/
structure IntervalCallbacks (β : Type) where
  onNewInterval : List Int → EStateM PyError β Unit
  onAcoinInterval : EStateM PyError β Unit

/-- A lookup that was answered: its time, whether the read failed, and the interval then known. -/
structure IntervalLookup where
  now : Int
  failed : Bool
  known : List Int

/-- The globals of the module, the times of the reads in progress and of the timers that are set,
the server, and the lookups so far. -/
structure IntervalTracker (β : Type) where
  currentAcoinInterval : List Int
  isListening : Bool
  reading : List Int
  scheduled : List Int
  clock : Int
  server : β
  lookups : List IntervalLookup

namespace IntervalTracker
variable {β : Type}

abbrev Track (β : Type) := EStateM PyError (IntervalTracker β)

def runServer (callback : EStateM PyError β Unit) : Track β Unit := fun s =>
  match callback s.server with
  | .ok _ server => .ok () { s with server }
  | .error e server => .error e { s with server }

/-- `update_local_acoin_interval`: the read begins. -/
def updateLocalAcoinInterval (now : Int) : Track β Unit :=
  modify fun s => { s with reading := s.reading ++ [now] }

/-- `learned_current_acoin_interval`; `now` is the time at which the rows come. -/
def learnedCurrentAcoinInterval (callbacks : IntervalCallbacks β) (now : Int) (tup : List (Int × Int)) :
    Track β Unit :=
  match tup with
  | [(interval, expires), (_, expiresNext)] => do
    modify fun s => { s with currentAcoinInterval := [interval, expires, expiresNext] }
    runServer (callbacks.onNewInterval [interval, expires, expiresNext])
    let s ← get
    when (!s.isListening) do
      runServer callbacks.onAcoinInterval
      modify fun s => { s with isListening := true }
    let lookupTime := expires - now + MAX_BANK_CLOCK_SKEW
    let lookupTime := if lookupTime ≤ 0 then EXPIRED_CHECK_INTERVAL else lookupTime
    modify fun s => { s with scheduled := s.scheduled ++ [now + lookupTime] }
  | _ => return ()

def checkAcoinInterval (callbacks : IntervalCallbacks β) (now : Int) (tup : List (Int × Int)) : Track β Unit :=
  if tup = [] then return () else learnedCurrentAcoinInterval callbacks now tup

/-- The end of a read; the errback only prints what failed or was raised. -/
def answered (callbacks : IntervalCallbacks β) (now : Int) (rows : Option (List (Int × Int))) : Track β Unit :=
  match rows with
  | none => return ()
  | some tup => rescue (checkAcoinInterval callbacks now tup) (return ())

/-- The `k`-th timer fires, or the `k`-th read ends. -/
inductive Action where
  | fire (k : Nat) (now : Int)
  | answer (k : Nat) (now : Int) (failed : Bool)

/-- What a read of the table returns. -/
def readRows (table : IntervalTable) (asked : Int) (failed : Bool) : Option (List (Int × Int)) :=
  if failed then none else table.currentAcoinInterval asked

def step (table : IntervalTable) (callbacks : IntervalCallbacks β) (s : IntervalTracker β) :
    Action → Option (IntervalTracker β)
  | .fire k now =>
    match s.scheduled[k]? with
    | none => none
    | some due =>
      if due ≤ now ∧ s.clock ≤ now then
        some (finish (updateLocalAcoinInterval now) { s with scheduled := s.scheduled.eraseIdx k, clock := now })
      else none
  | .answer k now failed =>
    match s.reading[k]? with
    | none => none
    | some asked =>
      if s.clock ≤ now then
        let t := finish (answered callbacks now (readRows table asked failed))
          { s with reading := s.reading.eraseIdx k, clock := now }
        some { t with lookups := t.lookups ++ [{ now := asked, failed, known := t.currentAcoinInterval }] }
      else none

/-- The first lookup has just begun. -/
def start (server : β) (now : Int) : IntervalTracker β where
  currentAcoinInterval := [0, 0]
  isListening := false
  reading := [now]
  scheduled := []
  clock := now
  server := server
  lookups := []

/-- One lookup is in progress or set, and every lookup that read the rows at a time that an interval
covers, another following, left the two in `CURRENT_ACOIN_INTERVAL`. -/
structure Tracks (table : IntervalTable) (s : IntervalTracker β) : Prop where
  one : s.reading.length + s.scheduled.length = 1
  known : ∀ e ∈ s.lookups, e.failed = false → ∀ a ∈ table.rows, ∀ b ∈ table.rows, a.Covers e.now →
    b.intervalId = a.intervalId + 1 → e.known = [a.intervalId, a.spoilsOn, b.spoilsOn]

/-- The callbacks for a new interval return. -/
def CallbacksReturn (callbacks : IntervalCallbacks β) (s : IntervalTracker β) (known : List Int) : Prop :=
  Outcome
    (do
      callbacks.onNewInterval known
      when (!s.isListening) callbacks.onAcoinInterval)
    s.server (fun _ _ => True) fun _ _ => False

/-- A read that ends returns two rows, and the callbacks that it leads to return. -/
def Continues (table : IntervalTable) (callbacks : IntervalCallbacks β) (s : IntervalTracker β) : Action → Prop
  | .fire _ _ => True
  | .answer k _ failed =>
    ∃ asked ∈ s.reading[k]?, failed = false ∧ ∃ a ∈ table.rows, ∃ b ∈ table.rows, a.Current asked ∧
      b.intervalId = a.intervalId + 1 ∧ CallbacksReturn callbacks s [a.intervalId, a.spoilsOn, b.spoilsOn]

variable {table : IntervalTable} {callbacks : IntervalCallbacks β} {s t : IntervalTracker β}

theorem outcome_runServer {callback : EStateM PyError β Unit} {Q : Unit → IntervalTracker β → Prop}
    {E : PyError → IntervalTracker β → Prop} :
    Outcome (runServer callback) s Q E ↔
      Outcome callback s.server (fun u server => Q u { s with server }) fun e server => E e { s with server } := by
  simp only [Outcome, runServer]
  cases callback s.server with
  | ok u server => rfl
  | error e server => rfl

/-- What two rows lead to: the next lookup is set exactly when the callbacks return. -/
def AfterRows (callbacks : IntervalCallbacks β) (known : List Int) (s t : IntervalTracker β) : Prop :=
  t.reading = s.reading ∧ t.lookups = s.lookups ∧
    (CallbacksReturn callbacks s known ∧ t.scheduled.length = s.scheduled.length + 1 ∧
        t.currentAcoinInterval = known ∨
      ¬CallbacksReturn callbacks s known ∧ t.scheduled = s.scheduled)

theorem learned_two (now : Int) (current next : Int × Int) :
    Outcome (learnedCurrentAcoinInterval callbacks now [current, next]) s
      (fun _ t => AfterRows callbacks [current.1, current.2, next.2] s t)
      fun _ t => AfterRows callbacks [current.1, current.2, next.2] s t := by
  obtain ⟨interval, expires⟩ := current
  obtain ⟨nextId, expiresNext⟩ := next
  have hreturn : CallbacksReturn callbacks s [interval, expires, expiresNext] ↔
      Outcome (callbacks.onNewInterval [interval, expires, expiresNext]) s.server
        (fun _ server => if (!s.isListening) = true then
          Outcome callbacks.onAcoinInterval server (fun _ _ => True) fun _ _ => False else True)
        fun _ _ => False := by
    unfold CallbacksReturn
    simp only [outcome_bind, outcome_when]
  unfold learnedCurrentAcoinInterval
  dsimp only
  simp only [outcome_bind, outcome_modify, outcome_runServer, outcome_get, outcome_when]
  unfold AfterRows
  unfold Outcome at hreturn ⊢
  cases hnew : callbacks.onNewInterval [interval, expires, expiresNext] s.server with
  | error e server =>
    rw [hnew] at hreturn
    exact ⟨rfl, rfl, Or.inr ⟨fun h => hreturn.mp h, rfl⟩⟩
  | ok u server =>
    rw [hnew] at hreturn
    dsimp only at hreturn ⊢
    split
    · rename_i hlistening
      rw [if_pos hlistening] at hreturn
      cases hlisten : callbacks.onAcoinInterval server with
      | error e server =>
        rw [hlisten] at hreturn
        exact ⟨rfl, rfl, Or.inr ⟨fun h => hreturn.mp h, rfl⟩⟩
      | ok u server =>
        rw [hlisten] at hreturn
        exact ⟨rfl, rfl, Or.inl ⟨hreturn.mpr trivial, List.length_append, rfl⟩⟩
    · rename_i hlistening
      rw [if_neg hlistening] at hreturn
      exact ⟨rfl, rfl, Or.inl ⟨hreturn.mpr trivial, List.length_append, rfl⟩⟩

theorem learned_none (now : Int) {tup : List (Int × Int)} (h : ∀ current next, tup ≠ [current, next]) :
    learnedCurrentAcoinInterval callbacks now tup = (return () : Track β Unit) := by
  unfold learnedCurrentAcoinInterval
  split
  · exact absurd rfl (h _ _)
  · rfl

/-- What the end of a read changes: another lookup is set exactly when two rows have come and the
callbacks return. -/
theorem answered_spec (table : IntervalTable) (callbacks : IntervalCallbacks β) (now asked : Int) (failed : Bool)
    {t : IntervalTracker β}
    (ht : t = finish (answered callbacks now (readRows table asked failed)) s) :
    t.reading = s.reading ∧ t.lookups = s.lookups ∧
      (t.scheduled.length = s.scheduled.length + 1 ∧ failed = false ∧ (∃ a ∈ table.rows, ∃ b ∈ table.rows,
          a.Current asked ∧ b.intervalId = a.intervalId + 1 ∧
          CallbacksReturn callbacks s [a.intervalId, a.spoilsOn, b.spoilsOn] ∧
          t.currentAcoinInterval = [a.intervalId, a.spoilsOn, b.spoilsOn]) ∨
        t.scheduled = s.scheduled ∧ ¬(failed = false ∧ ∃ a ∈ table.rows, ∃ b ∈ table.rows, a.Current asked ∧
          b.intervalId = a.intervalId + 1 ∧
          CallbacksReturn callbacks s [a.intervalId, a.spoilsOn, b.spoilsOn])) := by
  subst ht
  unfold readRows
  cases failed with
  | true => exact ⟨rfl, rfl, Or.inr ⟨rfl, by simp⟩⟩
  | false =>
    rw [if_neg Bool.false_ne_true]
    by_cases htwo : ∃ current next, table.currentAcoinInterval asked = some [current, next]
    · obtain ⟨current, next, hrows⟩ := htwo
      obtain ⟨a, ha, b, hb, hcurrent, hid, rfl, rfl⟩ := table.currentAcoinInterval_eq_some_two.mp hrows
      rw [hrows]
      have hspec : AfterRows callbacks [a.intervalId, a.spoilsOn, b.spoilsOn] s
          (finish (answered callbacks now (some [(a.intervalId, a.spoilsOn), (b.intervalId, b.spoilsOn)])) s) := by
        apply outcome_finish.mp
        unfold answered checkAcoinInterval
        rw [outcome_rescue, if_neg (List.cons_ne_nil _ _)]
        exact learned_two now (a.intervalId, a.spoilsOn) (b.intervalId, b.spoilsOn)
      obtain ⟨hreading, hlookups, hnext⟩ := hspec
      refine ⟨hreading, hlookups, ?_⟩
      rcases hnext with ⟨hreturn, hscheduled, hknown⟩ | ⟨hraises, hscheduled⟩
      · exact Or.inl ⟨hscheduled, rfl, a, ha, b, hb, hcurrent, hid, hreturn, hknown⟩
      · refine Or.inr ⟨hscheduled, ?_⟩
        rintro ⟨-, a', ha', b', hb', hcurrent', hid', hreturn⟩
        obtain rfl := table.covers_unique ha' ha ⟨Int.le_of_lt hcurrent'.1, hcurrent'.2⟩
          ⟨Int.le_of_lt hcurrent.1, hcurrent.2⟩
        obtain rfl := table.id_unique hb' hb (hid'.trans hid.symm)
        exact hraises hreturn
    · have hnone : finish (answered callbacks now (table.currentAcoinInterval asked)) s = s := by
        unfold answered
        cases hrows : table.currentAcoinInterval asked with
        | none => rfl
        | some tup =>
          have hreturn : checkAcoinInterval callbacks now tup = (return () : Track β Unit) := by
            unfold checkAcoinInterval
            split
            · rfl
            · exact learned_none now fun current next heq => htwo ⟨current, next, by rw [hrows, heq]⟩
          dsimp only
          rw [hreturn]
          rfl
      rw [hnone]
      refine ⟨rfl, rfl, Or.inr ⟨rfl, ?_⟩⟩
      rintro ⟨-, a, ha, b, hb, hcurrent, hid, -⟩
      exact htwo ⟨_, _, table.currentAcoinInterval_eq_some_two.mpr ⟨a, ha, b, hb, hcurrent, hid, rfl, rfl⟩⟩

instance (callbacks : IntervalCallbacks β) (s : IntervalTracker β) (known : List Int) :
    Decidable (CallbacksReturn callbacks s known) :=
  match h : (do
      callbacks.onNewInterval known
      when (!s.isListening) callbacks.onAcoinInterval : EStateM PyError β Unit) s.server with
  | .ok _ _ => isTrue (by rw [CallbacksReturn, Outcome, h]; trivial)
  | .error _ _ => isFalse (by rw [CallbacksReturn, Outcome, h]; exact id)

instance (table : IntervalTable) (callbacks : IntervalCallbacks β) (s : IntervalTracker β) :
    ∀ a, Decidable (Continues table callbacks s a)
  | .fire _ _ => isTrue trivial
  | .answer _ _ _ => inferInstanceAs (Decidable (∃ asked ∈ _, _))

theorem step_fire {k : Nat} {now : Int} (h : step table callbacks s (.fire k now) = some t) :
    k < s.scheduled.length ∧ t.reading = s.reading ++ [now] ∧ t.scheduled = s.scheduled.eraseIdx k ∧
      t.lookups = s.lookups := by
  simp only [step] at h
  split at h
  · cases h
  · rename_i due hdue
    obtain ⟨-, h⟩ := Option.ite_none_right_eq_some.mp h
    cases h
    exact ⟨(List.getElem?_eq_some_iff.mp hdue).1, rfl, rfl, rfl⟩

theorem step_answer {k : Nat} {now : Int} {failed : Bool} (h : step table callbacks s (.answer k now failed) = some t) :
    ∃ asked known, s.reading[k]? = some asked ∧ t.reading = s.reading.eraseIdx k ∧
      t.lookups = s.lookups ++ [{ now := asked, failed, known }] ∧
      (t.scheduled.length = s.scheduled.length + 1 ∧ failed = false ∧ (∃ a ∈ table.rows, ∃ b ∈ table.rows,
          a.Current asked ∧ b.intervalId = a.intervalId + 1 ∧
          CallbacksReturn callbacks s [a.intervalId, a.spoilsOn, b.spoilsOn] ∧
          known = [a.intervalId, a.spoilsOn, b.spoilsOn]) ∨
        t.scheduled = s.scheduled ∧ ¬Continues table callbacks s (.answer k now failed)) := by
  simp only [step] at h
  split at h
  · cases h
  · rename_i asked hasked
    obtain ⟨-, h⟩ := Option.ite_none_right_eq_some.mp h
    obtain ⟨hreading, hlookups, hnext⟩ := answered_spec (s := { s with reading := s.reading.eraseIdx k, clock := now })
      table callbacks now asked failed rfl
    cases h
    refine ⟨asked, _, hasked, hreading, by rw [hlookups], ?_⟩
    rcases hnext with hnext | ⟨hscheduled, hnot⟩
    · exact Or.inl hnext
    · refine Or.inr ⟨hscheduled, ?_⟩
      rintro ⟨asked', hasked', hcontinues⟩
      rw [hasked] at hasked'
      cases hasked'
      exact hnot hcontinues

theorem tracks_step {a : Action} (hs : Tracks table s) (h : step table callbacks s a = some t)
    (hcontinues : Continues table callbacks s a) : Tracks table t := by
  cases a with
  | fire k now =>
    obtain ⟨hk, hreading, hscheduled, hlookups⟩ := step_fire h
    have hone := hs.one
    constructor
    · rw [hreading, hscheduled, List.length_append, List.length_eraseIdx_of_lt hk, List.length_singleton]
      omega
    · rw [hlookups]
      exact hs.known
  | answer k now failed =>
    obtain ⟨asked, known, hasked, hreading, hlookups, hnext⟩ := step_answer h
    have hk : k < s.reading.length := (List.getElem?_eq_some_iff.mp hasked).1
    have hone := hs.one
    rcases hnext with ⟨hscheduled, -, a, ha, b, hb, hcurrent, hid, -, hknown⟩ | ⟨-, hnot⟩
    · constructor
      · rw [hreading, hscheduled, List.length_eraseIdx_of_lt hk]
        omega
      · rw [hlookups]
        intro e he hread a' ha' b' hb' hcovers hid'
        rcases List.mem_append.mp he with he | he
        · exact hs.known e he hread a' ha' b' hb' hcovers hid'
        · rw [List.mem_singleton.mp he] at hcovers ⊢
          obtain rfl := table.covers_unique ha' ha hcovers ⟨Int.le_of_lt hcurrent.1, hcurrent.2⟩
          obtain rfl := table.id_unique hb' hb (hid'.trans hid.symm)
          exact hknown
    · exact absurd hcontinues hnot

theorem continues_of_tracks {a : Action} (hs : Tracks table s) (h : step table callbacks s a = some t)
    (ht : Tracks table t) : Continues table callbacks s a := by
  cases a with
  | fire k now => trivial
  | answer k now failed =>
    obtain ⟨asked, known, hasked, hreading, -, hnext⟩ := step_answer h
    have hk : k < s.reading.length := (List.getElem?_eq_some_iff.mp hasked).1
    rcases hnext with ⟨-, hread, a, ha, b, hb, hcurrent, hid, hreturn, -⟩ | ⟨hscheduled, -⟩
    · exact ⟨asked, hasked, hread, a, ha, b, hb, hcurrent, hid, hreturn⟩
    · -- No lookup is left.
      have hone := hs.one
      have hone' := ht.one
      rw [hreading, hscheduled, List.length_eraseIdx_of_lt hk] at hone'
      omega

/-- The intervals are tracked in every state of a run exactly when each read that ends returns two
rows, that is, was made strictly inside of an interval that another follows, and the callbacks
return. -/
theorem interval_tracking_never_stops (table : IntervalTable) (callbacks : IntervalCallbacks β) (server : β)
    (now : Int) {as : List Action} {s : IntervalTracker β}
    (h : Run (step table callbacks) (fun _ _ => True) (start server now) as s) :
    (∀ first t, first <+: as → Run (step table callbacks) (fun _ _ => True) (start server now) first t →
      Tracks table t) ↔ EachStep (step table callbacks) (Continues table callbacks) (start server now) as := by
  have hstart : Tracks table (start server now) := ⟨rfl, fun e he => by cases he⟩
  exact h.forall_prefix_iff (I := Tracks table) (fun h => h) tracks_step continues_of_tracks hstart

/-- Three intervals of twelve hours. -/
def exampleTable : IntervalTable := IntervalTable.create 43200 (by decide) 3 1000

/-- A server that has nothing to do. -/
def exampleCallbacks : IntervalCallbacks Unit where
  onNewInterval _ := return ()
  onAcoinInterval := return ()

/-- Two lookups, the second of which is made a minute after the first interval has spoiled. -/
theorem interval_tracking_never_stops_two_lookups :
    ∃ s, Run (step exampleTable exampleCallbacks) (fun _ _ => True) (start () 2000)
        [.answer 0 2001 false, .fire 0 44260, .answer 0 44261 false] s ∧
      ∀ first t, first <+: [.answer 0 2001 false, .fire 0 44260, .answer 0 44261 false] →
        Run (step exampleTable exampleCallbacks) (fun _ _ => True) (start () 2000) first t →
        Tracks exampleTable t := by
  have hend : (exec (step exampleTable exampleCallbacks) (start () 2000)
      [.answer 0 2001 false, .fire 0 44260, .answer 0 44261 false]).any (fun _ => true) = true := by
    decide
  have hcontinues : EachStep (step exampleTable exampleCallbacks) (Continues exampleTable exampleCallbacks)
      (start () 2000) [.answer 0 2001 false, .fire 0 44260, .answer 0 44261 false] := by
    decide
  obtain ⟨s, hrun, -⟩ := exists_run hend (eachStep_true _ _)
  exact ⟨s, hrun, (interval_tracking_never_stops exampleTable exampleCallbacks () 2000 hrun).mpr hcontinues⟩

/-- A lookup at the moment at which the second interval begins returns no rows, although the
interval covers it, and is the last. -/
theorem lookup_at_boundary_is_last :
    ∃ s : IntervalTracker Unit, Run (step exampleTable exampleCallbacks) (fun _ _ => True) (start () 44200)
        [.answer 0 44201 false] s ∧
      (∃ a ∈ exampleTable.rows, ∃ b ∈ exampleTable.rows, a.Covers 44200 ∧ b.intervalId = a.intervalId + 1) ∧
      s.currentAcoinInterval = [0, 0] ∧ s.reading = [] ∧ s.scheduled = [] ∧ ¬Tracks exampleTable s := by
  have hend : (exec (step exampleTable exampleCallbacks) (start () 44200) [.answer 0 44201 false]).any (fun s =>
      decide (s.currentAcoinInterval = [0, 0] ∧ s.reading = [] ∧ s.scheduled = [])) = true := by
    decide
  obtain ⟨s, hrun, hdecide⟩ := exists_run hend (eachStep_true _ _)
  obtain ⟨hknown, hreading, hscheduled⟩ := of_decide_eq_true hdecide
  refine ⟨s, hrun, by decide, hknown, hreading, hscheduled, fun htracks => ?_⟩
  have hone := htracks.one
  rw [hreading, hscheduled] at hone
  cases hone

end IntervalTracker

end BitBlinder.Bank
