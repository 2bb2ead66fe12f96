import Mathlib.Data.List.Nodup
import BitBlinder.Basic

/-!
# `BWHistory`: the bandwidth of the last minute

Every history keeps one value per tick, and only the histories in `BW_UPDATERS`
are shifted on a tick. A history leaves that set when more idle ticks have gone
by than it has values, so what is outside of it is zero everywhere and a shift
would not change it: the lists are the ones that shifting everything gives.

The histories are a family over all time; one that has not been created yet is
as new, which no tick changes.
-/

namespace BitBlinder.Client

set_option autoImplicit false

/-- Total number of past values to store. -/
def MAX_VALUES : Nat := 60

structure BWHistory where
  bytesRead : List Int
  bytesWritten : List Int
  totalRead : Int
  totalWritten : Int
  endedAt : Option Int
  noUpdateTicks : Nat

namespace BWHistory

def create : BWHistory where
  bytesRead := List.replicate MAX_VALUES 0
  bytesWritten := List.replicate MAX_VALUES 0
  totalRead := 0
  totalWritten := 0
  endedAt := none
  noUpdateTicks := 0

/-- `values[-1]` -/
def lastOf (values : List Int) : PyExcept Int :=
  match values.getLast? with
  | some x => .ok x
  | none => .error .indexError

/-- `values.pop(0)` and `values.append(0)` -/
def popAppend : List Int → PyExcept (List Int)
  | [] => .error .indexError
  | _ :: rest => .ok (rest ++ [0])

/-- `values[k] += amount` -/
def addAt (values : List Int) (k : Nat) (amount : Int) : PyExcept (List Int) :=
  if k < values.length then .ok (values.modify k (· + amount)) else .error .indexError

/-- The flag says whether something was transferred in the last interval. -/
def updateBwStats (h : BWHistory) : PyExcept (BWHistory × Bool) := do
  let lastRead ← lastOf h.bytesRead
  let lastWrite ← lastOf h.bytesWritten
  let bytesRead ← popAppend h.bytesRead
  let bytesWritten ← popAppend h.bytesWritten
  return ({ h with bytesRead := bytesRead, bytesWritten := bytesWritten }, decide (0 < lastRead + lastWrite))

/-- `handle_bw_event`, less the entry in `BW_UPDATERS`. -/
def addBytes (h : BWHistory) (dataRead dataWritten : Int) : PyExcept BWHistory := do
  let bytesRead ← addAt h.bytesRead (MAX_VALUES - 1) dataRead
  let bytesWritten ← addAt h.bytesWritten (MAX_VALUES - 1) dataWritten
  return { h with
    bytesRead := bytesRead
    bytesWritten := bytesWritten
    totalRead := h.totalRead + dataRead
    totalWritten := h.totalWritten + dataWritten
    noUpdateTicks := 0 }

end BWHistory

/-- All histories, and those that the next tick looks at. -/
structure Bandwidths (ι : Type) where
  objects : ι → BWHistory
  BW_UPDATERS : List ι

/-- The order in which a set is gone through, which Python leaves open. -/
abbrev SetOrder (ι : Type) := { arrange : List ι → List ι // ∀ l, (arrange l).Perm l }

namespace Bandwidths
variable {ι : Type} [DecidableEq ι]

def init : Bandwidths ι := ⟨fun _ => BWHistory.create, []⟩

def addUpdater (s : Bandwidths ι) (i : ι) : Bandwidths ι :=
  if i ∈ s.BW_UPDATERS then s else { s with BW_UPDATERS := s.BW_UPDATERS ++ [i] }

def set (s : Bandwidths ι) (i : ι) (h : BWHistory) : Bandwidths ι :=
  { s with objects := Function.update s.objects i h }

/-- The loop of `update_all`: the histories, and `toRemove` unless an exception ended it. -/
def updateEach : List ι → (ι → BWHistory) → List ι → (ι → BWHistory) × Option (List ι)
  | [], objects, toRemove => (objects, some toRemove)
  | i :: rest, objects, toRemove =>
    match (objects i).updateBwStats with
    | .error _ => (objects, none)
    | .ok (h, active) =>
      let h := if active then h else { h with noUpdateTicks := h.noUpdateTicks + 1 }
      let toRemove := if MAX_VALUES < h.noUpdateTicks then toRemove ++ [i] else toRemove
      updateEach rest (Function.update objects i h) toRemove

/-- An exception is logged and leaves the set as it was. -/
def updateAll (s : Bandwidths ι) (order : SetOrder ι) : Bandwidths ι :=
  match updateEach (order.val s.BW_UPDATERS) s.objects [] with
  | (objects, some toRemove) => ⟨objects, s.BW_UPDATERS.diff toRemove⟩
  | (objects, none) => { s with objects := objects }

def handleBwEvent (s : Bandwidths ι) (i : ι) (dataRead dataWritten : Int) : PyExcept (Bandwidths ι) := do
  let h ← (s.objects i).addBytes dataRead dataWritten
  return (s.set i h).addUpdater i

def onBwTransferDone (s : Bandwidths ι) (i : ι) (now : Int) : Bandwidths ι :=
  (s.set i { s.objects i with endedAt := some now }).addUpdater i

end Bandwidths

inductive BandwidthCall (ι : Type) where
  | handleBwEvent (i : ι) (dataRead dataWritten : Int)
  | onBwTransferDone (i : ι) (now : Int)
  | updateAll (order : SetOrder ι)

namespace Bandwidths
variable {ι : Type} [DecidableEq ι]

def step (s : Bandwidths ι) : BandwidthCall ι → PyExcept (Bandwidths ι)
  | .handleBwEvent i dataRead dataWritten => s.handleBwEvent i dataRead dataWritten
  | .onBwTransferDone i now => .ok (s.onBwTransferDone i now)
  | .updateAll order => .ok (s.updateAll order)

def run (s : Bandwidths ι) (calls : List (BandwidthCall ι)) : PyExcept (Bandwidths ι) := calls.foldlM step s

end Bandwidths

/-! ### The reference: every tick shifts every history -/

/-- The values of one history. -/
structure Values where
  read : List Int
  written : List Int

namespace Values

def shift (values : List Int) : List Int := values.tail ++ [0]

/-- The amounts are added to the interval that is running. -/
def report (values : List Int) (amount : Int) : List Int := values.modify (MAX_VALUES - 1) (· + amount)

variable {ι : Type} [DecidableEq ι]

def step (v : ι → Values) : BandwidthCall ι → ι → Values
  | .handleBwEvent i dataRead dataWritten =>
    Function.update v i ⟨report (v i).read dataRead, report (v i).written dataWritten⟩
  | .onBwTransferDone _ _ => v
  | .updateAll _ => fun i => ⟨shift (v i).read, shift (v i).written⟩

def zero : ι → Values := fun _ => ⟨List.replicate MAX_VALUES 0, List.replicate MAX_VALUES 0⟩

def eager (calls : List (BandwidthCall ι)) : ι → Values := calls.foldl step zero

/-- What was reported to a history in all. -/
def reported (i : ι) : List (BandwidthCall ι) → Int × Int
  | [] => (0, 0)
  | .handleBwEvent j dataRead dataWritten :: calls =>
    if j = i then (dataRead + (reported i calls).1, dataWritten + (reported i calls).2) else reported i calls
  | _ :: calls => reported i calls

/-- The last `k` values are zero. -/
def Idle (k : Nat) (values : List Int) : Prop := ∀ x ∈ values.drop (values.length - k), x = 0

theorem length_shift {values : List Int} (h : values.length = MAX_VALUES) : (shift values).length = MAX_VALUES := by
  rw [shift, List.length_append, List.length_tail, h]
  rfl

theorem length_report {values : List Int} (h : values.length = MAX_VALUES) (amount : Int) :
    (report values amount).length = MAX_VALUES := by
  rw [report, List.length_modify, h]

theorem idle_zero (values : List Int) : Idle 0 values := by
  intro x hx
  rw [Nat.sub_zero, List.drop_length] at hx
  cases hx

theorem Idle.mono {j k : Nat} {values : List Int} (h : Idle k values) (hle : j ≤ k) : Idle j values := by
  intro x hx
  refine h x (List.mem_of_mem_drop (i := values.length - j - (values.length - k)) ?_)
  rw [List.drop_drop]
  have hsum : values.length - k + (values.length - j - (values.length - k)) = values.length - j := by omega
  rwa [hsum]

/-- One more value is zero after a tick. -/
theorem Idle.shift {k : Nat} {values : List Int} (h : Idle k values) (hpos : values ≠ []) :
    Idle (k + 1) (shift values) := by
  cases values with
  | nil => exact absurd rfl hpos
  | cons head rest =>
    intro x hx
    rw [Values.shift, List.tail_cons, List.length_append, List.length_singleton, Nat.add_sub_add_right,
      List.drop_append_of_le_length (Nat.sub_le _ _)] at hx
    rcases List.mem_append.mp hx with hrest | hzero
    · refine h x ?_
      rw [List.length_cons]
      by_cases hk : k ≤ rest.length
      · rwa [Nat.succ_sub hk, List.drop_succ_cons]
      · have hall : rest.length + 1 - k = 0 := by omega
        rw [hall]
        exact List.mem_cons_of_mem head (List.mem_of_mem_drop hrest)
    · exact List.mem_singleton.mp hzero

/-- Values that are all zero are the same after a tick. -/
theorem shift_of_zero {values : List Int} (hpos : values ≠ []) (h : ∀ x ∈ values, x = 0) :
    shift values = values := by
  cases values with
  | nil => exact absurd rfl hpos
  | cons head rest =>
    have hrep := List.eq_replicate_of_mem h
    rw [List.length_cons] at hrep
    rw [hrep, shift, List.replicate_succ, List.tail_cons, ← List.replicate_succ']
    rfl

end Values

/-! ### Between the two -/

namespace BWHistory
open Values (shift report Idle)

/-- A history whose lists have `MAX_VALUES` entries, zero as far back as the ticks that were counted. -/
structure Sound (h : BWHistory) : Prop where
  read_length : h.bytesRead.length = MAX_VALUES
  written_length : h.bytesWritten.length = MAX_VALUES
  read_idle : Idle h.noUpdateTicks h.bytesRead
  written_idle : Idle h.noUpdateTicks h.bytesWritten

/-- Nothing is left in the lists. -/
def Zero (h : BWHistory) : Prop := (∀ x ∈ h.bytesRead, x = 0) ∧ ∀ x ∈ h.bytesWritten, x = 0

/-- A history that is looked at on a tick; an idle interval is counted. -/
def tick (h : BWHistory) : BWHistory :=
  { h with
    bytesRead := shift h.bytesRead
    bytesWritten := shift h.bytesWritten
    noUpdateTicks :=
      if 0 < h.bytesRead.getLastD 0 + h.bytesWritten.getLastD 0 then h.noUpdateTicks else h.noUpdateTicks + 1 }

/-- A history that was told of a transfer. -/
def plus (h : BWHistory) (dataRead dataWritten : Int) : BWHistory :=
  { h with
    bytesRead := report h.bytesRead dataRead
    bytesWritten := report h.bytesWritten dataWritten
    totalRead := h.totalRead + dataRead
    totalWritten := h.totalWritten + dataWritten
    noUpdateTicks := 0 }

theorem ne_nil_of_full {values : List Int} (h : values.length = MAX_VALUES) : values ≠ [] := by
  rintro rfl
  cases h

theorem lastOf_eq {values : List Int} (h : values ≠ []) : lastOf values = .ok (values.getLastD 0) := by
  cases values with
  | nil => exact absurd rfl h
  | cons head rest =>
    rw [lastOf, List.getLast?_cons, List.getLastD_cons, List.getLastD_eq_getLast?]

theorem popAppend_eq {values : List Int} (h : values ≠ []) : popAppend values = .ok (shift values) := by
  cases values with
  | nil => exact absurd rfl h
  | cons head rest => rfl

theorem addAt_eq {values : List Int} (h : values.length = MAX_VALUES) (amount : Int) :
    addAt values (MAX_VALUES - 1) amount = .ok (report values amount) := by
  rw [addAt, h, if_pos (by decide)]
  rfl

variable {h : BWHistory}

theorem Sound.updateBwStats (hs : h.Sound) :
    h.updateBwStats = .ok ({ h with bytesRead := shift h.bytesRead, bytesWritten := shift h.bytesWritten },
      decide (0 < h.bytesRead.getLastD 0 + h.bytesWritten.getLastD 0)) := by
  have hread := ne_nil_of_full hs.read_length
  have hwritten := ne_nil_of_full hs.written_length
  rw [BWHistory.updateBwStats, lastOf_eq hread, lastOf_eq hwritten, popAppend_eq hread, popAppend_eq hwritten]
  rfl

theorem Sound.addBytes (hs : h.Sound) (dataRead dataWritten : Int) :
    h.addBytes dataRead dataWritten = .ok (h.plus dataRead dataWritten) := by
  rw [BWHistory.addBytes, addAt_eq hs.read_length, addAt_eq hs.written_length]
  rfl

theorem Sound.plus (hs : h.Sound) (dataRead dataWritten : Int) : (h.plus dataRead dataWritten).Sound where
  read_length := Values.length_report hs.read_length dataRead
  written_length := Values.length_report hs.written_length dataWritten
  read_idle := Values.idle_zero _
  written_idle := Values.idle_zero _

theorem sound_create : create.Sound where
  read_length := rfl
  written_length := rfl
  read_idle := Values.idle_zero _
  written_idle := Values.idle_zero _

theorem zero_create : create.Zero := ⟨fun _ hx => List.eq_of_mem_replicate hx, fun _ hx => List.eq_of_mem_replicate hx⟩

theorem tick_noUpdateTicks_le : h.tick.noUpdateTicks ≤ h.noUpdateTicks + 1 := by
  dsimp only [tick]
  split <;> omega

theorem Sound.tick (hs : h.Sound) : h.tick.Sound where
  read_length := Values.length_shift hs.read_length
  written_length := Values.length_shift hs.written_length
  read_idle := (hs.read_idle.shift (ne_nil_of_full hs.read_length)).mono tick_noUpdateTicks_le
  written_idle := (hs.written_idle.shift (ne_nil_of_full hs.written_length)).mono tick_noUpdateTicks_le

/-- A history that is dropped from the updates is zero. -/
theorem Sound.zero (hs : h.Sound) (hticks : MAX_VALUES < h.noUpdateTicks) : h.Zero := by
  have hread := hs.read_idle
  have hwritten := hs.written_idle
  unfold Idle at hread hwritten
  rw [hs.read_length, Nat.sub_eq_zero_of_le hticks.le, List.drop_zero] at hread
  rw [hs.written_length, Nat.sub_eq_zero_of_le hticks.le, List.drop_zero] at hwritten
  exact ⟨hread, hwritten⟩

end BWHistory

namespace Bandwidths
variable {ι : Type} {s : Bandwidths ι}

/-- Every history is sound, and one that is not updated is zero. -/
structure Inv (s : Bandwidths ι) : Prop where
  nodup : s.BW_UPDATERS.Nodup
  sound : ∀ i, (s.objects i).Sound
  zero : ∀ i, i ∉ s.BW_UPDATERS → (s.objects i).Zero

theorem inv_init : (init : Bandwidths ι).Inv where
  nodup := List.nodup_nil
  sound _ := BWHistory.sound_create
  zero _ _ := BWHistory.zero_create

variable [DecidableEq ι]

/-- The loop ticks the histories of its list and collects those that were idle for too long. -/
theorem updateEach_eq (updaters : List ι) (objects : ι → BWHistory) (toRemove : List ι)
    (hnodup : updaters.Nodup) (hsound : ∀ i, (objects i).Sound) :
    updateEach updaters objects toRemove =
      (fun i => if i ∈ updaters then (objects i).tick else objects i,
        some (toRemove ++ updaters.filter fun i => MAX_VALUES < (objects i).tick.noUpdateTicks)) := by
  induction updaters generalizing objects toRemove with
  | nil => simp [updateEach]
  | cons j rest ih =>
    obtain ⟨hj, hrest⟩ := List.nodup_cons.mp hnodup
    have htick : (objects j).updateBwStats = _ := (hsound j).updateBwStats
    have hsound' : ∀ i, (Function.update objects j (objects j).tick i).Sound := by
      intro i
      by_cases hij : i = j
      · rw [hij, Function.update_self]
        exact (hsound j).tick
      · rw [Function.update_of_ne hij]
        exact hsound i
    have hstep : updateEach (j :: rest) objects toRemove =
        updateEach rest (Function.update objects j (objects j).tick)
          (if MAX_VALUES < (objects j).tick.noUpdateTicks then toRemove ++ [j] else toRemove) := by
      rw [updateEach, htick]
      dsimp only [BWHistory.tick]
      by_cases hactive : 0 < (objects j).bytesRead.getLastD 0 + (objects j).bytesWritten.getLastD 0
      · simp only [hactive, decide_true, ↓reduceIte]
      · simp only [hactive, decide_false, Bool.false_eq_true, ↓reduceIte]
    rw [hstep, ih _ _ hrest hsound']
    refine Prod.ext ?_ ?_
    · funext i
      by_cases hij : i = j
      · rw [hij]
        simp [hj]
      · simp [hij]
    · have hfilter : (rest.filter fun i => MAX_VALUES < (Function.update objects j (objects j).tick i).tick.noUpdateTicks)
          = rest.filter fun i => MAX_VALUES < (objects i).tick.noUpdateTicks := by
        refine List.filter_congr fun i hi => ?_
        have hij : i ≠ j := by
          rintro rfl
          exact hj hi
        rw [Function.update_of_ne hij]
      dsimp only
      rw [hfilter, List.filter_cons]
      split <;> simp_all

/-- A tick in whatever order the set is gone through. -/
theorem Inv.updateAll_eq (h : s.Inv) (order : SetOrder ι) :
    s.updateAll order =
      ⟨fun i => if i ∈ order.val s.BW_UPDATERS then (s.objects i).tick else s.objects i,
        s.BW_UPDATERS.diff ((order.val s.BW_UPDATERS).filter
          fun i => MAX_VALUES < (s.objects i).tick.noUpdateTicks)⟩ := by
  have hnodup := (order.property s.BW_UPDATERS).nodup_iff.mpr h.nodup
  unfold updateAll
  rw [updateEach_eq _ _ _ hnodup h.sound]
  rfl

theorem Inv.updateAll_objects (h : s.Inv) (order : SetOrder ι) (i : ι) :
    (s.updateAll order).objects i = if i ∈ s.BW_UPDATERS then (s.objects i).tick else s.objects i := by
  rw [h.updateAll_eq]
  simp only [(order.property s.BW_UPDATERS).mem_iff]

theorem Inv.mem_updateAll (h : s.Inv) (order : SetOrder ι) (i : ι) :
    i ∈ (s.updateAll order).BW_UPDATERS ↔
      i ∈ s.BW_UPDATERS ∧ (s.objects i).tick.noUpdateTicks ≤ MAX_VALUES := by
  rw [h.updateAll_eq, List.Nodup.mem_sdiff_iff h.nodup, List.mem_filter,
    (order.property s.BW_UPDATERS).mem_iff, decide_eq_true_eq]
  constructor
  · rintro ⟨hi, hkeep⟩
    refine ⟨hi, ?_⟩
    by_contra hlt
    exact hkeep ⟨hi, by omega⟩
  · rintro ⟨hi, hle⟩
    exact ⟨hi, fun hremove => absurd hremove.2 (by omega)⟩

theorem Inv.updateAll (h : s.Inv) (order : SetOrder ι) : (s.updateAll order).Inv := by
  have hsound : ∀ i, ((s.updateAll order).objects i).Sound := by
    intro i
    rw [h.updateAll_objects]
    split
    · exact (h.sound i).tick
    · exact h.sound i
  refine ⟨?_, hsound, ?_⟩
  · rw [h.updateAll_eq]
    exact List.Nodup.diff h.nodup
  · intro i hi
    rw [h.mem_updateAll] at hi
    rw [h.updateAll_objects]
    split
    · rename_i hmem
      refine (h.sound i).tick.zero ?_
      by_contra hle
      exact hi ⟨hmem, by omega⟩
    · rename_i hmem
      exact h.zero i hmem

/-- Setting a history and putting it into the set. -/
theorem Inv.set (h : s.Inv) (i : ι) {b : BWHistory} (hb : b.Sound) : ((s.set i b).addUpdater i).Inv := by
  have hmem : ∀ j, j ∈ ((s.set i b).addUpdater i).BW_UPDATERS ↔ j ∈ s.BW_UPDATERS ∨ j = i := by
    intro j
    unfold addUpdater Bandwidths.set
    dsimp only
    split
    · rename_i hi
      constructor
      · exact Or.inl
      · rintro (hj | rfl)
        · exact hj
        · exact hi
    · simp
  have hobjects : ((s.set i b).addUpdater i).objects = Function.update s.objects i b := by
    unfold addUpdater Bandwidths.set
    split <;> rfl
  refine ⟨?_, ?_, ?_⟩
  · unfold addUpdater Bandwidths.set
    dsimp only
    split
    · exact h.nodup
    · rename_i hi
      refine List.nodup_append.mpr ⟨h.nodup, List.pairwise_singleton _ i, ?_⟩
      rintro a ha b hb rfl
      rw [List.mem_singleton] at hb
      rw [hb] at ha
      exact hi ha
  · intro j
    rw [hobjects]
    by_cases hj : j = i
    · rw [hj, Function.update_self]
      exact hb
    · rw [Function.update_of_ne hj]
      exact h.sound j
  · intro j hj
    rw [hmem] at hj
    rw [hobjects, Function.update_of_ne (fun heq => hj (Or.inr heq))]
    exact h.zero j fun hj' => hj (Or.inl hj')

theorem objects_addUpdater (i j : ι) (b : BWHistory) :
    ((s.set i b).addUpdater i).objects j = if j = i then b else s.objects j := by
  unfold addUpdater Bandwidths.set
  rw [← Function.update_apply]
  split <;> rfl

/-- The lists are those of the reference. -/
def Agrees (s : Bandwidths ι) (v : ι → Values) : Prop :=
  ∀ i, (s.objects i).bytesRead = (v i).read ∧ (s.objects i).bytesWritten = (v i).written

/-- One call: it raises nothing, and the lists stay those of the reference. For a history that is
not updated this is so because it is zero. -/
theorem Inv.step (h : s.Inv) {v : ι → Values} (hv : s.Agrees v) (c : BandwidthCall ι) :
    ∃ t, s.step c = .ok t ∧ t.Inv ∧ t.Agrees (Values.step v c) ∧
      ∀ i, (t.objects i).totalRead = (s.objects i).totalRead + (Values.reported i [c]).1 ∧
        (t.objects i).totalWritten = (s.objects i).totalWritten + (Values.reported i [c]).2 := by
  cases c with
  | handleBwEvent i dataRead dataWritten =>
    have hadd : s.handleBwEvent i dataRead dataWritten =
        .ok ((s.set i ((s.objects i).plus dataRead dataWritten)).addUpdater i) := by
      rw [handleBwEvent, (h.sound i).addBytes]
      rfl
    refine ⟨_, hadd, h.set i ((h.sound i).plus dataRead dataWritten), ?_, ?_⟩
    · intro j
      rw [objects_addUpdater, Values.step, Function.update_apply]
      split
      · exact ⟨congrArg (Values.report · dataRead) (hv i).1, congrArg (Values.report · dataWritten) (hv i).2⟩
      · exact hv j
    · intro j
      rw [objects_addUpdater, Values.reported]
      by_cases hj : j = i
      · rw [if_pos hj, if_pos hj.symm, hj]
        simp [Values.reported, BWHistory.plus]
      · rw [if_neg hj, if_neg (Ne.symm hj)]
        simp [Values.reported]
  | onBwTransferDone i now =>
    obtain ⟨hread, hwritten, hridle, hwidle⟩ := h.sound i
    refine ⟨_, rfl, h.set i ⟨hread, hwritten, hridle, hwidle⟩, ?_, ?_⟩
    · intro j
      rw [onBwTransferDone, objects_addUpdater, Values.step]
      split
      · rename_i hj
        rw [hj]
        exact hv i
      · exact hv j
    · intro j
      rw [onBwTransferDone, objects_addUpdater]
      split
      · rename_i hj
        simp [Values.reported, hj]
      · simp [Values.reported]
  | updateAll order =>
    refine ⟨_, rfl, h.updateAll order, ?_, ?_⟩
    · intro i
      obtain ⟨hread, hwritten⟩ := hv i
      rw [h.updateAll_objects, Values.step]
      dsimp only
      rw [← hread, ← hwritten]
      split
      · exact ⟨rfl, rfl⟩
      · rename_i hi
        obtain ⟨hzread, hzwritten⟩ := h.zero i hi
        exact ⟨(Values.shift_of_zero (BWHistory.ne_nil_of_full (h.sound i).read_length) hzread).symm,
          (Values.shift_of_zero (BWHistory.ne_nil_of_full (h.sound i).written_length) hzwritten).symm⟩
    · intro i
      rw [h.updateAll_objects]
      split <;> simp [Values.reported, BWHistory.tick]

end Bandwidths

theorem Values.reported_cons {ι : Type} [DecidableEq ι] (i : ι) (c : BandwidthCall ι) (calls : List (BandwidthCall ι)) :
    reported i (c :: calls) = ((reported i [c]).1 + (reported i calls).1, (reported i [c]).2 + (reported i calls).2) := by
  cases c with
  | handleBwEvent j dataRead dataWritten =>
    simp only [reported]
    split <;> simp
  | onBwTransferDone j now => simp [reported]
  | updateAll order => simp [reported]

namespace Bandwidths
variable {ι : Type} [DecidableEq ι]

theorem Inv.run {s : Bandwidths ι} (h : s.Inv) {v : ι → Values} (hv : s.Agrees v)
    (calls : List (BandwidthCall ι)) :
    ∃ t, s.run calls = .ok t ∧ t.Inv ∧ t.Agrees (calls.foldl Values.step v) ∧
      ∀ i, (t.objects i).totalRead = (s.objects i).totalRead + (Values.reported i calls).1 ∧
        (t.objects i).totalWritten = (s.objects i).totalWritten + (Values.reported i calls).2 := by
  induction calls generalizing s v with
  | nil => exact ⟨s, rfl, h, hv, fun i => by simp [Values.reported]⟩
  | cons c calls ih =>
    obtain ⟨u, hu, hinv, hagrees, htotals⟩ := h.step hv c
    obtain ⟨t, ht, hinv', hagrees', htotals'⟩ := ih hinv hagrees
    refine ⟨t, ?_, hinv', hagrees', ?_⟩
    · rw [Bandwidths.run, List.foldlM_cons, hu]
      exact ht
    · intro i
      obtain ⟨hread, hwritten⟩ := htotals i
      obtain ⟨hread', hwritten'⟩ := htotals' i
      rw [Values.reported_cons, hread', hread, hwritten', hwritten]
      exact ⟨add_assoc _ _ _, add_assoc _ _ _⟩

/-- After any calls, the lists are those that shifting every history on every tick gives, and the
totals are the sums of what was reported. -/
theorem lazy_eq_eager (calls : List (BandwidthCall ι)) :
    ∃ s, (init : Bandwidths ι).run calls = .ok s ∧ ∀ i,
      (s.objects i).bytesRead = (Values.eager calls i).read ∧
      (s.objects i).bytesWritten = (Values.eager calls i).written ∧
      (s.objects i).bytesRead.length = MAX_VALUES ∧ (s.objects i).bytesWritten.length = MAX_VALUES ∧
      (s.objects i).totalRead = (Values.reported i calls).1 ∧
      (s.objects i).totalWritten = (Values.reported i calls).2 := by
  obtain ⟨s, hs, hinv, hagrees, htotals⟩ := inv_init.run (v := Values.zero) (fun _ => ⟨rfl, rfl⟩) calls
  refine ⟨s, hs, fun i => ?_⟩
  obtain ⟨hread, hwritten⟩ := htotals i
  refine ⟨(hagrees i).1, (hagrees i).2, (hinv.sound i).read_length, (hinv.sound i).written_length, ?_, ?_⟩
  · rw [hread]
    exact zero_add _
  · rw [hwritten]
    exact zero_add _

end Bandwidths

end BitBlinder.Client
