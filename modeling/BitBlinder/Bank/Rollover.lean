import BitBlinder.Bank.SpentStore
import BitBlinder.Runs

/-!
# The spent store across interval rollovers

`InStep` says that the store has exactly the two accepted intervals as keys and
still holds the hash of every accepted coin of those intervals. A rollover
keeps it exactly when the first interval learned is positive and each later one
is the next, or the same one again with no coin of it accepted yet: the code
resets the current interval's sets unconditionally and deletes one fixed key.
-/

namespace BitBlinder.Bank

set_option autoImplicit false

open Struct

variable (cfg : Config)

/-- The hash of the coin is in the set `deposit_acoin` would look in. -/
def Recorded (s : Server) (coin : ACoin) : Prop :=
  ∃ sets hashes set, s.acoins.lookup coin.interval = some sets ∧
    getCorrectSet cfg (coin.store cfg.md5).first = .ok set ∧
    sets[set]? = some hashes ∧ coin.store cfg.md5 ∈ hashes

structure InStep (s : Server) (current : Int) : Prop where
  keys : ∀ k, k ∈ s.acoins ↔ k = current - 1 ∨ k = current
  noKeyError : ∀ blob, (depositAcoin cfg s blob current).2 ≠ .error .keyError
  kept : ∀ coin ∈ s.accepted, coin.isFresh current = true → Recorded cfg s coin

/-- What a call of `deposit_acoin` can do to the store. -/
theorem depositAcoin_cases (s : Server) (blob : Bytes) (current : Int) :
    (depositAcoin cfg s blob current).1 = s ∨
    ∃ coin rest sets hashes set,
      (depositAcoin cfg s blob current).2 = .ok (.accepted, coin, rest) ∧
      coin.isValid cfg.acoinKey.toPublicKey ACoin.isFresh current = .ok true ∧
      getCorrectSet cfg (coin.store cfg.md5).first = .ok set ∧
      s.acoins.lookup coin.interval = some sets ∧ sets[set]? = some hashes ∧
      coin.store cfg.md5 ∉ hashes ∧
      (depositAcoin cfg s blob current).1 = { s with
        acoins := s.acoins.insert coin.interval (sets.set set (coin.store cfg.md5 :: hashes))
        accepted := s.accepted ++ [coin] } := by
  unfold depositAcoin
  split
  · exact Or.inl rfl
  · rename_i coin rest hread
    split
    · exact Or.inl rfl
    · exact Or.inl rfl
    · rename_i hvalid
      dsimp only
      split
      · exact Or.inl rfl
      · rename_i set hset
        split
        · exact Or.inl rfl
        · rename_i sets hsets
          split
          · exact Or.inl rfl
          · rename_i hashes hhashes
            split
            · exact Or.inl rfl
            · rename_i hnew
              exact Or.inr ⟨coin, rest, sets, hashes, set, rfl, hvalid, hset, hsets, hhashes, hnew, rfl⟩

theorem depositAcoin_frame (s : Server) (blob : Bytes) (current : Int) :
    (depositAcoin cfg s blob current).1.current = s.current ∧
      (depositAcoin cfg s blob current).1.isInitialize = s.isInitialize := by
  rcases depositAcoin_cases cfg s blob current with hsame |
    ⟨_, _, _, _, _, _, _, _, _, _, _, hstate⟩
  · rw [hsame]
    exact ⟨rfl, rfl⟩
  · rw [hstate]
    exact ⟨rfl, rfl⟩

theorem depositAcoin_keyError {s : Server} {blob : Bytes} {current : Int}
    (h : (depositAcoin cfg s blob current).2 = .error .keyError) :
    ∃ coin : ACoin, coin.isFresh current = true ∧ coin.interval ∉ s.acoins := by
  unfold depositAcoin at h
  split at h
  · rename_i e hread
    obtain ⟨text, rfl⟩ := ACoin.readBinary_error hread
    simp at h
  · rename_i coin rest hread
    split at h
    · rename_i e hvalid
      rcases ACoin.isValid_error hvalid with rfl | rfl <;> simp at h
    · simp at h
    · rename_i hvalid
      dsimp only at h
      split at h
      · rename_i e hset
        unfold getCorrectSet at hset
        split at hset <;> simp_all
      · split at h
        · rename_i hnone
          exact ⟨coin, (ACoin.isValid_eq_true hvalid).1, AList.lookup_eq_none.mp hnone⟩
        · split at h
          · simp at h
          · split at h <;> simp at h

theorem noKeyError_of_keys {s : Server} {current : Int}
    (hkeys : ∀ k, k ∈ s.acoins ↔ k = current - 1 ∨ k = current) (blob : Bytes) :
    (depositAcoin cfg s blob current).2 ≠ .error .keyError := by
  intro h
  obtain ⟨coin, hfresh, habsent⟩ := depositAcoin_keyError cfg h
  exact habsent ((hkeys _).mpr ((ACoin.isFresh_iff _ _).mp hfresh))

variable {cfg}

theorem recorded_insert {s t : Server} {coin new : ACoin} {sets : SpentSets}
    {hashes : List Digest} {set : Nat} (hsets : s.acoins.lookup new.interval = some sets)
    (hhashes : sets[set]? = some hashes)
    (ht : t.acoins = s.acoins.insert new.interval (sets.set set (new.store cfg.md5 :: hashes)))
    (h : Recorded cfg s coin) : Recorded cfg t coin := by
  obtain ⟨sets', hashes', set', hsets', hset', hhashes', hmem⟩ := h
  by_cases hint : coin.interval = new.interval
  · rw [hint, hsets] at hsets'
    have hsame := Option.some.inj hsets'
    subst hsame
    refine ⟨sets.set set (new.store cfg.md5 :: hashes), ?_⟩
    by_cases hidx : set' = set
    · subst hidx
      rw [hhashes] at hhashes'
      have hsame := Option.some.inj hhashes'
      subst hsame
      obtain ⟨hlt, _⟩ := List.getElem?_eq_some_iff.mp hhashes
      exact ⟨new.store cfg.md5 :: hashes, set', by rw [ht, hint, AList.lookup_insert], hset',
        by simp [hlt], List.mem_cons_of_mem _ hmem⟩
    · exact ⟨hashes', set', by rw [ht, hint, AList.lookup_insert], hset',
        by rw [List.getElem?_set_ne (Ne.symm hidx), hhashes'], hmem⟩
  · exact ⟨sets', hashes', set', by rw [ht, AList.lookup_insert_ne hint, hsets'], hset', hhashes', hmem⟩

theorem recorded_new {s t : Server} {new : ACoin} {sets : SpentSets}
    {hashes : List Digest} {set : Nat}
    (hset : getCorrectSet cfg (new.store cfg.md5).first = .ok set)
    (hhashes : sets[set]? = some hashes)
    (ht : t.acoins = s.acoins.insert new.interval (sets.set set (new.store cfg.md5 :: hashes))) :
    Recorded cfg t new := by
  obtain ⟨hlt, _⟩ := List.getElem?_eq_some_iff.mp hhashes
  exact ⟨_, new.store cfg.md5 :: hashes, set, by rw [ht, AList.lookup_insert], hset,
    by simp [hlt], List.mem_cons_self⟩

/-- A deposit keeps the store in step and accepts no coin of a later interval. -/
theorem depositAcoin_inStep {s : Server} {current : Int} (h : InStep cfg s current)
    (hbound : ∀ coin ∈ s.accepted, coin.interval ≤ current) (blob : Bytes) :
    InStep cfg (depositAcoin cfg s blob current).1 current ∧
      ∀ coin ∈ (depositAcoin cfg s blob current).1.accepted, coin.interval ≤ current := by
  rcases depositAcoin_cases cfg s blob current with hsame |
    ⟨new, rest, sets, hashes, set, _, hvalid, hset, hsets, hhashes, _, hstate⟩
  · rw [hsame]
    exact ⟨h, hbound⟩
  · have hfresh := (ACoin.isFresh_iff _ _).mp (ACoin.isValid_eq_true hvalid).1
    rw [hstate]
    have hkeys : ∀ k, k ∈ s.acoins.insert new.interval (sets.set set (new.store cfg.md5 :: hashes)) ↔
        k = current - 1 ∨ k = current := by
      intro k
      rw [AList.mem_insert, h.keys k]
      constructor
      · rintro (rfl | hk)
        · exact hfresh
        · exact hk
      · exact Or.inr
    refine ⟨⟨hkeys, noKeyError_of_keys cfg hkeys, ?_⟩, ?_⟩
    · intro coin hcoin hf
      rcases List.mem_append.mp hcoin with hold | hnew
      · exact recorded_insert hsets hhashes rfl (h.kept coin hold hf)
      · rw [List.mem_singleton.mp hnew]
        exact recorded_new (s := s) hset hhashes rfl
    · intro coin hcoin
      rcases List.mem_append.mp hcoin with hold | hnew
      · exact hbound coin hold
      · rw [List.mem_singleton.mp hnew]
        omega

/-- Initialised, in step with the interval learned last, and no coin accepted from the future. -/
structure At (cfg : Config) (current : AcoinInterval) (s : Server) : Prop where
  current_eq : s.current = some current
  initialized : s.isInitialize = true
  positive : 1 ≤ current.id
  inStep : InStep cfg s current.id
  bound : ∀ coin ∈ s.accepted, coin.interval ≤ current.id

theorem depositAcoin_at {s : Server} {current : AcoinInterval} (h : At cfg current s)
    (blob : Bytes) : At cfg current (depositAcoin cfg s blob current.id).1 := by
  obtain ⟨hcurrent, hinit⟩ := depositAcoin_frame cfg s blob current.id
  obtain ⟨hstep, hbound⟩ := depositAcoin_inStep h.inStep h.bound blob
  exact ⟨hcurrent.trans h.current_eq, hinit.trans h.initialized, h.positive, hstep, hbound⟩

inductive Settled (cfg : Config) (s : Server) : Prop where
  | before (hcurrent : s.current = none) (hinit : s.isInitialize = false)
      (hclosed : s.isListening = false) (hnone : s.accepted = [])
  | after (current : AcoinInterval) (h : At cfg current s)

/-- What a lookup that returns an interval does to the store. -/
theorem lookup_spec (cfg : Config) (s : Server) (i x r y : Int) :
    ∃ t, handle cfg s (.lookup [(i, x), (r, y)]) = some t ∧ t.current = some ⟨i, x, y⟩ ∧
      t.isInitialize = true ∧ t.accepted = s.accepted ∧
      ∀ k, t.acoins.lookup k =
        if s.isInitialize then
          if k = (getIntervals i).1 - 1 then none
          else if k = i then some (emptySets cfg) else s.acoins.lookup k
        else if k = i then some (emptySets cfg)
        else if k = (getIntervals i).1 then some (emptySets cfg) else none := by
  have hsnd : (getIntervals i).2 = i := by
    unfold getIntervals
    split <;> rfl
  refine ⟨_, rfl, ?_⟩
  unfold learnedCurrentAcoinInterval onNewInterval
  dsimp only
  rw [hsnd]
  cases hinit : s.isInitialize with
  | false =>
    simp only [Bool.false_eq_true, if_false, initializeStore, hsnd]
    refine ⟨trivial, trivial, trivial, ?_⟩
    intro k
    by_cases hk : k = i
    · subst hk
      simp
    · rw [AList.lookup_insert_ne hk, if_neg hk]
      by_cases hp : k = (getIntervals i).1
      · subst hp
        rw [← AList.insert_empty, AList.lookup_insert, if_pos rfl]
      · rw [if_neg hp, AList.lookup_eq_none, AList.mem_keys, AList.keys_singleton]
        simpa using hp
  | true =>
    simp only [if_true]
    split
    · rename_i t e heq
      split at heq
      · simp at heq
      · rename_i habsent
        simp only [Prod.mk.injEq] at heq
        rw [← heq.1]
        refine ⟨rfl, rfl, rfl, ?_⟩
        intro k
        by_cases hk : k = (getIntervals i).1 - 1
        · rw [if_pos hk, hk]
          exact AList.lookup_eq_none.mpr habsent
        · by_cases hki : k = i
          · subst hki
            simp [hk]
          · rw [AList.lookup_insert_ne hki, if_neg hk, if_neg hki]
    · rename_i t heq
      split at heq
      · simp only [Prod.mk.injEq] at heq
        rw [← heq.1]
        refine ⟨rfl, rfl, rfl, ?_⟩
        intro k
        by_cases hk : k = (getIntervals i).1 - 1
        · rw [if_pos hk, hk, AList.lookup_erase]
        · rw [AList.lookup_erase_ne hk]
          by_cases hki : k = i
          · subst hki
            simp [hk]
          · rw [AList.lookup_insert_ne hki, if_neg hk, if_neg hki]
      · simp at heq

/-- The intervals a bank may learn: none negative, none earlier than the last one. -/
def NonDecreasing (s : Server) (e : Event) : Prop :=
  ∀ i, e.learned = some i →
    match s.current with
    | none => 0 ≤ i
    | some current => current.id ≤ i

/-- The store is in step after every call of `on_new_interval`. -/
def InStepAfter (cfg : Config) (s : Server) (e : Event) : Prop :=
  ∀ i, e.learned = some i → ∀ t, handle cfg s e = some t → InStep cfg t i

/-- A positive first interval, then the next one each time, or the same one again
while none of its coins has been accepted. -/
def RolloverSafe (s : Server) (e : Event) : Prop :=
  ∀ i, e.learned = some i →
    match s.current with
    | none => 1 ≤ i
    | some current =>
      i = current.id + 1 ∨ (i = current.id ∧ ∀ coin ∈ s.accepted, coin.interval ≠ i)

theorem learned_eq_some {e : Event} {i : Int} (h : e.learned = some i) :
    ∃ x r y, e = .lookup [(i, x), (r, y)] := by
  unfold Event.learned at h
  split at h
  · rename_i interval x r y
    have hi := Option.some.inj h
    subst hi
    exact ⟨x, r, y, rfl⟩
  · simp at h

theorem not_recorded_of_empty {s : Server} {coin : ACoin}
    (h : s.acoins.lookup coin.interval = some (emptySets cfg)) : ¬ Recorded cfg s coin := by
  rintro ⟨sets, hashes, set, hsets, _, hhashes, hmem⟩
  rw [h] at hsets
  have hsame := Option.some.inj hsets
  subst hsame
  unfold emptySets at hhashes
  rw [List.getElem?_replicate] at hhashes
  split at hhashes
  · have hnil := Option.some.inj hhashes
    subst hnil
    simp at hmem
  · simp at hhashes

theorem recorded_congr {s t : Server} {coin : ACoin}
    (h : t.acoins.lookup coin.interval = s.acoins.lookup coin.interval)
    (hs : Recorded cfg s coin) : Recorded cfg t coin := by
  obtain ⟨sets, hashes, set, hsets, hrest⟩ := hs
  exact ⟨sets, hashes, set, h.trans hsets, hrest⟩

theorem mem_of_lookup_eq {s : Server} {k : Int} {sets : Option SpentSets}
    (h : s.acoins.lookup k = sets) : k ∈ s.acoins ↔ sets.isSome = true := by
  rw [← AList.lookup_isSome, h]

/-- The first interval learned. -/
theorem inStep_first {t : Server} {i : Int} (hnone : t.accepted = [])
    (hlookup : ∀ k, t.acoins.lookup k =
      if k = i then some (emptySets cfg)
      else if k = (getIntervals i).1 then some (emptySets cfg) else none) (hi : 0 ≤ i) :
    InStep cfg t i ↔ 1 ≤ i := by
  constructor
  · intro h
    by_contra hlt
    have hzero : i = 0 := by omega
    subst hzero
    have hmem := (h.keys (-1)).mpr (Or.inl rfl)
    rw [mem_of_lookup_eq (hlookup (-1))] at hmem
    simp [getIntervals] at hmem
  · intro h
    have hprev : (getIntervals i).1 = i - 1 := by
      unfold getIntervals
      rw [if_neg (by omega)]
    have hkeys : ∀ k, k ∈ t.acoins ↔ k = i - 1 ∨ k = i := by
      intro k
      rw [mem_of_lookup_eq (hlookup k), hprev]
      by_cases hk : k = i
      · simp [hk]
      · by_cases hp : k = i - 1
        · simp [hp]
        · simp [hk, hp]
    refine ⟨hkeys, noKeyError_of_keys cfg hkeys, ?_⟩
    intro coin hcoin
    rw [hnone] at hcoin
    simp at hcoin

/-- Any later interval: only the next one, or the same one without accepted coins,
leaves the two right keys with what was recorded under them. -/
theorem inStep_next {s t : Server} {c i : Int} (hc : 1 ≤ c) (hci : c ≤ i) (hs : InStep cfg s c)
    (hbound : ∀ coin ∈ s.accepted, coin.interval ≤ c) (haccepted : t.accepted = s.accepted)
    (hlookup : ∀ k, t.acoins.lookup k =
      if k = i - 2 then none else if k = i then some (emptySets cfg) else s.acoins.lookup k) :
    InStep cfg t i ↔ i = c + 1 ∨ (i = c ∧ ∀ coin ∈ s.accepted, coin.interval ≠ i) := by
  have hkeep : ∀ coin ∈ s.accepted, coin.isFresh c = true → coin.interval ≠ i - 2 →
      coin.interval ≠ i → Recorded cfg t coin := by
    intro coin hcoin hfresh hold hnew
    apply recorded_congr _ (hs.kept coin hcoin hfresh)
    rw [hlookup, if_neg hold, if_neg hnew]
  have hmem : ∀ k, k ∈ t.acoins ↔ k ≠ i - 2 ∧ (k = i ∨ k = c - 1 ∨ k = c) := by
    intro k
    rw [mem_of_lookup_eq (hlookup k)]
    by_cases hk : k = i - 2
    · simp [hk]
    · by_cases hki : k = i
      · simp [hki]
      · rw [if_neg hk, if_neg hki, AList.lookup_isSome, hs.keys k]
        simp [hk, hki]
  constructor
  · intro h
    have hprev := (hmem (i - 1)).mp ((h.keys (i - 1)).mpr (Or.inl rfl))
    by_cases hnext : i = c + 1
    · exact Or.inl hnext
    · have hsame : i = c := by omega
      refine Or.inr ⟨hsame, ?_⟩
      intro coin hcoin hint
      have hfresh : coin.isFresh i = true := (ACoin.isFresh_iff _ _).mpr (Or.inr hint)
      have hrecorded := h.kept coin (haccepted ▸ hcoin) hfresh
      refine not_recorded_of_empty ?_ hrecorded
      rw [hlookup, if_neg (by omega), if_pos hint]
  · intro h
    have hkeys : ∀ k, k ∈ t.acoins ↔ k = i - 1 ∨ k = i := by
      intro k
      rw [hmem k]
      rcases h with rfl | ⟨rfl, _⟩ <;> omega
    refine ⟨hkeys, noKeyError_of_keys cfg hkeys, ?_⟩
    intro coin hcoin hfresh
    rw [haccepted] at hcoin
    have hle := hbound coin hcoin
    have hint := (ACoin.isFresh_iff _ _).mp hfresh
    rcases h with rfl | ⟨rfl, hnone⟩
    · have hcoinc : coin.interval = c := by omega
      exact hkeep coin hcoin ((ACoin.isFresh_iff _ _).mpr (Or.inr hcoinc)) (by omega) (by omega)
    · have hcoinc : coin.interval ≠ i := hnone coin hcoin
      exact hkeep coin hcoin hfresh (by omega) hcoinc

theorem getIntervals_fst {i : Int} (hi : 1 ≤ i) : (getIntervals i).1 = i - 1 := by
  unfold getIntervals
  rw [if_neg (by omega)]

theorem inStepAfter_iff {s : Server} {e : Event} (hs : Settled cfg s) (hdom : NonDecreasing s e) :
    InStepAfter cfg s e ↔ RolloverSafe s e := by
  unfold InStepAfter RolloverSafe NonDecreasing at *
  apply forall_congr'
  intro i
  apply forall_congr'
  intro hlearned
  have hdomi := hdom i hlearned
  clear hdom
  obtain ⟨x, r, y, rfl⟩ := learned_eq_some hlearned
  obtain ⟨t, ht, _, _, haccepted, hlookup⟩ := lookup_spec cfg s i x r y
  have hforall : (∀ u, handle cfg s (.lookup [(i, x), (r, y)]) = some u → InStep cfg u i) ↔
      InStep cfg t i := by
    simp [ht]
  rw [hforall]
  cases hs with
  | before hcurrent hinit _ hnone =>
    rw [hcurrent] at hdomi ⊢
    simp only [hinit, Bool.false_eq_true, if_false] at hlookup
    exact inStep_first (haccepted.trans hnone) hlookup hdomi
  | after current h =>
    rw [h.current_eq] at hdomi ⊢
    have hpos := h.positive
    have hprev : (getIntervals i).1 - 1 = i - 2 := by
      rw [getIntervals_fst (by omega)]
      omega
    simp only [h.initialized, if_true, hprev] at hlookup
    exact inStep_next hpos hdomi h.inStep h.bound haccepted hlookup

theorem handle_lookup_unlearned {s t : Server} {tup : List (Int × Int)}
    (hlearned : (Event.lookup tup).learned = none) (h : handle cfg s (.lookup tup) = some t) :
    t = s := by
  simp only [handle, Option.some.injEq] at h
  rw [← h]
  unfold learnedCurrentAcoinInterval
  unfold Event.learned at hlearned
  split
  · simp at hlearned
  · rfl

theorem handle_lookup_learned {s t : Server} {e : Event} {i : Int} (hlearned : e.learned = some i)
    (h : handle cfg s e = some t) :
    t.accepted = s.accepted ∧ t.isInitialize = true ∧
      ∃ x y, t.current = some ⟨i, x, y⟩ := by
  obtain ⟨x, r, y, rfl⟩ := learned_eq_some hlearned
  obtain ⟨u, hu, hcurrent, hinit, haccepted, _⟩ := lookup_spec cfg s i x r y
  rw [hu] at h
  have hsame := Option.some.inj h
  subst hsame
  exact ⟨haccepted, hinit, x, y, hcurrent⟩

theorem settled_rollover {s t : Server} {e : Event} {i : Int} (hs : Settled cfg s)
    (hdom : NonDecreasing s e) (hsafe : InStepAfter cfg s e) (hlearned : e.learned = some i)
    (h : handle cfg s e = some t) : Settled cfg t := by
  have hstep := hsafe i hlearned t h
  have hdomi := hdom i hlearned
  have hsafei := (inStepAfter_iff hs hdom).mp hsafe i hlearned
  obtain ⟨haccepted, hinit, x, y, hcurrent⟩ := handle_lookup_learned hlearned h
  cases hs with
  | before hnone _ _ hempty =>
    rw [hnone] at hsafei
    refine .after ⟨i, x, y⟩ ⟨hcurrent, hinit, hsafei, hstep, ?_⟩
    rw [haccepted, hempty]
    simp
  | after current hat =>
    rw [hat.current_eq] at hdomi
    refine .after ⟨i, x, y⟩ ⟨hcurrent, hinit, Int.le_trans hat.positive hdomi, hstep, ?_⟩
    intro coin hcoin
    rw [haccepted] at hcoin
    exact Int.le_trans (hat.bound coin hcoin) hdomi

theorem settled_step {s t : Server} {e : Event} (hs : Settled cfg s) (hdom : NonDecreasing s e)
    (hsafe : InStepAfter cfg s e) (h : handle cfg s e = some t) : Settled cfg t := by
  by_cases hlookup : ∃ tup, e = .lookup tup
  · obtain ⟨tup, rfl⟩ := hlookup
    cases hlearned : (Event.lookup tup).learned with
    | none => rwa [handle_lookup_unlearned hlearned h]
    | some i => exact settled_rollover hs hdom hsafe hlearned h
  · have hmsg : ∀ tup, e ≠ .lookup tup := fun tup he => hlookup ⟨tup, he⟩
    cases hs with
    | before _ _ hclosed _ =>
      cases e with
      | lookup tup => exact absurd rfl (hmsg tup)
      | payment msg => simp [handle, hclosed] at h
      | deposit msg => simp [handle, hclosed] at h
    | after current hat =>
      have hkept : ∀ s blob, At cfg current s → At cfg current (depositAcoin cfg s blob current.id).1 :=
        fun _ blob hs => depositAcoin_at hs blob
      exact .after current (handle_preserves hat.current_eq hkept hmsg h hat)

theorem settled_initial : Settled cfg Server.initial := .before rfl rfl rfl rfl

/-- For every non-decreasing sequence of learned intervals, with any payments and
deposits between them: the store is in step after each rollover if and only if
every rollover is a safe one. -/
theorem in_step_iff_rollovers_safe (cfg : Config) (es : List Event)
    (hdom : EachStep (handle cfg) NonDecreasing Server.initial es) :
    EachStep (handle cfg) (InStepAfter cfg) Server.initial es ↔
      EachStep (handle cfg) RolloverSafe Server.initial es :=
  eachStep_iff (I := Settled cfg) inStepAfter_iff settled_step settled_initial hdom

theorem in_step_iff_rollovers_safe_two_lookups :
    EachStep (handle .example) (InStepAfter .example) Server.initial
        [.lookup [(1, 10), (2, 20)], .lookup [(2, 20), (3, 30)]] ↔
      EachStep (handle .example) RolloverSafe Server.initial
        [.lookup [(1, 10), (2, 20)], .lookup [(2, 20), (3, 30)]] := by
  apply in_step_iff_rollovers_safe
  refine ⟨?_, ?_, trivial⟩
  · intro i hi
    cases hi
    exact (by decide : (0 : Int) ≤ 1)
  · intro i hi
    cases hi
    exact (by decide : (1 : Int) ≤ 2)

/-- The bank learns interval 1 and then interval 3: interval 2 is accepted and has no key. -/
theorem skipped_interval_out_of_step :
    EachStep (handle .example) NonDecreasing Server.initial
        [.lookup [(1, 10), (2, 20)], .lookup [(3, 30), (4, 40)]] ∧
      ¬ EachStep (handle .example) (InStepAfter .example) Server.initial
        [.lookup [(1, 10), (2, 20)], .lookup [(3, 30), (4, 40)]] := by
  constructor
  · refine ⟨?_, ?_, trivial⟩
    · intro i hi
      cases hi
      exact (by decide : (0 : Int) ≤ 1)
    · intro i hi
      cases hi
      exact (by decide : (1 : Int) ≤ 3)
  · intro h
    have hstep := h.2.1 3 rfl _ rfl
    have hkey := (hstep.keys 2).mpr (Or.inl rfl)
    revert hkey
    decide

end BitBlinder.Bank
