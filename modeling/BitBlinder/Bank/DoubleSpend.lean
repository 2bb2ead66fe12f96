import BitBlinder.Bank.Rollover

/-!
# No signature is accepted twice

A coin that passes validation has its interval fixed by its signature, so a
second presentation of the same signature looks in the same set of the same
interval. The store never drops a hash of an accepted interval as long as the
intervals are learned one by one, so it is found there. Nothing is asked of the
hash: a collision only makes the bank refuse more.
-/

namespace BitBlinder.Bank

set_option autoImplicit false

open Struct

variable {cfg : Config}

/-- The bank starts at a positive interval and learns the next one each time. -/
def OneByOne (s : Server) (e : Event) : Prop :=
  ∀ i, e.learned = some i →
    match s.current with
    | none => 1 ≤ i
    | some current => i = current.id + 1

instance decidableOneByOne (s : Server) (e : Event) : Decidable (OneByOne s e) :=
  have : DecidablePred fun i => match s.current with
      | none => 1 ≤ i
      | some current => i = current.id + 1 := fun i =>
    match s.current with
    | none => inferInstanceAs (Decidable (1 ≤ i))
    | some current => inferInstanceAs (Decidable (i = current.id + 1))
  inferInstanceAs (Decidable (∀ i ∈ e.learned, match s.current with
      | none => 1 ≤ i
      | some current => i = current.id + 1))

theorem OneByOne.rolloverSafe {s : Server} {e : Event} (h : OneByOne s e) : RolloverSafe s e := by
  intro i hi
  have hone := h i hi
  cases hcurrent : s.current with
  | none => simpa [hcurrent] using hone
  | some current =>
    rw [hcurrent] at hone
    exact Or.inl hone

theorem OneByOne.nonDecreasing {s : Server} {e : Event} (h : OneByOne s e) : NonDecreasing s e := by
  intro i hi
  have hone := h i hi
  cases hcurrent : s.current with
  | none =>
    rw [hcurrent] at hone
    exact Int.le_trans (by decide) hone
  | some current =>
    rw [hcurrent] at hone
    exact hone ▸ Int.le_add_one (Int.le_refl _)

/-- Distinct signatures, each of a coin that was valid when it was accepted. -/
structure AcceptedOnce (cfg : Config) (s : Server) : Prop where
  nodup : (s.accepted.map ACoin.signature).Nodup
  valid : ∀ coin ∈ s.accepted, ∃ current,
    coin.isValid cfg.acoinKey.toPublicKey ACoin.isFresh current = .ok true

theorem depositAcoin_acceptedOnce {s : Server} {current : Int} (hstep : InStep cfg s current)
    (h : AcceptedOnce cfg s) (blob : Bytes) :
    AcceptedOnce cfg (depositAcoin cfg s blob current).1 := by
  rcases depositAcoin_cases cfg s blob current with hsame |
    ⟨new, rest, sets, hashes, set, _, hvalid, hset, hsets, hhashes, hnew, hstate⟩
  · rwa [hsame]
  · rw [hstate]
    have hfresh := (ACoin.isValid_eq_true hvalid).1
    have hunseen : ∀ coin ∈ s.accepted, coin.signature ≠ new.signature := by
      intro coin hcoin hsig
      obtain ⟨past, hpast⟩ := h.valid coin hcoin
      have hinterval := ACoin.interval_eq_of_signature_eq hpast hvalid hsig
      have hcoinFresh : coin.isFresh current = true := by
        rw [ACoin.isFresh_iff] at hfresh ⊢
        rwa [hinterval]
      obtain ⟨sets', hashes', set', hsets', hset', hhashes', hmem⟩ := hstep.kept coin hcoin hcoinFresh
      have hstore : coin.store cfg.md5 = new.store cfg.md5 := by
        unfold ACoin.store
        rw [hsig]
      rw [hinterval, hsets] at hsets'
      rw [hstore, hset] at hset'
      have heqSets := Option.some.inj hsets'
      have heqSet := Except.ok.inj hset'
      subst heqSets heqSet
      rw [hhashes] at hhashes'
      have heqHashes := Option.some.inj hhashes'
      subst heqHashes
      rw [hstore] at hmem
      exact hnew hmem
    constructor
    · rw [List.map_append, List.map_singleton, ← List.concat_eq_append]
      apply h.nodup.concat
      intro hmem
      obtain ⟨coin, hcoin, hsig⟩ := List.mem_map.mp hmem
      exact hunseen coin hcoin hsig
    · intro coin hcoin
      rcases List.mem_append.mp hcoin with hold | hlast
      · exact h.valid coin hold
      · rw [List.mem_singleton.mp hlast]
        exact ⟨current, hvalid⟩

theorem acceptedOnce_step {s t : Server} {e : Event}
    (h : Settled cfg s ∧ AcceptedOnce cfg s) (hone : OneByOne s e) (ht : handle cfg s e = some t) :
    Settled cfg t ∧ AcceptedOnce cfg t := by
  obtain ⟨hs, honce⟩ := h
  have hdom := hone.nonDecreasing
  have hsafe := (inStepAfter_iff hs hdom).mpr hone.rolloverSafe
  refine ⟨settled_step hs hdom hsafe ht, ?_⟩
  by_cases hlookup : ∃ tup, e = .lookup tup
  · obtain ⟨tup, rfl⟩ := hlookup
    cases hlearned : (Event.lookup tup).learned with
    | none => rwa [handle_lookup_unlearned hlearned ht]
    | some i =>
      have haccepted := (handle_lookup_learned hlearned ht).1
      exact ⟨haccepted ▸ honce.nodup, haccepted ▸ honce.valid⟩
  · have hmsg : ∀ tup, e ≠ .lookup tup := fun tup he => hlookup ⟨tup, he⟩
    cases hs with
    | before _ _ hclosed _ =>
      cases e with
      | lookup tup => exact absurd rfl (hmsg tup)
      | payment msg => simp [handle, hclosed] at ht
      | deposit msg => simp [handle, hclosed] at ht
    | after current hat =>
      have hkept : ∀ s blob, (At cfg current s ∧ AcceptedOnce cfg s) →
          At cfg current (depositAcoin cfg s blob current.id).1 ∧
            AcceptedOnce cfg (depositAcoin cfg s blob current.id).1 := by
        rintro s blob ⟨hat, honce⟩
        exact ⟨depositAcoin_at hat blob, depositAcoin_acceptedOnce hat.inStep honce blob⟩
      exact (handle_preserves hat.current_eq hkept hmsg ht ⟨hat, honce⟩).2

/-- In every run of payments, deposits and one-by-one rollovers, no signature string
is accepted by `deposit_acoin` more than once. -/
theorem no_signature_accepted_twice (cfg : Config) (t : Server) (es : List Event)
    (h : Run (handle cfg) OneByOne Server.initial es t) :
    (t.accepted.map ACoin.signature).Nodup := by
  have hinv := h.invariant (I := fun s => Settled cfg s ∧ AcceptedOnce cfg s) acceptedOnce_step
    ⟨settled_initial, by simp [Server.initial], by simp [Server.initial]⟩
  exact hinv.2.nodup

/-- The coin of interval 1 whose signature is the number one, which raw RSA fixes. -/
def unitCoin : Bytes := List.replicate 32 0 ++ [0, 0, 0, 1] ++ List.replicate 95 0 ++ [1]

/-- The same coin twice in one deposit, and again in a payment after a rollover. -/
def replayedCoin : List Event :=
  [.lookup [(1, 10), (2, 20)], .deposit ([0, 2] ++ unitCoin ++ unitCoin),
    .lookup [(2, 20), (3, 30)], .payment ([1] ++ unitCoin ++ List.replicate 96 0)]

theorem no_signature_accepted_twice_replayed :
    ∃ t, Run (handle .example) OneByOne Server.initial replayedCoin t ∧ t.accepted.length = 1 ∧
      (t.accepted.map ACoin.signature).Nodup := by
  have hlen : (exec (handle .example) Server.initial replayedCoin).any
      (fun t => t.accepted.length == 1) = true := by decide +kernel
  have hok : EachStep (handle .example) OneByOne Server.initial replayedCoin := by
    decide +kernel
  obtain ⟨t, hrun, hone⟩ := exists_run hlen hok
  exact ⟨t, hrun, eq_of_beq hone, no_signature_accepted_twice .example t replayedCoin hrun⟩

end BitBlinder.Bank
