import BitBlinder.BitTorrent.Stages

/-!
# How the stream of a peer is cut

What the connecter is told, what is written and whether the connection stays open should not
depend on where the stream of the peer is cut. It does not unless the stream comes to one of two places
of the encrypted handshake that look at what else has come: the header-only mode of an incoming
connection fails on data after the initial payload, and an outgoing connection that searches for the
answer of the peer looks at one byte first and at no more until the next delivery.
-/

namespace BitBlinder.PeerWire

open Struct (Bytes packBE unpackBE)
open Search (find lastItems)

set_option autoImplicit false

namespace BTProtocol
variable {κ σ : Type} {env : Context κ σ} {p q r : BTProtocol κ σ} {b m s t pat : Bytes} {maxSearch len : Int}

/-! ## Connections that do not show it -/

variable (env) in
/-- Neither of the two places is come to with what has been received. -/
def Safe (p : BTProtocol κ σ) : Prop :=
  p.halted = true ∨ p.Staged env ∧ p.InReach env ∧ p.surplusOf env = 0 ∧ p.decidedOf env = false

theorem safe_turn (hp : p.Safe env) (h : turn env p = some q) : q.Safe env := by
  rcases hp with hhalted | ⟨hstaged, hreach, hsurplus, hdecided⟩
  · rw [turn_of_halted hhalted] at h
    cases h
  · cases turn_moves hstaged h with
    | halts hhalted => exact Or.inl hhalted
    | fails hraised => exact Or.inl (by simp only [halted, hraised, Option.isSome_some, Bool.or_true])
    | onward hon => exact Or.inr ⟨hon.staged, hon.reach hreach, hon.surplus.trans hsurplus, hon.decided hdecided⟩

theorem searches_of_neg (hp : p.Staged env) (h : p.nextLen < 0) :
    (∃ maxSearch, p.nextFunc = .readCryptoBlock3a maxSearch) ∨ ∃ maxSearch, p.nextFunc = .readCryptoBlock4a maxSearch := by
  obtain ⟨-, -, hstage⟩ := hp
  cases hfunc : p.nextFunc <;> rw [hfunc] at hstage <;> first | exact .inl ⟨_, rfl⟩ | exact .inr ⟨_, rfl⟩ | exfalso
  all_goals simp only at hstage
  all_goals omega

theorem staged_wake (hp : p.Staged env) : p.wake.Staged env := by
  by_cases hlen : 0 ≤ p.nextLen
  · rwa [wake_of_nonneg hlen]
  · have hzero : max p.nextLen 0 = 0 := max_eq_right (by omega)
    have hsearches := searches_of_neg hp (by omega)
    obtain ⟨hpieces, hraised, hstage⟩ := hp
    refine ⟨hpieces, hraised, ?_⟩
    rcases hsearches with ⟨maxSearch, hfunc⟩ | ⟨maxSearch, hfunc⟩
    · rw [hfunc] at hstage
      simp only [wake, hfunc, hzero]
      exact ⟨hstage.1, hstage.2.1, le_rfl, hstage.2.2.2⟩
    · rw [hfunc] at hstage
      simp only [wake, hfunc, hzero]
      exact ⟨hstage.1, hstage.2.1, by decide, hstage.2.2.2⟩

theorem wake_toNat : p.wake.nextLen.toNat = p.nextLen.toNat := by
  unfold wake
  dsimp only
  omega

theorem surplusOf_wake : p.wake.surplusOf env = p.surplusOf env := by
  unfold surplusOf
  rw [wake_toNat]
  rfl

theorem decidedOf_wake : p.wake.decidedOf env = p.decidedOf env := by
  unfold decidedOf
  rw [wake_toNat]
  rfl

theorem safe_wake (hp : p.Safe env) : p.wake.Safe env := by
  rcases hp with hhalted | ⟨hstaged, hreach, hsurplus, hdecided⟩
  · exact Or.inl hhalted
  · exact Or.inr ⟨staged_wake hstaged, hreach, surplusOf_wake.trans hsurplus, decidedOf_wake.trans hdecided⟩

theorem staged_of_more (h : (p.more env b).Staged env) : p.Staged env := by
  obtain ⟨hpieces, hraised, hstage⟩ := h
  refine ⟨hpieces, hraised, ?_⟩
  cases hcrypted : p.crypted with
  | false =>
    rw [more_of_raw hcrypted] at hstage
    exact hcrypted ▸ hstage
  | true =>
    have hsame : (p.more env b).nextFunc = p.nextFunc := rfl
    have hcrypted' : (p.more env b).crypted = true := hcrypted
    rw [hsame] at hstage
    cases hfunc : p.nextFunc <;> rw [hfunc] at hstage <;> simp_all [more]

/-- The functions that do not search are steady, where they do not ask whether there is more. -/
theorem steady_of_staged (hp : p.Staged env) (hsearches : p.nextFunc.searches = false)
    (hpad3 : p.nextFunc = .readCryptoPad3 → p.cryptmode = 1 → unpackBE (lastItems 2 m) ≠ 0)
    (hia : p.nextFunc = .readCryptoIa → p.cryptmode ≠ 1)
    (hblock4b : p.nextFunc = .readCryptoBlock4b → unpackBE ((m.drop 4).take 2) ≠ 0)
    (hpad4 : p.nextFunc ≠ .readCryptoPad4) : SteadyCall env m p := by
  obtain ⟨-, -, hstage⟩ := hp
  cases hfunc : p.nextFunc with
  | readHeader =>
    rw [hfunc] at hstage
    cases hloc : p.locallyInitiated with
    | false =>
      have hsteady : Steady env (readHeaderIncoming env m) p := readHeaderIncoming_steady hstage.1
      exact hsteady.call fun q hq hl => by simp [call, hq, hl, hfunc, hloc]
    | true =>
      have hsteady : Steady env (readHeader env m) p := readHeader_steady hstage.1
      exact hsteady.call fun q hq hl => by simp [call, hq, hl, hfunc, hloc]
  | readCryptoHeader =>
    rw [hfunc] at hstage
    cases hloc : p.locallyInitiated with
    | false =>
      have hsteady : Steady env (readCryptoHeaderIncoming env m) p := readCryptoHeaderIncoming_steady hstage.1
      exact hsteady.call fun q hq hl => by simp [call, hq, hl, hfunc, hloc]
    | true =>
      have hsteady : Steady env (readCryptoHeader env m) p := readCryptoHeader_steady hstage.1
      exact hsteady.call fun q hq hl => by simp [call, hq, hl, hfunc, hloc]
  | readCryptoBlock3a maxSearch =>
    rw [hfunc] at hsearches
    cases hsearches
  | readCryptoBlock3b =>
    rw [hfunc] at hstage
    have hsteady : Steady env (readCryptoBlock3b env m) p := readCryptoBlock3b_steady hstage.1
    exact hsteady.call fun q hq _ => by simp only [call, hq, hfunc]
  | readCryptoBlock3c =>
    have hsteady : Steady env (readCryptoBlock3c m) p := readCryptoBlock3c_steady
    exact hsteady.call fun q hq _ => by simp only [call, hq, hfunc]
  | readCryptoPad3 =>
    have hsteady : Steady env (readCryptoPad3 env m) p := readCryptoPad3_steady (hpad3 hfunc)
    exact hsteady.call fun q hq _ => by simp only [call, hq, hfunc]
  | readCryptoIa =>
    have hsteady : Steady env (readCryptoBlock3done m) p := readCryptoBlock3done_steady (hia hfunc)
    exact hsteady.call fun q hq _ => by simp only [call, hq, hfunc]
  | readCryptoBlock4a maxSearch =>
    rw [hfunc] at hsearches
    cases hsearches
  | readCryptoBlock4b =>
    have hsteady : Steady env (readCryptoBlock4b env m) p := readCryptoBlock4b_steady (.inl (hblock4b hfunc))
    exact hsteady.call fun q hq _ => by simp only [call, hq, hfunc]
  | readCryptoPad4 => exact absurd hfunc hpad4
  | readEncryptedHeader =>
    have hsteady : Steady env (readEncryptedHeader m) p := readEncryptedHeader_steady
    exact hsteady.call fun q hq _ => by simp only [call, hq, hfunc]
  | readOptions =>
    have hsteady : Steady env (readOptions m) p := readOptions_steady
    exact hsteady.call fun q hq _ => by simp only [call, hq, hfunc]
  | readDownloadId =>
    cases hloc : p.locallyInitiated with
    | false =>
      have hsteady : Steady env (readDownloadIdIncoming env m) p := readDownloadIdIncoming_steady
      exact hsteady.call fun q hq hl => by simp [call, hq, hl, hfunc, hloc]
    | true =>
      have hsteady : Steady env (readDownloadId env m) p := readDownloadId_steady
      exact hsteady.call fun q hq hl => by simp [call, hq, hl, hfunc, hloc]
  | readPeerId => exact readPeerId_steadyCall hfunc
  | readLen =>
    have hsteady : Steady env (readLen m) p := readLen_steady
    exact hsteady.call fun q hq _ => by simp only [call, hq, hfunc]
  | readMessage =>
    have hsteady : Steady env (readMessage env m) p := readMessage_steady
    exact hsteady.call fun q hq _ => by simp only [call, hq, hfunc]
  | readDead =>
    rw [hfunc] at hstage
    exact hstage.elim

theorem staged_nextLen (hp : p.Staged env) (hsearches : p.nextFunc.searches = false) (hzero : p.nextLen = 0) :
    p.bufferlen ≠ none := by
  obtain ⟨-, -, hstage⟩ := hp
  cases hfunc : p.nextFunc with
  | readCryptoBlock3a maxSearch =>
    rw [hfunc] at hsearches
    cases hsearches
  | readCryptoBlock4a maxSearch =>
    rw [hfunc] at hsearches
    cases hsearches
  | readLen =>
    rw [hfunc] at hstage
    rw [hstage.1]
    exact Option.some_ne_none _
  | readMessage =>
    rw [hfunc] at hstage
    rw [hstage.1]
    exact Option.some_ne_none _
  | readHeader =>
    rw [hfunc] at hstage
    have hlen := hstage.2.2.1
    have hpos : (0 : Int) < pstr.length := Int.natCast_pos.mpr (Nat.succ_pos _)
    omega
  | readCryptoHeader =>
    rw [hfunc] at hstage
    have hlen := hstage.2.2.1
    have hpos : (0 : Int) < DH_BYTES := by decide
    omega
  | readDead =>
    rw [hfunc] at hstage
    exact hstage.elim
  | _ =>
    rw [hfunc] at hstage
    simp only at hstage
    omega

theorem demand_of_staged (hp : p.Staged env) (hsearches : p.nextFunc.searches = false) : p.demand = p.nextLen.toNat := by
  unfold demand
  rw [if_neg fun hno => staged_nextLen hp hsearches hno.1 hno.2]

/-- A turn of a function that does not search, when more has come. -/
theorem turn_more_of_staged (hp : p.Staged env) (hsearches : p.nextFunc.searches = false)
    (hpad3 : p.nextFunc = .readCryptoPad3 → p.cryptmode = 1 →
      unpackBE (lastItems 2 (p.buffer.take p.nextLen.toNat)) ≠ 0)
    (hia : p.nextFunc = .readCryptoIa → p.cryptmode ≠ 1)
    (hblock4b : p.nextFunc = .readCryptoBlock4b → unpackBE (((p.buffer.take p.nextLen.toNat).drop 4).take 2) ≠ 0)
    (hpad4 : p.nextFunc ≠ .readCryptoPad4) (h : turn env p = some q) :
    turn env (p.more env b) = some (q.more env b) := by
  refine turn_more (staged_nextLen hp hsearches) ?_ h
  rw [demand_of_staged hp hsearches]
  exact steady_of_staged (p := p.rest) hp hsearches hpad3 hia hblock4b hpad4

/-! ## A push and a turn -/

theorem push_of_halted (h : p.halted = true) : p.push env b = p := if_pos (Or.inr h)

theorem push_of_turn (hb : b ≠ []) (h : turn env p = some q) : p.push env b = p.more env b := by
  obtain ⟨hgo, hlen, -, -⟩ := turn_eq_some h
  unfold push
  rw [if_neg (by simp [hb, hgo])]
  exact wake_of_nonneg hlen

theorem push_of_open (hb : b ≠ []) (hgo : p.halted = false) (hlen : 0 ≤ p.nextLen) : p.push env b = p.more env b := by
  unfold push
  rw [if_neg (by simp [hb, hgo])]
  exact wake_of_nonneg hlen

theorem settle_of_halted (h : p.halted = true) : (wire env).settle p = p := Feed.settle_of_none (turn_of_halted h)

/-- The turn is taken whether more has come or not. -/
theorem early_of_turn (hb : b ≠ []) (hsafe : (p.more env b).Safe env) (hturn : turn env (p.more env b) = some (q.more env b))
    (hlen : q.halted = true ∨ 0 ≤ q.nextLen) :
    (q.push env b).Safe env ∧
      ((wire env).settle (p.more env b)).outcome = ((wire env).settle (q.push env b)).outcome := by
  have hsettle : (wire env).settle (p.more env b) = (wire env).settle (q.more env b) := Feed.settle_of_turn hturn
  rw [hsettle]
  by_cases hhalted : q.halted = true
  · have hmore : (q.more env b).halted = true := hhalted
    rw [push_of_halted hhalted, settle_of_halted hmore, settle_of_halted hhalted]
    exact ⟨Or.inl hhalted, rfl⟩
  · rw [push_of_open hb (Bool.not_eq_true _ ▸ hhalted) (hlen.resolve_left hhalted)]
    exact ⟨safe_turn hsafe hturn, rfl⟩

/-- The rest of what a safe connection has is not too much for the functions that do not search. -/
theorem early_of_staged (hb : b ≠ []) (hp : (p.more env b).Staged env) (hreach : (p.more env b).InReach env)
    (hsurplus : (p.more env b).surplusOf env = 0) (hdecided : (p.more env b).decidedOf env = false)
    (hsearches : p.nextFunc.searches = false) (h : turn env p = some q) :
    (q.push env b).Safe env ∧
      ((wire env).settle (p.more env b)).outcome = ((wire env).settle (q.push env b)).outcome := by
  have hstaged := staged_of_more hp
  obtain ⟨-, -, hdemand, -⟩ := turn_eq_some h
  rw [demand_of_staged hstaged hsearches] at hdemand
  have hlonger : (p.more env b).buffer.length = p.buffer.length + b.length := by
    simp only [more, List.length_append, decoded_length]
  have hpos := List.length_pos_iff.mpr hb
  have htake : (p.more env b).buffer.take p.nextLen.toNat = p.buffer.take p.nextLen.toNat :=
    List.take_append_of_le_length hdemand
  have hfunc' : (p.more env b).nextFunc = p.nextFunc := rfl
  refine early_of_turn hb (.inr ⟨hp, hreach, hsurplus, hdecided⟩) ?_ ?_
  · refine turn_more_of_staged hstaged hsearches (fun hfunc hmode hia => ?_) (fun hfunc hmode => ?_)
      (fun hfunc hpad => ?_) (fun hfunc => ?_) h
    · -- All that comes after a pad without an initial payload would be too much.
      have hmore : (p.more env b).surplusOf env = surplusPad3 p.nextLen.toNat (p.more env b).buffer := by
        unfold surplusOf
        rw [hfunc', hfunc]
        exact if_pos hmode
      unfold surplusPad3 surplusIa at hmore
      rw [if_pos (by omega), htake, hia, List.length_drop] at hmore
      omega
    · have hmore : (p.more env b).surplusOf env = surplusIa p.nextLen.toNat (p.more env b).buffer := by
        unfold surplusOf
        rw [hfunc', hfunc]
        exact if_pos hmode
      unfold surplusIa at hmore
      omega
    · obtain ⟨-, -, hstage⟩ := hstaged
      rw [hfunc] at hstage
      obtain ⟨-, hlen, e, hencoder⟩ := hstage
      have hmore : (p.more env b).decidedOf env = decidesBlock4b e.config (p.more env b).buffer := by
        unfold decidedOf
        rw [hfunc', hfunc, show (p.more env b).encoder = p.encoder from rfl, hencoder]
      rw [hlen] at hpad htake hdemand
      have hpad : unpackBE (((((p.more env b).buffer).take 6).drop 4).take 2) = 0 := htake ▸ hpad
      have hsix : 6 ≤ (p.more env b).buffer.length := by omega
      rw [hdecided, decidesBlock4b, hpad] at hmore
      simp only [hsix, decide_true, Nat.zero_le, Bool.or_true, Bool.and_true, Bool.false_eq_true] at hmore
    · have hmore : (p.more env b).decidedOf env = decide (p.nextLen.toNat ≤ (p.more env b).buffer.length) := by
        unfold decidedOf
        rw [hfunc', hfunc]
        rfl
      rw [hdecided, eq_comm, decide_eq_false_iff_not] at hmore
      omega
  · cases turn_moves hstaged h with
    | halts hhalted => exact Or.inl hhalted
    | fails hraised => exact Or.inl (by simp only [halted, hraised, Option.isSome_some, Bool.or_true])
    | onward hon =>
      refine Or.inr (not_lt.mp fun hneg => ?_)
      rw [(hon.waits hneg).1] at hsearches
      cases hsearches

/-! ## Searches -/

theorem searched_later (hpat : 1 < pat.length) (hb : b ≠ []) :
    searched (lastItems (pat.length - 1) s ++ b) pat (searched s pat maxSearch) = searched (s ++ b) pat maxSearch := by
  have hpos := List.length_pos_iff.mpr hb
  unfold searched
  rw [List.length_append, List.length_append, Search.lastItems_length (by omega)]
  split <;> split <;> split <;> omega

/-- What is given up is not found when more has come, if the pattern was in reach. -/
theorem given_up_later (hmax : 0 ≤ maxSearch) (hnone : find pat s = none) (hneg : searched s pat maxSearch < 0)
    (hreach : ∀ i, find pat (s ++ b) = some i → (i : Int) ≤ maxSearch) :
    find pat (s ++ b) = none ∧ searched (s ++ b) pat maxSearch < 0 := by
  unfold searched at hneg ⊢
  split at hneg
  · rename_i hlength
    constructor
    · cases hfind : find pat (s ++ b) with
      | none => rfl
      | some i =>
        have hi := hreach i hfind
        rw [Search.find_of_append hfind (by omega)] at hnone
        cases hnone
    · rw [List.length_append, if_pos (by omega)]
      omega
  · omega

theorem missed_outcome (func func' : Int → NextFunc) (hs : searched p.buffer pat maxSearch < 0)
    (ht : searched q.buffer pat maxSearch < 0) (hout : (p.close env).outcome = (q.close env).outcome) :
    (missed env pat maxSearch func p).outcome = (missed env pat maxSearch func' q).outcome := by
  rw [missed_of_neg func hs, missed_of_neg func' ht]
  exact hout

theorem missed_halted (func : Int → NextFunc) (hs : searched p.buffer pat maxSearch < 0) :
    (missed env pat maxSearch func p).halted = true := by
  rw [missed_of_neg func hs]
  simp only [halted, close_same, Bool.true_or]

/-- A search that goes on where another has ended. -/
theorem missed_later (func : Int → NextFunc) (hs : searched t pat len = searched s pat maxSearch)
    (ht : lastItems (pat.length - 1) t = lastItems (pat.length - 1) s) (f : NextFunc) :
    missed env pat len func { p with buffer := t, nextLen := 0, nextFunc := f } =
      missed env pat maxSearch func { p with buffer := s } := by
  unfold missed close
  dsimp only
  rw [hs, ht]
  split
  · split <;> rfl
  · rfl

/-- A connection whose search goes on with more. -/
def resumed (pat : Bytes) (maxSearch : Int) (func : Int → NextFunc) (b : Bytes) (p : BTProtocol κ σ) : BTProtocol κ σ :=
  { p with
    buffer := lastItems (pat.length - 1) p.buffer ++ b, nextLen := 0, nextFunc := func (searched p.buffer pat maxSearch) }

theorem push_missed (func : Int → NextFunc) (hb : b ≠ []) (hgo : p.halted = false) (hcrypted : p.crypted = false)
    (hopen : 0 ≤ searched p.buffer pat maxSearch) :
    (missed env pat maxSearch func p).push env b = p.resumed pat maxSearch func b := by
  rw [missed_of_nonneg func hopen]
  unfold push
  rw [if_neg (by simp only [hb, false_or]; exact ne_true_of_eq_false hgo), more_of_raw (by exact hcrypted)]
  rfl

theorem drop_later (hpat : 1 < pat.length) (i : Nat) :
    (lastItems (pat.length - 1) s ++ b).drop (i + pat.length) =
      (s ++ b).drop (i + (s.length - (pat.length - 1)) + pat.length) := by
  rw [Search.lastItems_append (by omega), List.drop_drop]
  congr 1
  omega

/-- What is left of a search is in reach as the whole was. -/
theorem reach_later (hpat : 1 < pat.length) (hnone : find pat s = none)
    (hreach : ∀ i, find pat (s ++ b) = some i → (i : Int) ≤ maxSearch) (i : Nat)
    (hi : find pat (lastItems (pat.length - 1) s ++ b) = some i) : (i : Int) ≤ searched s pat maxSearch := by
  have hwhole := hreach (i + (s.length - (pat.length - 1))) (by
    rw [Search.find_lastItems hpat hnone b, hi]
    rfl)
  unfold searched
  split <;> omega

theorem settle_eq_of_turn (hq : turn env q = turn env p) (h : turn env p = some r) :
    (wire env).settle p = (wire env).settle q :=
  (Feed.settle_of_turn (m := wire env) h).trans (Feed.settle_of_turn (m := wire env) (hq.trans h)).symm

/-- What is found is found when more has come. -/
theorem turn_more_of_found {c : Crypto κ} {i : Nat} (hp : p.Staged env)
    (hfunc : p.nextFunc = .readCryptoBlock3a maxSearch) (hc : p.encrypter = some c)
    (hfind : find c.block3a p.buffer = some i) (h : turn env p = some q) :
    turn env (p.more env b) = some (q.more env b) ∧ q.halted = false ∧ 0 ≤ q.nextLen := by
  obtain ⟨hpieces, hraised, hstage⟩ := hp
  rw [hfunc] at hstage
  obtain ⟨hcrypted, hbufferlen, hlen, -⟩ := hstage
  obtain ⟨hgo, hnonneg, -, -⟩ := turn_eq_some h
  have hzero : p.nextLen = 0 := le_antisymm hlen hnonneg
  have hbound := Search.find_bound hfind
  rw [turn_readCryptoBlock3a env hgo hzero hpieces hbufferlen hfunc hc, hfind] at h
  obtain rfl := Option.some.inj h
  have hturn := turn_readCryptoBlock3a env (p := { p with buffer := p.buffer ++ b }) hgo hzero hpieces hbufferlen hfunc hc
  refine ⟨?_, hgo, Int.zero_le_ofNat 20⟩
  rw [more_of_raw hcrypted, hturn]
  simp only [Search.find_append hfind b, List.drop_append_of_le_length hbound, more, decoded, hcrypted]

theorem early_of_block3a (hb : b ≠ []) (hp : (p.more env b).Staged env) (hreach : (p.more env b).InReach env)
    (hsurplus : (p.more env b).surplusOf env = 0) (hdecided : (p.more env b).decidedOf env = false)
    (hfunc : p.nextFunc = .readCryptoBlock3a maxSearch) (h : turn env p = some q) :
    (q.push env b).Safe env ∧
      ((wire env).settle (p.more env b)).outcome = ((wire env).settle (q.push env b)).outcome := by
  obtain ⟨hpieces, hraised, hstage⟩ := staged_of_more hp
  rw [hfunc] at hstage
  obtain ⟨hcrypted, hbufferlen, hlen, hmax, c, hc, hpat⟩ := hstage
  obtain ⟨hgo, hnonneg, -, -⟩ := turn_eq_some h
  have hzero : p.nextLen = 0 := le_antisymm hlen hnonneg
  have hsafe : (p.more env b).Safe env := Or.inr ⟨hp, hreach, hsurplus, hdecided⟩
  cases hfind : find c.block3a p.buffer with
  | some i =>
    obtain ⟨hturn, -, hnext⟩ := turn_more_of_found (b := b) (staged_of_more hp) hfunc hc hfind h
    exact early_of_turn hb hsafe hturn (.inr hnext)
  | none =>
    rw [turn_readCryptoBlock3a env hgo hzero hpieces hbufferlen hfunc hc, hfind] at h
    obtain rfl := Option.some.inj h
    have hturn := turn_readCryptoBlock3a env (p := { p with buffer := p.buffer ++ b }) hgo hzero hpieces hbufferlen hfunc hc
    rw [more_of_raw hcrypted] at hreach
    dsimp only
    by_cases hneg : searched p.buffer c.block3a maxSearch < 0
    · obtain ⟨hnone, hneg'⟩ := given_up_later (b := b) hmax hfind hneg
        (hreach c.block3a (p.buffer ++ b) maxSearch (by simp only [sought, hfunc, hc]))
      rw [hnone] at hturn
      have hhalted : (missed env c.block3a maxSearch .readCryptoBlock3a p).halted = true := missed_halted _ hneg
      rw [push_of_halted hhalted, settle_of_halted hhalted, more_of_raw hcrypted,
        show (wire env).settle _ = _ from Feed.settle_of_turn hturn, settle_of_halted (missed_halted _ hneg')]
      exact ⟨Or.inl hhalted, missed_outcome _ _ hneg' hneg (by simp [outcome, endState])⟩
    · rw [push_missed _ hb hgo hcrypted (not_lt.mp hneg)]
      have hfound := Search.find_lastItems hpat hfind b
      have hagain := turn_readCryptoBlock3a env (p := p.resumed c.block3a maxSearch .readCryptoBlock3a b) hgo rfl
        hpieces hbufferlen rfl hc
      have hsame : turn env (p.resumed c.block3a maxSearch .readCryptoBlock3a b) = turn env (p.more env b) := by
        rw [hagain, more_of_raw hcrypted, hturn, hfound]
        cases hlater : find c.block3a (lastItems (c.block3a.length - 1) p.buffer ++ b) with
        | some i => simp only [resumed, hlater, Option.map_some, drop_later hpat i]
        | none =>
          simp only [resumed, hlater, Option.map_none]
          exact congrArg some (missed_later _ (searched_later hpat hb) (Search.lastItems_lastItems (by omega)) _)
      refine ⟨Or.inr ⟨⟨hpieces, hraised, hcrypted, hbufferlen, le_rfl, not_lt.mp hneg, c, hc, hpat⟩, ?_, ?_, ?_⟩, ?_⟩
      · intro pat text n hsought i hi
        obtain ⟨rfl, rfl, rfl⟩ : c.block3a = pat ∧ _ = text ∧ _ = n := by
          simpa only [sought, resumed, hc, Option.some.injEq, Prod.mk.injEq] using hsought
        exact reach_later hpat hfind (hreach c.block3a _ maxSearch (by simp only [sought, hfunc, hc])) i hi
      · rw [← hsurplus, more_of_raw hcrypted]
        simp only [surplusOf, resumed, hfunc, hc, surplusBlock3a, hfound]
        cases hlater : find c.block3a (lastItems (c.block3a.length - 1) p.buffer ++ b) with
        | some i => simp only [Option.map_some, drop_later hpat i]
        | none => rfl
      · simp only [decidedOf, resumed]
      · rw [settle_eq_of_turn hsame (more_of_raw hcrypted ▸ hturn)]

/-- The answer of the peer to an outgoing connection is being read. -/
def answers : NextFunc → Bool
  | .readCryptoBlock4a _ | .readCryptoBlock4b | .readCryptoPad4 => true
  | _ => false

theorem readCryptoBlock4b_eq {e : Encoder σ} (hencoder : p.encoder = some e) :
    p.readCryptoBlock4b env m =
      if refusedBlock4b e.config m then ({ p with cryptmode := unpackBE (m.take 4) % 4 }, .isNone)
      else if unpackBE ((m.drop 4).take 2) ≠ 0 then
        ({ p with cryptmode := unpackBE (m.take 4) % 4 }, .next (unpackBE ((m.drop 4).take 2)) .readCryptoPad4)
      else readCryptoBlock4done env { p with cryptmode := unpackBE (m.take 4) % 4 } := by
  unfold readCryptoBlock4b refusedBlock4b
  rw [hencoder]
  dsimp only
  split
  · rename_i honly
    rw [honly, Bool.true_or, Bool.true_or, if_pos rfl]
  · rename_i honly
    rw [Bool.not_eq_true] at honly
    rw [honly, Bool.false_or]
    split
    · rename_i hmode
      rw [hmode, Bool.true_or, if_pos rfl]
    · rename_i hmode
      rw [Bool.not_eq_true] at hmode
      rw [hmode, Bool.false_or]
      split
      · rename_i hpad
        rw [decide_eq_true hpad, if_pos rfl]
      · rename_i hpad
        rw [decide_eq_false hpad, if_neg Bool.false_ne_true]

/-- Nothing is seen of what does not decide. -/
theorem quiet_turn (hp : p.Staged env) (hno : p.decidedOf env = false) (hanswers : answers p.nextFunc = true)
    (h : turn env p = some q) : q.outcome = p.outcome ∧ q.halted = false ∧ answers q.nextFunc = true := by
  obtain ⟨hpieces, hraised, hstage⟩ := hp
  obtain ⟨hgo, hnonneg, hdemand, hq⟩ := turn_eq_some h
  cases hfunc : p.nextFunc with
  | readCryptoBlock4a maxSearch =>
    rw [hfunc] at hstage
    obtain ⟨hcrypted, hbufferlen, hlen, hmax, e, c, hencoder, hc, hpat⟩ := hstage
    by_cases hone : p.nextLen = 1
    · have hbuffer : p.buffer ≠ [] := by
        rintro hnil
        rw [demand_of_pos (by omega), hone, hnil] at hdemand
        cases hdemand
      rw [turn_readCryptoBlock4a_one env maxSearch hgo hone hbuffer hpieces hbufferlen hfunc hc hmax hpat] at h
      obtain rfl := Option.some.inj h
      exact ⟨rfl, hgo, hanswers⟩
    · rw [turn_readCryptoBlock4a env hgo (by omega) hpieces hbufferlen hfunc hc] at h
      obtain rfl := Option.some.inj h
      cases hfind : find (c.VC_pattern env.prim).1 p.buffer with
      | some i => exact ⟨rfl, hgo, rfl⟩
      | none =>
        dsimp only
        have hopen : 0 ≤ searched p.buffer (c.VC_pattern env.prim).1 maxSearch := by
          simpa [decidedOf, hfunc, hencoder, hc, decidesBlock4a, hfind] using hno
        rw [missed_of_nonneg (p := { p with encrypter := some (c.VC_pattern env.prim).2 }) _ hopen]
        exact ⟨rfl, hgo, rfl⟩
  | readCryptoBlock4b =>
    rw [hfunc] at hstage
    obtain ⟨hbufferlen, hlen, e, hencoder⟩ := hstage
    have hsix : p.demand = 6 := by
      rw [demand_of_pos (by omega), hlen]
      rfl
    have hcall : p.rest.call env (p.buffer.take p.demand) = readCryptoBlock4b env (p.buffer.take 6) p.rest := by
      simp only [call, rest, hfunc, hsix]
    rw [hsix] at hdemand
    rw [hcall] at hq
    have hundecided : refusedBlock4b e.config (p.buffer.take 6) = false ∧
        ¬ unpackBE (((p.buffer.take 6).drop 4).take 2) ≤ p.buffer.length - 6 := by
      simpa only [decidedOf, hfunc, hencoder, decidesBlock4b, hdemand, decide_true, Bool.true_and, Bool.or_eq_false_iff,
        decide_eq_false_iff_not] using hno
    have hpad : unpackBE (((p.buffer.take 6).drop 4).take 2) ≠ 0 := by omega
    have hencoder' : p.rest.encoder = some e := hencoder
    rw [readCryptoBlock4b_eq hencoder', hundecided.1, if_neg Bool.false_ne_true, if_pos hpad,
      staged_next rfl hpieces hbufferlen] at hq
    rw [hq]
    exact ⟨rfl, hgo, rfl⟩
  | readCryptoPad4 =>
    rw [hfunc] at hstage
    rw [demand_of_pos hstage.2] at hdemand
    simp only [decidedOf, hfunc, hdemand, decide_true, Bool.true_eq_false] at hno
  | _ =>
    rw [hfunc] at hanswers
    cases hanswers

theorem quiet_settle (hp : p.Staged env) (hno : p.decidedOf env = false)
    (hanswers : answers p.nextFunc = true) : ((wire env).settle p).outcome = p.outcome := by
  refine (Feed.settle_invariant (m := wire env) (I := fun q => q.Staged env ∧ q.decidedOf env = false ∧
    answers q.nextFunc = true ∧ q.outcome = p.outcome) ?_ ⟨hp, hno, hanswers, rfl⟩).2.2.2
  rintro q r ⟨hq, hqno, hqanswers, hqoutcome⟩ hturn
  obtain ⟨houtcome, hrgo, hranswers⟩ := quiet_turn hq hqno hqanswers hturn
  cases turn_moves hq hturn with
  | halts hhalted => rw [hrgo] at hhalted; cases hhalted
  | fails hraised => simp [halted, hraised] at hrgo
  | onward hon => exact ⟨hon.staged, hon.decided hqno, hranswers, houtcome.trans hqoutcome⟩

/-- The first turn of the search puts the byte back and waits. What comes is searched at once when it comes later. -/
theorem early_of_first (hb : b ≠ []) (hsafe : (p.more env b).Safe env)
    (hfunc : p.nextFunc = .readCryptoBlock4a maxSearch) (hq : q.nextFunc = p.nextFunc) (hqgo : q.halted = false)
    (hlen : q.nextLen = -1) (hturn : turn env (p.more env b) = some (q.more env b)) :
    (q.push env b).Safe env ∧
      ((wire env).settle (p.more env b)).outcome = ((wire env).settle (q.push env b)).outcome := by
  have hwait : turn env (q.more env b) = none := by
    unfold turn
    rw [if_neg]
    rintro ⟨-, hnonneg, -⟩
    have hlen' : (q.more env b).nextLen = -1 := hlen
    omega
  have hpush : q.push env b = (q.more env b).wake := if_neg (by simp [hb, hqgo])
  have hqsafe := safe_turn hsafe hturn
  have hsettle : (wire env).settle (p.more env b) = q.more env b :=
    (Feed.settle_of_turn (m := wire env) hturn).trans (Feed.settle_of_none (m := wire env) hwait)
  rw [hpush, hsettle]
  refine ⟨safe_wake hqsafe, ?_⟩
  rcases hqsafe with hhalted | ⟨hstaged, -, -, hdecided⟩
  · exact absurd (hqgo.symm.trans hhalted) Bool.false_ne_true
  · have hanswers : answers (q.more env b).wake.nextFunc = true := by
      show answers q.nextFunc = true
      rw [hq, hfunc]
      rfl
    rw [quiet_settle (staged_wake hstaged) (decidedOf_wake.trans hdecided) hanswers]
    rfl

theorem early_of_block4a (hb : b ≠ []) (hp : (p.more env b).Staged env) (hreach : (p.more env b).InReach env)
    (hsurplus : (p.more env b).surplusOf env = 0) (hdecided : (p.more env b).decidedOf env = false)
    (hfunc : p.nextFunc = .readCryptoBlock4a maxSearch) (h : turn env p = some q) :
    (q.push env b).Safe env ∧
      ((wire env).settle (p.more env b)).outcome = ((wire env).settle (q.push env b)).outcome := by
  obtain ⟨hpieces, hraised, hstage⟩ := staged_of_more hp
  rw [hfunc] at hstage
  obtain ⟨hcrypted, hbufferlen, hlen, hmax, e, c, hencoder, hc, hpat⟩ := hstage
  obtain ⟨hgo, hnonneg, hdemand, -⟩ := turn_eq_some h
  have hsafe : (p.more env b).Safe env := Or.inr ⟨hp, hreach, hsurplus, hdecided⟩
  have hagain : (c.VC_pattern env.prim).2.VC_pattern env.prim = c.VC_pattern env.prim := Crypto.VC_pattern_again
  by_cases hone : p.nextLen = 1
  · have hbuffer : p.buffer ≠ [] := by
      rintro hnil
      rw [demand_of_pos (by omega), hone, hnil] at hdemand
      cases hdemand
    rw [turn_readCryptoBlock4a_one env maxSearch hgo hone hbuffer hpieces hbufferlen hfunc hc hmax hpat] at h
    obtain rfl := Option.some.inj h
    refine early_of_first hb hsafe hfunc rfl hgo rfl ?_
    rw [more_of_raw hcrypted, turn_readCryptoBlock4a_one env maxSearch (p := { p with buffer := p.buffer ++ b }) hgo hone
      (by simp [hbuffer]) hpieces hbufferlen hfunc hc hmax hpat]
    simp only [more, decoded, hcrypted]
  · have hzero : p.nextLen = 0 := by omega
    rw [turn_readCryptoBlock4a env hgo hzero hpieces hbufferlen hfunc hc] at h
    obtain rfl := Option.some.inj h
    have hturn := turn_readCryptoBlock4a env (p := { p with buffer := p.buffer ++ b }) hgo hzero hpieces
      hbufferlen hfunc hc
    rw [more_of_raw hcrypted] at hreach
    cases hfind : find (c.VC_pattern env.prim).1 p.buffer with
    | some i =>
      have hbound := Search.find_bound hfind
      refine early_of_turn hb hsafe ?_ (.inr (Int.zero_le_ofNat 6))
      rw [more_of_raw hcrypted, hturn]
      simp only [Search.find_append hfind b, List.drop_append_of_le_length hbound, more, decoded, Crypto.decrypt,
        StreamCipher.update_append]
    | none =>
      dsimp only
      by_cases hneg : searched p.buffer (c.VC_pattern env.prim).1 maxSearch < 0
      · obtain ⟨hnone, hneg'⟩ := given_up_later (b := b) hmax hfind hneg
          (hreach (c.VC_pattern env.prim).1 (p.buffer ++ b) maxSearch (by simp only [sought, hfunc, hc]))
        rw [hnone] at hturn
        have hhalted : (missed env (c.VC_pattern env.prim).1 maxSearch .readCryptoBlock4a
            { p with encrypter := some (c.VC_pattern env.prim).2 }).halted = true := missed_halted _ hneg
        rw [push_of_halted hhalted, settle_of_halted hhalted, more_of_raw hcrypted,
          show (wire env).settle _ = _ from Feed.settle_of_turn hturn, settle_of_halted (missed_halted _ hneg')]
        exact ⟨Or.inl hhalted, missed_outcome _ _ hneg' hneg (by simp [outcome, endState])⟩
      · rw [push_missed (p := { p with encrypter := some (c.VC_pattern env.prim).2 }) _ hb hgo hcrypted (not_lt.mp hneg)]
        have hfound := Search.find_lastItems hpat hfind b
        have hresumed := turn_readCryptoBlock4a env (c := (c.VC_pattern env.prim).2)
          (p := resumed (c.VC_pattern env.prim).1 maxSearch .readCryptoBlock4a b
            { p with encrypter := some (c.VC_pattern env.prim).2 }) hgo rfl hpieces hbufferlen rfl rfl
        rw [hagain] at hresumed
        have hsame : turn env (resumed (c.VC_pattern env.prim).1 maxSearch .readCryptoBlock4a b
            { p with encrypter := some (c.VC_pattern env.prim).2 }) = turn env (p.more env b) := by
          rw [hresumed, more_of_raw hcrypted, hturn, hfound]
          cases hlater : find (c.VC_pattern env.prim).1
              (lastItems ((c.VC_pattern env.prim).1.length - 1) p.buffer ++ b) with
          | some i => simp only [resumed, hlater, Option.map_some, drop_later hpat i]
          | none =>
            simp only [resumed, hlater, Option.map_none]
            exact congrArg some (missed_later (p := { p with encrypter := some (c.VC_pattern env.prim).2 }) _
              (searched_later hpat hb) (Search.lastItems_lastItems (by omega)) _)
        refine ⟨Or.inr ⟨⟨hpieces, hraised, hcrypted, hbufferlen, Int.one_nonneg, not_lt.mp hneg, e, _, hencoder, rfl, ?_⟩,
          ?_, ?_, ?_⟩, ?_⟩
        · rwa [hagain]
        · intro pat text n hsought i hi
          obtain ⟨rfl, rfl, rfl⟩ : (c.VC_pattern env.prim).1 = pat ∧ _ = text ∧ _ = n := by
            simpa only [sought, resumed, hagain, Option.some.injEq, Prod.mk.injEq] using hsought
          exact reach_later hpat hfind
            (hreach (c.VC_pattern env.prim).1 _ maxSearch (by simp only [sought, hfunc, hc])) i hi
        · simp only [surplusOf, resumed]
        · rw [← hdecided, more_of_raw hcrypted]
          simp only [decidedOf, resumed, hfunc, hc, hencoder, decidesBlock4a, hagain, hfound]
          cases hlater : find (c.VC_pattern env.prim).1
              (lastItems ((c.VC_pattern env.prim).1.length - 1) p.buffer ++ b) with
          | some i => simp only [Option.map_some, drop_later hpat i]
          | none => simp only [Option.map_none, searched_later hpat hb]
        · rw [settle_eq_of_turn hsame (more_of_raw hcrypted ▸ hturn)]

variable (env) in
/-- A push and a turn may be exchanged in a connection that is safe. -/
theorem exchange : (wire env).Exchange outcome (Safe env) where
  kept := safe_turn
  early := by
    intro p q b hb hsafe h
    have hpush : (wire env).push b p = p.more env b := push_of_turn hb h
    rw [hpush] at hsafe ⊢
    rcases hsafe with hhalted | ⟨hstaged, hreach, hsurplus, hdecided⟩
    · have hgo := (turn_eq_some h).1
      exact absurd (hgo.symm.trans hhalted) Bool.false_ne_true
    · cases hfunc : p.nextFunc with
      | readCryptoBlock3a maxSearch => exact early_of_block3a hb hstaged hreach hsurplus hdecided hfunc h
      | readCryptoBlock4a maxSearch => exact early_of_block4a hb hstaged hreach hsurplus hdecided hfunc h
      | _ => exact early_of_staged hb hstaged hreach hsurplus hdecided (by rw [hfunc]; rfl) h

end BTProtocol

/-! ## From the beginning -/

section Beginning
variable {κ σ : Type} {env : Context κ σ} {kind : Kind σ} {w : Bytes} {cuts : List Bytes}

open BTProtocol

variable (env) in
theorem connectionMade_encrypted (e : Encoder σ) (id : Bytes) :
    Kind.connectionMade env (.outgoing e id true) =
      { (Kind.fresh true id (some e) : BTProtocol κ σ) with
        encrypted := true
        encrypter := some (.new env.prim true env.privkey)
        pads := 1
        written := [(Crypto.new env.prim true env.privkey).pubkey ++ env.padding 0] } := by
  unfold Kind.connectionMade
  dsimp only
  rw [write_of_raw rfl, writeRaw_of_open rfl]
  rfl

variable (env) in
theorem connectionMade_plain (e : Encoder σ) (id : Bytes) :
    Kind.connectionMade env (.outgoing e id false) =
      { (Kind.fresh true id (some e) : BTProtocol κ σ) with written := [createFullHandshake e] } := by
  unfold Kind.connectionMade
  dsimp only
  rw [write_of_raw rfl, writeRaw_of_open rfl]
  rfl

variable (env kind) in
/-- A connection that waits for the header. -/
theorem connectionMade_waits :
    (kind.connectionMade env).buffer = [] ∧ (kind.connectionMade env).pieces = [] ∧
      (kind.connectionMade env).bufferlen = none ∧ (kind.connectionMade env).raised = none ∧
        (kind.connectionMade env).closed = false ∧ (kind.connectionMade env).crypted = false ∧
          (kind.connectionMade env).nextLen = pstr.length ∧ (kind.connectionMade env).nextFunc = .readHeader := by
  have hlength : (1 + protocolName.length : Int) = pstr.length := by
    rw [pstr, List.length_cons]
    omega
  cases kind with
  | incoming => exact ⟨rfl, rfl, rfl, rfl, rfl, rfl, hlength, rfl⟩
  | outgoing e id supposedlyEncrypted =>
    cases supposedlyEncrypted with
    | false =>
      rw [connectionMade_plain]
      exact ⟨rfl, rfl, rfl, rfl, rfl, rfl, hlength, rfl⟩
    | true =>
      rw [connectionMade_encrypted]
      exact ⟨rfl, rfl, rfl, rfl, rfl, rfl, hlength, rfl⟩

variable (env kind) in
/-- The whole stream, before any of it is read. -/
def Kind.given (w : Bytes) : BTProtocol κ σ := { kind.connectionMade env with buffer := w }

theorem push_connectionMade : (kind.connectionMade env).push env w = kind.given env w := by
  obtain ⟨hbuffer, -, -, hraised, hclosed, hcrypted, hlen, -⟩ := connectionMade_waits env kind
  by_cases hw : w = []
  · subst hw
    rw [show BTProtocol.push env [] (kind.connectionMade env) = kind.connectionMade env from if_pos (.inl rfl), Kind.given,
      ← hbuffer]
  · have hgo : (kind.connectionMade env).halted = false := by simp only [halted, hclosed, hraised, Option.isSome_none, Bool.or_self]
    rw [push_of_open hw hgo (by omega), more_of_raw hcrypted, hbuffer]
    rfl

theorem given_staged : (kind.given env w).Staged env := by
  obtain ⟨-, hpieces, hbufferlen, hraised, -, hcrypted, hlen, hfunc⟩ := connectionMade_waits env kind
  refine ⟨hpieces, hraised, ?_⟩
  rw [show (kind.given env w).nextFunc = (kind.connectionMade env).nextFunc from rfl, hfunc]
  refine ⟨hcrypted, hbufferlen, hlen, ?_⟩
  cases kind with
  | incoming => exact fun h => absurd h Bool.false_ne_true
  | outgoing e id supposedlyEncrypted =>
    cases supposedlyEncrypted with
    | false =>
      rw [Kind.given, connectionMade_plain]
      exact fun _ => ⟨e, rfl, fun h => absurd h Bool.false_ne_true⟩
    | true =>
      rw [Kind.given, connectionMade_encrypted]
      exact fun _ => ⟨e, rfl, fun _ => ⟨_, rfl, rfl⟩⟩

theorem given_surplusOf_incoming : (Kind.given env .incoming w).surplusOf env = surplus env w := by
  cases hkey : afterKey env.config.cryptoAllowed w <;>
    simp only [surplusOf, surplus, Kind.given, Kind.connectionMade, Kind.fresh, hkey, Bool.false_eq_true, ↓reduceIte]

theorem given_decidedOf_encrypted {e : Encoder σ} {id : Bytes} :
    (Kind.given env (.outgoing e id true) w).decidedOf env = decided env e w := by
  rw [Kind.given, connectionMade_encrypted]
  cases hkey : afterKey e.config.cryptoAllowed w <;>
    simp only [decidedOf, decided, outgoingCrypto, Kind.fresh, hkey, Bool.and_self, Bool.true_and, Bool.and_false]

/-- The pad of a peer is shorter than what is searched. -/
theorem given_inReach (hpad : ∀ n ∈ kind.padLength env w, n ≤ 512) : (kind.given env w).InReach env := by
  intro pat text maxSearch hsought i hi
  cases kind with
  | incoming =>
    obtain ⟨x, hx, heq⟩ := Option.map_eq_some_iff.mp hsought
    obtain ⟨rfl, rfl, rfl⟩ : _ = pat ∧ _ = text ∧ _ = maxSearch := by simpa only [Prod.mk.injEq] using heq
    have hle := hpad i (by
      rw [Kind.padLength, show afterKey env.config.cryptoAllowed w = some x from hx]
      exact hi)
    omega
  | outgoing e id supposedlyEncrypted =>
    cases supposedlyEncrypted with
    | false =>
      rw [Kind.given, connectionMade_plain] at hsought
      simp only [sought, Kind.fresh, reduceCtorEq] at hsought
    | true =>
      rw [Kind.given, connectionMade_encrypted] at hsought
      obtain ⟨x, hx, heq⟩ := Option.map_eq_some_iff.mp hsought
      obtain ⟨rfl, rfl, rfl⟩ : _ = pat ∧ _ = text ∧ _ = maxSearch := by simpa only [Prod.mk.injEq] using heq
      have hle := hpad i (by
        rw [Kind.padLength, show afterKey e.config.cryptoAllowed w = some x from hx]
        exact hi)
      omega

theorem given_safe (hpad : ∀ n ∈ kind.padLength env w, n ≤ 512) (h : kind.Harmless env w) : (kind.given env w).Safe env := by
  refine Or.inr ⟨given_staged, given_inReach hpad, ?_⟩
  cases kind with
  | incoming => exact ⟨given_surplusOf_incoming.trans h, rfl⟩
  | outgoing e id supposedlyEncrypted =>
    cases supposedlyEncrypted with
    | false =>
      rw [Kind.given, connectionMade_plain]
      exact ⟨rfl, rfl⟩
    | true =>
      refine ⟨?_, given_decidedOf_encrypted.trans h⟩
      rw [Kind.given, connectionMade_encrypted]
      rfl

/-- The connection and the machine come to the same. -/
theorem received_outcome (hcuts : [] ∉ cuts) :
    (received env kind cuts).outcome = (cuts.foldl (wire env).feed (kind.connectionMade env)).outcome := by
  obtain ⟨-, hpieces, hbufferlen, hraised, -, -, hlen, -⟩ := connectionMade_waits env kind
  have htidy : Tidy (kind.connectionMade env) :=
    Or.inr (Or.inl ⟨hpieces, hbufferlen, hraised, fun hneg => by omega⟩)
  rw [← flat_of_text hpieces hbufferlen, ← deliver_foldl htidy hcuts]
  rfl

theorem turn_connectionMade : turn env (kind.connectionMade env) = none := by
  obtain ⟨hbuffer, -, -, -, -, -, hlen, -⟩ := connectionMade_waits env kind
  unfold turn
  rw [demand_of_header hlen, hbuffer, if_neg]
  rintro ⟨-, -, hdemand⟩
  exact Nat.not_succ_le_zero _ hdemand

/-- A stream that comes to neither place is received the same however it is cut. -/
theorem received_of_harmless {stream : PeerStream env kind} (h : kind.Harmless env stream.bytes)
    (hcuts : IsCut cuts stream.bytes) :
    (received env kind cuts).outcome = ((wire env).settle (kind.given env stream.bytes)).outcome := by
  have hpush : (wire env).push cuts.flatten (kind.connectionMade env) = kind.given env stream.bytes := by
    rw [hcuts.1]
    exact push_connectionMade
  have hsafe : Safe env ((wire env).push cuts.flatten (kind.connectionMade env)) := by
    rw [hpush]
    exact given_safe stream.pad_le h
  rw [received_outcome hcuts.2, (exchange env).obs_foldl turn_connectionMade hsafe, Feed.feed, hpush]

end Beginning

end BitBlinder.PeerWire
