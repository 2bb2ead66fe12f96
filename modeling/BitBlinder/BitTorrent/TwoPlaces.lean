import BitBlinder.BitTorrent.Segmentation

/-!
# Where the cut of a stream shows

Bytes after the initial payload of a connection in which only the header is encrypted raise
an error when they come with the payload, and none when they come later. The answer of the peer to
an outgoing connection is left unread when it comes with the first byte after the key, and is read
when that byte has come before.
-/

namespace BitBlinder.PeerWire

open Struct (Bytes packBE unpackBE)
open Search (find lastItems)

set_option autoImplicit false

/-! ## What comes before the surplus -/

section Surplus
variable {κ σ : Type} {env : Context κ σ} {n : Nat} {s w : Bytes}

theorem surplusPad3_le (h : 0 < surplusPad3 n s) : n + surplusPad3 n s ≤ s.length := by
  unfold surplusPad3 surplusIa at h ⊢
  split at h
  · rename_i hn
    rw [if_pos hn, List.length_drop]
    omega
  · omega

theorem surplusBlock3c_le {config : Config} (h : 0 < surplusBlock3c config s) :
    14 + surplusBlock3c config s ≤ s.length := by
  unfold surplusBlock3c at h ⊢
  split at h
  · rename_i hlength
    have hpad := surplusPad3_le h
    rw [List.length_drop] at hpad
    rw [if_pos hlength]
    omega
  · omega

theorem decrypt_length {prim : Primitives κ} {c : Crypto κ} : (c.decrypt prim s).1.length = s.length := by
  rw [Crypto.decrypt, StreamCipher.update_length]

theorem surplusBlock3b_le {registered : List Bytes} {c : Crypto κ} (h : 0 < surplusBlock3b env registered c s) :
    20 + surplusBlock3b env registered c s ≤ s.length := by
  unfold surplusBlock3b at h ⊢
  split at h
  · rename_i hlength
    rw [if_pos hlength]
    split at h
    · split at h
      · rename_i hadmitted
        have hblock3c := surplusBlock3c_le h
        rw [decrypt_length, List.length_drop] at hblock3c
        simp only [hadmitted, ↓reduceIte]
        omega
      · omega
    · omega
  · omega

theorem surplusBlock3a_le {registered : List Bytes} {c : Crypto κ} (h : 0 < surplusBlock3a env registered c s) :
    ∃ i, find c.block3a s = some i ∧
      i + c.block3a.length + 20 + surplusBlock3a env registered c s ≤ s.length := by
  unfold surplusBlock3a at h ⊢
  cases hfind : find c.block3a s with
  | none =>
    rw [hfind] at h
    exact absurd h (Nat.lt_irrefl 0)
  | some i =>
    rw [hfind] at h
    have hblock3b := surplusBlock3b_le h
    have hbound := Search.find_bound hfind
    rw [List.length_drop] at hblock3b
    exact ⟨i, rfl, by simp only; omega⟩

end Surplus

theorem pstr_length : pstr.length = 20 := by decide +kernel

theorem afterKey_eq_some {cryptoAllowed : Bool} {w k s : Bytes} (h : afterKey cryptoAllowed w = some (k, s)) :
    pstr.length ≤ w.length ∧ w.take pstr.length ≠ pstr ∧ cryptoAllowed = true ∧ DH_BYTES ≤ w.length ∧
      k = w.take DH_BYTES ∧ s = w.drop DH_BYTES := by
  unfold afterKey at h
  split at h
  · rename_i hkey
    obtain ⟨rfl, rfl⟩ := Prod.mk.inj (Option.some.inj h)
    exact ⟨hkey.1, hkey.2.1, hkey.2.2.1, hkey.2.2.2, rfl, rfl⟩
  · cases h

namespace BTProtocol
variable {κ σ : Type} {env : Context κ σ} {p q : BTProtocol κ σ} {b : Bytes} {maxSearch : Int}

/-- The next function has its data, and the surplus comes after it. -/
theorem nextLen_add_surplus (hp : p.Staged env) (hsearches : p.nextFunc.searches = false) (hpos : 0 < p.surplusOf env) :
    p.nextLen.toNat + p.surplusOf env ≤ p.buffer.length := by
  obtain ⟨-, -, hstage⟩ := hp
  unfold surplusOf at hpos ⊢
  cases hfunc : p.nextFunc with
  | readHeader =>
    rw [hfunc] at hstage hpos
    have hlen := hstage.2.2.1
    rw [pstr_length] at hlen
    dsimp only at hpos ⊢
    split at hpos
    · omega
    · rename_i hloc
      rw [if_neg hloc]
      cases hkey : afterKey env.config.cryptoAllowed p.buffer with
      | none =>
        rw [hkey] at hpos
        exact absurd hpos (Nat.lt_irrefl 0)
      | some x =>
        obtain ⟨k, s⟩ := x
        rw [hkey] at hpos
        obtain ⟨-, -, -, hdh, -, rfl⟩ := afterKey_eq_some hkey
        obtain ⟨i, -, hle⟩ := surplusBlock3a_le hpos
        rw [List.length_drop] at hle
        dsimp only
        have hbytes : DH_BYTES = 96 := rfl
        omega
  | readCryptoHeader =>
    rw [hfunc] at hstage hpos
    have hlen := hstage.2.2.1
    dsimp only at hpos ⊢
    split at hpos
    · rename_i c hloc hc
      split at hpos
      · rename_i hdh
        obtain ⟨i, -, hle⟩ := surplusBlock3a_le hpos
        rw [List.length_drop] at hle
        simp only [hdh, ↓reduceIte]
        omega
      · omega
    · omega
  | readCryptoBlock3b =>
    rw [hfunc] at hstage hpos
    dsimp only at hpos ⊢
    split at hpos
    · have hle := surplusBlock3b_le hpos
      omega
    · omega
  | readCryptoBlock3c =>
    rw [hfunc] at hstage hpos
    dsimp only at hpos ⊢
    split at hpos
    · have hle := surplusBlock3c_le hpos
      omega
    · omega
  | readCryptoPad3 =>
    rw [hfunc] at hpos
    dsimp only at hpos ⊢
    split at hpos
    · rename_i hmode
      rw [if_pos hmode]
      exact surplusPad3_le hpos
    · omega
  | readCryptoIa =>
    rw [hfunc] at hpos
    dsimp only at hpos ⊢
    unfold surplusIa at hpos ⊢
    split at hpos
    · rename_i hmode
      rw [if_pos hmode]
      omega
    · omega
  | readCryptoBlock3a maxSearch =>
    rw [hfunc] at hsearches
    cases hsearches
  | _ =>
    rw [hfunc] at hpos
    exact absurd hpos (Nat.lt_irrefl 0)

theorem turn_of_demand (hgo : p.halted = false) (hlen : 0 ≤ p.nextLen) (hdemand : p.demand ≤ p.buffer.length) :
    ∃ q, turn env p = some q :=
  ⟨_, if_pos ⟨hgo, hlen, hdemand⟩⟩

theorem demand_of_search (hp : p.Staged env) (hlen : 0 ≤ p.nextLen) (hfunc : p.nextFunc = .readCryptoBlock3a maxSearch) :
    p.demand = p.buffer.length := by
  obtain ⟨-, -, hstage⟩ := hp
  rw [hfunc] at hstage
  unfold demand
  rw [if_pos ⟨le_antisymm hstage.2.2.1 hlen, hstage.2.1⟩]

/-- With a surplus there is always a turn to take. -/
theorem turn_of_surplus (hp : p.Staged env) (hgo : p.halted = false) (hlen : 0 ≤ p.nextLen) (hpos : 0 < p.surplusOf env) :
    ∃ q, turn env p = some q := by
  refine turn_of_demand hgo hlen ?_
  cases hfunc : p.nextFunc with
  | readCryptoBlock3a maxSearch => exact (demand_of_search hp hlen hfunc).le
  | readCryptoBlock4a maxSearch =>
    simp only [surplusOf, hfunc] at hpos
    exact absurd hpos (Nat.lt_irrefl 0)
  | _ =>
    have hsearches : p.nextFunc.searches = false := by rw [hfunc]; rfl
    have hle := nextLen_add_surplus hp hsearches hpos
    rw [demand_of_staged hp hsearches]
    omega

/-- A surplus that has come with the payload is an error. -/
theorem fails_of_surplus (p : BTProtocol κ σ) (hp : p.Staged env) (hgo : p.halted = false) (hlen : 0 ≤ p.nextLen)
    (hpos : 0 < p.surplusOf env) : ((wire env).settle p).raised = some .assertionError := by
  induction p using Feed.turn_induction (m := wire env) with
  | rest p hrest =>
    obtain ⟨q, hturn⟩ := turn_of_surplus hp hgo hlen hpos
    rw [show turn env p = none from hrest] at hturn
    cases hturn
  | step p q hturn ih =>
    rw [Feed.settle_of_turn hturn]
    cases turn_moves hp hturn with
    | halts hhalted hraised hzero => omega
    | fails hraised =>
      have hhalted : q.halted = true := by simp only [halted, hraised, Option.isSome_some, Bool.or_true]
      rw [settle_of_halted hhalted, hraised]
    | onward hon =>
      refine ih hon.staged (hon.opened hpos) (not_lt.mp fun hneg => ?_) (hon.surplus ▸ hpos)
      have hzero := (hon.waits hneg).2
      rw [hon.surplus] at hzero
      omega

/-! ## A surplus that comes later -/

variable (env) in
/-- A connection that has the encrypted handshake behind it. -/
def Passed (p : BTProtocol κ σ) : Prop :=
  p.halted = true ∧ p.raised ≠ some .assertionError ∨ p.Staged env ∧ p.nextFunc.past = true

theorem Passed.raised_ne (h : Passed env p) : p.raised ≠ some .assertionError := by
  rcases h with ⟨-, hraised⟩ | ⟨⟨-, hraised, -⟩, -⟩
  · exact hraised
  · rw [hraised]
    exact (Option.some_ne_none _).symm

theorem passed_turn (hp : Passed env p) (h : turn env p = some q) : Passed env q := by
  rcases hp with ⟨hhalted, -⟩ | ⟨hstaged, hpast⟩
  · rw [turn_of_halted hhalted] at h
    cases h
  · cases turn_moves hstaged h with
    | halts hhalted hraised => exact Or.inl ⟨hhalted, hraised⟩
    | fails _ hpos =>
      rw [surplusOf_past hpast] at hpos
      exact absurd hpos (Nat.lt_irrefl 0)
    | onward hon => exact Or.inr ⟨hon.staged, hon.past hpast⟩

theorem passed_settle (hp : Passed env p) : Passed env ((wire env).settle p) :=
  Feed.settle_invariant (m := wire env) passed_turn hp

theorem passed_push (hp : Passed env p) : Passed env (p.push env b) := by
  unfold push
  split
  · exact hp
  · rcases hp with ⟨hhalted, hraised⟩ | ⟨⟨hpieces, hraised, hstage⟩, hpast⟩
    · exact Or.inl ⟨hhalted, hraised⟩
    · refine Or.inr ⟨staged_wake ⟨hpieces, hraised, ?_⟩, hpast⟩
      rw [show (p.more env b).nextFunc = p.nextFunc from rfl]
      cases hfunc : p.nextFunc <;> rw [hfunc] at hstage hpast <;> first | exact absurd hpast Bool.false_ne_true | exact hstage

theorem passed_of_block3done {x : BTProtocol κ σ} {s : Bytes} (hq : q = flat (answered env (x.readCryptoBlock3done s)))
    (hmoves : Moves env p q) (hzero : p.surplusOf env = 0) : Passed env q := by
  cases hmoves with
  | halts hhalted hraised => exact Or.inl ⟨hhalted, hraised⟩
  | fails _ hpos => omega
  | onward hon =>
    refine Or.inr ⟨hon.staged, ?_⟩
    have hraised := hon.staged.2.1
    rw [hq] at hraised ⊢
    unfold readCryptoBlock3done at hraised ⊢
    split
    · rename_i hmode
      rw [if_pos hmode] at hraised
      split
      · rename_i hbuffer
        rw [if_pos hbuffer] at hraised
        cases hraised
      · rfl
    · rfl

theorem readCryptoPad3_of_zero {m : Bytes} (h : unpackBE (lastItems 2 m) = 0) :
    ∃ x : BTProtocol κ σ, p.readCryptoPad3 env m = x.readCryptoBlock3done [] := by
  unfold readCryptoPad3
  dsimp only
  rw [if_neg (by simp [h])]
  exact ⟨_, rfl⟩

theorem surplusOf_more_pad3 (hfunc : p.nextFunc = .readCryptoPad3) (hmode : p.cryptmode = 1) :
    (p.more env b).surplusOf env = surplusPad3 p.nextLen.toNat (p.more env b).buffer := by
  unfold surplusOf
  rw [show (p.more env b).nextFunc = p.nextFunc from rfl, hfunc]
  exact if_pos hmode

theorem surplusOf_more_ia (hfunc : p.nextFunc = .readCryptoIa) (hmode : p.cryptmode = 1) :
    (p.more env b).surplusOf env = surplusIa p.nextLen.toNat (p.more env b).buffer := by
  unfold surplusOf
  rw [show (p.more env b).nextFunc = p.nextFunc from rfl, hfunc]
  exact if_pos hmode

/-- Without `b` nothing is too much. -/
theorem surplusOf_of_exact (hb : b ≠ []) (hdemand : p.nextLen.toNat ≤ p.buffer.length)
    (hexact : (p.more env b).surplusOf env = b.length) (hfunc : p.nextFunc = .readCryptoPad3 ∨ p.nextFunc = .readCryptoIa)
    (hmode : p.cryptmode = 1) : p.surplusOf env = 0 := by
  have hpos := List.length_pos_iff.mpr hb
  have hlonger : (p.more env b).buffer.length = p.buffer.length + b.length := by
    simp only [more, List.length_append, decoded_length]
  have htake : (p.more env b).buffer.take p.nextLen.toNat = p.buffer.take p.nextLen.toNat :=
    List.take_append_of_le_length hdemand
  rcases hfunc with hfunc | hfunc
  · rw [surplusOf_more_pad3 hfunc hmode] at hexact
    unfold surplusPad3 surplusIa at hexact
    rw [if_pos (by omega), htake, List.length_drop] at hexact
    simp only [surplusOf, hfunc, hmode, surplusPad3, surplusIa, hdemand, List.length_drop, ↓reduceIte]
    omega
  · rw [surplusOf_more_ia hfunc hmode] at hexact
    unfold surplusIa at hexact
    simp only [surplusOf, hfunc, hmode, surplusIa, ↓reduceIte]
    omega

/-- A turn of a connection that has just what comes before the surplus. -/
theorem exact_turn (hb : b ≠ []) (hp : p.Staged env) (hexact : (p.more env b).surplusOf env = b.length)
    (h : turn env p = some q) :
    Passed env q ∨ turn env (p.more env b) = some (q.more env b) ∧ q.raised ≠ some .assertionError := by
  have hpos := List.length_pos_iff.mpr hb
  obtain ⟨hgo, hnonneg, hdemand, hq⟩ := turn_eq_some h
  have hmoves := turn_moves hp h
  by_cases hsearches : p.nextFunc.searches = true
  · cases hfunc : p.nextFunc with
    | readCryptoBlock3a maxSearch =>
      have hstage := hp.2.2
      rw [hfunc] at hstage
      obtain ⟨hcrypted, -, -, -, c, hc, -⟩ := hstage
      rw [more_of_raw hcrypted] at hexact
      simp only [surplusOf, hfunc, hc] at hexact
      obtain ⟨i, hi, hle⟩ := surplusBlock3a_le (hexact ▸ hpos)
      rw [hexact, List.length_append] at hle
      have hfind := Search.find_of_append hi (by omega)
      obtain ⟨hturn, hqgo, -⟩ := turn_more_of_found (b := b) hp hfunc hc hfind h
      refine Or.inr ⟨hturn, fun hraises => ?_⟩
      simp [halted, hraises] at hqgo
    | readCryptoBlock4a maxSearch =>
      simp only [surplusOf, more, hfunc] at hexact
      omega
    | _ =>
      rw [hfunc] at hsearches
      cases hsearches
  · rw [Bool.not_eq_true] at hsearches
    have hlength := demand_of_staged hp hsearches
    rw [hlength] at hdemand hq
    by_cases hia : p.nextFunc = .readCryptoIa ∧ p.cryptmode = 1
    · have hcall : p.rest.call env (p.buffer.take p.nextLen.toNat) =
          p.rest.readCryptoBlock3done (p.buffer.take p.nextLen.toNat) := by
        simp only [call, rest, hia.1]
      rw [hcall] at hq
      exact Or.inl (passed_of_block3done hq hmoves (surplusOf_of_exact hb hdemand hexact (.inr hia.1) hia.2))
    · by_cases hpad : (p.nextFunc = .readCryptoPad3 ∧ p.cryptmode = 1) ∧
          unpackBE (lastItems 2 (p.buffer.take p.nextLen.toNat)) = 0
      · have hcall : p.rest.call env (p.buffer.take p.nextLen.toNat) =
            p.rest.readCryptoPad3 env (p.buffer.take p.nextLen.toNat) := by
          simp only [call, rest, hpad.1.1]
        obtain ⟨x, hx⟩ : ∃ x : BTProtocol κ σ, p.rest.readCryptoPad3 env (p.buffer.take p.nextLen.toNat) =
            x.readCryptoBlock3done [] := readCryptoPad3_of_zero hpad.2
        rw [hcall, hx] at hq
        exact Or.inl (passed_of_block3done hq hmoves (surplusOf_of_exact hb hdemand hexact (.inl hpad.1.1) hpad.1.2))
      · have hanswers : p.nextFunc ≠ .readCryptoBlock4b ∧ p.nextFunc ≠ .readCryptoPad4 := by
          constructor <;> intro hfunc <;> simp only [surplusOf, more, hfunc] at hexact <;> omega
        refine Or.inr ⟨?_, fun hraised => ?_⟩
        · exact turn_more_of_staged hp hsearches (fun hfunc hmode hzero => hpad ⟨⟨hfunc, hmode⟩, hzero⟩)
            (fun hfunc hmode => hia ⟨hfunc, hmode⟩) (fun hfunc => absurd hfunc hanswers.1) hanswers.2 h
        · cases hmoves with
          | halts _ hne => exact hne hraised
          | fails _ hsurplus hfunc hmode => exact absurd (surplusOf_of_exact hb hdemand hexact hfunc hmode) (by omega)
          | onward hon =>
            rw [hon.staged.2.1] at hraised
            cases hraised

/-- What comes after the payload is no error when it comes later. -/
theorem passed_of_exact (hb : b ≠ []) (p : BTProtocol κ σ) (hp : (p.more env b).Staged env) (hgo : p.halted = false)
    (hlen : 0 ≤ p.nextLen) (hexact : (p.more env b).surplusOf env = b.length) : Passed env ((wire env).settle p) := by
  have hpos := List.length_pos_iff.mpr hb
  induction p using Feed.turn_induction (m := wire env) with
  | rest p hrest =>
    have hdemand : p.demand ≤ p.buffer.length := by
      have hstaged := staged_of_more hp
      cases hfunc : p.nextFunc with
      | readCryptoBlock3a maxSearch => exact (demand_of_search hstaged hlen hfunc).le
      | readCryptoBlock4a maxSearch =>
        simp only [surplusOf, more, hfunc] at hexact
        omega
      | _ =>
        have hsearches : p.nextFunc.searches = false := by rw [hfunc]; rfl
        have hle := nextLen_add_surplus hp hsearches (by omega)
        rw [hexact, show (p.more env b).nextLen = p.nextLen from rfl] at hle
        rw [demand_of_staged hstaged hsearches]
        simp only [more, List.length_append, decoded_length] at hle
        omega
    obtain ⟨q, hturn⟩ : ∃ q, turn env p = some q := turn_of_demand hgo hlen hdemand
    rw [show turn env p = none from hrest] at hturn
    cases hturn
  | step p q hturn ih =>
    rw [Feed.settle_of_turn hturn]
    rcases exact_turn hb (staged_of_more hp) hexact hturn with hpassed | ⟨hmore, hraised⟩
    · exact passed_settle hpassed
    · cases turn_moves hp hmore with
      | halts _ _ hzero => omega
      | fails hraises => exact absurd hraises hraised
      | onward hon =>
        refine ih hon.staged (hon.opened (by omega)) (not_lt.mp fun hneg => ?_) (hon.surplus.trans hexact)
        have hzero := (hon.waits hneg).2
        rw [hon.surplus] at hzero
        omega

end BTProtocol

section Incoming
variable {κ σ : Type} {env : Context κ σ} {kind : Kind σ} {w : Bytes}

open BTProtocol

theorem given_open : (kind.given env w).halted = false := by
  obtain ⟨-, -, -, hraised, hclosed, -⟩ := connectionMade_waits env kind
  exact Bool.or_eq_false_iff.mpr ⟨hclosed, by rw [show (kind.given env w).raised = _ from hraised]; rfl⟩

theorem given_nextLen : (kind.given env w).nextLen = pstr.length := (connectionMade_waits env kind).2.2.2.2.2.2.1

theorem given_more (s : Bytes) : (kind.given env w).more env s = kind.given env (w ++ s) :=
  more_of_raw (connectionMade_waits env kind).2.2.2.2.2.1

theorem isCut_whole (h : w ≠ []) : IsCut [w] w :=
  ⟨by rw [List.flatten_singleton], by simpa [eq_comm] using h⟩

theorem isCut_two {n : Nat} (hpos : 0 < n) (hn : n < w.length) : IsCut [w.take n, w.drop n] w := by
  refine ⟨by simp, ?_⟩
  simp only [List.mem_cons, List.not_mem_nil, or_false, not_or]
  constructor <;> intro hnil <;> have hlength := congrArg List.length hnil <;> simp at hlength <;> omega

theorem outcome_whole (h : w ≠ []) : (received env kind [w]).outcome = ((wire env).settle (kind.given env w)).outcome := by
  rw [received_outcome (isCut_whole h).2, List.foldl_cons, List.foldl_nil, Feed.feed,
    show (wire env).push w _ = _ from push_connectionMade]

theorem outcome_two {n : Nat} (hpos : 0 < n) (hn : n < w.length) :
    (received env kind [w.take n, w.drop n]).outcome =
      ((wire env).settle (((wire env).settle (kind.given env (w.take n))).push env (w.drop n))).outcome := by
  rw [received_outcome (isCut_two hpos hn).2, List.foldl_cons, List.foldl_cons, List.foldl_nil, Feed.feed, Feed.feed,
    show (wire env).push (w.take n) _ = _ from push_connectionMade]
  rfl

theorem endState_eq_raised {p : BTProtocol κ σ} {e : PyError} : p.outcome.state = .raised e ↔ p.raised = some e := by
  unfold outcome endState
  cases p.raised with
  | none =>
    dsimp only
    split <;> simp
  | some e' => simp

/-- The whole stream at once raises, and the surplus by itself does not. -/
theorem incoming_shows (h : 0 < surplus env w) :
    ∃ a b, IsCut a w ∧ IsCut b w ∧ (received env .incoming a).outcome ≠ (received env .incoming b).outcome := by
  have hnext : ∀ v, 0 ≤ (Kind.given env .incoming v).nextLen := by
    intro v
    rw [given_nextLen]
    exact Int.natCast_nonneg _
  have hsurplus : (Kind.given env .incoming w).surplusOf env = surplus env w := given_surplusOf_incoming
  have hroom : pstr.length + surplus env w ≤ w.length := by
    have hle := nextLen_add_surplus (given_staged (w := w)) rfl (hsurplus ▸ h)
    rwa [hsurplus, given_nextLen, Int.toNat_natCast] at hle
  rw [pstr_length] at hroom
  have hn : w.length - surplus env w < w.length := by omega
  have hw : w ≠ [] := List.ne_nil_of_length_pos (by omega)
  refine ⟨[w], [w.take (w.length - surplus env w), w.drop (w.length - surplus env w)], isCut_whole hw,
    isCut_two (by omega) hn, ?_⟩
  -- The chunks are cut before the surplus.
  set s := w.drop (w.length - surplus env w) with hs
  have hlength : s.length = surplus env w := by
    rw [hs, List.length_drop]
    omega
  have hwhole : (Kind.given env .incoming (w.take (w.length - surplus env w))).more env s = Kind.given env .incoming w := by
    rw [given_more, hs, List.take_append_drop]
  have hpassed : Passed env ((wire env).settle (Kind.given env .incoming (w.take (w.length - surplus env w)))) := by
    refine passed_of_exact (List.ne_nil_of_length_pos (by omega : 0 < s.length)) _ ?_ given_open (hnext _) ?_
    · rw [hwhole]
      exact given_staged
    · rw [hwhole, hsurplus, hlength]
  intro heq
  rw [outcome_whole hw, outcome_two (by omega) hn] at heq
  have hraised := endState_eq_raised.mpr (fails_of_surplus _ given_staged given_open (hnext w) (hsurplus ▸ h))
  rw [heq] at hraised
  exact (passed_settle (passed_push hpassed)).raised_ne (endState_eq_raised.mp hraised)

end Incoming

namespace BTProtocol
variable {κ σ : Type} {env : Context κ σ} {p q : BTProtocol κ σ} {m s : Bytes} {maxSearch : Int}

/-! ## What is written stays written -/

theorem writeRaw_written : p.written.length ≤ (p.writeRaw s).written.length := by
  unfold writeRaw
  split <;> simp

theorem write_written : p.written.length ≤ (p.write env s).written.length := by
  unfold write
  split
  · rename_i c _ _
    exact writeRaw_written (p := { p with encrypter := some (c.encrypt env.prim s).2 })
  · exact writeRaw_written

theorem react_written {actions : List Action} : p.written.length ≤ (p.react env actions).written.length := by
  unfold react
  induction actions generalizing p with
  | nil => exact le_rfl
  | cons a actions ih =>
    rw [List.foldl_cons]
    refine le_trans ?_ ih
    cases a with
    | write s => exact write_written
    | close => exact (congrArg List.length close_same.2.2.2.2.2.2.2.2.2.2.2.1).ge

theorem told_written {r : Reaction σ} {e : Encoder σ} : p.written.length ≤ (p.told env r e).written.length :=
  react_written (p := { p with encoder := some { e with connecter := r.next } })

theorem answered_written {r : BTProtocol κ σ × Reply} : (answered env r).written = r.1.written := by
  unfold answered
  split
  · exact close_same.2.2.2.2.2.2.2.2.2.2.2.1
  · rfl
  · rfl
  · rfl

theorem readDownloadId_written : p.written.length ≤ (p.readDownloadId env m).1.written.length := by
  unfold readDownloadId
  repeat' split
  all_goals first | exact le_rfl | exact write_written

theorem readDownloadIdIncoming_written : p.written.length ≤ (p.readDownloadIdIncoming env m).1.written.length := by
  unfold readDownloadIdIncoming
  split
  · exact le_rfl
  · rename_i k srs _
    split
    · unfold externalConnectionMade
      cases admission env p.registered k srs with
      | notRunning => exact le_rfl
      | refused => exact (congrArg List.length close_same.2.2.2.2.2.2.2.2.2.2.2.1).ge
      | nameError => exact le_rfl
      | admitted =>
        exact readDownloadId_written (p := externalHandshakeDone srs.handler none p.options
          { p with registered := k :: p.registered })
    · exact le_rfl

theorem readPeerId_written : p.written.length ≤ (p.readPeerId env m).1.written.length := by
  unfold readPeerId
  split
  · exact le_rfl
  · rename_i e _
    have htold : p.written.length ≤ (told env (env.connecter.connectionMade e.connecter) e
      (switchToRead2 { p with id := m, complete := e.gotId m })).written.length :=
        told_written (p := switchToRead2 { p with id := m, complete := e.gotId m })
    dsimp only
    repeat' split
    all_goals first | exact le_rfl | exact htold

theorem readMessage_written : p.written.length ≤ (p.readMessage env m).1.written.length := by
  unfold readMessage
  split
  · exact le_rfl
  · split
    · exact le_rfl
    · rename_i e _
      have htold : p.written.length ≤ (told env (env.connecter.gotMessage e.connecter m) e
        { p with messages := p.messages ++ [m] }).written.length :=
          told_written (p := { p with messages := p.messages ++ [m] })
      dsimp only
      split <;> exact htold

theorem turn_written (hpast : p.nextFunc.past = true) (h : turn env p = some q) :
    p.written.length ≤ q.written.length := by
  obtain ⟨-, -, -, rfl⟩ := turn_eq_some h
  have hcall : p.written.length ≤ (p.rest.call env (p.buffer.take p.demand)).1.written.length := by
    unfold call
    rw [show p.rest.nextFunc = p.nextFunc from rfl]
    cases hfunc : p.nextFunc <;> rw [hfunc] at hpast <;> first | exact absurd hpast Bool.false_ne_true | dsimp only
    · unfold readEncryptedHeader
      split <;> exact le_rfl
    · exact le_rfl
    · split
      · exact readDownloadId_written (p := p.rest)
      · exact readDownloadIdIncoming_written (p := p.rest)
    · exact readPeerId_written (p := p.rest)
    · unfold readLen
      dsimp only
      repeat' split
      all_goals exact le_rfl
    · exact readMessage_written (p := p.rest)
    · exact le_rfl
  show p.written.length ≤ (answered env (p.rest.call env (p.buffer.take p.demand))).written.length
  rw [answered_written]
  exact hcall

/-! ## An answer that is read -/

/-- The connection is closed, or has written more than `n` texts and goes on. -/
def HasAnswered (env : Context κ σ) (n : Nat) (p : BTProtocol κ σ) : Prop :=
  p.halted = true ∨ n < p.written.length ∧ p.Staged env ∧ p.nextFunc.past = true

theorem hasAnswered_settle {n : Nat} (hp : HasAnswered env n p) : HasAnswered env n ((wire env).settle p) := by
  refine Feed.settle_invariant (m := wire env) ?_ hp
  rintro q r (hhalted | ⟨hwritten, hstaged, hpast⟩) hturn
  · have hnone : turn env q = none := turn_of_halted hhalted
    cases hnone.symm.trans hturn
  · cases turn_moves hstaged hturn with
    | halts hhalted => exact Or.inl hhalted
    | fails hraised => exact Or.inl (by simp only [halted, hraised, Option.isSome_some, Bool.or_true])
    | onward hon => exact Or.inr ⟨hwritten.trans_le (turn_written hpast hturn), hon.staged, hon.past hpast⟩

theorem write_answers (h : p.closed = false) : (p.write env s).written.length = p.written.length + 1 := by
  unfold write writeRaw
  split <;> simp [h]

theorem hasAnswered_of_block4done {x : BTProtocol κ σ} {e : Encoder σ} (hq : q = flat (answered env (x.readCryptoBlock4done env)))
    (hmoves : Moves env p q) (hencoder : x.encoder = some e) (hclosed : x.closed = false) :
    HasAnswered env x.written.length q := by
  cases hmoves with
  | halts hhalted => exact Or.inl hhalted
  | fails hraised => exact Or.inl (by simp only [halted, hraised, Option.isSome_some, Bool.or_true])
  | onward hon =>
    have hstaged := hon.staged
    unfold readCryptoBlock4done at hq
    rw [hencoder] at hq
    dsimp only at hq
    split at hq
    · split at hq
      · exact Or.inl (hq ▸ halted_of_isNone rfl)
      · refine Or.inr ⟨?_, hstaged, by rw [hq]; rfl⟩
        have hwritten : q.written.length = x.endCrypto.written.length + 1 := by
          rw [hq]
          exact write_answers (p := x.endCrypto) hclosed
        rw [hwritten]
        exact Nat.lt_succ_self _
    · refine Or.inr ⟨?_, hstaged, by rw [hq]; rfl⟩
      have hwritten : q.written.length = x.written.length + 1 := by
        rw [hq]
        exact write_answers hclosed
      rw [hwritten]
      exact Nat.lt_succ_self _

theorem hasAnswered_turn (h : turn env p = some q) (hanswered : HasAnswered env p.written.length q) :
    HasAnswered env p.written.length ((wire env).settle p) := by
  rw [Feed.settle_of_turn (m := wire env) h]
  exact hasAnswered_settle hanswered

theorem hasAnswered_of_pad4 (hp : p.Staged env) (hgo : p.halted = false) (hencoder : p.encoder ≠ none)
    (hfunc : p.nextFunc = .readCryptoPad4) (hdecided : p.decidedOf env = true) :
    HasAnswered env p.written.length ((wire env).settle p) := by
  obtain ⟨e, hencoder⟩ := Option.ne_none_iff_exists'.mp hencoder
  have hstage := hp.2.2
  rw [hfunc] at hstage
  have hclosed : p.closed = false := (Bool.or_eq_false_iff.mp hgo).1
  have hdemand : p.demand = p.nextLen.toNat := demand_of_pos hstage.2
  have henough : p.nextLen.toNat ≤ p.buffer.length := by
    simpa only [decidedOf, hfunc, decide_eq_true_eq] using hdecided
  obtain ⟨q, hturn⟩ : ∃ q, turn env p = some q := turn_of_demand hgo hstage.2.le (hdemand.trans_le henough)
  obtain ⟨-, -, -, hq⟩ := turn_eq_some hturn
  have hcall : p.rest.call env (p.buffer.take p.demand) = p.rest.readCryptoBlock4done env := by
    simp only [call, rest, hfunc]
  rw [hcall] at hq
  exact hasAnswered_turn hturn (hasAnswered_of_block4done (x := p.rest) hq (turn_moves hp hturn) hencoder hclosed)

theorem hasAnswered_of_block4b (hp : p.Staged env) (hgo : p.halted = false) (hfunc : p.nextFunc = .readCryptoBlock4b)
    (hdecided : p.decidedOf env = true) : HasAnswered env p.written.length ((wire env).settle p) := by
  have hstage := hp.2.2
  rw [hfunc] at hstage
  obtain ⟨hbufferlen, hlen, e, hencoder⟩ := hstage
  have hclosed : p.closed = false := (Bool.or_eq_false_iff.mp hgo).1
  have hsix : p.demand = 6 := by
    rw [demand_of_pos (by omega), hlen]
    rfl
  simp only [decidedOf, hfunc, hencoder, decidesBlock4b, Bool.and_eq_true, Bool.or_eq_true, decide_eq_true_eq] at hdecided
  obtain ⟨henough, hdecided⟩ := hdecided
  obtain ⟨q, hturn⟩ : ∃ q, turn env p = some q := turn_of_demand hgo (by omega) (hsix.trans_le henough)
  obtain ⟨-, -, -, hq⟩ := turn_eq_some hturn
  have hcall : p.rest.call env (p.buffer.take p.demand) = p.rest.readCryptoBlock4b env (p.buffer.take 6) := by
    simp only [call, rest, hfunc, hsix]
  have hencoder' : p.rest.encoder = some e := hencoder
  have hmoves := turn_moves hp hturn
  rw [hcall, readCryptoBlock4b_eq hencoder'] at hq
  split at hq
  · exact hasAnswered_turn hturn (Or.inl (hq ▸ halted_of_isNone rfl))
  · rename_i hrefused
    split at hq
    · rw [staged_next rfl hp.1 hbufferlen] at hq
      rw [Feed.settle_of_turn (m := wire env) hturn]
      have hwritten : q.written = p.written := by rw [hq]; rfl
      have hstaged : q.Staged env := by
        cases hmoves with
        | onward hon => exact hon.staged
        | halts hhalted =>
          rw [show q.halted = p.halted by rw [hq]; rfl, hgo] at hhalted
          cases hhalted
        | fails hraised =>
          rw [show q.raised = p.raised by rw [hq]; rfl, hp.2.1] at hraised
          cases hraised
      rw [← hwritten]
      refine hasAnswered_of_pad4 hstaged (by rw [hq]; exact hgo) (by rw [hq]; exact ne_of_eq_of_ne hencoder (Option.some_ne_none _))
        (by rw [hq]) ?_
      rw [hq]
      simpa only [decidedOf, rest, hsix, List.length_drop, Int.toNat_natCast, decide_eq_true_eq] using
        hdecided.resolve_left hrefused
    · exact hasAnswered_turn hturn (hasAnswered_of_block4done
        (x := { p.rest with cryptmode := unpackBE ((p.buffer.take 6).take 4) % 4 }) hq hmoves hencoder hclosed)

theorem hasAnswered_of_block4a (hp : p.Staged env) (hgo : p.halted = false) (hlen : p.nextLen = 0)
    (hfunc : p.nextFunc = .readCryptoBlock4a maxSearch) (hdecided : p.decidedOf env = true) :
    HasAnswered env p.written.length ((wire env).settle p) := by
  have hstage := hp.2.2
  rw [hfunc] at hstage
  obtain ⟨hcrypted, hbufferlen, -, -, e, c, hencoder, hc, hpat⟩ := hstage
  have hturn := turn_readCryptoBlock4a env hgo hlen hp.1 hbufferlen hfunc hc
  simp only [decidedOf, hfunc, hencoder, hc, decidesBlock4a] at hdecided
  cases hfind : find (c.VC_pattern env.prim).1 p.buffer with
  | some i =>
    rw [hfind] at hturn hdecided
    rw [Feed.settle_of_turn (m := wire env) hturn]
    exact hasAnswered_of_block4b (p := { p with
      crypted := true
      buffer := ((c.VC_pattern env.prim).2.decrypt env.prim
        (p.buffer.drop (i + (c.VC_pattern env.prim).1.length))).1
      encrypter := some ((c.VC_pattern env.prim).2.decrypt env.prim
        (p.buffer.drop (i + (c.VC_pattern env.prim).1.length))).2
      nextLen := 6
      nextFunc := .readCryptoBlock4b }) ⟨hp.1, hp.2.1, hbufferlen, rfl, e, hencoder⟩ hgo rfl
      (by simpa only [decidedOf, hencoder] using hdecided)
  | none =>
    rw [hfind] at hturn hdecided
    exact hasAnswered_turn hturn (Or.inl (missed_halted _ (by simpa using hdecided)))

end BTProtocol

section Outgoing
variable {κ σ : Type} {env : Context κ σ} {e : Encoder σ} {id k s w : Bytes}

open BTProtocol

variable (env) in
theorem turn_readHeader_key {p : BTProtocol κ σ} (hgo : p.halted = false) (hpieces : p.pieces = [])
    (hbufferlen : p.bufferlen = none) (hlen : p.nextLen = pstr.length) (hfunc : p.nextFunc = .readHeader)
    (hloc : p.locallyInitiated = true) (hencrypted : p.encrypted = true) (hencoder : p.encoder = some e)
    (hkey : afterKey e.config.cryptoAllowed p.buffer = some (k, s)) :
    turn env p = some { p with nextLen := DH_BYTES, nextFunc := .readCryptoHeader } := by
  obtain ⟨hlength, hplain, hallowed, -⟩ := afterKey_eq_some hkey
  have hdemand := demand_of_header hlen
  rw [← hdemand] at hplain
  have hcall : p.rest.call env (p.buffer.take p.demand) =
      (p.rest.writeBuffer (p.buffer.take p.demand), .next DH_BYTES .readCryptoHeader) := by
    simp [call, readHeader, rest, hfunc, hloc, hencoder, hencrypted, hplain, hallowed]
  unfold turn
  rw [if_pos ⟨hgo, hlen ▸ Int.natCast_nonneg _, hdemand.trans_le hlength⟩, hcall, header_again rfl hpieces hbufferlen]
  rfl

variable (env e k s) in
/-- An outgoing connection that has answered the key and has looked at one byte of the `s` after it. -/
structure Waiting (r : BTProtocol κ σ) : Prop where
  staged : r.Staged env
  halted : r.halted = false
  written : r.written.length = 2
  nextLen : r.nextLen = -1
  crypted : r.crypted = false
  nextFunc : r.nextFunc = .readCryptoBlock4a 520
  encoder : r.encoder = some e
  buffer : r.buffer = s
  encrypter : ∃ sent, r.encrypter = some (((outgoingCrypto env e k).encrypt env.prim sent).2.VC_pattern env.prim).2

theorem turn_of_waiting {r : BTProtocol κ σ} (h : r.nextLen < 0) : turn env r = none := by
  unfold turn
  rw [if_neg]
  rintro ⟨-, hnonneg, -⟩
  omega

theorem waiting_of_key {p : BTProtocol κ σ} (hp : p.Staged env) (hgo : p.halted = false) (hfunc : p.nextFunc = .readHeader)
    (hloc : p.locallyInitiated = true) (hencrypted : p.encrypted = true) (hencoder : p.encoder = some e)
    (hnew : p.encrypter = some (.new env.prim true env.privkey)) (hwritten : p.written.length = 1)
    (hkey : afterKey e.config.cryptoAllowed p.buffer = some (k, s)) (hs : s ≠ []) :
    Waiting env e k s ((wire env).settle p) := by
  obtain ⟨hpieces, hraised, hstage⟩ := hp
  rw [hfunc] at hstage
  obtain ⟨hcrypted, hbufferlen, hlen, -⟩ := hstage
  have hheader := turn_readHeader_key env hgo hpieces hbufferlen hlen hfunc hloc hencrypted hencoder hkey
  obtain ⟨-, -, -, henough, rfl, rfl⟩ := afterKey_eq_some hkey
  obtain ⟨answer, sent, hanswer⟩ := turn_readCryptoHeader env
    (p := { p with nextLen := DH_BYTES, nextFunc := .readCryptoHeader }) hgo hpieces hbufferlen hcrypted rfl rfl hloc
    hencoder hnew henough
  have hpat : 1 < (((outgoingCrypto env e (p.buffer.take DH_BYTES)).encrypt env.prim sent).2.VC_pattern env.prim).1.length := by
    rw [Crypto.VC_pattern_encrypt, outgoingCrypto, Crypto.VC_pattern_keyed rfl]
    decide
  have hfirst := turn_readCryptoBlock4a_one env 520
    (c := ((outgoingCrypto env e (p.buffer.take DH_BYTES)).encrypt env.prim sent).2)
    (p := { p with
      encrypter := some ((outgoingCrypto env e (p.buffer.take DH_BYTES)).encrypt env.prim sent).2
      buffer := p.buffer.drop DH_BYTES
      nextLen := 1
      nextFunc := .readCryptoBlock4a 520
      pads := p.pads + 1
      written := p.written ++ [answer] }) hgo rfl hs hpieces hbufferlen rfl rfl (by decide) hpat
  rw [((Feed.settle_of_turn (m := wire env) hheader).trans (Feed.settle_of_turn (m := wire env) hanswer)).trans
    ((Feed.settle_of_turn (m := wire env) hfirst).trans
      (Feed.settle_of_none (m := wire env) (turn_of_waiting (by decide : (-1 : Int) < 0))))]
  exact
    { staged := ⟨hpieces, hraised, hcrypted, hbufferlen, (by decide : (-1 : Int) ≤ 1), by decide, e, _, hencoder, rfl,
        by rwa [Crypto.VC_pattern_again]⟩
      halted := hgo
      written := by simp only [List.length_append, hwritten, List.length_singleton]
      nextLen := rfl
      crypted := hcrypted
      nextFunc := rfl
      encoder := hencoder
      buffer := rfl
      encrypter := ⟨sent, rfl⟩ }

variable (env id) in
theorem settle_given (hkey : afterKey e.config.cryptoAllowed w = some (k, s)) (hs : s ≠ []) :
    Waiting env e k s ((wire env).settle (Kind.given env (.outgoing e id true) w)) := by
  refine waiting_of_key given_staged given_open ?_ ?_ ?_ ?_ ?_ ?_ ?_ hs
  all_goals rw [Kind.given, connectionMade_encrypted]
  all_goals first | exact hkey | rfl

/-- What decides needs at least the pattern. -/
theorem length_of_decided {c : Crypto κ} {config : Config} {maxSearch : Int} (hmax : 0 ≤ maxSearch)
    (h : decidesBlock4a env.prim config c maxSearch s = true) : (c.VC_pattern env.prim).1.length ≤ s.length := by
  unfold decidesBlock4a searched at h
  dsimp only at h
  split at h
  · rename_i i hfind
    have hbound := Search.find_bound hfind
    omega
  · rw [decide_eq_true_eq] at h
    split at h
    · assumption
    · omega

theorem afterKey_append (hkey : afterKey e.config.cryptoAllowed w = some (k, s)) (n : Nat) :
    afterKey e.config.cryptoAllowed (w.take (DH_BYTES + n)) = some (k, s.take n) := by
  obtain ⟨hlength, hplain, hallowed, henough, rfl, rfl⟩ := afterKey_eq_some hkey
  have hpstr := pstr_length
  have hbytes : DH_BYTES = 96 := rfl
  unfold afterKey
  rw [if_pos]
  · rw [List.take_take, List.drop_take, min_eq_left (by omega), Nat.add_sub_cancel_left]
  · refine ⟨by rw [List.length_take]; omega, ?_, hallowed, by rw [List.length_take]; omega⟩
    rwa [List.take_take, min_eq_left (by omega)]

theorem outcome_open {p : BTProtocol κ σ} (h : p.halted = false) : p.outcome.state = .isOpen := by
  obtain ⟨hclosed, hraised⟩ := Bool.or_eq_false_iff.mp h
  rw [Option.isSome_eq_false_iff, Option.isNone_iff_eq_none] at hraised
  unfold outcome endState
  rw [hraised, hclosed]
  rfl

theorem outcome_halted {p : BTProtocol κ σ} (h : p.halted = true) : p.outcome.state ≠ .isOpen := by
  unfold outcome endState
  cases hraised : p.raised with
  | some e => exact fun h => EndState.noConfusion h
  | none =>
    have hclosed : p.closed = true := by simpa [halted, hraised] using h
    rw [hclosed]
    exact fun h => EndState.noConfusion h

theorem decidesBlock4a_pattern {c : Crypto κ} {config : Config} {maxSearch : Int} :
    decidesBlock4a env.prim config (c.VC_pattern env.prim).2 maxSearch s =
      decidesBlock4a env.prim config c maxSearch s := by
  unfold decidesBlock4a
  rw [Crypto.VC_pattern_again]

/-- What comes later is searched. -/
theorem hasAnswered_of_waiting {r : BTProtocol κ σ} {t : Bytes} (hr : Waiting env e k t r) (hs : s ≠ [])
    (h : decidesBlock4a env.prim e.config (outgoingCrypto env e k) 520 (t ++ s) = true) :
    HasAnswered env 2 ((wire env).settle (r.push env s)) := by
  obtain ⟨sent, hencrypter⟩ := hr.encrypter
  have hpush : r.push env s = wake { r with buffer := t ++ s } := by
    have hmore : r.more env s = { r with buffer := r.buffer ++ s } := more_of_raw hr.crypted
    rw [hr.buffer] at hmore
    exact (if_neg (by simp [hs, hr.halted])).trans (congrArg wake hmore)
  have hdecided : decidedOf env (wake { r with buffer := t ++ s }) = true := by
    simp only [decidedOf, wake, hr.nextFunc, hr.encoder, hencrypter, decidesBlock4a_pattern, decidesBlock4a_encrypt]
    exact h
  have hlen : (wake { r with buffer := t ++ s } : BTProtocol κ σ).nextLen = 0 := by
    simp only [wake, hr.nextLen]
    rfl
  rw [hpush, ← hr.written]
  exact hasAnswered_of_block4a (p := wake { r with buffer := t ++ s }) (staged_wake (p := { r with buffer := t ++ s }) hr.staged)
    hr.halted hlen hr.nextFunc hdecided

variable (id) in
/-- The whole stream at once is not answered, and the same stream cut after the first byte behind the key is. -/
theorem outgoing_shows (h : decided env e w = true) :
    ∃ a b, IsCut a w ∧ IsCut b w ∧
      (received env (.outgoing e id true) a).outcome ≠ (received env (.outgoing e id true) b).outcome := by
  unfold decided at h
  cases hkey : afterKey e.config.cryptoAllowed w with
  | none =>
    rw [hkey] at h
    cases h
  | some x =>
    obtain ⟨k, s⟩ := x
    rw [hkey] at h
    have hpat : 8 ≤ s.length := by
      have hlength := length_of_decided (by decide) h
      rwa [outgoingCrypto, Crypto.VC_pattern_keyed rfl] at hlength
    obtain ⟨-, -, -, henough, -, hs⟩ := afterKey_eq_some hkey
    have hw : s.length = w.length - DH_BYTES := by rw [hs, List.length_drop]
    have hdrop : w.drop (DH_BYTES + 1) = s.drop 1 := by rw [hs, List.drop_drop]
    have hwhole : w ≠ [] := List.ne_nil_of_length_pos (by omega)
    have hpos : 0 < DH_BYTES + 1 := Nat.succ_pos _
    have hn : DH_BYTES + 1 < w.length := by omega
    have hfirst := settle_given env id hkey (List.ne_nil_of_length_pos (by omega))
    have hcut := settle_given env id (afterKey_append hkey 1)
      (List.ne_nil_of_length_pos (by rw [List.length_take]; omega))
    have hanswered := hasAnswered_of_waiting hcut (s := s.drop 1)
      (List.ne_nil_of_length_pos (by rw [List.length_drop]; omega)) (by rwa [List.take_append_drop])
    refine ⟨[w], [w.take (DH_BYTES + 1), w.drop (DH_BYTES + 1)], isCut_whole hwhole, isCut_two hpos hn, fun heq => ?_⟩
    rw [outcome_whole hwhole, outcome_two hpos hn, hdrop] at heq
    rcases hanswered with hhalted | ⟨hwritten, -, -⟩
    · exact outcome_halted hhalted (heq ▸ outcome_open hfirst.halted)
    · have hsame := congrArg (fun o => o.written.length) heq
      exact absurd (hsame.symm.trans hfirst.written) (Nat.ne_of_gt hwritten)

end Outgoing

section
variable {κ σ : Type}

/-- What a stream comes to depends on where it is cut just when it comes to one of the two places. -/
theorem segmentation_iff (env : Context κ σ) (kind : Kind σ) (stream : PeerStream env kind) :
    (∀ a b, IsCut a stream.bytes → IsCut b stream.bytes →
      (received env kind a).outcome = (received env kind b).outcome) ↔ kind.Harmless env stream.bytes := by
  constructor
  · intro hsame
    cases kind with
    | incoming =>
      refine Nat.eq_zero_of_not_pos fun hpos => ?_
      obtain ⟨a, b, ha, hb, hne⟩ := incoming_shows hpos
      exact hne (hsame a b ha hb)
    | outgoing e id supposedlyEncrypted =>
      cases supposedlyEncrypted with
      | false => trivial
      | true =>
        refine Bool.eq_false_iff.mpr fun hdecided => ?_
        obtain ⟨a, b, ha, hb, hne⟩ := outgoing_shows id hdecided
        exact hne (hsame a b ha hb)
  · intro hharmless a b ha hb
    rw [received_of_harmless hharmless ha, received_of_harmless hharmless hb]

end

/-! ## A stream that comes to the second place -/

section
variable {κ σ : Type} {env : Context κ σ} {e : Encoder σ} {k t : Bytes}

variable (env e k t) in
/-- What a peer sends that has the key `k`, no pad, and full encryption of `t`. -/
def answerOf : Bytes :=
  k ++ (env.prim.rc4.update (outgoingCrypto env e k).decrypter (List.replicate 8 0 ++ ([0, 0, 0, 2, 0, 0] ++ t))).1

theorem VC_pattern_of_none {prim : Primitives κ} {c : Crypto κ} (h : c.vcPattern = none) :
    c.VC_pattern prim =
      ((prim.rc4.update c.decrypter (List.replicate 8 0)).1,
        { c with
          decrypter := (prim.rc4.update c.decrypter (List.replicate 8 0)).2
          vcPattern := some (prim.rc4.update c.decrypter (List.replicate 8 0)).1 }) := by
  unfold Crypto.VC_pattern
  rw [h]
  rfl

theorem outgoingCrypto_vcPattern : (outgoingCrypto env e k).vcPattern = none := by
  rw [outgoingCrypto, Crypto.setSkey_vcPattern, Crypto.receivedKey_vcPattern]
  rfl

theorem afterKey_answerOf {cryptoAllowed : Bool} (hk : k.length = DH_BYTES) (hplain : k.take pstr.length ≠ pstr)
    (hallowed : cryptoAllowed = true) :
    afterKey cryptoAllowed (answerOf env e k t) = some (k, (answerOf env e k t).drop DH_BYTES) := by
  have hpstr := pstr_length
  have hbytes : DH_BYTES = 96 := rfl
  have hlength : DH_BYTES ≤ (answerOf env e k t).length := by
    rw [answerOf, List.length_append]
    omega
  unfold afterKey
  rw [if_pos]
  · rw [answerOf, ← hk, List.take_left]
  · refine ⟨by omega, ?_, hallowed, hlength⟩
    rwa [answerOf, List.take_append_of_le_length (by omega)]

theorem find_answerOf (hk : k.length = DH_BYTES) :
    find ((outgoingCrypto env e k).VC_pattern env.prim).1 ((answerOf env e k t).drop DH_BYTES) = some 0 := by
  rw [answerOf, ← hk, List.drop_left, StreamCipher.update_append, VC_pattern_of_none outgoingCrypto_vcPattern]
  exact Search.find_self_append

/-- Full encryption and no pad is all that block 4b has to say. -/
theorem decidesBlock4b_full {config : Config} : decidesBlock4b config ([0, 0, 0, 2, 0, 0] ++ t) = true := by
  have htake : ([0, 0, 0, 2, 0, 0] ++ t : Bytes).take 6 = [0, 0, 0, 2, 0, 0] := rfl
  have hpad : unpackBE ((([0, 0, 0, 2, 0, 0] : Bytes).drop 4).take 2) = 0 := by decide
  unfold decidesBlock4b
  rw [htake, hpad, List.length_append]
  simp

theorem decided_answerOf (hk : k.length = DH_BYTES) (hplain : k.take pstr.length ≠ pstr)
    (hallowed : e.config.cryptoAllowed = true) : decided env e (answerOf env e k t) = true := by
  unfold decided
  rw [afterKey_answerOf hk hplain hallowed]
  dsimp only
  unfold decidesBlock4a
  dsimp only
  rw [find_answerOf hk]
  dsimp only
  have hplainText : (Crypto.decrypt env.prim ((outgoingCrypto env e k).VC_pattern env.prim).2
      (((answerOf env e k t).drop DH_BYTES).drop (0 + ((outgoingCrypto env e k).VC_pattern env.prim).1.length))).1 =
        [0, 0, 0, 2, 0, 0] ++ t := by
    rw [answerOf, ← hk, List.drop_left, StreamCipher.update_append, VC_pattern_of_none outgoingCrypto_vcPattern,
      Nat.zero_add, List.drop_left]
    unfold Crypto.decrypt
    dsimp only
    rw [StreamCipher.update_update]
  exact (congrArg (decidesBlock4b e.config) hplainText).trans decidesBlock4b_full

end

/-- The connecter of a torrent that says nothing. -/
def silentConnecter : Connecter Unit where
  connectionMade _ := ⟨(), [], false⟩
  gotMessage _ _ := ⟨(), [], false⟩
  connectionLost := id

def cryptoConfig : Config := ⟨true, false, false, false⟩

def client : Context Rc4State Unit where
  prim := ⟨sha1, sha1_length, rc4⟩
  connecter := silentConnecter
  config := cryptoConfig
  singlerawservers := []
  ip := "10.0.0.1"
  privkey := 5
  padding _ := []

def torrent : Encoder Unit where
  config := cryptoConfig
  downloadId := List.replicate 20 1
  myId := List.replicate 20 2
  maxLen := 131072
  done := false
  paused := false
  connections := 1
  maxConnections := 55
  checkIp _ := true
  gotId _ := true
  connecter := ()

/-- What a peer with the private key 160 sends, which selects full encryption and sends its handshake with it. -/
def peerBytes : Bytes :=
  answerOf client torrent (numtobyte (2 ^ 160 % DH_PRIME))
    (pstr ++ optionPattern ++ torrent.downloadId ++ List.replicate 20 3)

theorem peerKey_length : (numtobyte (2 ^ 160 % DH_PRIME)).length = DH_BYTES := by decide

theorem peerKey_plain : (numtobyte (2 ^ 160 % DH_PRIME)).take pstr.length ≠ pstr := by decide +kernel

theorem peerBytes_pad : ∀ n ∈ Kind.padLength client (.outgoing torrent [] true) peerBytes, n ≤ 512 := by
  intro n hn
  have hallowed : torrent.config.cryptoAllowed = true := rfl
  rw [Kind.padLength, peerBytes, afterKey_answerOf peerKey_length peerKey_plain hallowed, Option.bind_some,
    find_answerOf peerKey_length, Option.mem_some_iff] at hn
  omega

def peerStream : PeerStream client (.outgoing torrent [] true) := ⟨peerBytes, peerBytes_pad⟩

theorem peerStream_segmentation :
    ¬ ∀ a b, IsCut a peerStream.bytes → IsCut b peerStream.bytes →
      (received client (.outgoing torrent [] true) a).outcome = (received client (.outgoing torrent [] true) b).outcome := by
  intro hsame
  have hdecided : decided client torrent peerStream.bytes = true :=
    decided_answerOf peerKey_length peerKey_plain rfl
  obtain ⟨a, b, ha, hb, hne⟩ := outgoing_shows [] hdecided
  exact hne (hsame a b ha hb)

end BitBlinder.PeerWire
