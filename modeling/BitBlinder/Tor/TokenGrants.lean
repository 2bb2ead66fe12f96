import Mathlib.Data.List.Dedup
import Mathlib.Tactic.Positivity
import Mathlib.Tactic.Ring
import BitBlinder.Runs
import BitBlinder.Tor.ServerPayment

/-!
# What a relay gives away

The tokens that a relay adds to a circuit are bounded by one start grant and
the coins it has earned there, as long as the start grant is made once. The
receipts of stored requests are distinct and leave the store when they are
paid, so no coin is earned twice.
-/

namespace BitBlinder.Tor

set_option autoImplicit false

open Struct Client

namespace ServerPaymentHandler

/-- The tokens granted by the calls of `add_tokens` with non-negative arguments. -/
def granted (s : ServerPaymentHandler) : Int :=
  ((s.tokens.filter fun c => 0 ≤ c.1 ∧ 0 ≤ c.2).map fun c => c.1 + c.2).sum

/-- No setup message arrives after the start tokens have been granted. -/
def SetupOnce (s : ServerPaymentHandler) : RelayEvent → Prop
  | .setup _ _ => s.startGrants = 0
  | _ => True

/-- The first `n` receipts of the random generator are distinct. -/
def DistinctReceipts (cfg : RelayConfig) (n : Nat) : Prop :=
  ∀ i j, i < n → j < n → (cfg.tape i).receipt = (cfg.tape j).receipt → i = j

/-- Every request costs one credit, receipts are the drawn ones, and unless the generator
repeats itself none of them is requested or earned twice. -/
structure Accounted (cfg : RelayConfig) (s : ServerPaymentHandler) : Prop where
  cost : ∀ id request, s.requests.lookup id = some request → request.value = getCost
  drawn_request : ∀ id request, s.requests.lookup id = some request →
    ∃ i < s.drawn, unpackBE request.receipt = (cfg.tape i).receipt
  drawn_coin : ∀ coin ∈ s.earned, ∃ i < s.drawn, unpackBE coin.receipt = (cfg.tape i).receipt
  requests_distinct : DistinctReceipts cfg s.drawn → ∀ id id' request request', s.requests.lookup id = some request →
    s.requests.lookup id' = some request' → request.receipt = request'.receipt → id = id'
  unearned : DistinctReceipts cfg s.drawn → ∀ id request, s.requests.lookup id = some request →
    ∀ coin ∈ s.earned, coin.receipt ≠ request.receipt
  earned_nodup : DistinctReceipts cfg s.drawn → (s.earned.map ACoin.receipt).Nodup
  valid : ∀ coin ∈ s.earned,
    coin.isValid cfg.acoinKey ACoin.isFreshClient coin.interval = .ok true

section Accounted
variable {cfg : RelayConfig} {env : Env} {s : ServerPaymentHandler}

theorem Accounted.congr {t : ServerPaymentHandler} (h : Accounted cfg s)
    (hrequests : t.requests = s.requests) (hdrawn : t.drawn = s.drawn) (hearned : t.earned = s.earned) :
    Accounted cfg t := by
  obtain ⟨h₁, h₂, h₃, h₄, h₅, h₆, h₇⟩ := h
  constructor <;> simpa only [hrequests, hdrawn, hearned]

theorem new_accounted : Accounted cfg new := by
  constructor <;> simp [new]

theorem generatePaymentRequestMessage_accounted (h : Accounted cfg s) :
    Accounted cfg (s.generatePaymentRequestMessage cfg env).1 := by
  have hlater : ∀ {n : Nat}, (∃ i < s.drawn, n = (cfg.tape i).receipt) →
      ∃ i < s.drawn + 1, n = (cfg.tape i).receipt := by
    rintro n ⟨i, hi, rfl⟩
    exact ⟨i, by omega, rfl⟩
  have hbefore : DistinctReceipts cfg (s.drawn + 1) → DistinctReceipts cfg s.drawn := by
    intro hd i j hi hj
    exact hd i j (by omega) (by omega)
  have hnew : DistinctReceipts cfg (s.drawn + 1) → ∀ bs : Bytes,
      unpackBE bs = (cfg.tape s.drawn).receipt → ¬ ∃ i < s.drawn, unpackBE bs = (cfg.tape i).receipt := by
    rintro hd bs hbs ⟨i, hi, heq⟩
    have := hd s.drawn i (by omega) (by omega) (hbs.symm.trans heq)
    omega
  unfold generatePaymentRequestMessage
  dsimp only
  split
  · exact ⟨h.cost, fun id request hr => hlater (h.drawn_request id request hr),
      fun coin hc => hlater (h.drawn_coin coin hc), fun hd => h.requests_distinct (hbefore hd),
      fun hd => h.unearned (hbefore hd), fun hd => h.earned_nodup (hbefore hd), h.valid⟩
  · rename_i request hmake
    obtain ⟨hreceipt, hvalue⟩ := makeAcoinRequest_ok hmake
    have hlookup : ∀ id r, (s.requests.insert s.currentRequestId request).lookup id = some r →
        (id = s.currentRequestId ∧ r = request) ∨ s.requests.lookup id = some r := by
      intro id r hr
      by_cases hid : id = s.currentRequestId
      · subst hid
        rw [AList.lookup_insert] at hr
        exact Or.inl ⟨rfl, (Option.some.inj hr).symm⟩
      · rw [AList.lookup_insert_ne hid] at hr
        exact Or.inr hr
    have hother : DistinctReceipts cfg (s.drawn + 1) → ∀ id r, s.requests.lookup id = some r →
        r.receipt ≠ request.receipt := by
      intro hd id r hr heq
      apply hnew hd request.receipt hreceipt
      rw [← heq]
      exact h.drawn_request id r hr
    refine ⟨?_, ?_, fun coin hc => hlater (h.drawn_coin coin hc), ?_, ?_,
      fun hd => h.earned_nodup (hbefore hd), h.valid⟩
    · intro id r hr
      rcases hlookup id r hr with ⟨-, rfl⟩ | hold
      · exact hvalue
      · exact h.cost id r hold
    · intro id r hr
      rcases hlookup id r hr with ⟨-, rfl⟩ | hold
      · exact ⟨s.drawn, Nat.lt_succ_self _, hreceipt⟩
      · exact hlater (h.drawn_request id r hold)
    · intro hd id id' r r' hr hr' heq
      rcases hlookup id r hr with ⟨rfl, rfl⟩ | hold
      · rcases hlookup id' r' hr' with ⟨rfl, -⟩ | hold'
        · rfl
        · exact absurd heq.symm (hother hd id' r' hold')
      · rcases hlookup id' r' hr' with ⟨rfl, rfl⟩ | hold'
        · exact absurd heq (hother hd id r hold)
        · exact h.requests_distinct (hbefore hd) id id' r r' hold hold' heq
    · intro hd id r hr coin hc heq
      rcases hlookup id r hr with ⟨-, rfl⟩ | hold
      · apply hnew hd r.receipt hreceipt
        rw [← heq]
        exact h.drawn_coin coin hc
      · exact h.unearned (hbefore hd) id r hold coin hc heq

/-- What does not touch Tor's tokens or the bank. -/
structure Silent (cfg : RelayConfig) (s t : ServerPaymentHandler) : Prop where
  tokens : t.tokens = s.tokens
  startGrants : t.startGrants = s.startGrants
  earned : t.earned = s.earned
  accounted : Accounted cfg s → Accounted cfg t

theorem Silent.refl (s : ServerPaymentHandler) : Silent cfg s s := ⟨rfl, rfl, rfl, id⟩

theorem Silent.trans {s t r : ServerPaymentHandler} (hst : Silent cfg s t) (htr : Silent cfg t r) :
    Silent cfg s r :=
  ⟨htr.tokens.trans hst.tokens, htr.startGrants.trans hst.startGrants, htr.earned.trans hst.earned,
    fun h => htr.accounted (hst.accounted h)⟩

theorem generatePaymentRequestMessage_silent (cfg : RelayConfig) (env : Env) (s : ServerPaymentHandler) :
    Silent cfg s (s.generatePaymentRequestMessage cfg env).1 := by
  refine ⟨?_, ?_, ?_, generatePaymentRequestMessage_accounted⟩ <;>
    · unfold generatePaymentRequestMessage
      dsimp only
      split <;> rfl

theorem generateLoop_silent (cfg : RelayConfig) (env : Env) (k : Nat) (s : ServerPaymentHandler)
    (msg : Bytes) :
    Silent cfg s (generateLoop cfg env k s msg).1 := by
  induction k generalizing s msg with
  | zero => exact Silent.refl s
  | succ k ih =>
    have hone := generatePaymentRequestMessage_silent cfg env s
    unfold generateLoop
    split
    · rename_i t e heq
      rwa [heq] at hone
    · rename_i t request heq
      rw [heq] at hone
      exact hone.trans (ih t _)

theorem sendSetupReply_silent (cfg : RelayConfig) (env : Env) (s : ServerPaymentHandler) :
    Silent cfg s (s.sendSetupReply cfg env).1 := by
  unfold sendSetupReply
  split
  · exact Silent.refl s
  · rename_i msg _
    have hloop := generateLoop_silent cfg env MAX_MERCHANT_TOKENS s msg
    split
    · rename_i heq
      rwa [heq] at hloop
    · rename_i heq
      rwa [heq] at hloop

theorem sendReceiptMessage_silent (cfg : RelayConfig) (env : Env) (s : ServerPaymentHandler)
    (theirId numTokens : Nat) :
    Silent cfg s (s.sendReceiptMessage cfg env theirId numTokens).1 := by
  unfold sendReceiptMessage
  split
  · exact Silent.refl s
  · rename_i msg _
    have hloop := generateLoop_silent cfg env numTokens s msg
    split
    · rename_i heq
      rwa [heq] at hloop
    · rename_i heq
      rwa [heq] at hloop

/-- `new` are the coins earned between two states without a call of `add_tokens`. -/
structure Earns (cfg : RelayConfig) (s t : ServerPaymentHandler) (new : List ACoin) : Prop where
  tokens : t.tokens = s.tokens
  startGrants : t.startGrants = s.startGrants
  earned : t.earned = s.earned ++ new
  accounted : Accounted cfg s → Accounted cfg t

theorem Accounted.erase (h : Accounted cfg s) (requestId : Nat) :
    Accounted cfg { s with requests := s.requests.erase requestId } := by
  have hlookup : ∀ id request, (s.requests.erase requestId).lookup id = some request →
      s.requests.lookup id = some request := by
    intro id request hr
    by_cases hid : id = requestId
    · subst hid
      rw [AList.lookup_erase] at hr
      cases hr
    · rwa [AList.lookup_erase_ne hid] at hr
  exact ⟨fun id r hr => h.cost id r (hlookup id r hr),
    fun id r hr => h.drawn_request id r (hlookup id r hr), h.drawn_coin,
    fun hd id id' r r' hr hr' =>
      h.requests_distinct hd id id' r r' (hlookup id r hr) (hlookup id' r' hr'),
    fun hd id r hr => h.unearned hd id r (hlookup id r hr), h.earned_nodup, h.valid⟩

/-- A coin made from a stored request has a receipt that was not earned before and is
not requested any more. -/
theorem Accounted.earn {requestId : Nat} {request : AcoinRequest} {coin : ACoin} (h : Accounted cfg s)
    (hrequest : s.requests.lookup requestId = some request) (hreceipt : coin.receipt = request.receipt)
    (hvalid : coin.isValid cfg.acoinKey ACoin.isFreshClient coin.interval = .ok true) :
    Accounted cfg
      { s with requests := s.requests.erase requestId, earned := s.earned ++ [coin] } := by
  have herase := h.erase requestId
  refine ⟨herase.cost, herase.drawn_request, ?_, herase.requests_distinct, ?_, ?_, ?_⟩
  · intro c hc
    rcases List.mem_append.mp hc with hc | hc
    · exact h.drawn_coin c hc
    · rw [List.mem_singleton.mp hc, hreceipt]
      exact h.drawn_request requestId request hrequest
  · intro hd id r hr c hc heq
    rcases List.mem_append.mp hc with hc | hc
    · exact herase.unearned hd id r hr c hc heq
    · rw [List.mem_singleton.mp hc, hreceipt] at heq
      by_cases hid : id = requestId
      · subst hid
        rw [AList.lookup_erase] at hr
        cases hr
      · rw [AList.lookup_erase_ne hid] at hr
        exact hid (h.requests_distinct hd id requestId r request hr hrequest heq.symm)
  · intro hd
    rw [List.map_append]
    refine (h.earned_nodup hd).append (List.nodup_singleton _) ?_
    intro bs hbs heq
    obtain ⟨c, hc, rfl⟩ := List.mem_map.mp hbs
    have heq : c.receipt = coin.receipt := List.mem_singleton.mp heq
    exact h.unearned hd requestId request hrequest c hc (heq.trans hreceipt)
  · intro c hc
    rcases List.mem_append.mp hc with hc | hc
    · exact h.valid c hc
    · rw [List.mem_singleton.mp hc]
      exact hvalid

theorem takeCoin_earns (env : Env) (h : Accounted cfg s) (coinLen requestId : Nat) (msg : Bytes) :
    ∃ new, Earns cfg s (s.takeCoin cfg env coinLen requestId msg).1 new ∧
      ∀ credits, (s.takeCoin cfg env coinLen requestId msg).2 = .ok credits → credits = new.length := by
  have hnone : ∀ e : PyError, ∃ new, Earns cfg s s new ∧
      ∀ credits : Nat, (.error e : PyExcept Nat) = .ok credits → credits = new.length := by
    intro e
    refine ⟨[], ⟨rfl, rfl, by simp, id⟩, ?_⟩
    intro credits hok
    cases hok
  unfold takeCoin
  split
  · exact hnone _
  · split
    · exact hnone _
    · split
      · exact hnone _
      · rename_i request hrequest
        have herased : ∀ e : PyError, ∃ new,
            Earns cfg s { s with requests := s.requests.erase requestId } new ∧
              ∀ credits : Nat, (.error e : PyExcept Nat) = .ok credits → credits = new.length := by
          intro e
          refine ⟨[], ⟨rfl, rfl, by simp, fun h => h.erase requestId⟩, ?_⟩
          intro credits hok
          cases hok
        dsimp only
        split
        · exact herased _
        · exact herased _
        · rename_i coin hparse
          obtain ⟨⟨code, sig⟩, -, hparse⟩ := PyExcept.bind_eq_ok hparse
          obtain ⟨hreceipt, hvalue, -, hvalid⟩ := parseAcoinResponse_valid hparse
          have hearn : Earns cfg s
              { s with requests := s.requests.erase requestId, earned := s.earned ++ [coin] } [coin] :=
            ⟨rfl, rfl, rfl, fun h => h.earn hrequest hreceipt hvalid⟩
          split
          · refine ⟨[coin], hearn, ?_⟩
            intro credits hok
            cases hok
          · refine ⟨[coin], hearn, ?_⟩
            intro credits hok
            have hcost := h.cost requestId request hrequest
            rw [← Except.ok.inj hok, hvalue, hcost]
            rfl

theorem takeCoins_earns (env : Env) (h : Accounted cfg s) (coinLen : Nat) (ids : List Nat) (msg : Bytes)
    (acc : Nat) :
    ∃ new, Earns cfg s (takeCoins cfg env coinLen ids s msg acc).1 new ∧
      ∀ credits, (takeCoins cfg env coinLen ids s msg acc).2 = .ok credits →
        credits = acc + new.length := by
  induction ids generalizing s msg acc with
  | nil =>
    refine ⟨[], ⟨rfl, rfl, by simp [takeCoins], id⟩, ?_⟩
    intro credits hok
    exact (Except.ok.inj hok).symm
  | cons requestId ids ih =>
    obtain ⟨new, hearns, hcredits⟩ := takeCoin_earns env h coinLen requestId msg
    unfold takeCoins
    split
    · rename_i t e heq
      rw [heq] at hearns
      refine ⟨new, hearns, ?_⟩
      intro credits hok
      cases hok
    · rename_i t credits heq
      rw [heq] at hearns hcredits
      obtain ⟨more, hmore, htotal⟩ := ih (hearns.accounted h) (msg.drop coinLen) (acc + credits)
      refine ⟨new ++ more, ⟨hmore.tokens.trans hearns.tokens, hmore.startGrants.trans hearns.startGrants,
        ?_, fun h => hmore.accounted (hearns.accounted h)⟩, ?_⟩
      · rw [hmore.earned, hearns.earned, List.append_assoc]
      · intro total hok
        have hone := hcredits credits rfl
        rw [htotal total hok, hone, List.length_append]
        omega

end Accounted

theorem granted_addTokens (s : ServerPaymentHandler) (env : Env) (readTokens writeTokens : Int) :
    (s.addTokens env readTokens writeTokens).1.granted = s.granted ∨
      (0 ≤ readTokens ∧ 0 ≤ writeTokens ∧
        (s.addTokens env readTokens writeTokens).1.granted = s.granted + (readTokens + writeTokens)) := by
  unfold addTokens
  split
  · by_cases hnonneg : 0 ≤ readTokens ∧ 0 ≤ writeTokens
    · refine Or.inr ⟨hnonneg.1, hnonneg.2, ?_⟩
      simp [granted, hnonneg]
    · refine Or.inl ?_
      simp only [granted, List.filter_append]
      rw [List.filter_cons_of_neg (by simpa using hnonneg)]
      simp
  · exact Or.inl rfl

theorem addTokens_silent (s : ServerPaymentHandler) (env : Env) (readTokens writeTokens : Int) :
    (s.addTokens env readTokens writeTokens).1.startGrants = s.startGrants ∧
      (s.addTokens env readTokens writeTokens).1.earned = s.earned ∧
      (s.addTokens env readTokens writeTokens).1.requests = s.requests ∧
      (s.addTokens env readTokens writeTokens).1.drawn = s.drawn := by
  unfold addTokens
  split <;> exact ⟨rfl, rfl, rfl, rfl⟩

/-- The tokens granted are paid for by the start grants and the earned coins. -/
structure Paid (cfg : RelayConfig) (s : ServerPaymentHandler) : Prop where
  accounted : Accounted cfg s
  granted_le : s.granted ≤ Globals.CELLS_PER_PAYMENT * (s.startGrants + s.earned.length)

section Paid
variable {cfg : RelayConfig} {env : Env} {s : ServerPaymentHandler}

theorem Paid.addTokens (h : Paid cfg s) {readTokens writeTokens : Int}
    (hle : 0 ≤ readTokens → 0 ≤ writeTokens → s.granted + (readTokens + writeTokens) ≤
      Globals.CELLS_PER_PAYMENT * (s.startGrants + s.earned.length)) :
    Paid cfg (s.addTokens env readTokens writeTokens).1 := by
  obtain ⟨hstart, hearned, hrequests, hdrawn⟩ := addTokens_silent s env readTokens writeTokens
  refine ⟨h.accounted.congr hrequests hdrawn hearned, ?_⟩
  rw [hstart, hearned]
  rcases granted_addTokens s env readTokens writeTokens with hsame | ⟨hread, hwrite, hmore⟩
  · rw [hsame]
    exact h.granted_le
  · rw [hmore]
    exact hle hread hwrite

theorem Paid.close (h : Paid cfg s) : Paid cfg (s.close env).1 :=
  h.addTokens fun hneg _ => absurd hneg (by decide)

theorem Paid.silent {t : ServerPaymentHandler} (h : Paid cfg s) (hsilent : Silent cfg s t) : Paid cfg t := by
  refine ⟨hsilent.accounted h.accounted, ?_⟩
  have hgranted : t.granted = s.granted := by
    unfold granted
    rw [hsilent.tokens]
  rw [hgranted, hsilent.startGrants, hsilent.earned]
  exact h.granted_le

theorem Paid.addStartTokens (h : Paid cfg s) (env : Env) : Paid cfg (s.addStartTokens env).1 ∧
    (s.addStartTokens env).1.startGrants ≤ s.startGrants + 1 := by
  cases hready : env.isReady with
  | false =>
    have hstate : (s.addStartTokens env).1 = s := by
      simp [ServerPaymentHandler.addStartTokens, ServerPaymentHandler.addTokens, hready]
    rw [hstate]
    exact ⟨h, Nat.le_succ _⟩
  | true =>
    have hstate : (s.addStartTokens env).1 =
        { s with
          tokens := s.tokens ++ [((START_READ_TOKENS : Int), (START_WRITE_TOKENS : Int))]
          startGrants := s.startGrants + 1 } := by
      simp [ServerPaymentHandler.addStartTokens, ServerPaymentHandler.addTokens, hready]
    rw [hstate]
    refine ⟨⟨h.accounted.congr rfl rfl rfl, ?_⟩, Nat.le_refl _⟩
    have hle := h.granted_le
    have hsum : (START_READ_TOKENS : Int) + START_WRITE_TOKENS = Globals.CELLS_PER_PAYMENT := by decide
    simp only [granted, List.filter_append, List.map_append, List.sum_append] at hle ⊢
    rw [List.filter_cons_of_pos (by decide)]
    simp only [List.filter_nil, List.map_cons, List.map_nil, List.sum_cons, List.sum_nil, Int.add_zero, hsum]
    calc
      _ ≤ (Globals.CELLS_PER_PAYMENT : Int) * (s.startGrants + s.earned.length) +
          Globals.CELLS_PER_PAYMENT := Int.add_le_add_right hle _
      _ = Globals.CELLS_PER_PAYMENT * (((s.startGrants + 1 : Nat) : Int) + s.earned.length) := by
        push_cast
        ring

theorem handleSetup_paid (env : Env) (h : Paid cfg s) : Paid cfg (s.handleSetup cfg env).1 ∧
    (s.handleSetup cfg env).1.startGrants ≤ s.startGrants + 1 := by
  have hreply := sendSetupReply_silent cfg env s
  unfold handleSetup
  split
  · rename_i t e heq
    rw [heq] at hreply
    refine ⟨h.silent hreply, ?_⟩
    rw [hreply.startGrants]
    exact Nat.le_succ _
  · rename_i t cells heq
    rw [heq] at hreply
    have hstart := (h.silent hreply).addStartTokens env
    rwa [hreply.startGrants] at hstart

theorem payment_paid (env : Env) (h : Paid cfg s) (msg : Bytes) : Paid cfg (s.payment cfg env msg).1 ∧
    (s.payment cfg env msg).1.startGrants = s.startGrants := by
  unfold payment
  split
  · exact ⟨h, rfl⟩
  · rename_i header rest _
    obtain ⟨new, hearns, hcredits⟩ := takeCoins_earns env h.accounted
      (rest.length / header.numCoins) header.requests rest 0
    -- The coins are earned before anything is granted, so their worth is still free.
    have hfree : ∀ t, Earns cfg s t new → Accounted cfg t ∧ t.granted + Globals.CELLS_PER_PAYMENT * new.length ≤
        Globals.CELLS_PER_PAYMENT * (t.startGrants + t.earned.length) := by
      intro t ht
      refine ⟨ht.accounted h.accounted, ?_⟩
      have hgranted : t.granted = s.granted := by
        unfold granted
        rw [ht.tokens]
      have hle := h.granted_le
      rw [hgranted, ht.startGrants, ht.earned, List.length_append]
      calc
        _ ≤ (Globals.CELLS_PER_PAYMENT : Int) * (s.startGrants + s.earned.length) +
            Globals.CELLS_PER_PAYMENT * new.length := Int.add_le_add_right hle _
        _ = Globals.CELLS_PER_PAYMENT * (s.startGrants + ((s.earned.length + new.length : Nat) : Int)) := by
          push_cast
          ring
    have hpaid : ∀ t, Earns cfg s t new → Paid cfg t := by
      intro t ht
      obtain ⟨haccounted, hle⟩ := hfree t ht
      refine ⟨haccounted, Int.le_trans ?_ hle⟩
      exact Int.le_add_of_nonneg_right (by positivity)
    split
    · rename_i t e heq
      rw [heq] at hearns
      exact ⟨hpaid t hearns, hearns.startGrants⟩
    · rename_i t creditsEarned heq
      rw [heq] at hearns hcredits
      have hearned := hcredits creditsEarned rfl
      have hreceipt := sendReceiptMessage_silent cfg env t header.theirId header.numCoins
      have hsent : ∀ r, Silent cfg t r → Earns cfg s r new := by
        intro r hr
        exact ⟨hr.tokens.trans hearns.tokens, hr.startGrants.trans hearns.startGrants,
          hr.earned.trans hearns.earned, fun h => hr.accounted (hearns.accounted h)⟩
      split
      · rename_i r e heqr
        rw [heqr] at hreceipt
        exact ⟨hpaid r (hsent r hreceipt), (hsent r hreceipt).startGrants⟩
      · rename_i r cells heqr
        rw [heqr] at hreceipt
        have hr := hsent r hreceipt
        split
        · exact ⟨hpaid r hr, hr.startGrants⟩
        · dsimp only
          split
          · exact ⟨hpaid r hr, hr.startGrants⟩
          · rename_i henough
            obtain ⟨hstart, -⟩ := addTokens_silent r env header.readTokens header.writeTokens
            refine ⟨(hpaid r hr).addTokens ?_, hstart.trans hr.startGrants⟩
            intro _ _
            obtain ⟨-, hle⟩ := hfree r hr
            refine Int.le_trans (Int.add_le_add_left ?_ _) hle
            rw [hearned, Nat.zero_add, Nat.mul_comm] at henough
            exact_mod_cast Nat.le_of_not_lt henough

theorem handlePayment_paid (env : Env) (h : Paid cfg s) (msg : Bytes) : Paid cfg (s.handlePayment cfg env msg).1 ∧
    (s.handlePayment cfg env msg).1.startGrants = s.startGrants := by
  obtain ⟨hpaid, hstart⟩ := payment_paid env h msg
  unfold handlePayment
  split
  · rename_i t heq
    rw [heq] at hpaid hstart
    exact ⟨hpaid, hstart⟩
  · rename_i t e heq
    rw [heq] at hpaid hstart
    exact ⟨hpaid.close, (addTokens_silent t env (-1) (-1)).1.trans hstart⟩

theorem step_paid {t : ServerPaymentHandler} {e : RelayEvent} (h : Paid cfg s ∧ s.startGrants ≤ 1)
    (hok : s.SetupOnce e) (hstep : step cfg s e = some t) : Paid cfg t ∧ t.startGrants ≤ 1 := by
  obtain ⟨hs, hone⟩ := h
  cases e with
  | setup env msg =>
    cases hstep
    obtain ⟨hpaid, hle⟩ := handleSetup_paid env hs
    have hzero : s.startGrants = 0 := hok
    exact ⟨hpaid, by omega⟩
  | payment env msg =>
    cases hstep
    obtain ⟨hpaid, heq⟩ := handlePayment_paid env hs msg
    exact ⟨hpaid, by omega⟩
  | bankRelay msg =>
    cases hstep
    unfold handleBankRelay
    split
    · exact ⟨hs, hone⟩
    · exact ⟨⟨hs.accounted.congr rfl rfl rfl, hs.granted_le⟩, hone⟩
  | bankResponse env j response =>
    obtain ⟨relay, -, rfl⟩ := Option.map_eq_some_iff.mp hstep
    have hrest : Paid cfg { s with relays := s.relays.eraseIdx j } :=
      ⟨hs.accounted.congr rfl rfl rfl, hs.granted_le⟩
    unfold bankResponse
    dsimp only
    split
    · exact ⟨hrest, hone⟩
    · obtain ⟨hpaid, heq⟩ := handlePayment_paid env hrest (relay.responseMsg ++ response)
      exact ⟨hpaid, Nat.le_trans (Nat.le_of_eq heq) hone⟩
  | bankFailure j =>
    obtain ⟨relay, -, rfl⟩ := Option.map_eq_some_iff.mp hstep
    exact ⟨⟨hs.accounted.congr rfl rfl rfl, hs.granted_le⟩, hone⟩
  | circuitClosed =>
    cases hstep
    exact ⟨⟨hs.accounted.congr rfl rfl rfl, hs.granted_le⟩, hone⟩

end Paid

/-- When the random receipts of a run do not repeat and no setup message follows the start
grant, a relay grants at most one payment's worth of tokens for nothing and one for
every distinct valid coin it has earned. -/
theorem granted_le_paid (cfg : RelayConfig) (t : ServerPaymentHandler) (es : List RelayEvent)
    (h : Run (step cfg) SetupOnce new es t) (hdistinct : DistinctReceipts cfg t.drawn) :
    t.granted ≤ Globals.CELLS_PER_PAYMENT + Globals.CELLS_PER_PAYMENT * t.earned.dedup.length ∧
      ∀ coin ∈ t.earned, coin.isValid cfg.acoinKey ACoin.isFreshClient coin.interval = .ok true := by
  have hstart : Paid cfg new ∧ new.startGrants ≤ 1 := ⟨⟨new_accounted, by decide⟩, by decide⟩
  obtain ⟨hpaid, hone⟩ := h.invariant (I := fun s => Paid cfg s ∧ s.startGrants ≤ 1) step_paid hstart
  refine ⟨?_, hpaid.accounted.valid⟩
  have hnodup : t.earned.Nodup :=
    List.Nodup.of_map ACoin.receipt (hpaid.accounted.earned_nodup hdistinct)
  rw [hnodup.dedup]
  refine Int.le_trans hpaid.granted_le ?_
  have hcells : (Globals.CELLS_PER_PAYMENT : Int) * t.startGrants ≤ Globals.CELLS_PER_PAYMENT * 1 :=
    Int.mul_le_mul_of_nonneg_left (by exact_mod_cast hone) (by decide)
  rw [Int.mul_add]
  omega

/-- Raw RSA, receipts that count up and no blinding, for concrete runs. -/
def exampleConfig : RelayConfig where
  acoinKey := .example
  fingerprint := List.replicate 20 9
  sign := fun _ => List.replicate 128 0
  tape := .counting

def readyEnv : Env := { isReady := true, interval := 1, onEarnedCoin := fun _ => .ok () }

theorem exampleConfig_distinctReceipts {n : Nat} (h : n ≤ 8) : DistinctReceipts exampleConfig n := by
  intro i j hi hj heq
  have hi' : i % 2 ^ 256 = i := Nat.mod_eq_of_lt (Nat.lt_of_lt_of_le (by omega : i < 8) (by decide))
  have hj' : j % 2 ^ 256 = j := Nat.mod_eq_of_lt (Nat.lt_of_lt_of_le (by omega : j < 8) (by decide))
  have heq : i % 2 ^ 256 = j % 2 ^ 256 := heq
  rwa [hi', hj'] at heq

/-- A setup and a payment of one coin, whose receipt is zero and whose signature is one. -/
def setupAndPayment : List RelayEvent :=
  [.setup readyEnv [1],
    .payment readyEnv ([1, 0, 0, 20, 0, 0, 0, 20, 0, 0, 0, 0, 0, 1, 1, 0, 0, 0, 0, 48] ++
      List.replicate 95 0 ++ [1])]

theorem granted_le_paid_setup_and_payment :
    ∃ t, Run (step exampleConfig) SetupOnce new setupAndPayment t ∧
      DistinctReceipts exampleConfig t.drawn ∧ t.granted = 20480 ∧ t.earned.length = 1 ∧
      t.granted ≤ Globals.CELLS_PER_PAYMENT + Globals.CELLS_PER_PAYMENT * t.earned.dedup.length := by
  have hend : (exec (step exampleConfig) new setupAndPayment).any (fun t =>
      decide (t.drawn ≤ 8 ∧ t.granted = 20480 ∧ t.earned.length = 1)) = true := by decide +kernel
  have hok : EachStep (step exampleConfig) SetupOnce new setupAndPayment := by
    refine ⟨rfl, ?_⟩
    split
    · refine ⟨trivial, ?_⟩
      split <;> trivial
    · trivial
  obtain ⟨t, hrun, hend⟩ := exists_run hend hok
  obtain ⟨hdrawn, hgranted, hearned⟩ := of_decide_eq_true hend
  have hdistinct := exampleConfig_distinctReceipts hdrawn
  exact ⟨t, hrun, hdistinct, hgranted, hearned,
    (granted_le_paid exampleConfig t setupAndPayment hrun hdistinct).1⟩

/-- Two setup messages grant two payments' worth of tokens for nothing. -/
theorem second_setup_granted :
    ∃ t, Run (step exampleConfig) (fun _ _ => True) new [.setup readyEnv [1], .setup readyEnv [1]] t ∧
      DistinctReceipts exampleConfig t.drawn ∧
      ¬ t.granted ≤ Globals.CELLS_PER_PAYMENT + Globals.CELLS_PER_PAYMENT * t.earned.dedup.length := by
  have hend : (exec (step exampleConfig) new [.setup readyEnv [1], .setup readyEnv [1]]).any (fun t =>
      decide (t.drawn ≤ 8 ∧ t.granted = 20480 ∧ t.earned = [])) = true := by decide +kernel
  obtain ⟨t, hrun, hend⟩ := exists_run hend (eachStep_true _ _)
  obtain ⟨hdrawn, hgranted, hearned⟩ := of_decide_eq_true hend
  refine ⟨t, hrun, exampleConfig_distinctReceipts hdrawn, ?_⟩
  rw [hgranted, hearned]
  decide

end ServerPaymentHandler

end BitBlinder.Tor
