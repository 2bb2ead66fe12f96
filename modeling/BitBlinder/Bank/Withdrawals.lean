import BitBlinder.Runs
import BitBlinder.Bank.Accounts

/-!
# Money at the bank under interleaving

Any number of `Request` and `Deposit` handlers share the `Accounts` table. A
deferred that has not finished is a `Pending`: a statement that the database
has still to execute, or a callback that still has to run. `advance j` lets the
`j`-th of them take its next step, so that every interleaving is a run. A
message may also reach a handler that is not done with an earlier one, because
`TCPServer.stringReceived` passes every further string to the same handler.
-/

namespace BitBlinder.Bank

set_option autoImplicit false

open Struct

/-- A `Request` is named by its index; what a `Deposit` does after its message only
depends on its user. -/
inductive Pending where
  | selectBalance (request : Nat)
  | updateAccount (request : Nat) (tup : List Int)
  | updateBalance (request : Nat) (proposedBalance balance : Int)
  | sendReply (request : Nat) (proposedBalance balance : Int)
  | addCredit (user : String) (credit : Nat)
  | getBalance (user : String)
  | readBalance (user : String)
  | reply (user : String) (tup : List Int)

namespace Pending

def request : Pending → Option Nat
  | selectBalance i => some i
  | updateAccount i _ => some i
  | updateBalance i _ _ => some i
  | sendReply i _ _ => some i
  | addCredit _ _ => none
  | getBalance _ => none
  | readBalance _ => none
  | reply _ _ => none

/-- Money that has left the accounts and whose signatures have not been released. -/
def withdrawn : Pending → Int
  | sendReply _ proposedBalance balance => balance - proposedBalance
  | _ => 0

end Pending

/-- `replies` are the strings that `Request.send_reply` has sent, `credited` the sum of
the credits that an `UPDATE` of `Deposit.update_account` has added to a row. -/
structure Ledger where
  server : Server
  accounts : Accounts
  requests : List Request
  inFlight : List Pending
  replies : List Bytes
  credited : Nat

inductive Action where
  | openRequest (user : String)
  | request (i : Nat) (msg : Bytes)
  | deposit (user : String) (msg : Bytes)
  | payment (msg : Bytes)
  | lookup (tup : List (Int × Int))
  | advance (j : Nat)

namespace Ledger

def push (s : Ledger) (p : Pending) : Ledger := { s with inFlight := s.inFlight ++ [p] }

def sent (s : Ledger) : PyExcept Bytes → Ledger
  | .error _ => s
  | .ok reply => { s with replies := s.replies ++ [reply] }

def advanceRequest (s : Ledger) (i : Nat) (r : Request) : Pending → Ledger
  | .selectBalance _ => s.push (.updateAccount i (s.accounts.select r.user))
  | .updateAccount _ tup =>
    match r.updateAccount tup with
    | .error _ => s
    | .ok (proposedBalance, balance) =>
      if 0 ≤ proposedBalance then
        s.push (.updateBalance i proposedBalance balance)
      else
        s.sent (r.sendReply false proposedBalance balance)
  | .updateBalance _ proposedBalance balance =>
    match s.accounts.updateBalance r.user fun _ => proposedBalance with
    | none => s
    | some accounts => { s with accounts }.push (.sendReply i proposedBalance balance)
  | .sendReply _ proposedBalance balance => s.sent (r.sendReply true proposedBalance balance)
  | _ => s

def advanceDeposit (s : Ledger) : Pending → Ledger
  | .addCredit user credit =>
    match s.accounts.updateBalance user fun balance => balance + credit with
    | none => s
    | some accounts =>
      { s with
        accounts
        credited := s.credited + ((s.accounts.select user).map fun _ => credit).sum }.push
        (.getBalance user)
  | .getBalance user => s.push (.readBalance user)
  | .readBalance user => s.push (.reply user (s.accounts.select user))
  | _ => s

def step (cfg : Config) (s : Ledger) : Action → Option Ledger
  | .openRequest user =>
    some { s with requests := s.requests ++ [{ user, number := 0, bill := 0, signatures := [] }] }
  | .request i msg =>
    match s.requests[i]? with
    | none => none
    | some r =>
      match r.unpackAndMint cfg msg with
      | (r, .error _) => some { s with requests := s.requests.set i r }
      | (r, .ok ()) => some ({ s with requests := s.requests.set i r }.push (.selectBalance i))
  | .deposit user msg =>
    match unpackAndVerify cfg s.server msg with
    | (server, .error _) => some { s with server }
    | (server, .ok (_, _, credit)) =>
      some ({ s with server }.push (if 0 < credit then .addCredit user credit else .readBalance user))
  | .payment msg => (handle cfg s.server (.payment msg)).map fun server => { s with server }
  | .lookup tup => (handle cfg s.server (.lookup tup)).map fun server => { s with server }
  | .advance j =>
    match s.inFlight[j]? with
    | none => none
    | some p =>
      let s := { s with inFlight := s.inFlight.eraseIdx j }
      match p.request with
      | none => some (s.advanceDeposit p)
      | some i => (s.requests[i]?).map fun r => s.advanceRequest i r p

end Ledger

/-- The coin signatures in a reply of `Request.send_reply`. -/
def signaturesIn (reply : Bytes) : Nat :=
  if reply.head? = some 0 then (reply.length - 9) / Globals.ACOIN_KEY_BYTES else 0

namespace Ledger

def released (s : Ledger) : Nat := (s.replies.map signaturesIn).sum

def worth (s : Ledger) : Int := s.accounts.total + s.released - s.credited

def withdrawn (s : Ledger) : Int := (s.inFlight.map Pending.withdrawn).sum

/-- The row that a withdrawal is about to overwrite still holds the balance it has read. -/
def WritesOver (s : Ledger) : Pending → Prop
  | .updateBalance i _ balance => ∀ r ∈ s.requests[i]?, s.accounts.select r.user = [balance]
  | _ => True

instance decidableWritesOver (s : Ledger) : (p : Pending) → Decidable (s.WritesOver p)
  | .updateBalance i _ balance =>
    inferInstanceAs (Decidable (∀ r ∈ s.requests[i]?, s.accounts.select r.user = [balance]))
  | .selectBalance _ => isTrue trivial
  | .updateAccount _ _ => isTrue trivial
  | .sendReply _ _ _ => isTrue trivial
  | .addCredit _ _ => isTrue trivial
  | .getBalance _ => isTrue trivial
  | .readBalance _ => isTrue trivial
  | .reply _ _ => isTrue trivial

/-- No withdrawal overwrites a balance it has not read, and no message reaches a
`Request` that has not finished an earlier one. -/
def ReadsCurrent (s : Ledger) : Action → Prop
  | .request i _ => ∀ p ∈ s.inFlight, p.request ≠ some i
  | .advance j => ∀ p ∈ s.inFlight[j]?, s.WritesOver p
  | _ => True

instance decidableReadsCurrent (s : Ledger) : (a : Action) → Decidable (s.ReadsCurrent a)
  | .request i _ => inferInstanceAs (Decidable (∀ p ∈ s.inFlight, p.request ≠ some i))
  | .advance j => inferInstanceAs (Decidable (∀ p ∈ s.inFlight[j]?, s.WritesOver p))
  | .openRequest _ => isTrue trivial
  | .deposit _ _ => isTrue trivial
  | .payment _ => isTrue trivial
  | .lookup _ => isTrue trivial

end Ledger

namespace Request

theorem sendReply_success {r : Request} (hr : r.Minted) {p b : Int} (h0 : 0 ≤ p) (hp : p < 2 ^ 31) :
    ∃ reply, r.sendReply true p b = .ok reply ∧ signaturesIn reply = r.bill := by
  have hrange : InRange [.B, .I, .I] (0, p.toNat, r.number, ()) := by
    refine ⟨(by decide : 0 < 256), ?_, Nat.lt_trans hr.number_lt (by decide), trivial⟩
    have hfit : p.toNat < 256 ^ 4 := by omega
    exact hfit
  have hpack := Basic.structPack_eq_ok_iff.mpr ⟨hrange, rfl⟩
  refine ⟨packed [.B, .I, .I] (0, p.toNat, r.number, ()) ++ r.signatures, ?_, ?_⟩
  · simp [sendReply, Basic.toUnsigned, h0, hpack]
  · have hlen : (packed [.B, .I, .I] (0, p.toNat, r.number, ()) ++ r.signatures).length - 9 =
        Globals.ACOIN_KEY_BYTES * r.bill := by
      rw [List.length_append, packed_length, hr.signatures_length]
      exact Nat.add_sub_cancel_left 9 _
    rw [signaturesIn, if_pos (by rfl), hlen]
    exact Nat.mul_div_cancel_left r.bill (by decide)

theorem sendReply_failure {r : Request} {p b : Int} {reply : Bytes}
    (h : r.sendReply false p b = .ok reply) : signaturesIn reply = 0 := by
  obtain ⟨balance, -, hpack⟩ := PyExcept.bind_eq_ok h
  obtain ⟨-, hreply⟩ := Basic.structPack_eq_ok_iff.mp hpack
  rw [← hreply]
  rfl

end Request

namespace Pending

/-- What the handler of a pending step has to agree on with it. -/
def Agrees (r : Request) : Pending → Prop
  | updateAccount _ tup => ∀ b ∈ tup, IntRange b
  | updateBalance _ p b => 0 ≤ p ∧ p < 2 ^ 31 ∧ b - p = r.bill
  | sendReply _ p b => 0 ≤ p ∧ p < 2 ^ 31 ∧ b - p = r.bill
  | _ => True

def Consistent (requests : List Request) (p : Pending) : Prop :=
  ∀ i, p.request = some i → ∃ r, requests[i]? = some r ∧ r.Minted ∧ p.Agrees r

theorem Consistent.congr {requests requests' : List Request} {p : Pending}
    (h : p.Consistent requests)
    (hsame : ∀ i r, p.request = some i → requests[i]? = some r → requests'[i]? = some r) :
    p.Consistent requests' := by
  intro i hi
  obtain ⟨r, hr, hminted, hagrees⟩ := h i hi
  exact ⟨r, hsame i r hi hr, hminted, hagrees⟩

end Pending

namespace Ledger

/-- The worth of the bank with the money of unfinished withdrawals. -/
structure Balanced (w : Int) (s : Ledger) : Prop where
  worth_eq : s.worth + s.withdrawn = w
  consistent : ∀ p ∈ s.inFlight, p.Consistent s.requests

variable {w : Int} {s t : Ledger} {p : Pending}

theorem Balanced.push (h : Balanced w s) (hp : p.Consistent s.requests) :
    Balanced (w + p.withdrawn) (s.push p) := by
  refine ⟨?_, ?_⟩
  · have hw := h.worth_eq
    simp only [worth, withdrawn, Ledger.push, released, List.map_append, List.sum_append, List.map_cons,
      List.map_nil, List.sum_cons, List.sum_nil] at hw ⊢
    omega
  · intro q hq
    rcases List.mem_append.mp hq with hq | hq
    · exact h.consistent q hq
    · rw [List.mem_singleton.mp hq]
      exact hp

theorem Balanced.pushIdle (h : Balanced w s) (hp : p.Consistent s.requests)
    (hidle : p.withdrawn = 0) : Balanced w (s.push p) := by
  have hpush := h.push hp
  rwa [hidle, Int.add_zero] at hpush

theorem Balanced.sent (h : Balanced w s) (reply : Bytes) :
    Balanced (w + signaturesIn reply) (s.sent (.ok reply)) := by
  refine ⟨?_, h.consistent⟩
  have hw := h.worth_eq
  simp only [worth, withdrawn, Ledger.sent, released, List.map_append, List.sum_append, List.map_cons,
    List.map_nil, List.sum_cons, List.sum_nil] at hw ⊢
  omega

/-- Taking a pending step out of the list takes its money out of the balance. -/
theorem Balanced.take {j : Nat} (h : Balanced w s) (hj : s.inFlight[j]? = some p) :
    p.Consistent s.requests ∧
      Balanced (w - p.withdrawn) { s with inFlight := s.inFlight.eraseIdx j } := by
  have hperm := cons_eraseIdx_perm hj
  refine ⟨h.consistent p (hperm.subset List.mem_cons_self), ?_, ?_⟩
  · have hsum := (hperm.map Pending.withdrawn).sum_eq
    have hw := h.worth_eq
    simp only [List.map_cons, List.sum_cons] at hsum
    simp only [worth, withdrawn, released] at hw ⊢
    omega
  · intro q hq
    exact h.consistent q (hperm.subset (List.mem_cons_of_mem p hq))

theorem advanceDeposit_balanced (h : Balanced (w - p.withdrawn) s) (hp : p.request = none) :
    Balanced w (s.advanceDeposit p) := by
  have hidle : ∀ q : Pending, q.request = none → q.Consistent s.requests := by
    intro q hq i hi
    rw [hq] at hi
    cases hi
  cases p with
  | selectBalance i => cases hp
  | updateAccount i tup => cases hp
  | updateBalance i p b => cases hp
  | sendReply i p b => cases hp
  | addCredit user credit =>
    simp only [Pending.withdrawn, Int.sub_zero] at h
    simp only [advanceDeposit]
    split
    · exact h
    · rename_i accounts haccounts
      have htotal := Accounts.total_updateBalance haccounts
      have hbalanced : Balanced w { s with
          accounts, credited := s.credited + ((s.accounts.select user).map fun _ => credit).sum } := by
        refine ⟨?_, h.consistent⟩
        have hw := h.worth_eq
        have hcast : (((s.accounts.select user).map fun b => b + (credit : Int) - b).sum : Int) =
            (((s.accounts.select user).map fun _ => credit).sum : Nat) := by
          simp
        simp only [worth, withdrawn, released] at hw ⊢
        rw [htotal, hcast]
        omega
      exact hbalanced.pushIdle (hidle _ rfl) rfl
  | getBalance user =>
    simp only [Pending.withdrawn, Int.sub_zero] at h
    exact h.pushIdle (hidle _ rfl) rfl
  | readBalance user =>
    simp only [Pending.withdrawn, Int.sub_zero] at h
    exact h.pushIdle (hidle _ rfl) rfl
  | reply user tup =>
    simp only [Pending.withdrawn, Int.sub_zero] at h
    exact h

theorem advanceRequest_balanced {i : Nat} {r : Request} (h : Balanced (w - p.withdrawn) s)
    (hp : p.Consistent s.requests) (hi : p.request = some i) (hr : s.requests[i]? = some r)
    (hover : s.WritesOver p) : Balanced w (s.advanceRequest i r p) := by
  obtain ⟨r', hr', hminted, hagrees⟩ := hp i hi
  rw [hr] at hr'
  cases hr'
  have hnext : ∀ q : Pending, q.request = some i → q.Agrees r → q.Consistent s.requests := by
    intro q hq hqr k hk
    rw [hq] at hk
    cases hk
    exact ⟨r, hr, hminted, hqr⟩
  cases p with
  | selectBalance i' =>
    simp only [Pending.withdrawn, Int.sub_zero] at h
    exact h.pushIdle (hnext _ rfl fun b hb => Accounts.inRange_of_select hb) rfl
  | updateAccount i' tup =>
    simp only [Pending.withdrawn, Int.sub_zero] at h
    simp only [advanceRequest]
    split
    · exact h
    · rename_i proposedBalance balance hupdate
      obtain ⟨rfl, rfl⟩ := Request.updateAccount_ok hupdate
      have hrange := hagrees balance List.mem_cons_self
      split
      · rename_i hnonneg
        have hlt : balance - r.bill < 2 ^ 31 := by
          have := hrange.2
          omega
        exact h.pushIdle (hnext _ rfl ⟨hnonneg, hlt, by omega⟩) rfl
      · cases hreply : r.sendReply false (balance - r.bill) balance with
        | error e => exact h
        | ok reply =>
          have hsent := h.sent reply
          rwa [Request.sendReply_failure hreply, Int.natCast_zero, Int.add_zero] at hsent
  | updateBalance i' proposedBalance balance =>
    simp only [Pending.withdrawn, Int.sub_zero] at h
    simp only [advanceRequest]
    have hi' : i' = i := Option.some.inj hi
    subst hi'
    split
    · exact h
    · rename_i accounts haccounts
      have htotal := Accounts.total_updateBalance haccounts
      rw [hover r hr] at htotal
      simp only [List.map_cons, List.map_nil, List.sum_cons, List.sum_nil, Int.add_zero] at htotal
      have hbalanced : Balanced (w + (proposedBalance - balance)) { s with accounts } := by
        refine ⟨?_, h.consistent⟩
        have hw := h.worth_eq
        simp only [worth, withdrawn, released] at hw ⊢
        rw [htotal]
        omega
      have hpush := hbalanced.push (p := .sendReply i' proposedBalance balance) (hnext _ rfl hagrees)
      have hzero : w + (proposedBalance - balance) + (balance - proposedBalance) = w := by omega
      rwa [Pending.withdrawn, hzero] at hpush
  | sendReply i' proposedBalance balance =>
    obtain ⟨h0, hlt, hbill⟩ := hagrees
    obtain ⟨reply, hreply, hcount⟩ := Request.sendReply_success hminted (b := balance) h0 hlt
    have hsent := h.sent reply
    simp only [Pending.withdrawn] at hsent
    simp only [advanceRequest, hreply]
    rwa [hcount, ← hbill, Int.sub_add_cancel] at hsent
  | addCredit user credit => cases hi
  | getBalance user => cases hi
  | readBalance user => cases hi
  | reply user tup => cases hi

theorem step_balanced {cfg : Config} {a : Action} (h : Balanced w s) (hok : s.ReadsCurrent a)
    (hstep : step cfg s a = some t) : Balanced w t := by
  cases a with
  | openRequest user =>
    cases hstep
    refine ⟨h.worth_eq, ?_⟩
    intro p hp
    apply (h.consistent p hp).congr
    intro i r _ hr
    rw [List.getElem?_append_left (List.getElem?_eq_some_iff.mp hr).1]
    exact hr
  | request i msg =>
    simp only [step] at hstep
    split at hstep
    · cases hstep
    · rename_i r hr
      have hset : ∀ r', Balanced w { s with requests := s.requests.set i r' } := by
        intro r'
        refine ⟨h.worth_eq, ?_⟩
        intro p hp
        apply (h.consistent p hp).congr
        intro k r _ hr
        have hne : i ≠ k := by
          rintro rfl
          exact hok p hp ‹_›
        rwa [List.getElem?_set_ne hne]
      split at hstep
      · cases hstep
        exact hset _
      · rename_i r' hmint
        cases hstep
        refine (hset r').pushIdle ?_ rfl
        intro k hk
        cases hk
        have hlt := (List.getElem?_eq_some_iff.mp hr).1
        exact ⟨r', List.getElem?_set_self hlt, Request.unpackAndMint_minted hmint, trivial⟩
  | deposit user msg =>
    simp only [step] at hstep
    split at hstep
    · cases hstep
      exact ⟨h.worth_eq, h.consistent⟩
    · rename_i server number slip credit _
      cases hstep
      have hserver : Balanced w { s with server } := ⟨h.worth_eq, h.consistent⟩
      split
      · exact hserver.pushIdle (by intro i hi; cases hi) rfl
      · exact hserver.pushIdle (by intro i hi; cases hi) rfl
  | payment msg =>
    simp only [step] at hstep
    obtain ⟨server, -, rfl⟩ := Option.map_eq_some_iff.mp hstep
    exact ⟨h.worth_eq, h.consistent⟩
  | lookup tup =>
    simp only [step] at hstep
    obtain ⟨server, -, rfl⟩ := Option.map_eq_some_iff.mp hstep
    exact ⟨h.worth_eq, h.consistent⟩
  | advance j =>
    simp only [step] at hstep
    split at hstep
    · cases hstep
    · rename_i p hp
      obtain ⟨hcons, hrest⟩ := h.take hp
      have hover : s.WritesOver p := hok p hp
      split at hstep
      · rename_i hnone
        cases hstep
        exact advanceDeposit_balanced hrest hnone
      · rename_i i hi
        obtain ⟨r, hr, rfl⟩ := Option.map_eq_some_iff.mp hstep
        refine advanceRequest_balanced hrest hcons hi hr ?_
        cases p <;> exact hover

/-- Along every run whose withdrawals overwrite what they have read, the worth of the
bank is the initial one whenever no handler is mid-way. -/
theorem worth_conserved (cfg : Config) (s t : Ledger) (as : List Action) (hs : s.inFlight = [])
    (h : Run (step cfg) ReadsCurrent s as t) (ht : t.inFlight = []) : t.worth = s.worth := by
  have hstart : Balanced s.worth s := by
    refine ⟨by simp [withdrawn, hs], ?_⟩
    rw [hs]
    intro p hp
    cases hp
  have hend := h.invariant (I := Balanced s.worth) step_balanced hstart
  have hworth := hend.worth_eq
  simpa [withdrawn, ht] using hworth

/-- Two accounts and an idle bank. -/
def twoAccounts : Ledger where
  server := Server.initial
  accounts := { rows := [("kans", 10), ("jash", 5)], nodup := by decide, inRange := by decide }
  requests := []
  inFlight := []
  replies := []
  credited := 0

/-- A request for one coin whose blinded token is zero. -/
def requestOne : Bytes := [0, 1, 0, 0, 0, 1] ++ List.replicate 96 0

/-- A deposit is credited between two withdrawals of its user. -/
def oneAfterAnother : List Action :=
  [.lookup [(1, 10), (2, 20)], .openRequest "kans", .openRequest "kans", .request 0 requestOne,
    .advance 0, .advance 0, .advance 0, .advance 0,
    .deposit "kans" ([0, 1] ++ List.replicate 32 0 ++ [0, 0, 0, 1] ++ List.replicate 95 0 ++ [1]),
    .advance 0, .advance 0, .request 1 requestOne, .advance 0, .advance 0, .advance 0, .advance 0,
    .advance 0, .advance 0]

theorem worth_conserved_one_after_another :
    ∃ t, Run (step .example) ReadsCurrent twoAccounts oneAfterAnother t ∧ t.inFlight = [] ∧
      t.released = 2 ∧ t.credited = 1 ∧ t.worth = twoAccounts.worth := by
  have hend : (exec (step .example) twoAccounts oneAfterAnother).any (fun t =>
      decide (t.inFlight = [] ∧ t.released = 2 ∧ t.credited = 1)) = true := by decide +kernel
  have hok : EachStep (step .example) ReadsCurrent twoAccounts oneAfterAnother := by decide +kernel
  obtain ⟨t, hrun, hend⟩ := exists_run hend hok
  obtain ⟨hidle, hreleased, hcredited⟩ := of_decide_eq_true hend
  exact ⟨t, hrun, hidle, hreleased, hcredited,
    worth_conserved .example twoAccounts t oneAfterAnother rfl hrun hidle⟩

/-- Two requests of one user whose statements alternate. -/
def alternating : List Action :=
  [.openRequest "kans", .openRequest "kans", .request 0 requestOne, .request 1 requestOne,
    .advance 0, .advance 0, .advance 0, .advance 0, .advance 0, .advance 0, .advance 0, .advance 0]

/-- Both requests read the balance 10 and write 9: two coins leave for one unit. -/
theorem alternating_creates_money :
    ∃ t, Run (step .example) (fun _ _ => True) twoAccounts alternating t ∧ t.inFlight = [] ∧
      t.worth ≠ twoAccounts.worth := by
  have hend : (exec (step .example) twoAccounts alternating).any (fun t =>
      decide (t.inFlight = [] ∧ t.worth ≠ twoAccounts.worth)) = true := by decide +kernel
  obtain ⟨t, hrun, hend⟩ := exists_run hend (eachStep_true _ _)
  obtain ⟨hidle, hworth⟩ := of_decide_eq_true hend
  exact ⟨t, hrun, hidle, hworth⟩

end Ledger

end BitBlinder.Bank
