import BitBlinder.Bank.Withdrawals

/-!
# No account is overdrawn

A withdrawal writes a balance that it computed earlier, perhaps from a row
that has changed since, and a deposit adds to whatever the row holds. Neither
can make a row negative: what is written has passed the test against zero, and
what is added is a number of coins. So every balance that a reply carries fits
the field it is packed into.
-/

namespace BitBlinder.Bank

set_option autoImplicit false

open Struct

/-- A balance that a row without debt may hold. -/
def Solvent (b : Int) : Prop := 0 ≤ b ∧ b < 2 ^ 31

namespace Pending

/-- The balances that an unfinished handler carries. -/
def Carries : Pending → Prop
  | updateAccount _ tup => ∀ b ∈ tup, Solvent b
  | updateBalance _ proposedBalance _ => Solvent proposedBalance
  | sendReply _ proposedBalance _ => Solvent proposedBalance
  | reply _ tup => ∀ b ∈ tup, Solvent b
  | _ => True

end Pending

namespace Ledger

/-- The balances that the next step of a handler packs into a reply. -/
def packs (s : Ledger) : Pending → List Int
  | .updateAccount i tup =>
    match s.requests[i]? with
    | none => []
    | some r =>
      match r.updateAccount tup with
      | .error _ => []
      | .ok (proposedBalance, balance) => if 0 ≤ proposedBalance then [] else [balance]
  | .sendReply _ proposedBalance _ => [proposedBalance]
  | .reply _ tup => tup.head?.toList
  | _ => []

structure AllSolvent (s : Ledger) : Prop where
  rows : ∀ r ∈ s.accounts.rows, 0 ≤ r.2
  inFlight : ∀ p ∈ s.inFlight, p.Carries

variable {s t : Ledger} {p : Pending}

theorem AllSolvent.select (h : s.AllSolvent) {user : String} {b : Int}
    (hb : b ∈ s.accounts.select user) : Solvent b :=
  ⟨h.rows _ (Table.mem_select.mp hb), (Accounts.inRange_of_select hb).2⟩

theorem AllSolvent.push (h : s.AllSolvent) (hp : p.Carries) : (s.push p).AllSolvent := by
  refine ⟨h.rows, ?_⟩
  intro q hq
  rcases List.mem_append.mp hq with hq | hq
  · exact h.inFlight q hq
  · rw [List.mem_singleton.mp hq]
    exact hp

theorem AllSolvent.sent (h : s.AllSolvent) (reply : PyExcept Bytes) : (s.sent reply).AllSolvent := by
  cases reply with
  | error e => exact h
  | ok reply => exact ⟨h.rows, h.inFlight⟩

theorem AllSolvent.update (h : s.AllSolvent) {user : String} {f : Int → Int} {accounts : Accounts}
    (haccounts : s.accounts.updateBalance user f = some accounts) (hf : ∀ b, 0 ≤ b → 0 ≤ f b) :
    { s with accounts }.AllSolvent := by
  refine ⟨?_, h.inFlight⟩
  unfold Accounts.updateBalance at haccounts
  split at haccounts
  · cases haccounts
    intro r hr
    rcases Table.mem_select_update (Table.mem_select.mpr hr) with ⟨-, hb⟩ | ⟨-, b, hb, heq⟩
    · exact (h.select hb).1
    · rw [heq]
      exact hf b (h.select hb).1
  · cases haccounts

theorem advanceRequest_solvent {i : Nat} {r : Request} (h : s.AllSolvent) (hp : p.Carries) :
    (s.advanceRequest i r p).AllSolvent := by
  cases p with
  | selectBalance i' => exact h.push fun b hb => h.select hb
  | updateAccount i' tup =>
    simp only [advanceRequest]
    split
    · exact h
    · rename_i proposedBalance balance hupdate
      obtain ⟨rfl, rfl⟩ := Request.updateAccount_ok hupdate
      split
      · rename_i hnonneg
        -- A bill only lowers the balance that was read.
        have hle : balance - r.bill ≤ balance := by omega
        have hbalance := hp balance List.mem_cons_self
        exact h.push ⟨hnonneg, Int.lt_of_le_of_lt hle hbalance.2⟩
      · exact h.sent _
  | updateBalance i' proposedBalance balance =>
    simp only [advanceRequest]
    split
    · exact h
    · rename_i accounts haccounts
      have hupdate := h.update haccounts fun _ _ => hp.1
      exact hupdate.push hp
  | sendReply i' proposedBalance balance => exact h.sent _
  | addCredit user credit => exact h
  | getBalance user => exact h
  | readBalance user => exact h
  | reply user tup => exact h

theorem advanceDeposit_solvent (h : s.AllSolvent) : (s.advanceDeposit p).AllSolvent := by
  cases p with
  | selectBalance i => exact h
  | updateAccount i tup => exact h
  | updateBalance i proposedBalance balance => exact h
  | sendReply i proposedBalance balance => exact h
  | addCredit user credit =>
    simp only [advanceDeposit]
    split
    · exact h
    · rename_i accounts haccounts
      have hupdate := h.update haccounts fun b hb => by omega
      refine AllSolvent.push ?_ trivial
      exact ⟨hupdate.rows, hupdate.inFlight⟩
  | getBalance user => exact h.push trivial
  | readBalance user => exact h.push fun b hb => h.select hb
  | reply user tup => exact h

theorem step_solvent {cfg : Config} {a : Action} (h : s.AllSolvent)
    (hstep : step cfg s a = some t) : t.AllSolvent := by
  cases a with
  | openRequest user =>
    cases hstep
    exact ⟨h.rows, h.inFlight⟩
  | request i msg =>
    simp only [step] at hstep
    split at hstep
    · cases hstep
    · split at hstep
      · cases hstep
        exact ⟨h.rows, h.inFlight⟩
      · cases hstep
        refine AllSolvent.push ?_ trivial
        exact ⟨h.rows, h.inFlight⟩
  | deposit user msg =>
    simp only [step] at hstep
    split at hstep
    · cases hstep
      exact ⟨h.rows, h.inFlight⟩
    · rename_i server number slip credit _
      cases hstep
      have hserver : AllSolvent { s with server } := ⟨h.rows, h.inFlight⟩
      split
      · exact hserver.push trivial
      · exact hserver.push trivial
  | payment msg =>
    simp only [step] at hstep
    obtain ⟨server, -, rfl⟩ := Option.map_eq_some_iff.mp hstep
    exact ⟨h.rows, h.inFlight⟩
  | lookup tup =>
    simp only [step] at hstep
    obtain ⟨server, -, rfl⟩ := Option.map_eq_some_iff.mp hstep
    exact ⟨h.rows, h.inFlight⟩
  | advance j =>
    simp only [step] at hstep
    split at hstep
    · cases hstep
    · rename_i p hp
      have hmem := List.mem_of_getElem? hp
      have hrest : AllSolvent { s with inFlight := s.inFlight.eraseIdx j } :=
        ⟨h.rows, fun q hq => h.inFlight q (List.mem_of_mem_eraseIdx hq)⟩
      split at hstep
      · cases hstep
        exact advanceDeposit_solvent hrest
      · obtain ⟨r, -, rfl⟩ := Option.map_eq_some_iff.mp hstep
        exact advanceRequest_solvent hrest (h.inFlight p hmem)

theorem AllSolvent.packs_solvent (h : s.AllSolvent) (hp : p ∈ s.inFlight) {b : Int} (hb : b ∈ s.packs p) :
    Solvent b := by
  have hcarries := h.inFlight p hp
  cases p with
  | updateAccount i tup =>
    simp only [packs] at hb
    split at hb
    · cases hb
    · split at hb
      · cases hb
      · rename_i hupdate
        obtain ⟨rfl, -⟩ := Request.updateAccount_ok hupdate
        split at hb
        · cases hb
        · exact hcarries b hb
  | sendReply i proposedBalance balance =>
    rw [List.mem_singleton.mp hb]
    exact hcarries
  | reply user tup =>
    rw [packs, Option.mem_toList] at hb
    exact hcarries b (List.mem_of_mem_head? hb)
  | selectBalance i => cases hb
  | updateBalance i proposedBalance balance => cases hb
  | addCredit user credit => cases hb
  | getBalance user => cases hb
  | readBalance user => cases hb

/-- Under every interleaving no balance becomes negative, and every balance that a reply carries
fits an unsigned field of four bytes. -/
theorem balances_nonneg (cfg : Config) (s t : Ledger) (as : List Action) (hidle : s.inFlight = [])
    (hs : ∀ r ∈ s.accounts.rows, 0 ≤ r.2) (h : Run (step cfg) (fun _ _ => True) s as t) :
    (∀ r ∈ t.accounts.rows, 0 ≤ r.2) ∧
      ∀ p ∈ t.inFlight, ∀ b ∈ t.packs p, 0 ≤ b ∧ b < 2 ^ 32 := by
  have hstart : s.AllSolvent := by
    refine ⟨hs, ?_⟩
    rw [hidle]
    intro p hp
    cases hp
  have hend := h.invariant (I := AllSolvent) (fun hI _ hstep => step_solvent hI hstep) hstart
  refine ⟨hend.rows, ?_⟩
  intro p hp b hb
  obtain ⟨hnonneg, hlt⟩ := hend.packs_solvent hp hb
  exact ⟨hnonneg, by omega⟩

/-- Two withdrawals that read one balance, up to the reply of the first. -/
theorem balances_nonneg_alternating :
    ∃ t, Run (step .example) (fun _ _ => True) twoAccounts (alternating.take 10) t ∧
      t.inFlight.flatMap t.packs ≠ [] ∧
      ((∀ r ∈ t.accounts.rows, 0 ≤ r.2) ∧
        ∀ p ∈ t.inFlight, ∀ b ∈ t.packs p, 0 ≤ b ∧ b < 2 ^ 32) := by
  have hend : (exec (step .example) twoAccounts (alternating.take 10)).any (fun t =>
      decide (t.inFlight.flatMap t.packs ≠ [])) = true := by decide +kernel
  obtain ⟨t, hrun, hend⟩ := exists_run hend (eachStep_true _ _)
  exact ⟨t, hrun, of_decide_eq_true hend,
    balances_nonneg .example twoAccounts t (alternating.take 10) rfl (by decide) hrun⟩

end Ledger

end BitBlinder.Bank
