import BitBlinder.Tor.ClientPayment

/-!
# How much a circuit asks to pay for

`Circuit.refill_payments` keeps what is paid and what is on its way above
`LOW_PAR_BYTES` in each direction. It asks for whole payments, and divides the
cells that are left over between the directions.
-/

namespace BitBlinder.Tor

set_option autoImplicit false

open Struct Effects

/-! ### Whole cells and whole payments -/

section
variable {cell payment : Int}

/-- One cell more than fit into the deficit. -/
theorem deficit_lt_cells (hcell : 0 < cell) (deficit : Int) : deficit < (1 + deficit / cell) * cell := by
  rw [Int.add_comm]
  exact Int.lt_ediv_add_one_mul_self deficit hcell

/-- Whole payments with two cells to spare are enough for both directions. -/
theorem cells_le_payments (hcell : 0 < cell) (hpayment : 0 < payment) (reads writes : Int) :
    (1 + reads / cell) + (1 + writes / cell) ≤ (1 + (reads + writes + 2 * cell) / (cell * payment)) * payment := by
  have hreads := Int.ediv_mul_le reads (Int.ne_of_gt hcell)
  have hwrites := Int.ediv_mul_le writes (Int.ne_of_gt hcell)
  have hcells : (1 + reads / cell) + (1 + writes / cell) ≤ (reads + writes + 2 * cell) / cell := by
    apply Int.le_ediv_of_mul_le hcell
    rw [Int.add_mul, Int.add_mul, Int.add_mul, Int.one_mul]
    omega
  have hpayments : (reads + writes + 2 * cell) / cell <
      (1 + (reads + writes + 2 * cell) / (cell * payment)) * payment := by
    rw [← Int.ediv_ediv_of_nonneg (Int.le_of_lt hcell), Int.add_comm 1]
    exact Int.lt_ediv_add_one_mul_self _ hpayment
  omega

end

namespace ClientPaymentHandler

def LOW_PAR_BYTES : Nat := 1 * Globals.CELLS_PER_MB * BYTES_PER_CELL

/-- What `refill_payments` works out. -/
structure CellRequest where
  numPayments : Int
  leftoverCells : Int
  numReadCells : Int
  numWriteCells : Int

/-- The bytes missing in one direction. -/
def requiredBytes (curBytes : Int) : Int :=
  let required := LOW_PAR_BYTES - curBytes
  if required < 0 then 0 else required

/-- The computation in `refill_payments`; the divisors are positive. -/
def cellRequest (curReadBytes curWriteBytes : Int) (force : Bool) : PyExcept (Option CellRequest) :=
  let requiredReadBytes := requiredBytes curReadBytes
  let requiredWriteBytes := requiredBytes curWriteBytes
  if force ∨ 0 < requiredReadBytes + requiredWriteBytes then
    let numPayments := 1 + (requiredReadBytes + requiredWriteBytes + 2 * BYTES_PER_CELL) /
      (BYTES_PER_CELL * Globals.CELLS_PER_PAYMENT)
    let numReadCells := 1 + requiredReadBytes / BYTES_PER_CELL
    let numWriteCells := 1 + requiredWriteBytes / BYTES_PER_CELL
    let leftoverCells := numPayments * Globals.CELLS_PER_PAYMENT - (numReadCells + numWriteCells)
    if leftoverCells < 0 then
      .error (.assertionError "cannot have negative leftover cells")
    else if force ∨ requiredReadBytes ≠ 0 ∧ requiredWriteBytes ≠ 0 then
      .ok (some {
        numPayments, leftoverCells
        numReadCells := numReadCells + leftoverCells / 2 + if leftoverCells % 2 ≠ 0 then 1 else 0
        numWriteCells := numWriteCells + leftoverCells / 2 })
    else if requiredReadBytes ≠ 0 then
      .ok (some { numPayments, leftoverCells, numReadCells := numReadCells + leftoverCells, numWriteCells })
    else
      .ok (some { numPayments, leftoverCells, numReadCells, numWriteCells := numWriteCells + leftoverCells })
  else
    .ok none

/-- What `refill_payments` reads of the circuit and its application, besides the amounts. -/
structure CircuitFlags where
  sendPayments : Bool
  readyForPayments : Bool
  parClient : Bool
  paused : Bool

variable {β : Type}

/-- The bytes paid for in each direction, with those on their way. -/
def curReadBytes (s : ClientPaymentHandler β) : Int := s.payedReadBytes + s.inflightReadTokens * BYTES_PER_CELL

def curWriteBytes (s : ClientPaymentHandler β) : Int := s.payedWriteBytes + s.inflightWriteTokens * BYTES_PER_CELL

def refillPayments (env : PaymentEnvironment β) (circ : CircuitFlags) (force : Bool) : Pay β Unit := do
  let s ← get
  if !circ.sendPayments then return ()
  else if !circ.readyForPayments then return ()
  else if !s.isReady then return ()
  else if !circ.parClient then return ()
  else if circ.paused then return ()
  else if !s.initialTokensAdded then return ()
  else do
    let request ← attempt (cellRequest s.curReadBytes s.curWriteBytes force)
    match request with
    | none => return ()
    | some request => sendPaymentRequest env request.numReadCells.toNat request.numWriteCells.toNat

/-- Whole payments, which the sender counts in the same way and the relay takes to be enough,
with cells in both directions that bring each up to `LOW_PAR_BYTES`. -/
structure CellRequest.Covers (curReadBytes curWriteBytes : Int) (request : CellRequest) : Prop where
  leftover : 0 ≤ request.leftoverCells
  whole : request.numReadCells + request.numWriteCells = request.numPayments * Globals.CELLS_PER_PAYMENT
  counted : (ClientPaymentHandler.numPayments request.numReadCells.toNat request.numWriteCells.toNat : Int) = request.numPayments
  accepted : ¬request.numPayments.toNat * Globals.CELLS_PER_PAYMENT <
    request.numReadCells.toNat + request.numWriteCells.toNat
  reads : 1 ≤ request.numReadCells
  writes : 1 ≤ request.numWriteCells
  readLevel : LOW_PAR_BYTES ≤ curReadBytes + request.numReadCells * BYTES_PER_CELL
  writeLevel : LOW_PAR_BYTES ≤ curWriteBytes + request.numWriteCells * BYTES_PER_CELL

theorem requiredBytes_nonneg (curBytes : Int) : 0 ≤ requiredBytes curBytes := by
  unfold requiredBytes
  dsimp only
  split
  · omega
  · omega

theorem le_requiredBytes (curBytes : Int) : LOW_PAR_BYTES - curBytes ≤ requiredBytes curBytes := by
  unfold requiredBytes
  dsimp only
  split
  · omega
  · omega

theorem bytesPerCell_pos : (0 : Int) < BYTES_PER_CELL := by decide

theorem cellsPerPayment_pos : (0 : Int) < Globals.CELLS_PER_PAYMENT := by decide

theorem level_reached {curBytes cells : Int} (h : 1 + requiredBytes curBytes / BYTES_PER_CELL ≤ cells) :
    LOW_PAR_BYTES ≤ curBytes + cells * BYTES_PER_CELL := by
  have hdeficit := le_requiredBytes curBytes
  have hcells := deficit_lt_cells bytesPerCell_pos (requiredBytes curBytes)
  have hmore := Int.mul_le_mul_of_nonneg_right h (Int.le_of_lt bytesPerCell_pos)
  omega

/-- However the cells that are left over are divided, the request covers both directions. -/
theorem covers_of_split {curReadBytes curWriteBytes readShare writeShare : Int} {request : CellRequest}
    (hnumber : request.numPayments = 1 + (requiredBytes curReadBytes + requiredBytes curWriteBytes +
      2 * BYTES_PER_CELL) / (BYTES_PER_CELL * Globals.CELLS_PER_PAYMENT))
    (hleftover : request.leftoverCells = request.numPayments * Globals.CELLS_PER_PAYMENT -
      ((1 + requiredBytes curReadBytes / BYTES_PER_CELL) + (1 + requiredBytes curWriteBytes / BYTES_PER_CELL)))
    (hreads : request.numReadCells = 1 + requiredBytes curReadBytes / BYTES_PER_CELL + readShare)
    (hwrites : request.numWriteCells = 1 + requiredBytes curWriteBytes / BYTES_PER_CELL + writeShare)
    (hshare : readShare + writeShare = request.leftoverCells) (hreadShare : 0 ≤ readShare)
    (hwriteShare : 0 ≤ writeShare) : request.Covers curReadBytes curWriteBytes := by
  have hreadCells := Int.ediv_nonneg (requiredBytes_nonneg curReadBytes) (Int.le_of_lt bytesPerCell_pos)
  have hwriteCells := Int.ediv_nonneg (requiredBytes_nonneg curWriteBytes) (Int.le_of_lt bytesPerCell_pos)
  have hwhole : request.numReadCells + request.numWriteCells =
      request.numPayments * Globals.CELLS_PER_PAYMENT := by
    omega
  have hnonneg : 0 ≤ request.numPayments := by
    have hdivisor := Int.mul_pos bytesPerCell_pos cellsPerPayment_pos
    have hrequired : 0 ≤ requiredBytes curReadBytes + requiredBytes curWriteBytes + 2 * BYTES_PER_CELL := by
      have hr := requiredBytes_nonneg curReadBytes
      have hw := requiredBytes_nonneg curWriteBytes
      have hb := bytesPerCell_pos
      omega
    have hquotient := Int.ediv_nonneg hrequired (Int.le_of_lt hdivisor)
    omega
  obtain ⟨n, hn⟩ := Int.eq_ofNat_of_zero_le hnonneg
  have hcells : request.numReadCells.toNat + request.numWriteCells.toNat = n * Globals.CELLS_PER_PAYMENT := by
    have hcast : ((n * Globals.CELLS_PER_PAYMENT : Nat) : Int) = request.numPayments * Globals.CELLS_PER_PAYMENT := by
      rw [hn, Int.natCast_mul]
    omega
  refine ⟨by omega, hwhole, ?_, ?_, by omega, by omega, level_reached (by omega), level_reached (by omega)⟩
  · rw [ClientPaymentHandler.numPayments, hcells, Nat.mul_div_cancel n (by decide), hn]
  · rw [hcells, hn, Int.toNat_natCast]
    exact Nat.lt_irrefl _

/-- The assertion never fails, and what is asked for covers both directions. -/
theorem cellRequest_covers (curReadBytes curWriteBytes : Int) (force : Bool) :
    ∃ request, cellRequest curReadBytes curWriteBytes force = .ok request ∧
      ∀ r ∈ request, r.Covers curReadBytes curWriteBytes := by
  have henough := cells_le_payments bytesPerCell_pos cellsPerPayment_pos (requiredBytes curReadBytes)
    (requiredBytes curWriteBytes)
  unfold cellRequest
  dsimp only
  split
  · rw [if_neg (by omega)]
    split
    · refine ⟨_, rfl, fun r hr => ?_⟩
      cases hr
      refine covers_of_split rfl rfl (Int.add_assoc _ _ _) rfl ?_ ?_ ?_
      · dsimp only
        split
        · omega
        · omega
      · split
        · omega
        · omega
      · omega
    · split
      · refine ⟨_, rfl, fun r hr => ?_⟩
        cases hr
        exact covers_of_split rfl rfl rfl (Int.add_zero _).symm (Int.add_zero _) (by omega) (Int.le_refl 0)
      · refine ⟨_, rfl, fun r hr => ?_⟩
        cases hr
        exact covers_of_split rfl rfl (Int.add_zero _).symm rfl (Int.zero_add _) (Int.le_refl 0) (by omega)
  · refine ⟨none, rfl, fun r hr => ?_⟩
    cases hr

/-- `refill_payments` either does nothing or sends a request that covers both directions. -/
theorem refill_payments_covers_deficit (env : PaymentEnvironment β) (circ : CircuitFlags) (force : Bool)
    (s : ClientPaymentHandler β) :
    refillPayments env circ force s = .ok () s ∨
      ∃ request : CellRequest, request.Covers s.curReadBytes s.curWriteBytes ∧
        refillPayments env circ force s =
          sendPaymentRequest env request.numReadCells.toNat request.numWriteCells.toNat s := by
  obtain ⟨request, hrequest, hcovers⟩ := cellRequest_covers s.curReadBytes s.curWriteBytes force
  have hafter : ∀ f : ClientPaymentHandler β → Pay β Unit, ((do let t ← get; f t) : Pay β Unit) s = f s s :=
    fun _ => rfl
  -- Each of the six guards ends the call.
  have hguard : ∀ (c : Prop) [Decidable c] (y : Pay β Unit),
      (if c then return () else y : Pay β Unit) s = if c then .ok () s else y s := by
    intro c _ y
    split
    · rfl
    · rfl
  unfold refillPayments
  rw [hafter]
  iterate 6
    rw [hguard]
    split
    · exact Or.inl rfl
  rw [hrequest]
  cases request with
  | none => exact Or.inl rfl
  | some request => exact Or.inr ⟨request, hcovers request rfl, rfl⟩

end ClientPaymentHandler

end BitBlinder.Tor
