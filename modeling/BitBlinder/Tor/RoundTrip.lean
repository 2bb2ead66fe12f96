import Mathlib.Algebra.Order.Floor.Div
import BitBlinder.Tor.Reassembly

/-!
# Messages one after the other

What `send_direct_tor_message` hands to Tor for a list of messages is taken
apart again by `message_arrived`: a message is dispatched with its last cell,
not before, and leaves an empty buffer to the next one.
-/

namespace BitBlinder.Tor

set_option autoImplicit false

open Struct

namespace BaseCircuit

/-- The exceptions raised while the cells arrive. -/
def arrivalErrors : BaseCircuit → List Bytes → List PyError
  | _, [] => []
  | c, cell :: cells => (c.messageArrived cell).2.toList ++ arrivalErrors (c.messageArrived cell).1 cells

theorem messagesArrived_append (c : BaseCircuit) (cells cells' : List Bytes) :
    c.messagesArrived (cells ++ cells') = (c.messagesArrived cells).messagesArrived cells' :=
  List.foldl_append

theorem arrivalErrors_append (c : BaseCircuit) (cells cells' : List Bytes) :
    c.arrivalErrors (cells ++ cells') =
      c.arrivalErrors cells ++ (c.messagesArrived cells).arrivalErrors cells' := by
  induction cells generalizing c with
  | nil => rfl
  | cons cell cells ih =>
    rw [List.cons_append, arrivalErrors, arrivalErrors, ih, List.append_assoc]
    rfl

theorem messageArrived_of_emit_none {c : BaseCircuit} {cell : Bytes} (hlen : 2 ≤ (c.buffer ++ cell).length)
    (h : emit c.messageHandlers (c.buffer ++ cell) = none) :
    c.messageArrived cell = ({ c with buffer := c.buffer ++ cell }, none) := by
  have hlt := (emit_eq_none hlen).mp h
  unfold needed at hlt
  have hshort : ¬ unpackBE ((c.buffer ++ cell).take 2) ≤ ((c.buffer ++ cell).drop 2).length := by
    rw [List.length_drop]
    omega
  simp only [messageArrived, readShort_eq hlen, if_neg hshort]

theorem messageArrived_of_emit {c : BaseCircuit} {cell : Bytes} {d : MessageName × Bytes}
    (h : emit c.messageHandlers (c.buffer ++ cell) = some [d]) :
    c.messageArrived cell = ({ c with buffer := [], dispatched := c.dispatched ++ [d] }, none) := by
  unfold emit at h
  unfold messageArrived
  dsimp only
  cases hshort : Basic.readShort (c.buffer ++ cell) with
  | error e => simp [hshort] at h
  | ok short =>
    obtain ⟨msgLen, msgData⟩ := short
    simp only [hshort] at h
    dsimp only
    by_cases hle : msgLen ≤ msgData.length
    · rw [if_pos hle] at h ⊢
      cases hbyte : Basic.readByte (msgData.take msgLen) with
      | error e => simp [hbyte] at h
      | ok byte =>
        obtain ⟨msgType, data⟩ := byte
        simp only [hbyte] at h
        dsimp only
        cases hname : MessageName.ofCode msgType with
        | none => simp [hname] at h
        | some name =>
          simp only [hname] at h
          dsimp only
          by_cases hknown : name ∈ c.messageHandlers
          · rw [if_pos hknown] at h ⊢
            rw [← List.singleton_inj.mp (Option.some.inj h)]
          · simp [hknown] at h
    · simp [hle] at h

/-- The circuit once it has dispatched some messages and waits for the next one. -/
def after (c : BaseCircuit) (done : List Message) : BaseCircuit :=
  { c with buffer := [], dispatched := c.dispatched ++ done.map Message.content }

theorem after_nil {c : BaseCircuit} (h : c.buffer = []) : c.after [] = c := by
  simp [after, ← h]

theorem after_append (c : BaseCircuit) (done done' : List Message) :
    (c.after done).after done' = c.after (done ++ done') := by
  simp [after]

end BaseCircuit

namespace Message
variable (m : Message)

theorem length_of_mem_cells {cell : Bytes} (h : cell ∈ m.cells) :
    cell.length = writableBytes m.sendOverCircuit :=
  length_of_mem_fragment h

/-- The padding of the last cell is shorter than a cell. -/
theorem flatten_cells : ∃ n, m.cells.flatten = framed m.name m.msg ++ List.replicate n PAD ∧
    m.cells.length * writableBytes m.sendOverCircuit < m.msg.length + 3 + writableBytes m.sendOverCircuit := by
  have hw := two_le_writableBytes m.sendOverCircuit
  obtain ⟨n, hflat, hlen⟩ := flatten_fragment PAD (w := writableBytes m.sendOverCircuit) (by omega)
    (Nat.le_refl (framed m.name m.msg).length)
  refine ⟨n, hflat, ?_⟩
  rwa [framed_length] at hlen

theorem le_length_cells :
    m.msg.length + 3 ≤ m.cells.length * writableBytes m.sendOverCircuit := by
  obtain ⟨n, hflat, -⟩ := m.flatten_cells
  have hlen := flatten_length_of_uniform fun cell hcell => m.length_of_mem_cells hcell
  rw [hflat, List.length_append, framed_length] at hlen
  omega

theorem length_cells_eq :
    m.cells.length = (m.msg.length + 3) ⌈/⌉ writableBytes m.sendOverCircuit := by
  have hw := two_le_writableBytes m.sendOverCircuit
  obtain ⟨n, -, hlt⟩ := m.flatten_cells
  have hle := m.le_length_cells
  rw [Nat.ceilDiv_eq_add_pred_div]
  symm
  apply Nat.div_eq_of_lt_le
  · omega
  · rw [Nat.succ_mul]
    omega

/-- Fewer cells than all of them do not hold the message. -/
theorem flatten_take_lt {k : Nat} (hk : k < m.cells.length) :
    (m.cells.take k).flatten.length < m.msg.length + 3 := by
  obtain ⟨n, -, hlt⟩ := m.flatten_cells
  have hlen := flatten_length_of_uniform fun cell hcell =>
    m.length_of_mem_cells (List.take_subset k m.cells hcell)
  rw [hlen, List.length_take_of_le (by omega)]
  have hmul := Nat.mul_le_mul_right (writableBytes m.sendOverCircuit) hk
  rw [Nat.succ_mul] at hmul
  omega

theorem cells_length_pos : 0 < m.cells.length := by
  have hle := m.le_length_cells
  by_contra hzero
  rw [Nat.le_zero.mp (Nat.le_of_not_lt hzero), Nat.zero_mul] at hle
  omega

end Message

namespace BaseCircuit
variable {c : BaseCircuit} {m : Message}

/-- Until its last cell a message waits in the buffer. -/
theorem messagesArrived_take (hempty : c.buffer = []) {k : Nat} (hk : k < m.cells.length) :
    c.messagesArrived (m.cells.take k) = { c with buffer := (m.cells.take k).flatten } ∧
      c.arrivalErrors (m.cells.take k) = [] := by
  induction k with
  | zero => exact ⟨by simp [messagesArrived, ← hempty], rfl⟩
  | succ k ih =>
    obtain ⟨hstate, herrors⟩ := ih (by omega)
    obtain ⟨n, hflat, -⟩ := m.flatten_cells
    have hw := two_le_writableBytes m.sendOverCircuit
    have htake : m.cells.take (k + 1) = m.cells.take k ++ [m.cells[k]] :=
      List.take_succ_eq_append_getElem (by omega)
    have hspell : (m.cells.take (k + 1)).flatten = (m.cells.take k).flatten ++ m.cells[k] := by
      rw [htake, List.flatten_append, List.flatten_singleton]
    have hlong : 2 ≤ ((m.cells.take k).flatten ++ m.cells[k]).length := by
      have hcell := m.length_of_mem_cells (List.getElem_mem (l := m.cells) (n := k) (by omega))
      rw [List.length_append]
      omega
    have hfront : (m.cells.take k).flatten ++ m.cells[k] ++ (m.cells.drop (k + 1)).flatten =
        Message.framed m.name m.msg ++ List.replicate n PAD := by
      rw [← hspell, ← List.flatten_append, List.take_append_drop, hflat]
    have hemit : emit c.messageHandlers ((m.cells.take k).flatten ++ m.cells[k]) = none := by
      apply (emit_eq_none hlong).mpr
      rw [needed_eq m.fits hlong hfront, ← hspell, framed_length]
      exact m.flatten_take_lt hk
    have harrived : ({ c with buffer := (m.cells.take k).flatten } : BaseCircuit).messageArrived m.cells[k] =
        ({ c with buffer := (m.cells.take k).flatten ++ m.cells[k] }, none) :=
      messageArrived_of_emit_none hlong hemit
    rw [hspell, htake, messagesArrived_append, arrivalErrors_append, hstate, herrors]
    refine ⟨?_, ?_⟩
    · simp [messagesArrived, harrived]
    · simp [arrivalErrors, harrived]

/-- The last cell of a message has it dispatched. -/
theorem messagesArrived_cells (hempty : c.buffer = []) (hknown : m.name ∈ c.messageHandlers) :
    c.messagesArrived m.cells = c.after [m] ∧ c.arrivalErrors m.cells = [] := by
  have hpos := m.cells_length_pos
  obtain ⟨hstate, herrors⟩ := messagesArrived_take hempty (m := m) (k := m.cells.length - 1) (by omega)
  obtain ⟨n, hflat, -⟩ := m.flatten_cells
  have hne : m.cells ≠ [] := List.ne_nil_of_length_pos hpos
  have hsplit : m.cells = m.cells.take (m.cells.length - 1) ++ [m.cells.getLast hne] := by
    rw [← List.dropLast_eq_take, List.dropLast_append_getLast]
  have hspell : (m.cells.take (m.cells.length - 1)).flatten ++ m.cells.getLast hne =
      Message.framed m.name m.msg ++ List.replicate n PAD := by
    rw [← hflat]
    conv_rhs => rw [hsplit]
    rw [List.flatten_append, List.flatten_singleton]
  have hemit : emit c.messageHandlers
      ((m.cells.take (m.cells.length - 1)).flatten ++ m.cells.getLast hne) = some [m.content] := by
    rw [hspell]
    exact emit_framed hknown m.fits
  have harrived : ({ c with buffer := (m.cells.take (m.cells.length - 1)).flatten } : BaseCircuit).messageArrived
      (m.cells.getLast hne) = ({ c with buffer := [], dispatched := c.dispatched ++ [m.content] }, none) :=
    messageArrived_of_emit hemit
  rw [hsplit, messagesArrived_append, arrivalErrors_append, hstate, herrors]
  refine ⟨?_, ?_⟩
  · simp [messagesArrived, harrived, after]
  · simp [arrivalErrors, harrived]

theorem messagesArrived_messages {msgs : List Message} (hempty : c.buffer = [])
    (hknown : ∀ m ∈ msgs, m.name ∈ c.messageHandlers) :
    c.messagesArrived (msgs.map Message.cells).flatten = c.after msgs ∧
      c.arrivalErrors (msgs.map Message.cells).flatten = [] := by
  induction msgs using List.reverseRecOn with
  | nil => exact ⟨(after_nil hempty).symm, rfl⟩
  | append_singleton msgs m ih =>
    obtain ⟨hstate, herrors⟩ := ih fun m' hm' => hknown m' (List.mem_append_left [m] hm')
    have hlast := hknown m (List.mem_append_right msgs List.mem_cons_self)
    obtain ⟨hstate', herrors'⟩ := messagesArrived_cells (c := c.after msgs) rfl hlast
    rw [List.map_append, List.flatten_append, List.map_singleton, List.flatten_singleton,
      messagesArrived_append, arrivalErrors_append, hstate, hstate', after_append, herrors, herrors']
    exact ⟨rfl, rfl⟩

end BaseCircuit

/-- An open circuit sends each message as the least number of cells that hold it; the circuit that
gets the cells of all of them dispatches each message when its last cell has arrived, and keeps
nothing of it. -/
theorem messages_roundTrip (sender receiver : BaseCircuit) (msgs : List Message) (numHops : Nat)
    (hopen : sender.isClosed = false) (hhops : numHops ≠ 0) (hempty : receiver.buffer = [])
    (hknown : ∀ m ∈ msgs, m.name ∈ receiver.messageHandlers) :
    (∀ m ∈ msgs,
      sender.sendDirectTorMessage true m.msg m.name numHops m.sendOverCircuit = .ok m.cells ∧
      m.cells.length = (m.msg.length + 3) ⌈/⌉ writableBytes m.sendOverCircuit ∧
      ∀ cell ∈ m.cells, cell.length = writableBytes m.sendOverCircuit) ∧
    receiver.arrivalErrors (msgs.map Message.cells).flatten = [] ∧
    receiver.messagesArrived (msgs.map Message.cells).flatten =
      { receiver with dispatched := receiver.dispatched ++ msgs.map Message.content } ∧
    ∀ done m rest, msgs = done ++ m :: rest →
      receiver.messagesArrived ((done.map Message.cells).flatten ++ m.cells) =
        { receiver with dispatched := receiver.dispatched ++ (done ++ [m]).map Message.content } ∧
      ∀ k < m.cells.length,
        receiver.messagesArrived ((done.map Message.cells).flatten ++ m.cells.take k) =
          { receiver with
            buffer := (m.cells.take k).flatten
            dispatched := receiver.dispatched ++ done.map Message.content } := by
  have hafter : ∀ ms, receiver.after ms =
      { receiver with dispatched := receiver.dispatched ++ ms.map Message.content } := by
    intro ms
    simp only [BaseCircuit.after, hempty]
  obtain ⟨hall, herrors⟩ := BaseCircuit.messagesArrived_messages hempty hknown
  refine ⟨?_, herrors, hall.trans (hafter msgs), ?_⟩
  · intro m _
    exact ⟨sendDirectTorMessage_eq m hopen hhops, m.length_cells_eq, fun _ => m.length_of_mem_cells⟩
  · rintro done m rest rfl
    obtain ⟨hdone, -⟩ := BaseCircuit.messagesArrived_messages hempty fun m' hm' =>
      hknown m' (List.mem_append_left (m :: rest) hm')
    have hm := hknown m (List.mem_append_right done List.mem_cons_self)
    refine ⟨?_, ?_⟩
    · rw [BaseCircuit.messagesArrived_append, hdone,
        (BaseCircuit.messagesArrived_cells (c := receiver.after done) rfl hm).1, BaseCircuit.after_append,
        hafter]
    · intro k hk
      rw [BaseCircuit.messagesArrived_append, hdone,
        (BaseCircuit.messagesArrived_take (c := receiver.after done) rfl hk).1]
      rfl

theorem messages_roundTrip_two_receipts :
    ((BaseCircuit.new [.setupReply, .receipt]).messagesArrived
      (twoReceipts.map Message.cells).flatten).dispatched = twoReceipts.map Message.content := by
  have h := messages_roundTrip (BaseCircuit.new []) (BaseCircuit.new [.setupReply, .receipt]) twoReceipts 1
    rfl (by decide) rfl ?_
  · rw [h.2.2.1]
    rfl
  · intro m hm
    simp only [twoReceipts, List.mem_cons, List.not_mem_nil, or_false] at hm
    rcases hm with rfl | rfl <;> decide

end BitBlinder.Tor
