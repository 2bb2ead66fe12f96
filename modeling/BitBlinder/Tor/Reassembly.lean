import Mathlib.Algebra.BigOperators.Group.List.Basic
import Mathlib.Data.List.Forall2
import BitBlinder.Interleaving
import BitBlinder.Tor.TorMessages

/-!
# Reassembly of interleaved messages

`assemble` is what a circuit dispatches for a sequence of cells, read off its
buffer. Cells that carry one message after the other are reassembled. The
converse is a count: a dispatched message uses up at least its own cells and at
least its own bytes other than the padding, so when every message is dispatched
nothing is left over, and each message was spelled by its own cells.
-/

namespace BitBlinder.Tor

set_option autoImplicit false

open Struct

variable (handlers : List MessageName)

/-- What a buffer dispatches once it holds a whole message; `none` while it does not. -/
def emit (buffer : Bytes) : Option (List (MessageName × Bytes)) :=
  match Basic.readShort buffer with
  | .error _ => none
  | .ok (msgLen, msgData) =>
    if msgLen ≤ msgData.length then
      match Basic.readByte (msgData.take msgLen) with
      | .error _ => some []
      | .ok (msgType, msgData) =>
        match MessageName.ofCode msgType with
        | none => some []
        | some name => if name ∈ handlers then some [(name, msgData)] else some []
    else
      none

def assemble : Bytes → List Bytes → List (MessageName × Bytes)
  | _, [] => []
  | buffer, cell :: cells =>
    match emit handlers (buffer ++ cell) with
    | none => assemble (buffer ++ cell) cells
    | some new => new ++ assemble [] cells

variable {handlers}

theorem assemble_of_none {buffer cell : Bytes} {cells : List Bytes}
    (h : emit handlers (buffer ++ cell) = none) :
    assemble handlers buffer (cell :: cells) = assemble handlers (buffer ++ cell) cells := by
  rw [assemble, h]

theorem assemble_of_some {buffer cell : Bytes} {cells : List Bytes} {new : List (MessageName × Bytes)}
    (h : emit handlers (buffer ++ cell) = some new) :
    assemble handlers buffer (cell :: cells) = new ++ assemble handlers [] cells := by
  rw [assemble, h]

theorem messageArrived_emit (c : BaseCircuit) (cell : Bytes) :
    (c.messageArrived cell).1.messageHandlers = c.messageHandlers ∧
      match emit c.messageHandlers (c.buffer ++ cell) with
      | none => (c.messageArrived cell).1.buffer = c.buffer ++ cell ∧
          (c.messageArrived cell).1.dispatched = c.dispatched
      | some new => (c.messageArrived cell).1.buffer = [] ∧
          (c.messageArrived cell).1.dispatched = c.dispatched ++ new := by
  unfold BaseCircuit.messageArrived emit
  dsimp only
  cases Basic.readShort (c.buffer ++ cell) with
  | error e => exact ⟨rfl, rfl, rfl⟩
  | ok short =>
    obtain ⟨msgLen, msgData⟩ := short
    dsimp only
    split
    · cases Basic.readByte (msgData.take msgLen) with
      | error e => simp
      | ok byte =>
        obtain ⟨msgType, msgData⟩ := byte
        dsimp only
        cases MessageName.ofCode msgType with
        | none => simp
        | some name =>
          dsimp only
          split <;> simp
    · exact ⟨rfl, rfl, rfl⟩

theorem messagesArrived_dispatched (c : BaseCircuit) (cells : List Bytes) :
    (c.messagesArrived cells).dispatched =
      c.dispatched ++ assemble c.messageHandlers c.buffer cells := by
  induction cells generalizing c with
  | nil => simp [BaseCircuit.messagesArrived, assemble]
  | cons cell cells ih =>
    obtain ⟨hhandlers, hemit⟩ := messageArrived_emit c cell
    have hrest := ih (c.messageArrived cell).1
    unfold BaseCircuit.messagesArrived at hrest ⊢
    rw [List.foldl_cons, hrest, hhandlers]
    cases hnew : emit c.messageHandlers (c.buffer ++ cell) with
    | none =>
      rw [hnew] at hemit
      rw [hemit.1, hemit.2, assemble_of_none hnew]
    | some new =>
      rw [hnew] at hemit
      rw [hemit.1, hemit.2, assemble_of_some hnew, List.append_assoc]

/-- The bytes that the buffer has to hold, by its first two. -/
def needed (buffer : Bytes) : Nat := unpackBE (buffer.take 2) + 2

theorem readShort_eq {buffer : Bytes} (h : 2 ≤ buffer.length) :
    Basic.readShort buffer = .ok (unpackBE (buffer.take 2), buffer.drop 2) :=
  Basic.readField_eq (f := .H) h

theorem readByte_eq {msg : Bytes} (h : 1 ≤ msg.length) :
    Basic.readByte msg = .ok (unpackBE (msg.take 1), msg.drop 1) :=
  Basic.readField_eq (f := .B) h

theorem emit_eq_none {buffer : Bytes} (h : 2 ≤ buffer.length) :
    emit handlers buffer = none ↔ buffer.length < needed buffer := by
  unfold emit needed
  rw [readShort_eq h]
  dsimp only
  rw [List.length_drop]
  split
  · rename_i hle
    constructor
    · intro hnone
      split at hnone
      · cases hnone
      · split at hnone
        · cases hnone
        · split at hnone <;> cases hnone
    · omega
  · rename_i hlt
    simp only [true_iff]
    omega

/-- A whole message at the front of the buffer is dispatched when its type is handled. -/
theorem emit_framed {name : MessageName} {msg rest : Bytes} (hname : name ∈ handlers)
    (hfits : msg.length + 1 < 2 ^ 16) :
    emit handlers (Message.framed name msg ++ rest) = some [(name, msg)] := by
  have hbuffer : Message.framed name msg ++ rest =
      packBE 2 (msg.length + 1) ++ (packBE 1 name.code ++ msg ++ rest) := by
    simp [Message.framed]
  have hlong : 2 ≤ (Message.framed name msg ++ rest).length := by
    rw [List.length_append, framed_length]
    omega
  have htake : (Message.framed name msg ++ rest).take 2 = packBE 2 (msg.length + 1) := by
    rw [hbuffer]
    exact List.take_left' (packBE_length 2 _)
  have hdrop : (Message.framed name msg ++ rest).drop 2 = packBE 1 name.code ++ msg ++ rest := by
    rw [hbuffer]
    exact List.drop_left' (packBE_length 2 _)
  have hlen : (packBE 1 name.code ++ msg).length = msg.length + 1 := by
    rw [List.length_append, packBE_length]
    omega
  have htype : Basic.readByte (packBE 1 name.code ++ msg) = .ok (name.code, msg) := by
    rw [readByte_eq (by omega), List.take_left' (packBE_length 1 _), List.drop_left' (packBE_length 1 _),
      unpackBE_packBE 1 _ name.code_lt]
  have hcode := MessageName.ofCode_eq_some.mpr (Eq.refl name.code)
  unfold emit
  rw [readShort_eq hlong, htake, hdrop, unpackBE_packBE 2 _ hfits]
  dsimp only
  rw [if_pos (by simp only [List.length_append] at hlen ⊢; omega), List.take_left' hlen, htype]
  dsimp only
  rw [hcode]
  dsimp only
  rw [if_pos hname]

/-- Whatever is dispatched stands framed at the front of the buffer. -/
theorem emit_some {buffer : Bytes} {new : List (MessageName × Bytes)}
    (h : emit handlers buffer = some new) :
    new = [] ∨ ∃ name msg rest, new = [(name, msg)] ∧ name ∈ handlers ∧ msg.length + 1 < 2 ^ 16 ∧
      buffer = Message.framed name msg ++ rest := by
  unfold emit at h
  split at h
  · cases h
  · rename_i msgLen msgData hshort
    split at h
    · rename_i hle
      split at h
      · exact Or.inl (Option.some.inj h).symm
      · rename_i msgType data hbyte
        split at h
        · exact Or.inl (Option.some.inj h).symm
        · rename_i name hname
          split at h
          · rename_i hhandled
            refine Or.inr ⟨name, data, msgData.drop msgLen, (Option.some.inj h).symm, hhandled, ?_⟩
            have hlt := Basic.readShort_lt hshort
            obtain ⟨hlen, hmsgLen, hmsgData⟩ := Basic.readField_of_ok hshort
            obtain ⟨hlen', hmsgType, hdata⟩ := Basic.readField_of_ok hbyte
            have hlen : 2 ≤ buffer.length := hlen
            have hlen' : 1 ≤ (msgData.take msgLen).length := hlen'
            have hmsgLen : msgLen = unpackBE (buffer.take 2) := hmsgLen
            have hmsgData : msgData = buffer.drop 2 := hmsgData
            have hmsgType : msgType = unpackBE ((msgData.take msgLen).take 1) := hmsgType
            have hdata : data = (msgData.take msgLen).drop 1 := hdata
            have htake : (msgData.take msgLen).length = msgLen := List.length_take_of_le hle
            have hcount : data.length + 1 = msgLen := by
              rw [hdata, List.length_drop, htake]
              omega
            refine ⟨by omega, ?_⟩
            have hfront : packBE 2 (data.length + 1) = buffer.take 2 := by
              have hround := packBE_unpackBE (buffer.take 2)
              rwa [List.length_take_of_le hlen, ← hmsgLen, ← hcount] at hround
            have hcode : packBE 1 name.code = (msgData.take msgLen).take 1 := by
              have hround := packBE_unpackBE ((msgData.take msgLen).take 1)
              rwa [List.length_take_of_le hlen', ← hmsgType, ← MessageName.ofCode_eq_some.mp hname]
                at hround
            rw [Message.framed, hfront, hcode, hdata, List.take_append_drop, List.append_assoc,
              List.take_append_drop, hmsgData, List.take_append_drop]
          · exact Or.inl (Option.some.inj h).symm
    · cases h

theorem needed_eq {name : MessageName} {msg buffer more rest : Bytes} (hfits : msg.length + 1 < 2 ^ 16)
    (hlen : 2 ≤ buffer.length) (heq : buffer ++ more = Message.framed name msg ++ rest) :
    needed buffer = (Message.framed name msg).length := by
  have htake : buffer.take 2 = packBE 2 (msg.length + 1) := by
    have hleft : (buffer ++ more).take 2 = buffer.take 2 := List.take_append_of_le_length hlen
    rw [← hleft, heq, Message.framed, List.append_assoc]
    exact List.take_left' (packBE_length 2 _)
  rw [needed, htake, unpackBE_packBE 2 _ hfits, framed_length]

/-- Cells that complete a framed message with their last one dispatch it. -/
theorem assemble_block {name : MessageName} {msg pad buffer : Bytes} {cells : List Bytes}
    (hname : name ∈ handlers) (hfits : msg.length + 1 < 2 ^ 16) (hne : cells ≠ [])
    (hsize : ∀ c ∈ cells, 2 ≤ c.length)
    (hspell : buffer ++ cells.flatten = Message.framed name msg ++ pad)
    (hshort : (buffer ++ cells.dropLast.flatten).length < (Message.framed name msg).length)
    (rest : List Bytes) :
    assemble handlers buffer (cells ++ rest) = (name, msg) :: assemble handlers [] rest := by
  induction cells generalizing buffer with
  | nil => exact absurd rfl hne
  | cons cell cells ih =>
    cases cells with
    | nil =>
      simp only [List.flatten_cons, List.flatten_nil, List.append_nil] at hspell
      have hemit : emit handlers (buffer ++ cell) = some [(name, msg)] := by
        rw [hspell]
        exact emit_framed hname hfits
      exact assemble_of_some hemit
    | cons next cells =>
      have hcell := hsize cell List.mem_cons_self
      rw [List.flatten_cons, ← List.append_assoc] at hspell
      rw [List.dropLast_cons_cons, List.flatten_cons, ← List.append_assoc] at hshort
      have hlong : 2 ≤ (buffer ++ cell).length := by
        rw [List.length_append]
        omega
      have hemit : emit handlers (buffer ++ cell) = none := by
        apply (emit_eq_none hlong).mpr
        rw [needed_eq hfits hlong hspell]
        rw [List.length_append] at hshort
        omega
      rw [List.cons_append, assemble_of_none hemit]
      exact ih (by simp) (fun c hc => hsize c (List.mem_cons_of_mem cell hc)) hspell hshort

/-- The bytes of a string other than the padding. -/
def weight (bs : Bytes) : Nat := bs.countP fun b => b ≠ PAD

theorem weight_append (bs cs : Bytes) : weight (bs ++ cs) = weight bs + weight cs :=
  List.countP_append

theorem weight_replicate (n : Nat) : weight (List.replicate n PAD) = 0 := by
  simp [weight, List.countP_replicate]

theorem eq_replicate_of_weight {bs : Bytes} (h : weight bs = 0) :
    bs = List.replicate bs.length PAD := by
  apply List.eq_replicate_iff.mpr
  refine ⟨rfl, ?_⟩
  intro b hb
  have := List.countP_eq_zero.mp h b hb
  simpa using this

/-- The cells of a dispatched message, for one cell size. -/
def cellsOf (w : Nat) (d : MessageName × Bytes) : List Bytes :=
  fragment PAD w (Message.framed d.1 d.2).length (Message.framed d.1 d.2)

def weightOf (d : MessageName × Bytes) : Nat := weight (Message.framed d.1 d.2)

/-- The message that a cell completes uses up the cells in the buffer, and their weight but for
what is left over. -/
theorem dispatched_uses {w : Nat} (hw : 2 ≤ w) {pending : List Bytes} {cell rest msg : Bytes} {name : MessageName}
    (hpending : ∀ c ∈ pending, c.length = w) (hcell : cell.length = w)
    (hwaiting : pending = [] ∨ emit handlers pending.flatten = none) (hfits : msg.length + 1 < 2 ^ 16)
    (hbuffer : pending.flatten ++ cell = Message.framed name msg ++ rest) :
    pending.length + 1 = (cellsOf w (name, msg)).length ∧
      weight pending.flatten + weight cell = weightOf (name, msg) + weight rest ∧
      (weight rest = 0 → pending ++ [cell] = cellsOf w (name, msg)) := by
  have hnext : ∀ c ∈ pending ++ [cell], c.length = w :=
    List.forall_mem_append.mpr ⟨hpending, List.forall_mem_singleton.mpr hcell⟩
  have hspell : (pending ++ [cell]).flatten = Message.framed name msg ++ rest := by
    rw [← hbuffer]
    simp
  have hshort : pending.length * w < (Message.framed name msg).length := by
    rcases hwaiting with rfl | hnone
    · rw [framed_length]
      simp
    · cases pending with
      | nil =>
        rw [framed_length]
        simp
      | cons c pending =>
        have hlong : 2 ≤ (c :: pending).flatten.length := by
          have hc := hpending c List.mem_cons_self
          rw [List.flatten_cons, List.length_append]
          omega
        have hlt := (emit_eq_none hlong).mp hnone
        rw [needed_eq hfits hlong hbuffer] at hlt
        rwa [flatten_length_of_uniform hpending] at hlt
  have htotal := flatten_length_of_uniform hnext
  rw [hspell, List.length_append] at htotal
  have hcount : (pending ++ [cell]).length * w < (Message.framed name msg).length + w := by
    rw [List.length_append, List.length_singleton, Nat.add_mul, Nat.one_mul]
    omega
  refine ⟨?_, ?_, fun hblank => ?_⟩
  · have hlength := fragment_length_unique PAD (by omega) (Nat.le_refl _) (by omega) hcount
    rwa [List.length_append, List.length_singleton] at hlength
  · rw [← weight_append, hbuffer, weight_append]
    rfl
  · rw [eq_replicate_of_weight hblank] at hspell
    exact eq_fragment (by omega) (Nat.le_refl _) hnext hspell hcount

/-- `pending` are the cells in the buffer. A dispatched message has used at least its own
cells and its own weight; if all of both is used, the cells are those of the
dispatched messages. -/
theorem assemble_count {w : Nat} (hw : 2 ≤ w) {cells pending : List Bytes}
    (hcells : ∀ c ∈ cells, c.length = w) (hpending : ∀ c ∈ pending, c.length = w)
    (hwaiting : pending = [] ∨ emit handlers pending.flatten = none) :
    let dispatched := assemble handlers pending.flatten cells
    (dispatched.map weightOf).sum ≤ weight pending.flatten + weight cells.flatten ∧
      (dispatched.map fun d => (cellsOf w d).length).sum ≤ pending.length + cells.length ∧
      (weight pending.flatten + weight cells.flatten ≤ (dispatched.map weightOf).sum →
        pending.length + cells.length ≤ (dispatched.map fun d => (cellsOf w d).length).sum →
        pending ++ cells = (dispatched.map (cellsOf w)).flatten) := by
  induction cells generalizing pending with
  | nil =>
    refine ⟨by simp [assemble], by simp [assemble], ?_⟩
    intro _ hlen
    simp only [assemble, List.map_nil, List.sum_nil, List.length_nil, Nat.add_zero, Nat.le_zero] at hlen
    simp [List.length_eq_zero_iff.mp hlen, assemble]
  | cons cell cells ih =>
    have hcell := hcells cell List.mem_cons_self
    have hrest : ∀ c ∈ cells, c.length = w := fun c hc => hcells c (List.mem_cons_of_mem cell hc)
    have hnext : ∀ c ∈ pending ++ [cell], c.length = w :=
      List.forall_mem_append.mpr ⟨hpending, List.forall_mem_singleton.mpr hcell⟩
    have hflat : (pending ++ [cell]).flatten = pending.flatten ++ cell := by simp
    have hweights : weight (cell :: cells).flatten = weight cell + weight cells.flatten := by
      rw [List.flatten_cons, weight_append]
    cases hemit : emit handlers (pending.flatten ++ cell) with
    | none =>
      obtain ⟨hw₁, hw₂, hw₃⟩ := ih hrest hnext (Or.inr (by rw [hflat]; exact hemit))
      simp only [hflat, ← assemble_of_none hemit] at hw₁ hw₂ hw₃
      simp only [List.length_append, List.length_cons, List.length_nil, List.append_assoc,
        List.cons_append, List.nil_append, weight_append] at hw₁ hw₂ hw₃ ⊢
      rw [hweights]
      refine ⟨by omega, by omega, ?_⟩
      intro h₁ h₂
      exact hw₃ (by omega) (by omega)
    | some new =>
      obtain ⟨hr₁, hr₂, hr₃⟩ := @ih [] hrest (by simp) (Or.inl rfl)
      simp only [List.flatten_nil, List.length_nil, Nat.zero_add, List.nil_append] at hr₁ hr₂ hr₃
      have hnil : weight [] = 0 := rfl
      simp only [assemble_of_some hemit, List.map_append, List.sum_append, List.length_cons,
        List.flatten_append, hweights]
      rcases emit_some hemit with rfl | ⟨name, msg, rest, rfl, hname, hfits, hbuffer⟩
      · simp only [List.map_nil, List.sum_nil, List.flatten_nil, List.nil_append, Nat.zero_add]
        refine ⟨by omega, by omega, ?_⟩
        intro _ h₂
        omega
      · obtain ⟨hlength, hused, hown⟩ := dispatched_uses hw hpending hcell hwaiting hfits hbuffer
        simp only [List.map_cons, List.map_nil, List.sum_cons, List.sum_nil, Nat.add_zero,
          List.flatten_cons, List.flatten_nil, List.append_nil]
        refine ⟨by omega, by omega, ?_⟩
        intro h₁ h₂
        have hblock := hown (by omega)
        have htail := hr₃ (by omega) (by omega)
        rw [← htail, ← hblock]
        simp

/-- The cells carry the messages one after the other, in some order. -/
def Consecutive (msgs : List Message) (cells : List Bytes) : Prop :=
  ∃ order : List Message, order.Perm msgs ∧ cells = (order.map Message.cells).flatten

/-- A new circuit that gets the cells dispatches each message once and nothing else. -/
def Delivers (handlers : List MessageName) (msgs : List Message) (cells : List Bytes) : Prop :=
  ((BaseCircuit.new handlers).messagesArrived cells).dispatched.Perm (msgs.map Message.content)

theorem two_le_writableBytes (b : Bool) : 2 ≤ writableBytes b := by
  cases b <;> decide

theorem assemble_message (m : Message) (hname : m.name ∈ handlers) (rest : List Bytes) :
    assemble handlers [] (m.cells ++ rest) = m.content :: assemble handlers [] rest := by
  have hw := two_le_writableBytes m.sendOverCircuit
  obtain ⟨n, hflat, hlen⟩ := flatten_fragment PAD (w := writableBytes m.sendOverCircuit) (by omega)
    (Nat.le_refl (Message.framed m.name m.msg).length)
  have huniform : ∀ c ∈ m.cells, c.length = writableBytes m.sendOverCircuit := fun c hc =>
    length_of_mem_fragment hc
  have hne : m.cells ≠ [] := by
    intro hnil
    have hcells : fragment PAD (writableBytes m.sendOverCircuit) (Message.framed m.name m.msg).length
        (Message.framed m.name m.msg) = [] := hnil
    have hempty := congrArg List.length hflat
    rw [hcells, List.length_append, framed_length, List.flatten_nil, List.length_nil] at hempty
    omega
  refine assemble_block hname m.fits hne ?_ hflat ?_ rest
  · intro c hc
    rw [huniform c hc]
    exact hw
  · have hlast := flatten_length_of_uniform fun c hc => huniform c (List.dropLast_subset _ hc)
    have hlen : m.cells.length * writableBytes m.sendOverCircuit <
        (Message.framed m.name m.msg).length + writableBytes m.sendOverCircuit := hlen
    have hpos := framed_length m.name m.msg
    rw [List.nil_append, hlast, List.length_dropLast, Nat.sub_mul]
    omega

theorem assemble_messages {order : List Message} (hnames : ∀ m ∈ order, m.name ∈ handlers) :
    assemble handlers [] (order.map Message.cells).flatten = order.map Message.content := by
  induction order with
  | nil => rfl
  | cons m order ih =>
    have hrest := ih fun m' hm' => hnames m' (List.mem_cons_of_mem m hm')
    rw [List.map_cons, List.flatten_cons, assemble_message m (hnames m List.mem_cons_self), hrest,
      List.map_cons]

theorem delivers_of_consecutive {msgs : List Message} {cells : List Bytes}
    (hnames : ∀ m ∈ msgs, m.name ∈ handlers) (h : Consecutive msgs cells) :
    Delivers handlers msgs cells := by
  obtain ⟨order, horder, rfl⟩ := h
  have hassemble := assemble_messages fun m hm => hnames m (horder.subset hm)
  rw [Delivers, messagesArrived_dispatched]
  simp only [BaseCircuit.new, List.nil_append, hassemble]
  exact horder.map Message.content

theorem name_mem_of_assemble {d : MessageName × Bytes} {buffer : Bytes} {cells : List Bytes}
    (h : d ∈ assemble handlers buffer cells) : d.1 ∈ handlers := by
  induction cells generalizing buffer with
  | nil => simp [assemble] at h
  | cons cell cells ih =>
    cases hemit : emit handlers (buffer ++ cell) with
    | none =>
      rw [assemble_of_none hemit] at h
      exact ih h
    | some new =>
      rw [assemble_of_some hemit] at h
      rcases List.mem_append.mp h with h | h
      · rcases emit_some hemit with rfl | ⟨name, msg, rest, rfl, hname, -, -⟩
        · simp at h
        · rw [List.mem_singleton.mp h]
          exact hname
      · exact ih h

section Uniform
variable {b : Bool} {msgs : List Message} (hb : ∀ m ∈ msgs, m.sendOverCircuit = b)
include hb

theorem cellsOf_content : ∀ m ∈ msgs, cellsOf (writableBytes b) m.content = m.cells := by
  intro m hm
  rw [← hb m hm]
  rfl

theorem weight_cells : weight (msgs.map Message.cells).flatten.flatten =
    ((msgs.map Message.content).map weightOf).sum := by
  induction msgs with
  | nil => rfl
  | cons m msgs ih =>
    have hw := two_le_writableBytes m.sendOverCircuit
    obtain ⟨n, hflat, -⟩ := flatten_fragment PAD (w := writableBytes m.sendOverCircuit) (by omega)
      (Nat.le_refl (Message.framed m.name m.msg).length)
    have hflat : m.cells.flatten = Message.framed m.name m.msg ++ List.replicate n PAD := hflat
    have hrest := ih fun m' hm' => hb m' (List.mem_cons_of_mem m hm')
    simp only [List.map_cons, List.flatten_cons, List.flatten_append, weight_append, List.sum_cons, hrest,
      hflat, weight_replicate, Nat.add_zero]
    rfl

theorem length_cells : (msgs.map Message.cells).flatten.length =
    ((msgs.map Message.content).map fun d => (cellsOf (writableBytes b) d).length).sum := by
  rw [List.length_flatten, List.map_map, List.map_map]
  congr 1
  apply List.map_congr_left
  intro m hm
  simp only [Function.comp_apply, cellsOf_content hb m hm]

theorem consecutive_of_delivers {cells : List Bytes} (h : Interleaving (msgs.map Message.cells) cells)
    (hdelivers : Delivers handlers msgs cells) : Consecutive msgs cells := by
  have hw := two_le_writableBytes b
  have huniform : ∀ c ∈ cells, c.length = writableBytes b := by
    intro c hc
    obtain ⟨l, hl, hcl⟩ := List.mem_flatten.mp (h.perm.subset hc)
    obtain ⟨m, hm, rfl⟩ := List.mem_map.mp hl
    rw [← hb m hm]
    exact length_of_mem_fragment hcl
  rw [Delivers, messagesArrived_dispatched] at hdelivers
  simp only [BaseCircuit.new, List.nil_append] at hdelivers
  obtain ⟨-, -, hexact⟩ := @assemble_count handlers _ hw cells [] huniform (by simp)
    (Or.inl rfl)
  simp only [List.flatten_nil, List.nil_append, List.length_nil, Nat.zero_add] at hexact
  have hweight : weight cells.flatten = ((assemble handlers [] cells).map weightOf).sum := by
    rw [(hdelivers.map weightOf).sum_eq, ← weight_cells hb]
    exact h.perm.flatten.countP_eq _
  have hlength : cells.length =
      ((assemble handlers [] cells).map fun d => (cellsOf (writableBytes b) d).length).sum := by
    rw [(hdelivers.map _).sum_eq, ← length_cells hb]
    exact h.perm.length_eq
  have hcells := hexact (by rw [← hweight]; simp [weight]) (Nat.le_of_eq hlength)
  have hsame : List.Forall₂ (fun d m => d = Message.content m) (msgs.map Message.content) msgs := by
    rw [List.forall₂_map_left_iff]
    exact List.forall₂_same.mpr fun m _ => rfl
  obtain ⟨order, hforall, horder⟩ := List.perm_comp_forall₂ hdelivers hsame
  refine ⟨order, horder, ?_⟩
  rw [hcells]
  have hcontents : assemble handlers [] cells = order.map Message.content := by
    have heq : List.Forall₂ (fun d c => d = c) (assemble handlers [] cells)
        (order.map Message.content) := List.forall₂_map_right_iff.mpr hforall
    rwa [List.forall₂_eq_eq_eq] at heq
  rw [hcontents, List.map_map]
  congr 1
  apply List.map_congr_left
  intro m hm
  exact cellsOf_content hb m (horder.subset hm)

end Uniform

/-- Consecutive messages of handled types are delivered, and when all messages use cells
of one size no other interleaving of their cells delivers them. -/
theorem delivers_iff_consecutive (handlers : List MessageName) (msgs : List Message)
    (cells : List Bytes) (h : Interleaving (msgs.map Message.cells) cells) :
    ((∀ m ∈ msgs, m.name ∈ handlers) ∧ Consecutive msgs cells → Delivers handlers msgs cells) ∧
      ∀ b, (∀ m ∈ msgs, m.sendOverCircuit = b) → Delivers handlers msgs cells →
        (∀ m ∈ msgs, m.name ∈ handlers) ∧ Consecutive msgs cells := by
  refine ⟨fun hok => delivers_of_consecutive hok.1 hok.2, ?_⟩
  intro b hb hdelivers
  refine ⟨?_, consecutive_of_delivers hb h hdelivers⟩
  intro m hm
  have hdispatched := hdelivers.symm.subset (List.mem_map_of_mem hm)
  rw [messagesArrived_dispatched] at hdispatched
  exact name_mem_of_assemble hdispatched

/-- Two receipts of two cells each. -/
def twoReceipts : List Message :=
  [⟨.receipt, List.replicate 600 1, false, by rw [List.length_replicate]; decide⟩,
    ⟨.receipt, List.replicate 600 2, false, by rw [List.length_replicate]; decide⟩]

theorem delivers_iff_consecutive_two_receipts :
    Interleaving (twoReceipts.map Message.cells) (twoReceipts.map Message.cells).flatten ∧
      Delivers [.setupReply, .receipt] twoReceipts (twoReceipts.map Message.cells).flatten := by
  have hmerge := interleaving_flatten (twoReceipts.map Message.cells)
  refine ⟨hmerge, (delivers_iff_consecutive _ twoReceipts _ hmerge).1 ⟨?_, ?_⟩⟩
  · intro m hm
    simp only [twoReceipts, List.mem_cons, List.not_mem_nil, or_false] at hm
    rcases hm with rfl | rfl <;> decide
  · exact ⟨twoReceipts, List.Perm.refl _, rfl⟩

/-- Two sequences of two cells, taken in turns. -/
def inTurns : List (List Bytes) → List Bytes
  | [[a, a'], [b, b']] => [a, b, a', b']
  | _ => []

theorem interleaving_inTurns {ls : List (List Bytes)} (h : ls.map List.length = [2, 2]) :
    Interleaving ls (inTurns ls) := by
  obtain ⟨x, xs, rfl, hx, hxs⟩ := List.map_eq_cons_iff.mp h
  obtain ⟨y, ys, rfl, hy, hys⟩ := List.map_eq_cons_iff.mp hxs
  obtain ⟨a, a', rfl⟩ := List.length_eq_two.mp hx
  obtain ⟨b, b', rfl⟩ := List.length_eq_two.mp hy
  rw [List.map_eq_nil_iff.mp hys]
  refine .take (i := 0) rfl (.take (i := 1) rfl (.take (i := 0) rfl (.take (i := 1) rfl (.done ?_))))
  simp

theorem receipts_in_turns_not_delivered :
    Interleaving (twoReceipts.map Message.cells) (inTurns (twoReceipts.map Message.cells)) ∧
      ¬ Delivers [.setupReply, .receipt] twoReceipts (inTurns (twoReceipts.map Message.cells)) := by
  refine ⟨interleaving_inTurns (by decide +kernel), ?_⟩
  unfold Delivers
  decide +kernel

end BitBlinder.Tor
