import BitBlinder.Basic
import BitBlinder.Fragment

/-!
# Messages tunnelled through Tor

`BaseCircuit` of `core/tor/TorMessages.py`: a message gets its type and length
in front, is cut into cells filled up with spaces, and is pieced together again
by the circuit at the other end. The control line carries a cell in base64
without newlines and `=`; both cell sizes are multiples of three, so nothing of
the cell is lost and the line is left out here. `dispatched` lists the calls of
a `handle_…` method.
-/

namespace BitBlinder.Tor

set_option autoImplicit false

open Struct

inductive MessageName where
  | setup
  | setupReply
  | payment
  | receipt
  | bankRelay
  | dhtRequest
  | dhtResponse
  deriving DecidableEq

namespace MessageName

/-- `MESSAGE_CODES`. -/
def code : MessageName → Nat
  | setup => 1
  | setupReply => 2
  | payment => 3
  | receipt => 4
  | bankRelay => 5
  | dhtRequest => 6
  | dhtResponse => 7

def ofCode : Nat → Option MessageName
  | 1 => some setup
  | 2 => some setupReply
  | 3 => some payment
  | 4 => some receipt
  | 5 => some bankRelay
  | 6 => some dhtRequest
  | 7 => some dhtResponse
  | _ => none

theorem ofCode_eq_some {k : Nat} {name : MessageName} : ofCode k = some name ↔ name.code = k := by
  constructor
  · intro h
    unfold ofCode at h
    split at h <;> cases h <;> rfl
  · rintro rfl
    cases name <;> rfl

theorem code_lt (name : MessageName) : name.code < 256 := by
  cases name <;> decide

end MessageName

structure BaseCircuit where
  buffer : Bytes
  isClosed : Bool
  messageHandlers : List MessageName
  dispatched : List (MessageName × Bytes)

def BaseCircuit.new (messageHandlers : List MessageName) : BaseCircuit :=
  { buffer := [], isClosed := false, messageHandlers, dispatched := [] }

def PAD : UInt8 := 32

def writableBytes (sendOverCircuit : Bool) : Nat := if sendOverCircuit then 498 else 507

/-- The type and the length in front of a message. -/
def frame (name : MessageName) (msg : Bytes) : PyExcept Bytes := do
  let type ← Basic.writeByte name.code
  let msg := type ++ msg
  let msgLen ← Basic.writeShort msg.length
  return msgLen ++ msg

def toCells (sendOverCircuit : Bool) (msg : Bytes) : List Bytes :=
  fragment PAD (writableBytes sendOverCircuit) msg.length msg

namespace BaseCircuit

/-- The cells that `send_direct_tor_message` hands to Tor; none on a closed circuit. -/
def sendDirectTorMessage (c : BaseCircuit) (isReady : Bool) (msg : Bytes) (name : MessageName)
    (numHops : Nat) (sendOverCircuit : Bool) : PyExcept (List Bytes) :=
  if !isReady then
    .error .torCtlClosed
  else if c.isClosed then
    .ok []
  else if numHops = 0 then
    .error (.assertionError "cannot send a zero hop message")
  else do
    let msg ← frame name msg
    return toCells sendOverCircuit msg

def messageArrived (c : BaseCircuit) (msg : Bytes) : BaseCircuit × Option PyError :=
  let c := { c with buffer := c.buffer ++ msg }
  match Basic.readShort c.buffer with
  | .error e => (c, some e)
  | .ok (msgLen, msgData) =>
    if msgLen ≤ msgData.length then
      let c := { c with buffer := [] }
      match Basic.readByte (msgData.take msgLen) with
      | .error e => (c, some e)
      | .ok (msgType, msgData) =>
        match MessageName.ofCode msgType with
        | none =>
          (c, some (.exception ("Unknown message type for payment message:  " ++ toString msgType)))
        | some name =>
          if name ∈ c.messageHandlers then
            ({ c with dispatched := c.dispatched ++ [(name, msgData)] }, none)
          else
            ({ c with isClosed := true }, none)
    else
      (c, none)

/-- An exception ends the event of one cell; the next cell finds the circuit as it was left. -/
def messagesArrived (c : BaseCircuit) (cells : List Bytes) : BaseCircuit :=
  cells.foldl (fun c cell => (c.messageArrived cell).1) c

end BaseCircuit

/-- A message that `send_direct_tor_message` accepts: its length fits in two bytes. -/
structure Message where
  name : MessageName
  msg : Bytes
  sendOverCircuit : Bool
  fits : msg.length + 1 < 2 ^ 16

namespace Message

def framed (name : MessageName) (msg : Bytes) : Bytes :=
  packBE 2 (msg.length + 1) ++ (packBE 1 name.code ++ msg)

def cells (m : Message) : List Bytes := toCells m.sendOverCircuit (framed m.name m.msg)

def content (m : Message) : MessageName × Bytes := (m.name, m.msg)

end Message

theorem framed_length (name : MessageName) (msg : Bytes) :
    (Message.framed name msg).length = msg.length + 3 := by
  simp only [Message.framed, List.length_append, packBE_length]
  omega

theorem frame_eq (name : MessageName) {msg : Bytes} (h : msg.length + 1 < 2 ^ 16) :
    frame name msg = .ok (Message.framed name msg) := by
  have htype : Basic.writeByte name.code = .ok (packBE 1 name.code) := by
    apply Basic.structPack_eq_ok_iff.mpr
    exact ⟨⟨name.code_lt, trivial⟩, List.append_nil _⟩
  have hlen : (packBE 1 name.code ++ msg).length = msg.length + 1 := by
    rw [List.length_append, packBE_length]
    omega
  have hshort : Basic.writeShort (msg.length + 1) = .ok (packBE 2 (msg.length + 1)) := by
    apply Basic.structPack_eq_ok_iff.mpr
    exact ⟨⟨h, trivial⟩, List.append_nil _⟩
  simp only [frame, htype, hlen, hshort, PyExcept.ok_bind, PyExcept.pure_eq, Message.framed]

/-- What an open circuit sends for a message is the message's cells. -/
theorem sendDirectTorMessage_eq (m : Message) {c : BaseCircuit} (hopen : c.isClosed = false)
    {numHops : Nat} (hhops : numHops ≠ 0) :
    c.sendDirectTorMessage true m.msg m.name numHops m.sendOverCircuit = .ok m.cells := by
  simp [BaseCircuit.sendDirectTorMessage, hopen, hhops, frame_eq m.name m.fits, Message.cells]

end BitBlinder.Tor
