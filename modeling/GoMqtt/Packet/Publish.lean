import GoMqtt.Packet.Strings
import GoMqtt.Packet.Header

namespace GoMqtt.Packet

open Binary

structure PublishPacket where
  message : Message
  dup : Bool
  id : UInt16
  deriving DecidableEq, Repr

def newPublishPacket : PublishPacket :=
  { message := { topic := [], payload := [], qos := 0, retain := false }, dup := false, id := 0 }

namespace PublishPacket

def len (pp : PublishPacket) : Nat :=
  2 + pp.message.topic.length + pp.message.payload.length + (if pp.message.qos ≠ 0 then 2 else 0)

def Len (pp : PublishPacket) : Nat := headerLen pp.len + pp.len

/-- `Decode`. The payload length `l = int(rl) - (total - hl)` is Go `int` arithmetic; a
positive `l` reaching past the buffer makes `make([]byte, l)` or the slice `src[total:total+l]`
panic. -/
def decode (pp : PublishPacket) (src : List UInt8) : Outcome (Nat × PublishPacket) := do
  let mut pp := pp
  let (hl, flags, rl) ← headerDecode src .publish
  let mut total := hl
  pp := { pp with
    dup := (flags >>> 3) &&& 0x1 = 1
    message := { pp.message with retain := flags &&& 0x1 = 1, qos := (flags >>> 1) &&& 0x3 } }
  if !validQOS pp.message.qos then
    .error total (.invalidQOS pp.message.qos)
  if src.length < total + 2 then
    .error total (.insufficientBuffer .publish (total + 2) src.length)
  let (topic, n) ← (readLPString (src.drop total) .publish).offset total
  pp := { pp with message := { pp.message with topic := topic } }
  total := total + n
  if pp.message.qos ≠ 0 then
    if src.length < total + 2 then
      .error total (.insufficientBuffer .publish (total + 2) src.length)
    pp := { pp with id := uint16 (src.getD total 0) (src.getD (total + 1) 0) }
    total := total + 2
    if pp.id = 0 then
      .error total (.zeroPacketID .publish)
  let l := wrapInt (rl - ((total : Int) - hl))
  if l > 0 then
    if total + l > src.length then
      .panic
    pp := { pp with message := { pp.message with payload := (src.drop total).take l.toNat } }
    total := total + l.toNat
  return (total, pp)

def flagsOf (pp : PublishPacket) : UInt8 := Id.run do
  let mut flags : UInt8 := 0
  if pp.dup then
    flags := flags ||| 0x8
  else
    flags := flags &&& 247
  if pp.message.retain then
    flags := flags ||| 0x1
  else
    flags := flags &&& 254
  return (flags &&& 249) ||| (pp.message.qos <<< (1 : UInt8))

/-- `Encode`; the flag byte is computed by `flagsOf`, between the checks as in the source. -/
def encode (pp : PublishPacket) (dstLen : Nat) : Outcome (List UInt8) := do
  if pp.message.topic.length = 0 then
    .error 0 .topicEmpty
  if !validQOS pp.message.qos then
    .error 0 (.invalidQOSLevel pp.message.qos)
  if pp.message.qos > 0 ∧ pp.id = 0 then
    .error 0 (.zeroPacketID .publish)
  let hdr ← headerEncode dstLen pp.flagsOf pp.len pp.Len .publish
  let mut out := hdr
  out := out ++ (← (writeLPString (dstLen - out.length) pp.message.topic .publish).offset out.length)
  if pp.message.qos ≠ 0 then
    out := out ++ putUint16 pp.id
  return out ++ pp.message.payload

end PublishPacket

end GoMqtt.Packet
