import GoMqtt.Packet.Strings
import GoMqtt.Packet.Header

namespace GoMqtt.Packet

open Binary

structure Subscription where
  topic : List UInt8
  qos : UInt8
  deriving DecidableEq, Repr

structure SubscribePacket where
  subscriptions : List Subscription
  id : UInt16
  deriving DecidableEq, Repr

def newSubscribePacket : SubscribePacket := { subscriptions := [], id := 0 }

namespace SubscribePacket

def len (sp : SubscribePacket) : Nat :=
  2 + (sp.subscriptions.map (fun s => 2 + s.topic.length + 1)).sum

def Len (sp : SubscribePacket) : Nat := headerLen sp.len + sp.len

/-- The loop `for sl > 0` of `Decode`: a topic, its QOS byte, and `sl = sl - n - 1`. -/
def decodeSubscriptions (src : List UInt8) (sl : Int) (total : Nat) (subs : List Subscription) :
    Outcome (Nat × List Subscription) :=
  if sl > 0 then
    match h : (readLPString (src.drop total) .subscribe).offset total with
    | .ok (topic, n) =>
        if src.length < total + n + 1 then
          .error (total + n : Nat) (.insufficientBuffer .subscribe (total + n + 1) src.length)
        else
          decodeSubscriptions src (sl - n - 1) (total + n + 1)
            (subs ++ [⟨topic, src.getD (total + n) 0⟩])
    | .error m e => .error m e
    | .panic => .panic
  else .ok (total, subs)
termination_by src.length - total
decreasing_by
  have h' := (readLPBytes_ok (Outcome.offset_eq_ok.mp h)).1
  omega

def decode (sp : SubscribePacket) (src : List UInt8) : Outcome (Nat × SubscribePacket) := do
  let (hl, _, rl) ← headerDecode src .subscribe
  let total := hl
  if src.length < total + 2 then
    .error total (.insufficientBuffer .subscribe (total + 2) src.length)
  let sp := { sp with id := uint16 (src.getD total 0) (src.getD (total + 1) 0) }
  let total := total + 2
  if sp.id = (0 : UInt16) then
    .error total (.zeroPacketID .subscribe)
  let (total, subs) ← decodeSubscriptions src (wrapInt (rl - 2)) total []
  if subs.length = 0 then
    .error total .emptySubscriptionList
  return (total, { sp with subscriptions := subs })

def encodeSubscriptions (dstLen : Nat) (out : List UInt8) :
    List Subscription → Outcome (List UInt8)
  | [] => .ok out
  | s :: subs => do
      let b ← (writeLPString (dstLen - out.length) s.topic .subscribe).offset out.length
      encodeSubscriptions dstLen (out ++ b ++ [s.qos]) subs

def encode (sp : SubscribePacket) (dstLen : Nat) : Outcome (List UInt8) := do
  if sp.id = 0 then
    .error 0 (.zeroPacketID .subscribe)
  let hdr ← headerEncode dstLen 0 sp.len sp.Len .subscribe
  encodeSubscriptions dstLen (hdr ++ putUint16 sp.id) sp.subscriptions

end SubscribePacket

structure SubackPacket where
  returnCodes : List UInt8
  id : UInt16
  deriving DecidableEq, Repr

def newSubackPacket : SubackPacket := { returnCodes := [], id := 0 }

namespace SubackPacket

def len (sp : SubackPacket) : Nat := 2 + sp.returnCodes.length

def Len (sp : SubackPacket) : Nat := headerLen sp.len + sp.len

/-- The first return code that is neither a QOS level nor `QOSFailure`, with its index. -/
def invalidCode : List UInt8 → Nat → Option (UInt8 × Nat)
  | [], _ => none
  | c :: cs, i => if !validQOS c ∧ c ≠ QOSFailure then some (c, i) else invalidCode cs (i + 1)

def decode (sp : SubackPacket) (src : List UInt8) : Outcome (Nat × SubackPacket) := do
  let (hl, _, rl) ← headerDecode src .suback
  let total := hl
  if src.length < total + 2 then
    .error total (.insufficientBuffer .suback (total + 2) src.length)
  if rl ≤ 2 then
    .error total (.remainingLengthNotAbove2 rl)
  let sp := { sp with id := uint16 (src.getD total 0) (src.getD (total + 1) 0) }
  let total := total + 2
  if sp.id = (0 : UInt16) then
    .error total (.zeroPacketID .suback)
  let rcl := wrapInt (rl - 2)
  let sp := { sp with returnCodes := (src.drop total).take rcl.toNat }
  let total := total + sp.returnCodes.length
  if let some (code, i) := invalidCode sp.returnCodes 0 then
    .error total (.invalidSubackCode code i)
  return (total, sp)

def encode (sp : SubackPacket) (dstLen : Nat) : Outcome (List UInt8) := do
  if let some (code, i) := invalidCode sp.returnCodes 0 then
    .error 0 (.invalidSubackCode code i)
  if sp.id = 0 then
    .error 0 (.zeroPacketID .suback)
  let hdr ← headerEncode dstLen 0 sp.len sp.Len .suback
  return hdr ++ putUint16 sp.id ++ sp.returnCodes

end SubackPacket

structure UnsubscribePacket where
  topics : List (List UInt8)
  id : UInt16
  deriving DecidableEq, Repr

def newUnsubscribePacket : UnsubscribePacket := { topics := [], id := 0 }

namespace UnsubscribePacket

def len (up : UnsubscribePacket) : Nat := 2 + (up.topics.map (fun t => 2 + t.length)).sum

def Len (up : UnsubscribePacket) : Nat := headerLen up.len + up.len

/-- The loop `for tl > 0` of `Decode`: a topic, then `tl = tl - n - 1`, one more than the
topic took, as in the subscribe loop that also reads a QOS byte. -/
def decodeTopics (src : List UInt8) (tl : Int) (total : Nat) (topics : List (List UInt8)) :
    Outcome (Nat × List (List UInt8)) :=
  if tl > 0 then
    match h : (readLPString (src.drop total) .unsubscribe).offset total with
    | .ok (topic, n) => decodeTopics src (tl - n - 1) (total + n) (topics ++ [topic])
    | .error m e => .error m e
    | .panic => .panic
  else .ok (total, topics)
termination_by src.length - total
decreasing_by
  have h' := readLPBytes_ok (Outcome.offset_eq_ok.mp h)
  have hl := congrArg List.length h'.2.2
  simp only [List.length_append, length_lpBytes, List.length_drop] at hl
  omega

def decode (up : UnsubscribePacket) (src : List UInt8) : Outcome (Nat × UnsubscribePacket) := do
  let (hl, _, rl) ← headerDecode src .unsubscribe
  let total := hl
  if src.length < total + 2 then
    .error total (.insufficientBuffer .unsubscribe (total + 2) src.length)
  let up := { up with id := uint16 (src.getD total 0) (src.getD (total + 1) 0) }
  let total := total + 2
  if up.id = (0 : UInt16) then
    .error total (.zeroPacketID .unsubscribe)
  let (total, topics) ← decodeTopics src (wrapInt (rl - 2)) total []
  if topics.length = 0 then
    .error total .emptyTopicList
  return (total, { up with topics := topics })

def encodeTopics (dstLen : Nat) (out : List UInt8) : List (List UInt8) → Outcome (List UInt8)
  | [] => .ok out
  | t :: ts => do
      let b ← (writeLPString (dstLen - out.length) t .unsubscribe).offset out.length
      encodeTopics dstLen (out ++ b) ts

def encode (up : UnsubscribePacket) (dstLen : Nat) : Outcome (List UInt8) := do
  if up.id = 0 then
    .error 0 (.zeroPacketID .unsubscribe)
  let hdr ← headerEncode dstLen 0 up.len up.Len .unsubscribe
  encodeTopics dstLen (hdr ++ putUint16 up.id) up.topics

end UnsubscribePacket

end GoMqtt.Packet
