import GoMqtt.Packet.Connect
import GoMqtt.Packet.Publish
import GoMqtt.Packet.Subscribe

namespace GoMqtt.Packet

def PubackPacket.decode (src : List UInt8) : Outcome (Nat × UInt16) :=
  identifiedPacketDecode src .puback
def PubrecPacket.decode (src : List UInt8) : Outcome (Nat × UInt16) :=
  identifiedPacketDecode src .pubrec
def PubrelPacket.decode (src : List UInt8) : Outcome (Nat × UInt16) :=
  identifiedPacketDecode src .pubrel
def PubcompPacket.decode (src : List UInt8) : Outcome (Nat × UInt16) :=
  identifiedPacketDecode src .pubcomp
def UnsubackPacket.decode (src : List UInt8) : Outcome (Nat × UInt16) :=
  identifiedPacketDecode src .unsuback

def PubackPacket.encode (id : UInt16) (dstLen : Nat) : Outcome (List UInt8) :=
  identifiedPacketEncode dstLen id .puback
def PubrecPacket.encode (id : UInt16) (dstLen : Nat) : Outcome (List UInt8) :=
  identifiedPacketEncode dstLen id .pubrec
def PubrelPacket.encode (id : UInt16) (dstLen : Nat) : Outcome (List UInt8) :=
  identifiedPacketEncode dstLen id .pubrel
def PubcompPacket.encode (id : UInt16) (dstLen : Nat) : Outcome (List UInt8) :=
  identifiedPacketEncode dstLen id .pubcomp
def UnsubackPacket.encode (id : UInt16) (dstLen : Nat) : Outcome (List UInt8) :=
  identifiedPacketEncode dstLen id .unsuback

def PingreqPacket.decode (src : List UInt8) : Outcome Nat := nakedPacketDecode src .pingreq
def PingrespPacket.decode (src : List UInt8) : Outcome Nat := nakedPacketDecode src .pingresp
def DisconnectPacket.decode (src : List UInt8) : Outcome Nat := nakedPacketDecode src .disconnect

def PingreqPacket.encode (dstLen : Nat) : Outcome (List UInt8) := nakedPacketEncode dstLen .pingreq
def PingrespPacket.encode (dstLen : Nat) : Outcome (List UInt8) :=
  nakedPacketEncode dstLen .pingresp
def DisconnectPacket.encode (dstLen : Nat) : Outcome (List UInt8) :=
  nakedPacketEncode dstLen .disconnect

inductive GenericPacket
  | connect (p : ConnectPacket)
  | connack (p : ConnackPacket)
  | publish (p : PublishPacket)
  | puback (id : UInt16)
  | pubrec (id : UInt16)
  | pubrel (id : UInt16)
  | pubcomp (id : UInt16)
  | subscribe (p : SubscribePacket)
  | suback (p : SubackPacket)
  | unsubscribe (p : UnsubscribePacket)
  | unsuback (id : UInt16)
  | pingreq
  | pingresp
  | disconnect
  deriving DecidableEq, Repr

namespace GenericPacket

def type : GenericPacket → PacketType
  | connect _ => .connect
  | connack _ => .connack
  | publish _ => .publish
  | puback _ => .puback
  | pubrec _ => .pubrec
  | pubrel _ => .pubrel
  | pubcomp _ => .pubcomp
  | subscribe _ => .subscribe
  | suback _ => .suback
  | unsubscribe _ => .unsubscribe
  | unsuback _ => .unsuback
  | pingreq => .pingreq
  | pingresp => .pingresp
  | disconnect => .disconnect

def Len : GenericPacket → Nat
  | connect p => p.Len
  | connack p => p.Len
  | publish p => p.Len
  | puback _ | pubrec _ | pubrel _ | pubcomp _ | unsuback _ => identifiedPacketLen
  | subscribe p => p.Len
  | suback p => p.Len
  | unsubscribe p => p.Len
  | pingreq | pingresp | disconnect => nakedPacketLen

def decode : GenericPacket → List UInt8 → Outcome (Nat × GenericPacket)
  | connect p, src => (p.decode src).map fun (n, q) => (n, connect q)
  | connack p, src => (p.decode src).map fun (n, q) => (n, connack q)
  | publish p, src => (p.decode src).map fun (n, q) => (n, publish q)
  | puback _, src => (PubackPacket.decode src).map fun (n, id) => (n, puback id)
  | pubrec _, src => (PubrecPacket.decode src).map fun (n, id) => (n, pubrec id)
  | pubrel _, src => (PubrelPacket.decode src).map fun (n, id) => (n, pubrel id)
  | pubcomp _, src => (PubcompPacket.decode src).map fun (n, id) => (n, pubcomp id)
  | subscribe p, src => (p.decode src).map fun (n, q) => (n, subscribe q)
  | suback p, src => (p.decode src).map fun (n, q) => (n, suback q)
  | unsubscribe p, src => (p.decode src).map fun (n, q) => (n, unsubscribe q)
  | unsuback _, src => (UnsubackPacket.decode src).map fun (n, id) => (n, unsuback id)
  | pingreq, src => (PingreqPacket.decode src).map fun n => (n, pingreq)
  | pingresp, src => (PingrespPacket.decode src).map fun n => (n, pingresp)
  | disconnect, src => (DisconnectPacket.decode src).map fun n => (n, disconnect)

def encode : GenericPacket → Nat → Outcome (List UInt8 × GenericPacket)
  | connect p, dstLen => (p.encode dstLen).map fun (out, q) => (out, connect q)
  | connack p, dstLen => (p.encode dstLen).map fun out => (out, connack p)
  | publish p, dstLen => (p.encode dstLen).map fun out => (out, publish p)
  | puback id, dstLen => (PubackPacket.encode id dstLen).map fun out => (out, puback id)
  | pubrec id, dstLen => (PubrecPacket.encode id dstLen).map fun out => (out, pubrec id)
  | pubrel id, dstLen => (PubrelPacket.encode id dstLen).map fun out => (out, pubrel id)
  | pubcomp id, dstLen => (PubcompPacket.encode id dstLen).map fun out => (out, pubcomp id)
  | subscribe p, dstLen => (p.encode dstLen).map fun out => (out, subscribe p)
  | suback p, dstLen => (p.encode dstLen).map fun out => (out, suback p)
  | unsubscribe p, dstLen => (p.encode dstLen).map fun out => (out, unsubscribe p)
  | unsuback id, dstLen => (UnsubackPacket.encode id dstLen).map fun out => (out, unsuback id)
  | pingreq, dstLen => (PingreqPacket.encode dstLen).map fun out => (out, pingreq)
  | pingresp, dstLen => (PingrespPacket.encode dstLen).map fun out => (out, pingresp)
  | disconnect, dstLen => (DisconnectPacket.encode dstLen).map fun out => (out, disconnect)

def getID : GenericPacket → Option UInt16
  | publish p => some p.id
  | puback id | pubrec id | pubrel id | pubcomp id | unsuback id => some id
  | subscribe p => some p.id
  | suback p => some p.id
  | unsubscribe p => some p.id
  | _ => none

end GenericPacket

/-- `Type.New` on the raw type byte. -/
def newPacket (t : UInt8) : Outcome GenericPacket :=
  match PacketType.ofByte t with
  | some .connect => .ok (.connect newConnectPacket)
  | some .connack => .ok (.connack newConnackPacket)
  | some .publish => .ok (.publish newPublishPacket)
  | some .puback => .ok (.puback 0)
  | some .pubrec => .ok (.pubrec 0)
  | some .pubrel => .ok (.pubrel 0)
  | some .pubcomp => .ok (.pubcomp 0)
  | some .subscribe => .ok (.subscribe newSubscribePacket)
  | some .suback => .ok (.suback newSubackPacket)
  | some .unsubscribe => .ok (.unsubscribe newUnsubscribePacket)
  | some .unsuback => .ok (.unsuback 0)
  | some .pingreq => .ok .pingreq
  | some .pingresp => .ok .pingresp
  | some .disconnect => .ok .disconnect
  | none => .error 0 (.invalidPacketType t)

/-- `Fuzz`: `1` for an empty input or a successful decode, `0` on an error; a panic of the
decoder is a panic of `Fuzz`. -/
def fuzz (data : List UInt8) : Outcome Nat :=
  if data.length = 0 then .ok 1
  else
    match newPacket (detectPacket data).2 with
    | .ok pkt =>
        match pkt.decode data with
        | .ok _ => .ok 1
        | .error _ _ => .ok 0
        | .panic => .panic
    | _ => .ok 0

/-- A PUBLISH header whose ten-byte remaining length is `2^63`: Go's `int` makes it negative,
it passes the buffer check, and `l = rl - (total - hl)` wraps to a huge positive length. -/
theorem fuzz_panics_on_wrapped_remaining_length :
    fuzz [0x30, 0x80, 0x80, 0x80, 0x80, 0x80, 0x80, 0x80, 0x80, 0x80, 0x01, 0x00, 0x00] = .panic := by
  decide

/-- Packets one side accepts and the other refuses. A fresh `Decode` accepts a CONNECT with a
password under an empty username, a CONNECT whose will topic is empty and a PUBLISH with an
empty topic, and `Encode` refuses each packet it produced. `Encode` writes a SUBSCRIBE, a
SUBACK and an UNSUBSCRIBE with an empty list, and a fresh `Decode` refuses each of them. -/
theorem decode_and_encode_accept_different_packets :
    (GenericPacket.connect newConnectPacket).decode
        [16, 17, 0, 4, 77, 81, 84, 84, 4, 0xC2, 0, 0, 0, 0, 0, 0, 0, 1, 120] =
      .ok (19, .connect { newConnectPacket with password := [120] }) ∧
    (GenericPacket.connect { newConnectPacket with password := [120] }).encode
        (GenericPacket.connect { newConnectPacket with password := [120] }).Len =
      .error 14 .passwordWithoutUsername ∧
    (GenericPacket.connect newConnectPacket).decode
        [16, 16, 0, 4, 77, 81, 84, 84, 4, 6, 0, 0, 0, 0, 0, 0, 0, 0] =
      .ok (18, .connect { newConnectPacket with will := some ⟨[], [], 0, false⟩ }) ∧
    (GenericPacket.connect { newConnectPacket with will := some ⟨[], [], 0, false⟩ }).encode
        (GenericPacket.connect { newConnectPacket with will := some ⟨[], [], 0, false⟩ }).Len =
      .error 9 .willTopicEmpty ∧
    (GenericPacket.publish newPublishPacket).decode [48, 2, 0, 0] =
      .ok (4, .publish newPublishPacket) ∧
    (GenericPacket.publish newPublishPacket).encode (GenericPacket.publish newPublishPacket).Len =
      .error 0 .topicEmpty ∧
    (GenericPacket.subscribe ⟨[], 1⟩).encode (GenericPacket.subscribe ⟨[], 1⟩).Len =
      .ok ([130, 2, 0, 1], .subscribe ⟨[], 1⟩) ∧
    (GenericPacket.subscribe newSubscribePacket).decode [130, 2, 0, 1] =
      .error 4 .emptySubscriptionList ∧
    (GenericPacket.suback ⟨[], 1⟩).encode (GenericPacket.suback ⟨[], 1⟩).Len =
      .ok ([144, 2, 0, 1], .suback ⟨[], 1⟩) ∧
    (GenericPacket.suback newSubackPacket).decode [144, 2, 0, 1] =
      .error 2 (.remainingLengthNotAbove2 2) ∧
    (GenericPacket.unsubscribe ⟨[], 1⟩).encode (GenericPacket.unsubscribe ⟨[], 1⟩).Len =
      .ok ([162, 2, 0, 1], .unsubscribe ⟨[], 1⟩) ∧
    (GenericPacket.unsubscribe newUnsubscribePacket).decode [162, 2, 0, 1] =
      .error 4 .emptyTopicList := by
  decide +kernel

end GoMqtt.Packet
