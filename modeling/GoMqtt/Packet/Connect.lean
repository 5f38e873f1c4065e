import GoMqtt.Packet.Strings
import GoMqtt.Packet.Naked

namespace GoMqtt.Packet

open Binary

def Version311 : UInt8 := 4
def Version31 : UInt8 := 3

def version311Name : List UInt8 := [77, 81, 84, 84]
def version31Name : List UInt8 := [77, 81, 73, 115, 100, 112]

structure ConnectPacket where
  clientID : List UInt8
  keepAlive : UInt16
  username : List UInt8
  password : List UInt8
  cleanSession : Bool
  will : Option Message
  version : UInt8
  deriving DecidableEq, Repr

def newConnectPacket : ConnectPacket :=
  { clientID := [], keepAlive := 0, username := [], password := [], cleanSession := true,
    will := none, version := 4 }

namespace ConnectPacket

def len (cp : ConnectPacket) : Nat :=
  (if cp.version = Version31 then 2 + 6 + 1 else 2 + 4 + 1) + (1 + 2) + (2 + cp.clientID.length) +
    (match cp.will with
      | some w => 2 + w.topic.length + 2 + w.payload.length
      | none => 0) +
    (if cp.username.length > 0 then 2 + cp.username.length else 0) +
    (if cp.password.length > 0 then 2 + cp.password.length else 0)

def Len (cp : ConnectPacket) : Nat := headerLen cp.len + cp.len

/-- `Decode`. Fields are only assigned where the source assigns them: a will, username or
password of the receiver survives when its flag is absent, and a surviving will is read. -/
def decode (cp : ConnectPacket) (src : List UInt8) : Outcome (Nat × ConnectPacket) := do
  let mut cp := cp
  let (hl, _, _) ← headerDecode src .connect
  let mut total := hl
  let (protoName, n) ← (readLPBytes (src.drop total) .connect).offset total
  total := total + n
  if src.length < total + 1 then
    .error total (.insufficientBuffer .connect (total + 1) src.length)
  let versionByte := src.getD total 0
  total := total + 1
  if versionByte ≠ Version311 ∧ versionByte ≠ Version31 then
    .error total (.invalidProtocolVersion versionByte)
  cp := { cp with version := versionByte }
  if protoName ≠ version311Name ∧ protoName ≠ version31Name then
    .error total (.invalidProtocolName protoName)
  if src.length < total + 1 then
    .error total (.insufficientBuffer .connect (total + 1) src.length)
  let connectFlags := src.getD total 0
  total := total + 1
  let usernameFlag := (connectFlags >>> 7) &&& 0x1 = 1
  let passwordFlag := (connectFlags >>> 6) &&& 0x1 = 1
  let willFlag := (connectFlags >>> 2) &&& 0x1 = 1
  let willRetain := (connectFlags >>> 5) &&& 0x1 = 1
  let willQOS := (connectFlags >>> 3) &&& 0x3
  cp := { cp with cleanSession := (connectFlags >>> 1) &&& 0x1 = 1 }
  if connectFlags &&& 0x1 ≠ 0 then
    .error total .reservedBitSet
  if !validQOS willQOS then
    .error total (.invalidWillQOS willQOS)
  if ¬ willFlag ∧ (willRetain ∨ willQOS ≠ 0) then
    .error total (.willFlagsWithoutWill willRetain willQOS)
  if willFlag then
    cp := { cp with will := some { topic := [], payload := [], qos := willQOS, retain := willRetain } }
  if ¬ usernameFlag ∧ passwordFlag then
    .error total .passwordFlagWithoutUsername
  if src.length < total + 2 then
    .error total (.insufficientBuffer .connect (total + 2) src.length)
  cp := { cp with keepAlive := uint16 (src.getD total 0) (src.getD (total + 1) 0) }
  total := total + 2
  let (clientID, n) ← (readLPString (src.drop total) .connect).offset total
  cp := { cp with clientID := clientID }
  total := total + n
  if clientID.length = 0 ∧ ¬ cp.cleanSession then
    .error total .cleanSessionRequired
  if let some w := cp.will then
    let (topic, n) ← (readLPString (src.drop total) .connect).offset total
    total := total + n
    let (payload, n) ← (readLPBytes (src.drop total) .connect).offset total
    total := total + n
    cp := { cp with will := some { w with topic := topic, payload := payload } }
  if usernameFlag then
    let (username, n) ← (readLPString (src.drop total) .connect).offset total
    cp := { cp with username := username }
    total := total + n
  if passwordFlag then
    let (password, n) ← (readLPString (src.drop total) .connect).offset total
    cp := { cp with password := password }
    total := total + n
  return (total, cp)

/-- A frame declaring one byte more than its fields use: `DetectPacket` reports 15 bytes,
`Decode` accepts after 14. -/
theorem decode_ignores_remaining_length :
    detectPacket [16, 13, 0, 4, 77, 81, 84, 84, 4, 2, 0, 0, 0, 0, 0] = (15, 1) ∧
    newConnectPacket.decode [16, 13, 0, 4, 77, 81, 84, 84, 4, 2, 0, 0, 0, 0, 0] =
      .ok (14, newConnectPacket) := by
  constructor <;> decide

/-- A CONNECT without a username decoded into a fresh packet and into one whose username is
`x`: both succeed with 14 bytes, and the second keeps its stale username. -/
theorem decode_keeps_stale_username :
    newConnectPacket.decode [16, 12, 0, 4, 77, 81, 84, 84, 4, 2, 0, 0, 0, 0] =
      .ok (14, newConnectPacket) ∧
    ({ newConnectPacket with username := [120] } : ConnectPacket).decode
        [16, 12, 0, 4, 77, 81, 84, 84, 4, 2, 0, 0, 0, 0] =
      .ok (14, { newConnectPacket with username := [120] }) := by
  constructor <;> decide

/-- `Encode` into a buffer of `dstLen` bytes: the bytes written and the receiver, whose
version `0` is replaced by `Version311`. -/
def encode (cp : ConnectPacket) (dstLen : Nat) : Outcome (List UInt8 × ConnectPacket) := do
  let mut cp := cp
  let hdr ← headerEncode dstLen 0 cp.len cp.Len .connect
  let mut out := hdr
  if cp.version = 0 then
    cp := { cp with version := Version311 }
  if cp.version ≠ Version311 ∧ cp.version ≠ Version31 then
    .error out.length (.unsupportedProtocolVersion cp.version)
  -- the length of the version name has been checked beforehand, its error is ignored
  if cp.version = Version311 then
    out := out ++ (match writeLPBytes (dstLen - out.length) version311Name .connect with
      | .ok b => b
      | _ => [])
  else if cp.version = Version31 then
    out := out ++ (match writeLPBytes (dstLen - out.length) version31Name .connect with
      | .ok b => b
      | _ => [])
  out := out ++ [cp.version]
  let mut connectFlags : UInt8 := 0
  if cp.username.length > 0 then
    connectFlags := connectFlags ||| 128
  else
    connectFlags := connectFlags &&& 127
  if cp.password.length > 0 then
    connectFlags := connectFlags ||| 64
  else
    connectFlags := connectFlags &&& 191
  match cp.will with
  | some w =>
    connectFlags := connectFlags ||| 0x4
    if w.topic.length = 0 then
      .error out.length .willTopicEmpty
    if !validQOS w.qos then
      .error out.length (.invalidWillQOSLevel w.qos)
    connectFlags := (connectFlags &&& (231 : UInt8)) ||| (w.qos <<< (3 : UInt8))
    if w.retain then
      connectFlags := connectFlags ||| 32
    else
      connectFlags := connectFlags &&& 223
  | none =>
    connectFlags := connectFlags &&& 251
  if cp.clientID.length = 0 ∧ ¬ cp.cleanSession then
    .error out.length .cleanSessionRequired
  if cp.cleanSession then
    connectFlags := connectFlags ||| 0x2
  else
    connectFlags := connectFlags &&& 253
  out := out ++ [connectFlags] ++ putUint16 cp.keepAlive
  out := out ++ (← (writeLPString (dstLen - out.length) cp.clientID .connect).offset out.length)
  if let some w := cp.will then
    out := out ++ (← (writeLPString (dstLen - out.length) w.topic .connect).offset out.length)
    out := out ++ (← (writeLPBytes (dstLen - out.length) w.payload .connect).offset out.length)
  if cp.username.length = 0 ∧ cp.password.length > 0 then
    .error out.length .passwordWithoutUsername
  if cp.username.length > 0 then
    out := out ++ (← (writeLPString (dstLen - out.length) cp.username .connect).offset out.length)
  if cp.password.length > 0 then
    out := out ++ (← (writeLPString (dstLen - out.length) cp.password .connect).offset out.length)
  return (out, cp)

end ConnectPacket

structure ConnackPacket where
  sessionPresent : Bool
  returnCode : UInt8
  deriving DecidableEq, Repr

def newConnackPacket : ConnackPacket := { sessionPresent := false, returnCode := 0 }

namespace ConnackPacket

def Len (_ : ConnackPacket) : Nat := headerLen 2 + 2

/-- `Decode`; the two flag and code errors report `0`, as the source returns them. -/
def decode (cp : ConnackPacket) (src : List UInt8) : Outcome (Nat × ConnackPacket) := do
  let (hl, _, rl) ← headerDecode src .connack
  let total := hl
  if rl ≠ 2 then
    .error total (.expectedRemainingLength2 .connack)
  let connackFlags := src.getD total 0
  let cp := { cp with sessionPresent := connackFlags &&& 0x1 = 1 }
  let total := total + 1
  if connackFlags &&& 254 ≠ 0 then
    .error 0 .acknowledgeFlagsSet
  let cp := { cp with returnCode := src.getD total 0 }
  let total := total + 1
  if !connackCodeValid cp.returnCode then
    .error 0 (.invalidReturnCode cp.returnCode)
  return (total, cp)

def encode (cp : ConnackPacket) (dstLen : Nat) : Outcome (List UInt8) := do
  let hdr ← headerEncode dstLen 0 2 cp.Len .connack
  let out := hdr ++ [if cp.sessionPresent then 1 else 0]
  if !connackCodeValid cp.returnCode then
    .error out.length (.invalidReturnCode cp.returnCode)
  return out ++ [cp.returnCode]

end ConnackPacket

end GoMqtt.Packet
