import GoMqtt.Packet.Header

namespace GoMqtt.Packet

open Binary

def nakedPacketLen : Nat := headerLen 0

/-- On a header error `headerDecode` returns `rl = 0`, so its error is passed through. -/
def nakedPacketDecode (src : List UInt8) (t : PacketType) : Outcome Nat :=
  match headerDecode src t with
  | .ok (hl, _, rl) => if rl ≠ 0 then .error hl (.expectedZeroRemainingLength t) else .ok hl
  | .error n e => .error n e
  | .panic => .panic

def nakedPacketEncode (dstLen : Nat) (t : PacketType) : Outcome (List UInt8) :=
  headerEncode dstLen 0 0 nakedPacketLen t

def identifiedPacketLen : Nat := headerLen 2 + 2

def identifiedPacketDecode (src : List UInt8) (t : PacketType) : Outcome (Nat × UInt16) :=
  match headerDecode src t with
  | .error n e => .error n e
  | .panic => .panic
  | .ok (hl, _, rl) =>
      if rl ≠ 2 then .error hl (.expectedRemainingLength2 t)
      else
        let packetID := uint16 (src.getD hl 0) (src.getD (hl + 1) 0)
        if packetID = 0 then .error (hl + 2 : Nat) (.zeroPacketID t) else .ok (hl + 2, packetID)

def identifiedPacketEncode (dstLen : Nat) (id : UInt16) (t : PacketType) : Outcome (List UInt8) :=
  if id = 0 then .error 0 (.zeroPacketID t)
  else
    match headerEncode dstLen 0 2 identifiedPacketLen t with
    | .ok hdr => .ok (hdr ++ putUint16 id)
    | .error n e => .error n e
    | .panic => .panic

theorem nakedPacketEncode_ok {dstLen : Nat} (t : PacketType) (h : nakedPacketLen ≤ dstLen) :
    nakedPacketEncode dstLen t = .ok [typeAndFlags t 0, 0] :=
  headerEncode_ok t 0 (le_refl 0) (by simp [MaxRemainingLength]) h h

theorem nakedPacketDecode_encoded (t : PacketType) (rest : List UInt8) :
    nakedPacketDecode (typeAndFlags t 0 :: ([0] ++ rest)) t = .ok nakedPacketLen := by
  have h := @headerDecode_headerEncoded t 0 (by decide) (fun _ => rfl) 0
    (le_refl 0) (by simp [MaxRemainingLength]) rest (by simp)
  simp only [nakedPacketDecode, show putUvarint (0 : Int).toNat = [0] from rfl] at h ⊢
  rw [h]
  rfl

theorem identifiedPacketEncode_ok {dstLen : Nat} {id : UInt16} (t : PacketType) (hid : id ≠ 0)
    (h : identifiedPacketLen ≤ dstLen) :
    identifiedPacketEncode dstLen id t = .ok ([typeAndFlags t 0, 2] ++ putUint16 id) := by
  have hh := @headerEncode_ok _ _ 2 t 0 (by omega) (by simp [MaxRemainingLength]) h
    (le_trans (by decide) h)
  simp only [identifiedPacketEncode, hid, if_false, hh]
  rfl

theorem identifiedPacketEncode_eq_ok {id : UInt16} {t : PacketType} {out : List UInt8}
    (h : identifiedPacketEncode identifiedPacketLen id t = .ok out) :
    id ≠ 0 ∧ out = [typeAndFlags t 0, 2] ++ putUint16 id := by
  by_cases hid : id = 0
  · simp [identifiedPacketEncode, hid] at h
  · rw [identifiedPacketEncode_ok t hid le_rfl, Outcome.ok.injEq] at h
    exact ⟨hid, h.symm⟩

theorem identifiedPacketDecode_encoded (t : PacketType) {id : UInt16} (hid : id ≠ 0)
    (rest : List UInt8) :
    identifiedPacketDecode (typeAndFlags t 0 :: ([2] ++ (putUint16 id ++ rest))) t =
      .ok (identifiedPacketLen, id) := by
  have h := @headerDecode_headerEncoded t 0 (by decide) (fun _ => rfl) 2
    (by omega) (by simp [MaxRemainingLength]) (putUint16 id ++ rest) (by simp)
  simp only [show putUvarint (2 : Int).toNat = [2] from rfl] at h
  simp only [identifiedPacketDecode, h, ne_eq, not_true_eq_false, if_false]
  simp [putUint16, show headerLen 2 = 2 from rfl, hid, identifiedPacketLen]

end GoMqtt.Packet
