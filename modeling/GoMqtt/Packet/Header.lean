import GoMqtt.Binary
import GoMqtt.Packet.Type

namespace GoMqtt.Packet

open Binary

def MaxRemainingLength : Nat := 268435455

def headerLen (rl : Int) : Nat :=
  if rl ≤ 127 then 1 + 1
  else if rl ≤ 16383 then 1 + 2
  else if rl ≤ 2097151 then 1 + 3
  else 1 + 4

def typeAndFlags (t : PacketType) (flags : UInt8) : UInt8 :=
  t.toByte <<< 4 ||| (t.defaultFlags &&& 0xf) ||| flags

/-- `headerEncode` into a buffer of `dstLen` bytes, as the bytes it writes. -/
def headerEncode (dstLen : Nat) (flags : UInt8) (rl : Int) (tl : Nat) (t : PacketType) :
    Outcome (List UInt8) :=
  if dstLen < tl then .error 0 (.insufficientBuffer t tl dstLen)
  else if rl > MaxRemainingLength ∨ rl < 0 then .error 0 (.remainingLengthOutOfBound t rl)
  else if dstLen < headerLen rl then .error 0 (.insufficientBuffer t (headerLen rl) dstLen)
  else .ok (typeAndFlags t flags :: putUvarint rl.toNat)

/-- `headerDecode`: the header length, the flags and the remaining length, which is Go's
`int` of the decoded `uint64` and so may be negative. -/
def headerDecode (src : List UInt8) (t : PacketType) : Outcome (Nat × UInt8 × Int) :=
  if src.length < 2 then .error 0 (.insufficientBuffer t 2 src.length)
  else
    let decodedType := src.getD 0 0 >>> 4
    let flags := src.getD 0 0 &&& 0x0f
    if decodedType ≠ t.toByte then .error 1 (.invalidType t decodedType)
    else if t ≠ .publish ∧ flags ≠ t.defaultFlags then
      .error 1 (.invalidFlags t t.defaultFlags flags)
    else
      let (rlRaw, m) := uvarint (src.drop 1)
      let rl := wrapInt rlRaw
      let total := 1 + m
      if m ≤ 0 then .error total (.errorReadingRemainingLength t)
      else if rl > (src.drop total.toNat).length then
        .error total (.remainingLengthExceedsBuffer t rl (src.drop total.toNat).length)
      else .ok (total.toNat, flags, rl)

/-- `DetectPacket`: the total length announced by the header and the raw type nibble, or
`(0, 0)` when the header is incomplete. -/
def detectPacket (src : List UInt8) : Int × UInt8 :=
  if src.length < 2 then (0, 0)
  else
    let (rl, n) := uvarint (src.drop 1)
    if n ≤ 0 then (0, 0) else (wrapInt (1 + n + wrapInt rl), src.getD 0 0 >>> 4)

theorem typeAndFlags_type_fin (t : PacketType) (flags : Fin 16) :
    typeAndFlags t (UInt8.ofNat flags.val) >>> 4 = t.toByte := by
  cases t <;> revert flags <;> decide

theorem typeAndFlags_flags_fin (t : PacketType) (flags : Fin 16) :
    typeAndFlags t (UInt8.ofNat flags.val) &&& 0x0f = t.defaultFlags ||| UInt8.ofNat flags.val := by
  cases t <;> revert flags <;> decide

theorem typeAndFlags_type (t : PacketType) {flags : UInt8} (h : flags.toNat < 16) :
    typeAndFlags t flags >>> 4 = t.toByte := by
  simpa using typeAndFlags_type_fin t ⟨flags.toNat, h⟩

theorem typeAndFlags_flags (t : PacketType) {flags : UInt8} (h : flags.toNat < 16) :
    typeAndFlags t flags &&& 0x0f = t.defaultFlags ||| flags := by
  simpa using typeAndFlags_flags_fin t ⟨flags.toNat, h⟩

theorem headerLen_le (rl : Int) : headerLen rl ≤ 5 := by
  unfold headerLen
  split_ifs <;> omega

theorem wrapInt_of_lt {x : Int} (h0 : 0 ≤ x) (h : x < 2 ^ 63) : wrapInt x = x := by
  unfold wrapInt
  rw [Int.bmod_eq_of_le] <;> omega

theorem headerLen_eq {rl : Int} (h0 : 0 ≤ rl) (h : rl ≤ MaxRemainingLength) :
    headerLen rl = 1 + (putUvarint rl.toNat).length := by
  unfold headerLen putUvarint
  simp only [MaxRemainingLength] at h
  by_cases h1 : rl ≤ 127
  · rw [if_pos h1, putUvarint_go_of_lt (by omega)]
    rfl
  · by_cases h2 : rl ≤ 16383
    · rw [if_neg h1, if_pos h2, length_putUvarint_go rl.toNat 1 _ (by decide) (by simp; omega)
        (by simp; omega)]
    · by_cases h3 : rl ≤ 2097151
      · rw [if_neg h1, if_neg h2, if_pos h3, length_putUvarint_go rl.toNat 2 _ (by decide)
          (by simp; omega) (by simp; omega)]
      · rw [if_neg h1, if_neg h2, if_neg h3, length_putUvarint_go rl.toNat 3 _ (by decide)
          (by simp; omega) (by simp; omega)]

theorem headerEncode_ok {dstLen tl : Nat} {rl : Int} (t : PacketType) (flags : UInt8)
    (h0 : 0 ≤ rl) (h : rl ≤ MaxRemainingLength) (htl : tl ≤ dstLen) (hhl : headerLen rl ≤ dstLen) :
    headerEncode dstLen flags rl tl t = .ok (typeAndFlags t flags :: putUvarint rl.toNat) := by
  have hb : ¬ (rl > MaxRemainingLength ∨ rl < 0) := by omega
  simp only [headerEncode, Nat.not_lt.mpr htl, Nat.not_lt.mpr hhl, hb, if_false]

theorem length_headerEncoded {rl : Int} (h0 : 0 ≤ rl) (h : rl ≤ MaxRemainingLength)
    (t : PacketType) (flags : UInt8) :
    (typeAndFlags t flags :: putUvarint rl.toNat).length = headerLen rl := by
  rw [headerLen_eq h0 h, List.length_cons, Nat.add_comm]

theorem putUvarint_lt_of_le {rl : Int} (h : rl ≤ MaxRemainingLength) : rl.toNat < 2 ^ 64 := by
  simp only [MaxRemainingLength] at h
  omega

theorem length_putUvarint_pos (x : Nat) : 0 < (putUvarint x).length := by
  unfold putUvarint
  cases maxVarintLen64 with
  | zero => simp [putUvarint.go]
  | succ n =>
      by_cases hx : x < 128
      · simp [putUvarint_go_of_lt hx]
      · simp [putUvarint_go_of_ge (Nat.not_lt.mp hx)]

theorem headerDecode_headerEncoded (t : PacketType) {flags : UInt8} (hf : flags.toNat < 16)
    (hp : t ≠ .publish → flags = 0) {rl : Int} (h0 : 0 ≤ rl) (h : rl ≤ MaxRemainingLength)
    (rest : List UInt8) (hrest : rl ≤ rest.length) :
    headerDecode (typeAndFlags t flags :: (putUvarint rl.toNat ++ rest)) t =
      .ok (headerLen rl, t.defaultFlags ||| flags, rl) := by
  have hpos := length_putUvarint_pos rl.toNat
  have hd1 : (typeAndFlags t flags :: (putUvarint rl.toNat ++ rest)).drop 1 =
      putUvarint rl.toNat ++ rest := rfl
  have hu := uvarint_putUvarint (putUvarint_lt_of_le h) rest
  have hw : wrapInt (rl.toNat : Int) = rl := by
    rw [wrapInt_of_lt (by omega) (by simp only [MaxRemainingLength] at h; omega)]
    omega
  have hflags : ¬ (t ≠ .publish ∧ t.defaultFlags ||| flags ≠ t.defaultFlags) := by
    rintro ⟨ht, hne⟩
    exact hne (by rw [hp ht]; exact UInt8.or_zero)
  have hdrop : (typeAndFlags t flags :: (putUvarint rl.toNat ++ rest)).drop
      (1 + ((putUvarint rl.toNat).length : Int)).toNat = rest := by
    rw [show (1 + ((putUvarint rl.toNat).length : Int)).toNat = (putUvarint rl.toNat).length + 1
      by omega, List.drop_succ_cons, List.drop_left]
  have hlen : 2 ≤ (typeAndFlags t flags :: (putUvarint rl.toNat ++ rest)).length := by
    simp only [List.length_cons, List.length_append]
    omega
  have hm : ¬ (1 + ((putUvarint rl.toNat).length : Int)) ≤ 0 := by omega
  simp only [headerDecode, Nat.not_lt.mpr hlen, if_false, List.getD_cons_zero, hd1, hu,
    typeAndFlags_type t hf, typeAndFlags_flags t hf, ne_eq, not_true_eq_false, hflags, hw, hdrop]
  have htotal : (1 + ((putUvarint rl.toNat).length : Int)).toNat =
      1 + (putUvarint rl.toNat).length := by omega
  rw [if_neg (by omega), if_neg (by omega), headerLen_eq h0 h, htotal]

theorem detectPacket_headerEncoded (b : UInt8) {rl : Int} (h0 : 0 ≤ rl)
    (h : rl ≤ MaxRemainingLength) (rest : List UInt8) :
    detectPacket (b :: (putUvarint rl.toNat ++ rest)) = (headerLen rl + rl, b >>> 4) := by
  have hpos := length_putUvarint_pos rl.toNat
  have hd1 : (b :: (putUvarint rl.toNat ++ rest)).drop 1 = putUvarint rl.toNat ++ rest := rfl
  have hu := uvarint_putUvarint (putUvarint_lt_of_le h) rest
  have hmax : rl < 2 ^ 63 := by simp only [MaxRemainingLength] at h; omega
  have hw : wrapInt (rl.toNat : Int) = rl := by
    rw [wrapInt_of_lt (by omega) (by omega)]
    omega
  have hlen : 2 ≤ (b :: (putUvarint rl.toNat ++ rest)).length := by
    simp only [List.length_cons, List.length_append]
    omega
  have hl := headerLen_eq h0 h
  have h5 := headerLen_le rl
  simp only [detectPacket, Nat.not_lt.mpr hlen, if_false, hd1, hu, hw, List.getD_cons_zero]
  rw [if_neg (by omega), wrapInt_of_lt (by omega) (by simp only [MaxRemainingLength] at h; omega)]
  simp only [Prod.mk.injEq, and_true]
  omega

theorem detectPacket_headerPrefix (b : UInt8) (x k : Nat) (hk : k < (putUvarint x).length) :
    detectPacket (b :: (putUvarint x).take k) = (0, 0) := by
  cases k with
  | zero => simp [detectPacket]
  | succ k =>
      have hu := uvarint_take_putUvarint hk
      simp [detectPacket, hu]

theorem headerEncode_out_of_bound {rl : Int} (h : rl < 0 ∨ MaxRemainingLength < rl)
    (dstLen tl : Nat) (flags : UInt8) (t : PacketType) :
    ∃ n e, headerEncode dstLen flags rl tl t = .error n e := by
  unfold headerEncode
  split_ifs with htl hrl hhl
  · exact ⟨_, _, rfl⟩
  · exact ⟨_, _, rfl⟩
  · exact ⟨_, _, rfl⟩
  · omega

theorem header_exact (t : PacketType) {flags : UInt8} (hf : flags.toNat < 16)
    (hp : t ≠ .publish → flags = 0) :
    (∀ rl : Int, 0 ≤ rl → rl ≤ MaxRemainingLength → ∀ dstLen tl : Nat, tl ≤ dstLen →
      headerLen rl ≤ dstLen →
      ∃ hdr, headerEncode dstLen flags rl tl t = .ok hdr ∧ hdr.length = headerLen rl ∧
        ∀ rest : List UInt8, rl ≤ rest.length →
          headerDecode (hdr ++ rest) t = .ok (headerLen rl, t.defaultFlags ||| flags, rl) ∧
          detectPacket (hdr ++ rest) = (headerLen rl + rl, t.toByte)) ∧
      ∀ rl : Int, rl < 0 ∨ MaxRemainingLength < rl → ∀ dstLen tl : Nat,
        ∃ n e, headerEncode dstLen flags rl tl t = .error n e := by
  refine ⟨?_, fun rl h dstLen tl => headerEncode_out_of_bound h dstLen tl flags t⟩
  intro rl h0 h dstLen tl htl hhl
  refine ⟨_, headerEncode_ok t flags h0 h htl hhl, length_headerEncoded h0 h t flags, ?_⟩
  intro rest hrest
  rw [List.cons_append]
  refine ⟨headerDecode_headerEncoded t hf hp h0 h rest hrest, ?_⟩
  rw [detectPacket_headerEncoded _ h0 h rest, typeAndFlags_type t hf]

/-- A CONNECT header: the flags `Encode` passes are 0. -/
theorem header_exact_connect :
    (0 : UInt8).toNat < 16 ∧ (PacketType.connect ≠ .publish → (0 : UInt8) = 0) ∧
      (∀ rl : Int, 0 ≤ rl → rl ≤ MaxRemainingLength → ∀ dstLen tl : Nat, tl ≤ dstLen →
        headerLen rl ≤ dstLen →
        ∃ hdr, headerEncode dstLen 0 rl tl .connect = .ok hdr ∧ hdr.length = headerLen rl ∧
          ∀ rest : List UInt8, rl ≤ rest.length →
            headerDecode (hdr ++ rest) .connect =
              .ok (headerLen rl, PacketType.connect.defaultFlags ||| 0, rl) ∧
            detectPacket (hdr ++ rest) = (headerLen rl + rl, PacketType.connect.toByte)) ∧
      ∀ rl : Int, rl < 0 ∨ MaxRemainingLength < rl → ∀ dstLen tl : Nat,
        ∃ n e, headerEncode dstLen 0 rl tl .connect = .error n e :=
  ⟨by decide, fun _ => rfl, header_exact .connect (by decide) (fun _ => rfl)⟩

/-- A buffer that holds the header of a PUBACK but not the whole packet: `headerEncode` checks
the packet's total length first and refuses it. -/
theorem headerEncode_refuses_short_packet_buffer :
    headerLen 2 ≤ 3 ∧ headerEncode 3 0 2 4 .puback = .error 0 (.insufficientBuffer .puback 4 3) :=
  ⟨by decide, rfl⟩

end GoMqtt.Packet
