import GoMqtt.Binary
import GoMqtt.Packet.Type

namespace GoMqtt.Packet

open Binary

def maxLPLength : Nat := 65535

/-- `readLPBytes`: a big-endian length and that many bytes. The `safe` flag only chooses
between a copy and a sub-slice, which a value model does not distinguish. -/
def readLPBytes (buf : List UInt8) (t : PacketType) : Outcome (List UInt8 × Nat) :=
  if buf.length < 2 then .error 0 (.insufficientBuffer t 2 buf.length)
  else
    let n := (uint16 (buf.getD 0 0) (buf.getD 1 0)).toNat
    let total := 2 + n
    if buf.length < total then .error total (.insufficientBuffer t total buf.length)
    else .ok ((buf.drop 2).take n, total)

def readLPString (buf : List UInt8) (t : PacketType) : Outcome (List UInt8 × Nat) :=
  readLPBytes buf t

def lpBytes (b : List UInt8) : List UInt8 := putUint16 (UInt16.ofNat b.length) ++ b

def writeLPBytes (bufLen : Nat) (b : List UInt8) (t : PacketType) : Outcome (List UInt8) :=
  if b.length > maxLPLength then .error 0 (.lengthTooLarge t b.length)
  else if bufLen < 2 + b.length then .error 0 (.insufficientBuffer t (2 + b.length) bufLen)
  else .ok (lpBytes b)

def writeLPString (bufLen : Nat) (str : List UInt8) (t : PacketType) : Outcome (List UInt8) :=
  writeLPBytes bufLen str t

@[simp]
theorem length_lpBytes (b : List UInt8) : (lpBytes b).length = 2 + b.length := by
  simp [lpBytes, Nat.add_comm]

theorem readLPBytes_lpBytes {b : List UInt8} (hb : b.length ≤ maxLPLength) (rest : List UInt8)
    (t : PacketType) : readLPBytes (lpBytes b ++ rest) t = .ok (b, 2 + b.length) := by
  have hlen : (UInt16.ofNat b.length).toNat = b.length := by
    simp only [UInt16.toNat_ofNat']
    exact Nat.mod_eq_of_lt (by simp only [maxLPLength] at hb; omega)
  simp only [lpBytes, putUint16, List.cons_append, List.nil_append, readLPBytes,
    List.getD_cons_zero, List.getD_cons_succ, uint16_putUint16, hlen, List.length_cons,
    List.length_append, List.drop_succ_cons, List.drop_zero]
  rw [if_neg (by omega), if_neg (by omega), List.take_left]

theorem readLPString_lpBytes {b : List UInt8} (hb : b.length ≤ maxLPLength) (rest : List UInt8)
    (t : PacketType) : readLPString (lpBytes b ++ rest) t = .ok (b, 2 + b.length) :=
  readLPBytes_lpBytes hb rest t

theorem readLPBytes_ok {buf b : List UInt8} {n : Nat} {t : PacketType}
    (h : readLPBytes buf t = .ok (b, n)) :
    n = 2 + b.length ∧ b.length ≤ maxLPLength ∧ buf = lpBytes b ++ buf.drop n := by
  match buf, h with
  | hi :: lo :: rest, h =>
      simp only [readLPBytes, List.length_cons, List.getD_cons_zero, List.getD_cons_succ,
        List.drop_succ_cons, List.drop_zero] at h
      rw [if_neg (by omega)] at h
      split at h
      · cases h
      · rename_i hlen
        simp only [Outcome.ok.injEq, Prod.mk.injEq] at h
        obtain ⟨rfl, rfl⟩ := h
        have hv := (uint16 hi lo).toNat_lt
        have htake : (rest.take (uint16 hi lo).toNat).length = (uint16 hi lo).toNat := by
          simp; omega
        refine ⟨by rw [htake], by rw [htake, maxLPLength]; omega, ?_⟩
        have hofNat : UInt16.ofNat (rest.take (uint16 hi lo).toNat).length = uint16 hi lo := by
          rw [htake]
          exact UInt16.ofNat_toNat
        rw [show 2 + (uint16 hi lo).toNat = (uint16 hi lo).toNat + 1 + 1 by omega]
        simp only [lpBytes, hofNat, putUint16_uint16, List.cons_append, List.nil_append,
          List.drop_succ_cons, List.take_append_drop]
  | [], h => simp [readLPBytes] at h
  | [_], h => simp [readLPBytes] at h

theorem writeLPBytes_ok {bufLen : Nat} {b : List UInt8} (t : PacketType)
    (hb : b.length ≤ maxLPLength) (hbuf : 2 + b.length ≤ bufLen) :
    writeLPBytes bufLen b t = .ok (lpBytes b) := by
  simp [writeLPBytes, Nat.not_lt.mpr hb, Nat.not_lt.mpr hbuf]

theorem writeLPBytes_eq_ok {bufLen : Nat} {b out : List UInt8} {t : PacketType}
    (h : writeLPBytes bufLen b t = .ok out) : b.length ≤ maxLPLength ∧ out = lpBytes b := by
  unfold writeLPBytes at h
  split_ifs at h with hb hbuf
  cases h
  exact ⟨Nat.not_lt.mp hb, rfl⟩

end GoMqtt.Packet
