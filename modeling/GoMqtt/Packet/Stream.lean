import GoMqtt.Packet.RoundTrip

namespace GoMqtt.Packet

inductive StreamError
  | detectionOverflow
  | readLimitExceeded
  | eof
  | unexpectedEOF
  | codec (n : Int) (e : CodecError)
  deriving DecidableEq, Repr

/-- What `Decoder.Read` returns: a packet and the bytes the reader still holds, an error, or a
runtime panic of the decoder. -/
inductive ReadResult
  | ok (pkt : GenericPacket) (rest : List UInt8)
  | error (e : StreamError)
  | panic
  deriving DecidableEq, Repr

/-- `Encoder.Write`: the reused buffer holds `stale` (or zeros where it grew), `Encode` fills
its front, and all `Len()` bytes of it go to the writer. -/
def Encoder.write (stale : List UInt8) (pkt : GenericPacket) : Outcome (List UInt8) :=
  let packetLength := pkt.Len
  let buf := (stale ++ List.replicate packetLength 0).take packetLength
  match pkt.encode packetLength with
  | .ok (out, _) => .ok (out ++ buf.drop out.length)
  | .error n e => .error n e
  | .panic => .panic

/-- The detection loop of `Decoder.Read`, over the bytes the reader will deliver: `Peek`
returns fewer bytes than asked only at the end of the stream. -/
def Decoder.detect (stream : List UInt8) (detectionLength : Nat) :
    Except StreamError (Int × UInt8) :=
  if detectionLength > 5 then .error .detectionOverflow
  else if stream.length < detectionLength then
    if stream.take detectionLength ≠ [] then .error .unexpectedEOF else .error .eof
  else
    let (packetLength, packetType) := detectPacket (stream.take detectionLength)
    if packetLength ≤ 0 then Decoder.detect stream (detectionLength + 1)
    else .ok (packetLength, packetType)
termination_by 6 - detectionLength

def Decoder.read (limit : Int) (stream : List UInt8) : ReadResult :=
  match Decoder.detect stream 2 with
  | .error e => .error e
  | .ok (packetLength, packetType) =>
      if limit > 0 ∧ packetLength > limit then .error .readLimitExceeded
      else
        match newPacket packetType with
        | .error n e => .error (.codec n e)
        | .panic => .panic
        | .ok pkt =>
            if stream.length < packetLength.toNat then .error .unexpectedEOF
            else
              match pkt.decode (stream.take packetLength.toNat) with
              | .ok (_, pkt) => .ok pkt (stream.drop packetLength.toNat)
              | .error n e => .error (.codec n e)
              | .panic => .panic

def Decoder.readPackets (limit : Int) : Nat → List UInt8 → Except ReadResult (List GenericPacket)
  | 0, _ => .ok []
  | k + 1, stream =>
      match Decoder.read limit stream with
      | .ok pkt rest => (Decoder.readPackets limit k rest).map (pkt :: ·)
      | r => .error r

/-- Four one-byte topics go out in 16 bytes and come back as three: the unsubscribe loop
counts one byte per topic that is not there. -/
theorem unsubscribe_stream_drops_last_topic :
    Encoder.write [] (.unsubscribe { topics := [[97], [97], [97], [97]], id := 1 }) =
      .ok [0xa2, 14, 0, 1, 0, 1, 97, 0, 1, 97, 0, 1, 97, 0, 1, 97] ∧
    Decoder.read 0 [0xa2, 14, 0, 1, 0, 1, 97, 0, 1, 97, 0, 1, 97, 0, 1, 97] =
      .ok (.unsubscribe { topics := [[97], [97], [97]], id := 1 }) [] := by
  constructor <;> decide +kernel

section Encodes

theorem Encoder.write_isOk (stale : List UInt8) (pkt : GenericPacket) :
    (Encoder.write stale pkt).isOk = (pkt.encode pkt.Len).isOk := by
  unfold Encoder.write
  dsimp only
  split <;> rename_i h <;> simp [h, Outcome.isOk]

theorem Encoder.write_ack_isOk {id : UInt16} (hid : id ≠ 0) (stale : List UInt8) :
    (Encoder.write stale (.puback id)).isOk ∧ (Encoder.write stale (.pubrec id)).isOk ∧
      (Encoder.write stale (.pubrel id)).isOk ∧ (Encoder.write stale (.pubcomp id)).isOk := by
  simp only [Encoder.write_isOk, GenericPacket.encode, GenericPacket.Len, PubackPacket.encode,
    PubrecPacket.encode, PubrelPacket.encode, PubcompPacket.encode,
    identifiedPacketEncode_ok _ hid le_rfl, Outcome.isOk_map, Outcome.isOk_ok, and_self]

theorem Encoder.write_naked_isOk (stale : List UInt8) :
    (Encoder.write stale .pingreq).isOk ∧ (Encoder.write stale .disconnect).isOk := by
  simp only [Encoder.write_isOk, GenericPacket.encode, GenericPacket.Len, PingreqPacket.encode,
    DisconnectPacket.encode, nakedPacketEncode_ok _ le_rfl, Outcome.isOk_map, Outcome.isOk_ok,
    and_self]

theorem PublishPacket.encode_dup_isOk (pp : PublishPacket) (b : Bool) (dstLen : Nat) :
    ({ pp with dup := b }.encode dstLen).isOk = (pp.encode dstLen).isOk := by
  unfold PublishPacket.encode
  have hl : ({ pp with dup := b } : PublishPacket).len = pp.len := rfl
  have hL : ({ pp with dup := b } : PublishPacket).Len = pp.Len := rfl
  simp only [hl, hL]
  split_ifs <;> try rfl
  all_goals
    unfold headerEncode
    split_ifs <;> try rfl
    simp only [Outcome.ok_bind, List.length_cons]
    generalize Outcome.offset _ (writeLPString _ _ _) = w
    cases w <;> rfl

theorem Encoder.write_dup_isOk (stale : List UInt8) (pp : PublishPacket) (b : Bool) :
    (Encoder.write stale (.publish { pp with dup := b })).isOk =
      (Encoder.write stale (.publish pp)).isOk := by
  simp only [Encoder.write_isOk, GenericPacket.encode, GenericPacket.Len, Outcome.isOk_map]
  exact PublishPacket.encode_dup_isOk pp b pp.Len

end Encodes

section RoundTrip

open Binary GenericPacket

theorem Decoder.detect_frame (b : UInt8) {rl : Int} (h0 : 0 ≤ rl) (h : rl ≤ MaxRemainingLength)
    (rest : List UInt8) :
    ∀ n k, headerLen rl - k = n → 2 ≤ k → k ≤ headerLen rl →
      Decoder.detect (b :: (putUvarint rl.toNat ++ rest)) k = .ok (headerLen rl + rl, b >>> 4) := by
  have hhl := headerLen_eq h0 h
  intro n
  induction n with
  | zero =>
    intro k hn hk2 hk
    have hk' : k = 1 + (putUvarint rl.toNat).length := by omega
    have htake : (b :: (putUvarint rl.toNat ++ rest)).take k = b :: (putUvarint rl.toNat ++ []) := by
      rw [hk', Nat.add_comm, List.take_succ_cons, List.take_append_of_le_length le_rfl,
        List.take_length, List.append_nil]
    rw [Decoder.detect, if_neg (by have := headerLen_le rl; omega),
      if_neg (by simp; omega), htake, detectPacket_headerEncoded b h0 h []]
    simp only [if_neg (show ¬ ((headerLen rl : Int) + rl ≤ 0) by omega)]
  | succ n ih =>
    intro k hn hk2 hk
    have hpre : (b :: (putUvarint rl.toNat ++ rest)).take k =
        b :: (putUvarint rl.toNat).take (k - 1) := by
      obtain ⟨j, rfl⟩ : ∃ j, k = j + 1 := ⟨k - 1, by omega⟩
      simp [List.take_append_of_le_length (show j ≤ (putUvarint rl.toNat).length by omega)]
    rw [Decoder.detect, if_neg (by have := headerLen_le rl; omega),
      if_neg (by simp; omega), hpre, detectPacket_headerPrefix b _ _ (by omega)]
    exact ih (k + 1) (by omega) (by omega) (by omega)

theorem Encoder.write_eq_ok {p : GenericPacket} (hc : p.type ≠ .connect)
    (hu : p.type ≠ .unsubscribe) {stale out : List UInt8} (h : Encoder.write stale p = .ok out) :
    ∃ p', p.encode p.Len = .ok (out, p') := by
  simp only [Encoder.write] at h
  split at h
  · next o p' he =>
    obtain ⟨flags, rl, body, -, hmax, hbody, hLen, rfl⟩ := encode_frame hc hu he
    -- the frame fills the whole buffer, so nothing of the stale bytes is left after it
    have hl := length_frame (typeAndFlags p.type flags) body (Int.natCast_nonneg rl) hmax
    rw [Outcome.ok.injEq, List.drop_eq_nil_of_le (by simp [hl, hbody, hLen]),
      List.append_nil] at h
    exact ⟨p', h ▸ he⟩
  · cases h
  · cases h

theorem Decoder.read_encoded {limit : Int} {p : GenericPacket} (hc : p.type ≠ .connect)
    (hu : p.type ≠ .unsubscribe) (hne : p.ListsNonEmpty) (hlim : limit ≤ 0 ∨ (p.Len : Int) ≤ limit)
    {out : List UInt8} {p' : GenericPacket} (h : p.encode p.Len = .ok (out, p')) (rest : List UInt8) :
    Decoder.read limit (out ++ rest) = .ok p.onWire rest := by
  obtain ⟨q, hq, hdec⟩ := fresh_decode_of_encode p hc hu hne h
  obtain ⟨flags, rl, body, hf, hmax, hbody, hLen, rfl⟩ := encode_frame hc hu h
  have h0 : (0 : Int) ≤ rl := Int.natCast_nonneg rl
  have hl := length_frame (typeAndFlags p.type flags) body h0 hmax
  have hd : Decoder.detect (frame (typeAndFlags p.type flags) body rl ++ rest) 2 =
      .ok (p.Len, p.type.toByte) := by
    have h2 : 2 ≤ headerLen rl := by unfold headerLen; split_ifs <;> omega
    rw [frame, List.cons_append, List.append_assoc,
      Decoder.detect_frame _ h0 hmax _ _ 2 rfl (le_refl 2) h2, typeAndFlags_type p.type hf, hLen]
    simp
  have hlim' : ¬ (limit > 0 ∧ (p.Len : Int) > limit) := by omega
  have htake : (frame (typeAndFlags p.type flags) body rl ++ rest).take p.Len =
      frame (typeAndFlags p.type flags) body rl := by
    rw [List.take_append_of_le_length (by omega), List.take_of_length_le (by omega)]
  have hdrop : (frame (typeAndFlags p.type flags) body rl ++ rest).drop p.Len = rest := by
    rw [List.drop_append_of_le_length (by omega), List.drop_of_length_le (by omega), List.nil_append]
  unfold Decoder.read
  simp only [hd, hlim', if_false, hq, Int.toNat_natCast, htake, hdec, hdrop, List.length_append]
  rw [if_neg (by omega)]

/-- Whatever successive `Encoder.Write` calls wrote for a list of packets, other than CONNECT
and UNSUBSCRIBE packets and within the read limit, successive `Decoder.Read` calls read back
as the same packets, in order, whatever follows them. -/
theorem written_packets_read_back (limit : Int) (ps : List GenericPacket)
    (bss : List (List UInt8))
    (hps : ∀ p ∈ ps, p.type ≠ .connect ∧ p.type ≠ .unsubscribe ∧ p.ListsNonEmpty ∧
      (limit ≤ 0 ∨ (p.Len : Int) ≤ limit))
    (hw : List.Forall₂ (fun p bs => ∃ stale, Encoder.write stale p = .ok bs) ps bss)
    (rest : List UInt8) :
    Decoder.readPackets limit ps.length (bss.flatten ++ rest) = .ok (ps.map onWire) := by
  induction hw with
  | nil => rfl
  | @cons p bs ps bss hpb _ ih =>
    obtain ⟨hc, hu, hne, hlim⟩ := hps p (List.mem_cons_self)
    obtain ⟨stale, hwr⟩ := hpb
    obtain ⟨p', he⟩ := Encoder.write_eq_ok hc hu hwr
    rw [List.flatten_cons, List.append_assoc, List.length_cons, Decoder.readPackets,
      Decoder.read_encoded hc hu hne hlim he]
    simp only [ih (fun q hq => hps q (List.mem_cons_of_mem p hq)), List.map_cons]
    rfl

/-- A QoS 1 PUBLISH followed by a PINGREQ, without a read limit. -/
theorem written_packets_read_back_two :
    Decoder.readPackets 0 [publish ⟨⟨[97], [1], 1, false⟩, false, 7⟩, pingreq].length
        ([[50, 6, 0, 1, 97, 0, 7, 1], [192, 0]].flatten ++ []) =
      .ok ([publish ⟨⟨[97], [1], 1, false⟩, false, 7⟩, pingreq].map onWire) :=
  written_packets_read_back 0 [publish ⟨⟨[97], [1], 1, false⟩, false, 7⟩, pingreq]
    [[50, 6, 0, 1, 97, 0, 7, 1], [192, 0]] (by decide)
    (.cons ⟨[], by decide⟩ (.cons ⟨[], by decide⟩ .nil)) []

end RoundTrip

end GoMqtt.Packet
