import GoMqtt.Packet.Generic

namespace GoMqtt.Packet

open Binary

section Frame

variable {rl : Int} (b : UInt8) (body : List UInt8) (k : Nat)

def frame (rl : Int) : List UInt8 := b :: (putUvarint rl.toNat ++ body)

variable (h0 : 0 ≤ rl) (h : rl ≤ MaxRemainingLength)
include h0 h

theorem headerLen_eq_length : headerLen rl = (b :: putUvarint rl.toNat).length := by
  rw [headerLen_eq h0 h, List.length_cons, Nat.add_comm]

theorem drop_frame : (frame b body rl).drop (headerLen rl + k) = body.drop k := by
  rw [frame, headerLen_eq_length b h0 h, ← List.cons_append, List.drop_append]
  simp

theorem getD_frame (d : UInt8) : (frame b body rl).getD (headerLen rl + k) d = body.getD k d := by
  rw [frame, headerLen_eq_length b h0 h, ← List.cons_append, List.getD_eq_getElem?_getD,
    List.getElem?_append_right (by omega), List.getD_eq_getElem?_getD, Nat.add_sub_cancel_left]

theorem length_frame : (frame b body rl).length = headerLen rl + body.length := by
  rw [frame, headerLen_eq h0 h]
  simp only [List.length_cons, List.length_append]
  omega

end Frame

theorem headerEncode_eq_ok {dstLen tl : Nat} {flags : UInt8} {rl : Int} {t : PacketType}
    {hdr : List UInt8} (h : headerEncode dstLen flags rl tl t = .ok hdr) :
    0 ≤ rl ∧ rl ≤ MaxRemainingLength ∧ hdr = frame (typeAndFlags t flags) [] rl := by
  unfold headerEncode at h
  split_ifs at h with h1 h2 h3
  simp only [Outcome.ok.injEq] at h
  refine ⟨by omega, by omega, ?_⟩
  rw [← h, frame, List.append_nil]

namespace ConnackPacket

theorem encode_Len (cp : ConnackPacket) :
    cp.encode cp.Len =
      if connackCodeValid cp.returnCode then
        .ok [typeAndFlags .connack 0, 2, if cp.sessionPresent then 1 else 0, cp.returnCode]
      else .error 3 (.invalidReturnCode cp.returnCode) := by
  have hh : headerEncode cp.Len 0 2 cp.Len .connack = .ok [typeAndFlags .connack 0, 2] :=
    headerEncode_ok .connack 0 (by omega) (by simp [MaxRemainingLength]) le_rfl
      (Nat.le_add_right _ _)
  cases hv : connackCodeValid cp.returnCode <;> cases hs : cp.sessionPresent <;>
    simp [encode, hh, hv, hs]

theorem decode_encoded (cp : ConnackPacket) (h : connackCodeValid cp.returnCode = true) :
    newConnackPacket.decode
        [typeAndFlags .connack 0, 2, if cp.sessionPresent then 1 else 0, cp.returnCode] =
      .ok (4, cp) := by
  have hd : headerDecode [typeAndFlags .connack 0, 2, if cp.sessionPresent then 1 else 0,
      cp.returnCode] .connack = .ok (2, 0, 2) :=
    @headerDecode_headerEncoded .connack 0 (by decide) (fun _ => rfl) 2 (by omega)
      (by simp [MaxRemainingLength]) [if cp.sessionPresent then 1 else 0, cp.returnCode] (by simp)
  have hb0 : (if cp.sessionPresent then (1 : UInt8) else 0) &&& 254 = 0 := by split <;> rfl
  have hb1 : decide ((if cp.sessionPresent then (1 : UInt8) else 0) &&& 1 = 1) = cp.sessionPresent := by
    cases cp.sessionPresent <;> rfl
  simp only [decode, hd, Outcome.ok_bind]
  simp [hb0, hb1, h]

theorem decode_of_encode {cp : ConnackPacket} {out : List UInt8} (h : cp.encode cp.Len = .ok out) :
    newConnackPacket.decode out = .ok (cp.Len, cp) := by
  rw [encode_Len] at h
  split at h
  · next hv =>
    rw [← Outcome.ok.inj h]
    exact decode_encoded cp hv
  · cases h

end ConnackPacket

theorem uint16_getD_putUint16 (id : UInt16) (rest : List UInt8) :
    uint16 ((putUint16 id ++ rest).getD 0 0) ((putUint16 id ++ rest).getD 1 0) = id := by
  simp [putUint16, uint16_putUint16]

namespace SubackPacket

theorem encode_Len_eq_ok {sp : SubackPacket} {out : List UInt8} (h : sp.encode sp.Len = .ok out) :
    invalidCode sp.returnCodes 0 = none ∧ sp.id ≠ 0 ∧ (sp.len : Int) ≤ MaxRemainingLength ∧
      out = frame (typeAndFlags .suback 0) (putUint16 sp.id ++ sp.returnCodes) sp.len := by
  cases hc : invalidCode sp.returnCodes 0 with
  | some ci => simp [encode, hc] at h
  | none =>
    by_cases hid : sp.id = 0
    · simp [encode, hc, hid] at h
    · cases hh : headerEncode sp.Len 0 sp.len sp.Len .suback with
      | ok hdr =>
        obtain ⟨-, hmax, rfl⟩ := headerEncode_eq_ok hh
        simp only [encode, hc, hid, hh, if_false] at h
        refine ⟨rfl, hid, hmax, ?_⟩
        simp at h
        rw [← h]
        simp [frame]
      | error n e => simp [encode, hc, hid, hh] at h
      | panic => simp [encode, hc, hid, hh] at h

theorem decode_encoded (sp : SubackPacket) (hne : sp.returnCodes ≠ [])
    (hc : invalidCode sp.returnCodes 0 = none) (hid : sp.id ≠ 0)
    (hmax : (sp.len : Int) ≤ MaxRemainingLength) :
    newSubackPacket.decode (frame (typeAndFlags .suback 0) (putUint16 sp.id ++ sp.returnCodes) sp.len) =
      .ok (sp.Len, sp) := by
  have h0 : (0 : Int) ≤ sp.len := by omega
  have hd : headerDecode (frame (typeAndFlags .suback 0) (putUint16 sp.id ++ sp.returnCodes) sp.len)
      .suback = _ := headerDecode_headerEncoded .suback (by decide) (fun _ => rfl) h0 hmax
    (putUint16 sp.id ++ sp.returnCodes) (by simp [len, putUint16]; omega)
  have hlen := length_frame (typeAndFlags .suback 0) (putUint16 sp.id ++ sp.returnCodes) h0 hmax
  have g0 := getD_frame (typeAndFlags .suback 0) (putUint16 sp.id ++ sp.returnCodes) 0 h0 hmax 0
  have g1 := getD_frame (typeAndFlags .suback 0) (putUint16 sp.id ++ sp.returnCodes) 1 h0 hmax 0
  have d2 := drop_frame (typeAndFlags .suback 0) (putUint16 sp.id ++ sp.returnCodes) 2 h0 hmax
  have hrl : ¬ ((sp.len : Int) ≤ 2) := by
    have := List.length_pos_of_ne_nil hne
    simp only [len]
    omega
  have hw : wrapInt ((sp.len : Int) - 2) = sp.returnCodes.length := by
    rw [wrapInt_of_lt (by simp [len]) (by simp only [MaxRemainingLength] at hmax; omega)]
    simp [len]
  simp only [Nat.add_zero] at g0
  simp only [decode, hd, Outcome.ok_bind]
  have hshort : ¬ (headerLen sp.len + (putUint16 sp.id ++ sp.returnCodes).length <
      headerLen sp.len + 2) := by simp [putUint16]
  have hdrop : List.drop 2 (putUint16 sp.id ++ sp.returnCodes) = sp.returnCodes := by
    simp [putUint16]
  simp only [hlen, hshort, if_false, hrl, g0, g1, uint16_getD_putUint16, hid, d2, hw, hdrop,
    Int.toNat_natCast, List.take_length, hc]
  simp [Len, len, Nat.add_assoc]

theorem decode_of_encode {sp : SubackPacket} {out : List UInt8} (hne : sp.returnCodes ≠ [])
    (h : sp.encode sp.Len = .ok out) : newSubackPacket.decode out = .ok (sp.Len, sp) := by
  obtain ⟨hc, hid, hmax, rfl⟩ := encode_Len_eq_ok h
  exact decode_encoded sp hne hc hid hmax

end SubackPacket

section LPBytes

variable (t r : List UInt8) (k : Nat)

theorem getD_lpBytes_append (d : UInt8) : (lpBytes t ++ r).getD (2 + t.length + k) d = r.getD k d := by
  rw [List.getD_append_right _ _ _ _ (by simp [length_lpBytes]), length_lpBytes,
    Nat.add_sub_cancel_left]

theorem drop_lpBytes_append : (lpBytes t ++ r).drop (2 + t.length + k) = r.drop k := by
  rw [List.drop_append, length_lpBytes, Nat.add_sub_cancel_left,
    List.drop_eq_nil_of_le (by simp [length_lpBytes]), List.nil_append]

end LPBytes

namespace PublishPacket

theorem flagsOf_bits {pp : PublishPacket} (h : validQOS pp.message.qos = true) :
    pp.flagsOf.toNat < 16 ∧ decide ((pp.flagsOf >>> 3) &&& 1 = 1) = pp.dup ∧
      decide (pp.flagsOf &&& 1 = 1) = pp.message.retain ∧
      (pp.flagsOf >>> 1) &&& 3 = pp.message.qos := by
  obtain ⟨⟨topic, payload, qos, retain⟩, dup, id⟩ := pp
  rcases qos_cases qos with rfl | rfl | rfl | h3
  rotate_left 3
  · simp only [validQOS_iff] at h
    omega
  all_goals cases dup <;> cases retain <;> simp only [flagsOf] <;> decide

def body (pp : PublishPacket) : List UInt8 :=
  lpBytes pp.message.topic ++ ((if pp.message.qos ≠ 0 then putUint16 pp.id else []) ++
    pp.message.payload)

theorem encode_Len_eq_ok {pp : PublishPacket} {out : List UInt8} (h : pp.encode pp.Len = .ok out) :
    pp.message.topic ≠ [] ∧ validQOS pp.message.qos = true ∧ (pp.message.qos ≠ 0 → pp.id ≠ 0) ∧
      pp.message.topic.length ≤ maxLPLength ∧ (pp.len : Int) ≤ MaxRemainingLength ∧
      out = frame (typeAndFlags .publish pp.flagsOf) pp.body pp.len := by
  have ht : pp.message.topic ≠ [] := by
    intro ht
    simp [encode, ht] at h
  have hq : validQOS pp.message.qos = true := by
    cases hq : validQOS pp.message.qos
    · simp [encode, ht, hq] at h
    · rfl
  have hid : pp.message.qos ≠ 0 → pp.id ≠ 0 := by
    intro hq0 hid
    simp [encode, ht, hq, hid, UInt8.pos_iff_ne_zero.mpr hq0] at h
  have hz : ¬ (pp.message.qos > 0 ∧ pp.id = 0) := fun h0 =>
    hid (UInt8.pos_iff_ne_zero.mp h0.1) h0.2
  simp only [encode, List.length_eq_zero_iff, ht, hq, hz, Bool.not_true, Bool.false_eq_true,
    ↓reduceIte] at h
  obtain ⟨hdr, hh, h⟩ := Outcome.bind_eq_ok.mp h
  obtain ⟨lp, hlp, h⟩ := Outcome.bind_eq_ok.mp h
  obtain ⟨-, hmax, rfl⟩ := headerEncode_eq_ok hh
  obtain ⟨hmaxlp, rfl⟩ := writeLPBytes_eq_ok (Outcome.offset_eq_ok.mp hlp)
  refine ⟨ht, hq, hid, hmaxlp, hmax, ?_⟩
  split_ifs at h with hq0 <;>
    simp only [Outcome.pure_eq_ok, Outcome.ok.injEq] at h <;> subst h <;> simp [frame, body, hq0]

theorem length_body (pp : PublishPacket) : pp.body.length = pp.len := by
  by_cases hq0 : pp.message.qos = 0
  · simp [body, len, hq0]
  · simp [body, len, hq0, putUint16]
    omega

theorem payload_at {pp : PublishPacket} (hmax : (pp.len : Int) ≤ MaxRemainingLength) {o : Nat}
    (hdrop : pp.body.drop o = pp.message.payload) (ho : o + pp.message.payload.length = pp.len) :
    wrapInt (pp.len - ((headerLen pp.len + o : Nat) - (headerLen pp.len : Nat) : Int)) =
        pp.message.payload.length ∧
      (frame (typeAndFlags .publish pp.flagsOf) pp.body pp.len).drop (headerLen pp.len + o) =
        pp.message.payload ∧
      ¬ (((headerLen pp.len + o : Nat) : Int) + pp.message.payload.length >
        (headerLen pp.len + pp.len : Nat)) := by
  have h0 : (0 : Int) ≤ pp.len := by omega
  refine ⟨?_, by rw [drop_frame _ _ _ h0 hmax, hdrop], by omega⟩
  rw [wrapInt_of_lt (by omega) (by simp only [MaxRemainingLength] at hmax; omega)]
  omega

theorem decode_encoded (pp : PublishPacket) (hq : validQOS pp.message.qos = true)
    (hid : pp.message.qos ≠ 0 → pp.id ≠ 0) (hlp : pp.message.topic.length ≤ maxLPLength)
    (hmax : (pp.len : Int) ≤ MaxRemainingLength) :
    newPublishPacket.decode (frame (typeAndFlags .publish pp.flagsOf) pp.body pp.len) =
      .ok (pp.Len, if pp.message.qos = 0 then { pp with id := 0 } else pp) := by
  obtain ⟨hf, hdup, hret, hqos⟩ := flagsOf_bits hq
  have h0 : (0 : Int) ≤ pp.len := by omega
  have hd : headerDecode (frame (typeAndFlags .publish pp.flagsOf) pp.body pp.len) .publish = _ :=
    headerDecode_headerEncoded .publish hf (fun h => absurd rfl h) h0 hmax pp.body
      (by rw [length_body])
  have hflags : PacketType.publish.defaultFlags ||| pp.flagsOf = pp.flagsOf := UInt8.zero_or
  have hlen := length_frame (typeAndFlags .publish pp.flagsOf) pp.body h0 hmax
  rw [length_body] at hlen
  have h2 : 2 ≤ pp.len := by
    unfold len
    omega
  have hshort : ¬ (headerLen pp.len + pp.len < headerLen pp.len + 2) := by omega
  have hdrop : (frame (typeAndFlags .publish pp.flagsOf) pp.body pp.len).drop (headerLen pp.len) =
      lpBytes pp.message.topic ++ ((if pp.message.qos ≠ 0 then putUint16 pp.id else []) ++
        pp.message.payload) := by
    have h := drop_frame (typeAndFlags .publish pp.flagsOf) pp.body 0 h0 hmax
    rw [Nat.add_zero, List.drop_zero] at h
    exact h
  simp only [decode, hd, Outcome.ok_bind, hflags, hqos, hdup, hret, hq, Bool.not_true,
    Bool.false_eq_true, ↓reduceIte, hlen, hshort, hdrop, readLPString_lpBytes hlp,
    Outcome.offset_ok]
  by_cases hq0 : pp.message.qos = 0
  · -- QoS 0: no packet id, the payload follows the topic
    have hbody : pp.body = lpBytes pp.message.topic ++ pp.message.payload := by
      simp [body, hq0]
    have hlen0 : pp.len = 2 + pp.message.topic.length + pp.message.payload.length := by
      simp [len, hq0]
    have hpay : pp.body.drop (2 + pp.message.topic.length) = pp.message.payload := by
      rw [hbody, ← Nat.add_zero (2 + pp.message.topic.length), drop_lpBytes_append, List.drop_zero]
    obtain ⟨hw, hdp, hfit⟩ := payload_at hmax hpay (by omega)
    simp only [hq0, ne_eq, not_true_eq_false, ↓reduceIte, hw, hdp, hfit, Int.toNat_natCast,
      List.take_length, Outcome.pure_eq_ok, Len]
    obtain ⟨⟨topic, payload, qos, retain⟩, dup, id⟩ := pp
    dsimp only at hq0 hlen0 ⊢
    subst hq0
    -- an empty payload is not read, and the fresh packet's payload is already empty
    cases payload with
    | nil => simp [newPublishPacket, hlen0]
    | cons b bs =>
      simp [newPublishPacket, hlen0]
      omega
  · -- QoS 1 or 2: the packet id sits between the topic and the payload
    have hbody : pp.body = lpBytes pp.message.topic ++ (putUint16 pp.id ++ pp.message.payload) := by
      simp [body, hq0]
    have hlen2 : pp.len = 2 + pp.message.topic.length + pp.message.payload.length + 2 := by
      simp [len, hq0]
    have hlong : ¬ (headerLen pp.len + pp.len <
        headerLen pp.len + (2 + pp.message.topic.length) + 2) := by
      omega
    have hpid : uint16
        ((frame (typeAndFlags .publish pp.flagsOf) pp.body pp.len).getD
          (headerLen pp.len + (2 + pp.message.topic.length)) 0)
        ((frame (typeAndFlags .publish pp.flagsOf) pp.body pp.len).getD
          (headerLen pp.len + (2 + pp.message.topic.length) + 1) 0) = pp.id := by
      rw [Nat.add_assoc, getD_frame _ _ _ h0 hmax, getD_frame _ _ _ h0 hmax, hbody,
        ← Nat.add_zero (2 + pp.message.topic.length), getD_lpBytes_append, Nat.add_zero,
        getD_lpBytes_append, uint16_getD_putUint16]
    have hpay : pp.body.drop (2 + pp.message.topic.length + 2) = pp.message.payload := by
      rw [hbody, drop_lpBytes_append]
      simp [putUint16]
    obtain ⟨hw, hdp, hfit⟩ := payload_at hmax hpay (by omega)
    rw [← Nat.add_assoc] at hw hdp hfit
    simp only [hq0, ne_eq, not_false_eq_true, ↓reduceIte, hlong, hpid, hid hq0, hw, hdp, hfit,
      Int.toNat_natCast, List.take_length, Outcome.pure_eq_ok, Len]
    obtain ⟨⟨topic, payload, qos, retain⟩, dup, id⟩ := pp
    dsimp only at hq0 hlen2 ⊢
    cases payload with
    | nil =>
      simp [newPublishPacket, hlen2]
      omega
    | cons b bs =>
      simp [hlen2]
      omega

theorem decode_of_encode {pp : PublishPacket} {out : List UInt8} (h : pp.encode pp.Len = .ok out) :
    newPublishPacket.decode out =
      .ok (pp.Len, if pp.message.qos = 0 then { pp with id := 0 } else pp) := by
  obtain ⟨-, hq, hid, hlp, hmax, rfl⟩ := encode_Len_eq_ok h
  exact decode_encoded pp hq hid hlp hmax

end PublishPacket

namespace SubscribePacket

/-- The bytes the loop of `Encode` writes: each topic with its length, then its QoS byte. -/
def subscriptionBytes (subs : List Subscription) : List UInt8 :=
  subs.flatMap fun s => lpBytes s.topic ++ [s.qos]

@[simp]
theorem subscriptionBytes_nil : subscriptionBytes [] = [] := rfl

@[simp]
theorem subscriptionBytes_cons (s : Subscription) (subs : List Subscription) :
    subscriptionBytes (s :: subs) = lpBytes s.topic ++ ([s.qos] ++ subscriptionBytes subs) := by
  simp [subscriptionBytes]

theorem length_subscriptionBytes (subs : List Subscription) :
    (subscriptionBytes subs).length = (subs.map (fun s => 2 + s.topic.length + 1)).sum := by
  induction subs with
  | nil => rfl
  | cons s subs ih =>
    simp only [subscriptionBytes_cons, List.length_append, length_lpBytes, ih, List.map_cons,
      List.sum_cons, List.length_singleton]
    omega

theorem encodeSubscriptions_eq_ok {dstLen : Nat} {out r : List UInt8} {subs : List Subscription}
    (h : encodeSubscriptions dstLen out subs = .ok r) :
    (∀ s ∈ subs, s.topic.length ≤ maxLPLength) ∧ r = out ++ subscriptionBytes subs := by
  induction subs generalizing out with
  | nil =>
    simp only [encodeSubscriptions, Outcome.ok.injEq] at h
    simp [h]
  | cons s subs ih =>
    obtain ⟨b, hb, h⟩ := Outcome.bind_eq_ok.mp h
    obtain ⟨hmax, rfl⟩ := writeLPBytes_eq_ok (Outcome.offset_eq_ok.mp hb)
    obtain ⟨hsubs, rfl⟩ := ih h
    refine ⟨?_, by simp⟩
    intro s' hs'
    rcases List.mem_cons.mp hs' with rfl | hs'
    · exact hmax
    · exact hsubs s' hs'

theorem decodeSubscriptions_encoded (src rest : List UInt8) (subs acc : List Subscription)
    (hmax : ∀ s ∈ subs, s.topic.length ≤ maxLPLength) {total : Nat} {sl : Int}
    (hsrc : src.drop total = subscriptionBytes subs ++ rest)
    (hsl : sl = (subscriptionBytes subs).length) :
    decodeSubscriptions src sl total acc =
      .ok (total + (subscriptionBytes subs).length, acc ++ subs) := by
  induction subs generalizing total sl acc with
  | nil =>
    rw [decodeSubscriptions, if_neg (by simp [hsl])]
    simp
  | cons s subs ih =>
    have hs := hmax s (by simp)
    have hdrop : src.drop total = lpBytes s.topic ++ ([s.qos] ++ (subscriptionBytes subs ++ rest)) := by
      simp [hsrc]
    have hlen : src.length - total = 2 + s.topic.length + 1 + (subscriptionBytes subs).length +
        rest.length := by
      rw [← List.length_drop, hdrop]
      simp [length_lpBytes]
      omega
    have hread : (readLPString (src.drop total) .subscribe).offset total =
        .ok (s.topic, 2 + s.topic.length) := by
      rw [hdrop, readLPString_lpBytes hs, Outcome.offset_ok]
    have hq : src.getD (total + (2 + s.topic.length)) 0 = s.qos := by
      rw [List.getD_eq_getElem?_getD, ← List.getElem?_drop, hdrop, ← Nat.add_zero (2 + _),
        ← List.getD_eq_getElem?_getD, getD_lpBytes_append]
      rfl
    have hnext : src.drop (total + (2 + s.topic.length) + 1) = subscriptionBytes subs ++ rest := by
      rw [Nat.add_assoc, ← List.drop_drop, hdrop, drop_lpBytes_append]
      simp
    rw [decodeSubscriptions, if_pos (by simp [hsl, length_lpBytes]; omega)]
    split
    · next topic n heq =>
      rw [hread] at heq
      obtain ⟨rfl, rfl⟩ : s.topic = topic ∧ 2 + s.topic.length = n := by simpa using heq
      have hsl' : sl - ((2 + s.topic.length : Nat) : Int) - 1 = (subscriptionBytes subs).length := by
        simp [hsl, length_lpBytes]
      rw [if_neg (by omega), hq, show (⟨s.topic, s.qos⟩ : Subscription) = s from rfl,
        ih (acc ++ [s]) (fun s' hs' => hmax s' (List.mem_cons_of_mem s hs')) hnext hsl']
      simp [length_lpBytes]
      omega
    · next m e heq => simp [hread] at heq
    · next heq => simp [hread] at heq

theorem length_body (sp : SubscribePacket) :
    (putUint16 sp.id ++ subscriptionBytes sp.subscriptions).length = sp.len := by
  simp [putUint16, length_subscriptionBytes, len]
  omega

theorem encode_Len_eq_ok {sp : SubscribePacket} {out : List UInt8} (h : sp.encode sp.Len = .ok out) :
    sp.id ≠ 0 ∧ (∀ s ∈ sp.subscriptions, s.topic.length ≤ maxLPLength) ∧
      (sp.len : Int) ≤ MaxRemainingLength ∧
      out = frame (typeAndFlags .subscribe 0) (putUint16 sp.id ++ subscriptionBytes sp.subscriptions)
        sp.len := by
  have hid : sp.id ≠ 0 := by
    intro hid
    simp [encode, hid] at h
  simp only [encode, hid, ↓reduceIte] at h
  obtain ⟨hdr, hh, h⟩ := Outcome.bind_eq_ok.mp h
  obtain ⟨-, hmax, rfl⟩ := headerEncode_eq_ok hh
  obtain ⟨hsubs, rfl⟩ := encodeSubscriptions_eq_ok h
  exact ⟨hid, hsubs, hmax, by simp [frame]⟩

theorem decode_encoded (sp : SubscribePacket) (hne : sp.subscriptions ≠ []) (hid : sp.id ≠ 0)
    (hsubs : ∀ s ∈ sp.subscriptions, s.topic.length ≤ maxLPLength)
    (hmax : (sp.len : Int) ≤ MaxRemainingLength) :
    newSubscribePacket.decode
        (frame (typeAndFlags .subscribe 0) (putUint16 sp.id ++ subscriptionBytes sp.subscriptions)
          sp.len) =
      .ok (sp.Len, sp) := by
  have h0 : (0 : Int) ≤ sp.len := by omega
  have hd : headerDecode (frame (typeAndFlags .subscribe 0)
      (putUint16 sp.id ++ subscriptionBytes sp.subscriptions) sp.len) .subscribe = _ :=
    headerDecode_headerEncoded .subscribe (by decide) (fun _ => rfl) h0 hmax _
      (by rw [length_body])
  have hlen := length_frame (typeAndFlags .subscribe 0)
    (putUint16 sp.id ++ subscriptionBytes sp.subscriptions) h0 hmax
  rw [length_body] at hlen
  have hlen2 : sp.len = 2 + (subscriptionBytes sp.subscriptions).length := by
    rw [len, length_subscriptionBytes]
  have hshort : ¬ (headerLen sp.len + sp.len < headerLen sp.len + 2) := by
    omega
  have hpid : uint16
      ((frame (typeAndFlags .subscribe 0) (putUint16 sp.id ++ subscriptionBytes sp.subscriptions)
        sp.len).getD (headerLen sp.len) 0)
      ((frame (typeAndFlags .subscribe 0) (putUint16 sp.id ++ subscriptionBytes sp.subscriptions)
        sp.len).getD (headerLen sp.len + 1) 0) = sp.id := by
    rw [← Nat.add_zero (headerLen sp.len), getD_frame _ _ _ h0 hmax, Nat.add_zero,
      getD_frame _ _ _ h0 hmax, uint16_getD_putUint16]
  have hdrop : (frame (typeAndFlags .subscribe 0)
      (putUint16 sp.id ++ subscriptionBytes sp.subscriptions) sp.len).drop (headerLen sp.len + 2) =
        subscriptionBytes sp.subscriptions ++ [] := by
    rw [drop_frame _ _ _ h0 hmax]
    simp [putUint16]
  have hw : wrapInt ((sp.len : Int) - 2) = (subscriptionBytes sp.subscriptions).length := by
    rw [wrapInt_of_lt (by omega) (by simp only [MaxRemainingLength] at hmax; omega)]
    omega
  simp only [decode, hd, Outcome.ok_bind, hlen, hshort, ↓reduceIte, hpid, hid,
    decodeSubscriptions_encoded _ [] sp.subscriptions [] hsubs hdrop hw, List.nil_append,
    List.length_eq_zero_iff, hne, Outcome.pure_eq_ok]
  simp only [Len, Outcome.ok.injEq, Prod.mk.injEq, and_true]
  omega

theorem decode_of_encode {sp : SubscribePacket} {out : List UInt8} (hne : sp.subscriptions ≠ [])
    (h : sp.encode sp.Len = .ok out) : newSubscribePacket.decode out = .ok (sp.Len, sp) := by
  obtain ⟨hid, hsubs, hmax, rfl⟩ := encode_Len_eq_ok h
  exact decode_encoded sp hne hid hsubs hmax

end SubscribePacket

theorem identifiedPacketDecode_of_encode {id : UInt16} {t : PacketType} {out : List UInt8}
    (h : identifiedPacketEncode identifiedPacketLen id t = .ok out) :
    identifiedPacketDecode out t = .ok (identifiedPacketLen, id) := by
  obtain ⟨hid, rfl⟩ := identifiedPacketEncode_eq_ok h
  simpa using identifiedPacketDecode_encoded t hid []

theorem nakedPacketDecode_of_encode {t : PacketType} {out : List UInt8}
    (h : nakedPacketEncode nakedPacketLen t = .ok out) : nakedPacketDecode out t = .ok nakedPacketLen := by
  rw [nakedPacketEncode_ok t le_rfl, Outcome.ok.injEq] at h
  subst h
  simpa using nakedPacketDecode_encoded t []

namespace GenericPacket

/-- The lists that `Decode` requires to be non-empty and `Encode` does not check. -/
def ListsNonEmpty : GenericPacket → Prop
  | subscribe p => p.subscriptions ≠ []
  | suback p => p.returnCodes ≠ []
  | unsubscribe p => p.topics ≠ []
  | _ => True

instance : DecidablePred ListsNonEmpty := fun p => by
  cases p <;> unfold ListsNonEmpty <;> infer_instance

/-- What the wire carries of a packet: a QoS 0 PUBLISH has no packet id. -/
def onWire : GenericPacket → GenericPacket
  | publish p => publish (if p.message.qos = 0 then { p with id := 0 } else p)
  | p => p

theorem fresh_decode_of_encode (p : GenericPacket) (hc : p.type ≠ .connect)
    (hu : p.type ≠ .unsubscribe) (hne : p.ListsNonEmpty) {out : List UInt8} {p' : GenericPacket}
    (h : p.encode p.Len = .ok (out, p')) :
    ∃ q, newPacket p.type.toByte = .ok q ∧ q.decode out = .ok (p.Len, p.onWire) := by
  cases p with
  | connect cp => exact absurd rfl hc
  | unsubscribe up => exact absurd rfl hu
  | connack cp =>
    obtain ⟨o, ho, ⟨⟩⟩ := Outcome.map_eq_ok.mp h
    exact ⟨_, rfl, by simp [decode, ConnackPacket.decode_of_encode ho, onWire, Len]⟩
  | publish pp =>
    obtain ⟨o, ho, ⟨⟩⟩ := Outcome.map_eq_ok.mp h
    exact ⟨_, rfl, by simp [decode, PublishPacket.decode_of_encode ho, onWire, Len]⟩
  | subscribe sp =>
    obtain ⟨o, ho, ⟨⟩⟩ := Outcome.map_eq_ok.mp h
    exact ⟨_, rfl, by simp [decode, SubscribePacket.decode_of_encode hne ho, onWire, Len]⟩
  | suback sp =>
    obtain ⟨o, ho, ⟨⟩⟩ := Outcome.map_eq_ok.mp h
    exact ⟨_, rfl, by simp [decode, SubackPacket.decode_of_encode hne ho, onWire, Len]⟩
  | puback id | pubrec id | pubrel id | pubcomp id | unsuback id =>
    obtain ⟨o, ho, ⟨⟩⟩ := Outcome.map_eq_ok.mp h
    exact ⟨_, rfl, by simp [decode, PubackPacket.decode, PubrecPacket.decode, PubrelPacket.decode,
      PubcompPacket.decode, UnsubackPacket.decode, identifiedPacketDecode_of_encode ho, onWire, Len]⟩
  | pingreq | pingresp | disconnect =>
    simp only [encode] at h
    obtain ⟨o, ho, ⟨⟩⟩ := Outcome.map_eq_ok.mp h
    exact ⟨_, rfl, by simp [decode, PingreqPacket.decode, PingrespPacket.decode,
      DisconnectPacket.decode, nakedPacketDecode_of_encode ho, onWire, Len]⟩

theorem encode_frame {p : GenericPacket} (hc : p.type ≠ .connect) (hu : p.type ≠ .unsubscribe)
    {out : List UInt8} {p' : GenericPacket} (h : p.encode p.Len = .ok (out, p')) :
    ∃ (flags : UInt8) (rl : Nat) (body : List UInt8), flags.toNat < 16 ∧
      (rl : Int) ≤ MaxRemainingLength ∧ body.length = rl ∧ p.Len = headerLen rl + rl ∧
      out = frame (typeAndFlags p.type flags) body rl := by
  cases p with
  | connect cp => exact absurd rfl hc
  | unsubscribe up => exact absurd rfl hu
  | connack cp =>
    obtain ⟨o, ho, ⟨⟩⟩ := Outcome.map_eq_ok.mp h
    change cp.encode cp.Len = _ at ho
    rw [ConnackPacket.encode_Len] at ho
    split at ho
    · cases ho
      exact ⟨0, 2, _, by decide, by simp [MaxRemainingLength], rfl, rfl, rfl⟩
    · cases ho
  | publish pp =>
    obtain ⟨o, ho, ⟨⟩⟩ := Outcome.map_eq_ok.mp h
    obtain ⟨-, hq, -, -, hmax, rfl⟩ := PublishPacket.encode_Len_eq_ok ho
    exact ⟨_, _, _, (PublishPacket.flagsOf_bits hq).1, hmax, PublishPacket.length_body pp, rfl, rfl⟩
  | subscribe sp =>
    obtain ⟨o, ho, ⟨⟩⟩ := Outcome.map_eq_ok.mp h
    obtain ⟨-, -, hmax, rfl⟩ := SubscribePacket.encode_Len_eq_ok ho
    exact ⟨0, _, _, by decide, hmax, SubscribePacket.length_body sp, rfl, rfl⟩
  | suback sp =>
    obtain ⟨o, ho, ⟨⟩⟩ := Outcome.map_eq_ok.mp h
    obtain ⟨-, -, hmax, rfl⟩ := SubackPacket.encode_Len_eq_ok ho
    refine ⟨0, _, _, by decide, hmax, ?_, rfl, rfl⟩
    simp only [putUint16, SubackPacket.len, List.length_append, List.length_cons, List.length_nil]
  | puback id | pubrec id | pubrel id | pubcomp id | unsuback id =>
    obtain ⟨o, ho, ⟨⟩⟩ := Outcome.map_eq_ok.mp h
    obtain ⟨-, rfl⟩ := identifiedPacketEncode_eq_ok ho
    exact ⟨0, 2, putUint16 id, by decide, by simp [MaxRemainingLength], by simp [putUint16], rfl, rfl⟩
  | pingreq | pingresp | disconnect =>
    simp only [encode] at h
    obtain ⟨o, ho, ⟨⟩⟩ := Outcome.map_eq_ok.mp h
    change nakedPacketEncode nakedPacketLen _ = _ at ho
    rw [nakedPacketEncode_ok _ le_rfl, Outcome.ok.injEq] at ho
    subst ho
    exact ⟨0, 0, [], by decide, by simp [MaxRemainingLength], rfl, rfl, rfl⟩

end GenericPacket

end GoMqtt.Packet
