import GoMqtt.Packet.RoundTrip
import GoMqtt.Lib.Lists

namespace GoMqtt.Packet

open Binary GoMqtt.Lists

namespace ConnectPacket

/-- The receiver after `Encode`: a version `0` stands for `Version311`. -/
def normalized (cp : ConnectPacket) : ConnectPacket :=
  if cp.version = 0 then { cp with version := Version311 } else cp

def protocolName (version : UInt8) : List UInt8 :=
  if version = Version311 then version311Name else version31Name

/-- The connect flags, set and cleared from `0` in the order `Encode` does it. -/
def flagsOf (cp : ConnectPacket) : UInt8 :=
  let f : UInt8 := if cp.username.length > 0 then 0 ||| 128 else 0 &&& 127
  let f := if cp.password.length > 0 then f ||| 64 else f &&& 191
  let f := match cp.will with
    | some w =>
      if w.retain then ((f ||| 4) &&& 231 ||| w.qos <<< (3 : UInt8)) ||| 32
      else ((f ||| 4) &&& 231 ||| w.qos <<< (3 : UInt8)) &&& 223
    | none => f &&& 251
  if cp.cleanSession then f ||| 2 else f &&& 253

def willBytes : Option Message → List UInt8
  | some w => lpBytes w.topic ++ lpBytes w.payload
  | none => []

def optionalBytes (b : List UInt8) : List UInt8 := if b.length > 0 then lpBytes b else []

def body (cp : ConnectPacket) : List UInt8 :=
  lpBytes (protocolName cp.version) ++ [cp.version] ++ [cp.flagsOf] ++ putUint16 cp.keepAlive ++
    lpBytes cp.clientID ++ willBytes cp.will ++ optionalBytes cp.username ++
    optionalBytes cp.password

/-- What `Encode` checks of a packet before it writes it. -/
structure Valid (cp : ConnectPacket) : Prop where
  version : cp.version = Version311 ∨ cp.version = Version31
  will : ∀ w, cp.will = some w → w.topic.length ≠ 0 ∧ validQOS w.qos = true ∧
    w.topic.length ≤ maxLPLength ∧ w.payload.length ≤ maxLPLength
  cleanSession : ¬ (cp.clientID.length = 0 ∧ cp.cleanSession = false)
  password : ¬ (cp.username.length = 0 ∧ cp.password.length > 0)
  clientID_le : cp.clientID.length ≤ maxLPLength
  username_le : cp.username.length ≤ maxLPLength
  password_le : cp.password.length ≤ maxLPLength
  len_le : (cp.len : Int) ≤ MaxRemainingLength

theorem len_normalized (cp : ConnectPacket) : cp.normalized.len = cp.len := by
  unfold normalized
  split_ifs with h
  · simp [len, h, Version31, Version311]
  · rfl

theorem Len_normalized (cp : ConnectPacket) : cp.normalized.Len = cp.Len := by
  rw [Len, Len, len_normalized]

theorem twelve_le_len (cp : ConnectPacket) : 12 ≤ cp.len := by
  unfold len
  split_ifs <;> omega

theorem writeLPBytes_versionName {hdr : List UInt8} {cp : ConnectPacket}
    (hh : hdr = frame (typeAndFlags .connect 0) [] cp.len) (h0 : (0 : Int) ≤ cp.len)
    (hmax : (cp.len : Int) ≤ MaxRemainingLength) (name : List UInt8) (hname : name.length ≤ 6) :
    writeLPBytes (cp.Len - hdr.length) name .connect = .ok (lpBytes name) := by
  have hlen : hdr.length = headerLen cp.len := by
    rw [hh, length_frame _ _ h0 hmax, List.length_nil, Nat.add_zero]
  have h12 := twelve_le_len cp
  apply writeLPBytes_ok
  · simp only [maxLPLength]
    omega
  · rw [hlen, Len]
    omega

theorem optionalBytes_of_write {b l : List UInt8} {n k : Nat}
    (h : if b.length > 0 then (writeLPString n b .connect).offset k = .ok l else l = []) :
    l = optionalBytes b ∧ b.length ≤ maxLPLength := by
  by_cases hb : b.length > 0
  · rw [if_pos hb] at h
    obtain ⟨hl, rfl⟩ := writeLPBytes_eq_ok (Outcome.offset_eq_ok.mp h)
    exact ⟨by rw [optionalBytes, if_pos hb], hl⟩
  · rw [if_neg hb] at h
    refine ⟨by rw [h, optionalBytes, if_neg hb], ?_⟩
    simp only [maxLPLength]
    omega

theorem flagsOf_bits {cp : ConnectPacket} (hq : ∀ w, cp.will = some w → validQOS w.qos = true) :
    ((cp.flagsOf >>> 7) &&& 1 = 1 ↔ cp.username.length > 0) ∧
      ((cp.flagsOf >>> 6) &&& 1 = 1 ↔ cp.password.length > 0) ∧
      ((cp.flagsOf >>> 2) &&& 1 = 1 ↔ cp.will.isSome = true) ∧
      ((cp.flagsOf >>> 5) &&& 1 = 1 ↔ (cp.will.map Message.retain).getD false = true) ∧
      (cp.flagsOf >>> 3) &&& 3 = (cp.will.map Message.qos).getD 0 ∧
      decide ((cp.flagsOf >>> 1) &&& 1 = 1) = cp.cleanSession ∧
      cp.flagsOf &&& 1 = 0 := by
  obtain ⟨clientID, keepAlive, username, password, cleanSession, will, version⟩ := cp
  rcases will with _ | ⟨topic, payload, qos, retain⟩
  · by_cases hu : username.length > 0 <;> by_cases hp : password.length > 0 <;>
      cases cleanSession <;>
      simp only [flagsOf, hu, hp, ↓reduceIte, Bool.false_eq_true, Option.isSome_none,
        Option.map_none, Option.getD_none] <;> decide
  · have h3 := (validQOS_iff qos).mp (hq _ rfl)
    rcases qos_cases qos with rfl | rfl | rfl | h
    rotate_left 3
    · omega
    all_goals by_cases hu : username.length > 0 <;> by_cases hp : password.length > 0 <;>
      cases cleanSession <;> cases retain <;>
      simp only [flagsOf, hu, hp, ↓reduceIte, Bool.false_eq_true, Option.isSome_some,
        Option.map_some, Option.getD_some] <;> decide

theorem encode_Len_eq_ok {cp cp' : ConnectPacket} {out : List UInt8}
    (h : cp.encode cp.Len = .ok (out, cp')) :
    cp' = cp.normalized ∧ cp'.Valid ∧
      out = frame (typeAndFlags .connect 0) cp'.body cp'.len := by
  rw [encode] at h
  obtain ⟨hdr, hh, h⟩ := Outcome.bind_eq_ok.mp h
  obtain ⟨h0, hmax, hh⟩ := headerEncode_eq_ok hh
  extract_lets -underBinder +onlyGivenNames out0 jpVersion at h
  rw [← apply_ite (jpVersion ())] at h
  rw [show (if cp.version = 0 then { cp with version := Version311 } else cp) = cp.normalized
    from rfl] at h
  simp -zeta only [jpVersion] at h
  extract_lets -underBinder +onlyGivenNames jpCheck at h
  obtain ⟨hv, h⟩ := Outcome.guard_eq_ok.mp h
  simp -zeta only [jpCheck] at h
  extract_lets -underBinder +onlyGivenNames jpName at h
  rw [← apply_ite (jpName ()) (cp.normalized.version = Version31),
    ← apply_ite (jpName ())] at h
  generalize hname : ite (cp.normalized.version = Version311) _ _ = out1 at h
  simp -zeta only [jpName] at h
  extract_lets -underBinder +onlyGivenNames out2 f0 jpUser at h
  rw [← apply_ite (jpUser ())] at h
  generalize hf1 : ite (cp.normalized.username.length > 0) _ _ = f1 at h
  simp -zeta only [jpUser] at h
  extract_lets -underBinder +onlyGivenNames jpPass at h
  rw [← apply_ite (jpPass ())] at h
  generalize hf2 : ite (cp.normalized.password.length > 0) _ _ = f2 at h
  simp -zeta only [jpPass] at h
  extract_lets -underBinder +onlyGivenNames jpWill at h
  have hflags : ∃ f3, jpWill () f3 = .ok (out, cp') ∧
      f3 = (match cp.normalized.will with
        | some w => if w.retain then ((f2 ||| 4) &&& 231 ||| w.qos <<< (3 : UInt8)) ||| 32
          else ((f2 ||| 4) &&& 231 ||| w.qos <<< (3 : UInt8)) &&& 223
        | none => f2 &&& 251) ∧
      ∀ w, cp.normalized.will = some w → w.topic.length ≠ 0 ∧ validQOS w.qos = true := by
    rcases hw : cp.normalized.will with _ | w
    · rw [hw] at h
      exact ⟨_, h, rfl, nofun⟩
    · rw [hw] at h
      simp -zeta only at h
      extract_lets -underBinder +onlyGivenNames f3 jpTopic at h
      obtain ⟨ht, h⟩ := Outcome.guard_eq_ok.mp h
      simp -zeta only [jpTopic] at h
      extract_lets -underBinder +onlyGivenNames jpQos at h
      obtain ⟨hq, h⟩ := Outcome.guard_eq_ok.mp h
      simp -zeta only [jpQos] at h
      extract_lets -underBinder +onlyGivenNames f4 at h
      rw [← apply_ite (jpWill ())] at h
      refine ⟨_, h, rfl, ?_⟩
      rintro w ⟨⟩
      simpa using And.intro ht hq
  obtain ⟨f3, h, hf3, hwill⟩ := hflags
  simp -zeta only [jpWill] at h
  extract_lets -underBinder +onlyGivenNames jpClean at h
  obtain ⟨hclean, h⟩ := Outcome.guard_eq_ok.mp h
  simp -zeta only [jpClean] at h
  extract_lets -underBinder +onlyGivenNames jpFields at h
  rw [← apply_ite (jpFields ())] at h
  generalize hf4 : ite (cp.normalized.cleanSession = true) _ _ = f4 at h
  simp -zeta only [jpFields] at h
  extract_lets -underBinder +onlyGivenNames out3 at h
  obtain ⟨lid, hid, h⟩ := Outcome.bind_eq_ok.mp h
  obtain ⟨hidl, rfl⟩ := writeLPBytes_eq_ok (Outcome.offset_eq_ok.mp hid)
  extract_lets -underBinder +onlyGivenNames out4 jpWillFields at h
  have hfields : ∃ out5, jpWillFields () out5 = .ok (out, cp') ∧
      out5 = out4 ++ willBytes cp.normalized.will ∧
      ∀ w, cp.normalized.will = some w →
        w.topic.length ≤ maxLPLength ∧ w.payload.length ≤ maxLPLength := by
    rcases hw : cp.normalized.will with _ | w
    · rw [hw] at h
      exact ⟨_, h, by rw [willBytes, List.append_nil], nofun⟩
    · rw [hw] at h
      simp -zeta only at h
      obtain ⟨lt, ht, h⟩ := Outcome.bind_eq_ok.mp h
      obtain ⟨lp, hp, h⟩ := Outcome.bind_eq_ok.mp h
      obtain ⟨htl, rfl⟩ := writeLPBytes_eq_ok (Outcome.offset_eq_ok.mp ht)
      obtain ⟨hpl, rfl⟩ := writeLPBytes_eq_ok (Outcome.offset_eq_ok.mp hp)
      refine ⟨_, h, by rw [willBytes, List.append_assoc], ?_⟩
      rintro w ⟨⟩
      exact ⟨htl, hpl⟩
  obtain ⟨out5, h, hout5, hwl⟩ := hfields
  simp -zeta only [jpWillFields] at h
  extract_lets -underBinder +onlyGivenNames jpUserPass at h
  obtain ⟨hup, h⟩ := Outcome.guard_eq_ok.mp h
  simp -zeta only [jpUserPass] at h
  extract_lets -underBinder +onlyGivenNames jpPassword at h
  obtain ⟨lu, hlu, h⟩ := Outcome.ite_bind_eq_ok (k := jpPassword ()) h
  simp -zeta only [jpPassword] at h
  extract_lets -underBinder +onlyGivenNames jpDone at h
  obtain ⟨lpw, hlpw, h⟩ := Outcome.ite_bind_eq_ok (k := jpDone ()) h
  simp -zeta only [jpDone, Outcome.pure_eq_ok, Outcome.ok.injEq, Prod.mk.injEq] at h
  obtain ⟨rfl, rfl⟩ := h
  obtain ⟨rfl, hul⟩ := optionalBytes_of_write hlu
  obtain ⟨rfl, hpl⟩ := optionalBytes_of_write hlpw
  have hversion : cp.normalized.version = Version311 ∨ cp.normalized.version = Version31 := by
    simpa only [ne_eq, not_and_or, not_not] using hv
  have hname' : out1 = hdr ++ lpBytes (protocolName cp.normalized.version) := by
    rcases hversion with h4 | h3
    · rw [if_pos h4] at hname
      simp only [out0, writeLPBytes_versionName hh h0 hmax version311Name (by decide)] at hname
      rw [← hname, protocolName, if_pos h4]
    · have h4 : cp.normalized.version ≠ Version311 := by
        rw [h3]
        decide
      rw [if_neg h4, if_pos h3] at hname
      simp only [out0, writeLPBytes_versionName hh h0 hmax version31Name (by decide)] at hname
      rw [← hname, protocolName, if_neg h4]
  have hflagsOf : f4 = cp.normalized.flagsOf := by
    subst hf1 hf2 hf3 hf4
    rfl
  refine ⟨rfl, ⟨hversion, fun w hw => ?_, by simpa using hclean, hup, hidl, hul, hpl,
    by rwa [len_normalized]⟩, ?_⟩
  · exact ⟨(hwill w hw).1, (hwill w hw).2, hwl w hw⟩
  · simp only [hout5, out4, out3, out2, hname', hh, hflagsOf, len_normalized, frame, body,
      List.append_assoc, List.cons_append, List.nil_append, List.append_nil]

theorem length_protocolName {v : UInt8} (h : v = Version311 ∨ v = Version31) :
    (protocolName v).length = if v = Version31 then 6 else 4 := by
  rcases h with rfl | rfl <;> decide

theorem length_body {cp : ConnectPacket} (hv : cp.Valid) : cp.body.length = cp.len := by
  have hn := length_protocolName hv.version
  rcases hw : cp.will with _ | w <;>
    simp only [body, len, willBytes, optionalBytes, hw, hn, List.length_append, length_lpBytes,
      List.length_cons, List.length_nil, length_putUint16] <;>
    split_ifs <;> simp only [List.length_nil, length_lpBytes] <;> omega

theorem drop_lpBytes_of_drop {src b rest : List UInt8} {t : Nat}
    (h : src.drop t = lpBytes b ++ rest) : src.drop (t + (2 + b.length)) = rest := by
  rw [← length_lpBytes]
  exact drop_add_of_drop h

theorem uint16_getD_of_drop {src rest : List UInt8} {t : Nat} {v : UInt16}
    (h : src.drop t = putUint16 v ++ rest) : uint16 (src.getD t 0) (src.getD (t + 1) 0) = v := by
  have h1 : src.getD t 0 = (v >>> 8).toUInt8 := getD_of_drop h
  have h2 : src.getD (t + 1) 0 = v.toUInt8 :=
    getD_of_drop (drop_add_of_drop (show src.drop t = [(v >>> 8).toUInt8] ++ _ from h))
  rw [h1, h2, uint16_putUint16]

theorem ite_readLPString_eq {β : Type} {p : Prop} [Decidable p] {src rest b : List UInt8} {t : Nat}
    (hp : p ↔ b.length > 0) (hb : b.length ≤ maxLPLength) (hs : src.drop t = optionalBytes b ++ rest)
    (k : List UInt8 → Nat → Outcome β) {kd : Outcome β} (hk : k [] 0 = kd) :
    (if p then (Outcome.offset t (readLPString (src.drop t) .connect)) >>= (fun x => k x.1 x.2)
      else kd) = k b (optionalBytes b).length := by
  by_cases hb0 : b.length > 0
  · rw [if_pos (hp.mpr hb0), hs, optionalBytes, if_pos hb0, readLPString_lpBytes hb,
      Outcome.offset_ok, Outcome.ok_bind, length_lpBytes]
  · rw [if_neg (mt hp.mp hb0), ← hk, List.eq_nil_of_length_eq_zero (by omega : b.length = 0)]
    rfl

theorem decode_encoded {cp : ConnectPacket} (hv : cp.Valid) :
    newConnectPacket.decode (frame (typeAndFlags .connect 0) cp.body cp.len) = .ok (cp.Len, cp) := by
  have h0 : (0 : Int) ≤ cp.len := by omega
  have hmax := hv.len_le
  have hd : headerDecode (frame (typeAndFlags .connect 0) cp.body cp.len) .connect =
      .ok (headerLen cp.len, PacketType.connect.defaultFlags ||| 0, cp.len) :=
    headerDecode_headerEncoded .connect (show (0 : UInt8).toNat < 16 by decide) (fun _ => rfl) h0
      hmax cp.body (by rw [length_body hv])
  have hs0 : (frame (typeAndFlags .connect 0) cp.body cp.len).drop (headerLen cp.len) =
      lpBytes (protocolName cp.version) ++ (cp.version :: cp.flagsOf :: (putUint16 cp.keepAlive ++
        (lpBytes cp.clientID ++ (willBytes cp.will ++ (optionalBytes cp.username ++
          optionalBytes cp.password))))) := by
    simpa [body, List.append_assoc] using drop_frame (typeAndFlags .connect 0) cp.body 0 h0 hmax
  generalize frame (typeAndFlags .connect 0) cp.body cp.len = src at hd hs0
  rw [decode, hd, Outcome.ok_bind]
  simp -zeta only
  extract_lets -underBinder +onlyGivenNames t0 at ⊢
  have hname : (protocolName cp.version).length ≤ maxLPLength := by
    rw [length_protocolName hv.version]
    split_ifs <;> decide
  rw [hs0, readLPBytes_lpBytes hname, Outcome.offset_ok, Outcome.ok_bind]
  extract_lets -underBinder +onlyGivenNames t1 jpVersion at ⊢
  have hs1 : src.drop t1 = cp.version :: cp.flagsOf :: (putUint16 cp.keepAlive ++
      (lpBytes cp.clientID ++ (willBytes cp.will ++ (optionalBytes cp.username ++
        optionalBytes cp.password)))) :=
    drop_lpBytes_of_drop hs0
  rw [if_neg (not_length_lt_of_drop hs1 (by decide) (by simp))]
  simp -zeta only [jpVersion]
  extract_lets -underBinder +onlyGivenNames versionByte t2 jpName at ⊢
  have hvb : versionByte = cp.version := getD_of_drop hs1
  rw [if_neg (by rw [hvb]; rcases hv.version with h | h <;> simp [h, Version31, Version311])]
  simp -zeta only [jpName]
  extract_lets -underBinder +onlyGivenNames cp1 jpFlags at ⊢
  rw [if_neg (by unfold protocolName; split_ifs <;> simp [version311Name, version31Name])]
  simp -zeta only [jpFlags]
  extract_lets -underBinder +onlyGivenNames jpRead at ⊢
  have hs2 : src.drop t2 = cp.flagsOf :: (putUint16 cp.keepAlive ++
      (lpBytes cp.clientID ++ (willBytes cp.will ++ (optionalBytes cp.username ++
        optionalBytes cp.password)))) :=
    drop_add_of_drop (show src.drop t1 = [cp.version] ++ _ from hs1)
  rw [if_neg (not_length_lt_of_drop hs2 (by decide) (by simp))]
  simp -zeta only [jpRead]
  extract_lets -underBinder +onlyGivenNames cf t3 uF pF wF wR wQ cp2 jpReserved at ⊢
  have hcf : cf = cp.flagsOf := getD_of_drop hs2
  have hbits := flagsOf_bits (fun w hw => (hv.will w hw).2.1)
  rw [← hcf] at hbits
  obtain ⟨huF, hpF, hwF, hwR, hwQ, hclean, hres⟩ : (uF ↔ _) ∧ (pF ↔ _) ∧ (wF ↔ _) ∧ (wR ↔ _) ∧
    wQ = _ ∧ _ := hbits
  rw [if_neg (by rw [hres]; exact fun h => h rfl)]
  simp -zeta only [jpReserved]
  extract_lets -underBinder +onlyGivenNames jpWillFlags at ⊢
  rw [if_neg (by
    rw [hwQ]
    rcases hw : cp.will with _ | w
    · decide
    · simp [(hv.will w hw).2.1])]
  simp -zeta only [jpWillFlags]
  extract_lets -underBinder +onlyGivenNames jpWill at ⊢
  rw [if_neg (by
    rw [hwF, hwR, hwQ]
    cases cp.will <;> simp)]
  simp -zeta only [jpWill]
  extract_lets -underBinder +onlyGivenNames jpPassword at ⊢
  rw [← apply_ite (jpPassword ())]
  generalize hcp3 : ite wF _ cp2 = cp3
  simp -zeta only [jpPassword]
  extract_lets -underBinder +onlyGivenNames jpKeepAlive at ⊢
  rw [if_neg (by rw [huF, hpF]; exact fun ⟨h1, h2⟩ => hv.password ⟨by omega, h2⟩)]
  simp -zeta only [jpKeepAlive]
  extract_lets -underBinder +onlyGivenNames jpClientID at ⊢
  have hs3 : src.drop t3 = putUint16 cp.keepAlive ++
      (lpBytes cp.clientID ++ (willBytes cp.will ++ (optionalBytes cp.username ++
        optionalBytes cp.password))) :=
    drop_add_of_drop (show src.drop t2 = [cp.flagsOf] ++ _ from hs2)
  rw [if_neg (not_length_lt_of_drop hs3 (by decide) (by simp))]
  simp -zeta only [jpClientID]
  extract_lets -underBinder +onlyGivenNames cp4 t4 at ⊢
  have hs4 : src.drop t4 = lpBytes cp.clientID ++ (willBytes cp.will ++
      (optionalBytes cp.username ++ optionalBytes cp.password)) := by
    have h := drop_add_of_drop hs3
    rwa [length_putUint16] at h
  rw [hs4, readLPString_lpBytes hv.clientID_le, Outcome.offset_ok, Outcome.ok_bind]
  extract_lets -underBinder +onlyGivenNames cp5 t5 jpWillFields at ⊢
  have hcp3 : cp3.username = [] ∧ cp3.password = [] ∧ cp3.cleanSession = cp.cleanSession ∧
      cp3.version = cp.version ∧
      cp3.will = if wF then some { topic := [], payload := [], qos := wQ, retain := decide wR }
        else none := by
    subst hcp3
    split_ifs <;> simp [cp2, cp1, newConnectPacket, hclean, hvb]
  rw [if_neg (by
    simp only [cp5, cp4, hcp3.2.2.1]
    simpa using hv.cleanSession)]
  simp -zeta only [jpWillFields]
  extract_lets -underBinder +onlyGivenNames jpUser at ⊢
  have hrest : ∀ t, src.drop t = optionalBytes cp.username ++ optionalBytes cp.password →
      t + (optionalBytes cp.username ++ optionalBytes cp.password).length = cp.Len →
      jpUser () { cp with username := [], password := [] } t = .ok (cp.Len, cp) := by
    intro t hs ht
    simp -zeta only [jpUser]
    extract_lets -underBinder +onlyGivenNames jpPass2 at ⊢
    refine (ite_readLPString_eq huF hv.username_le hs
      (fun u n => jpPass2 () { cp with username := u, password := [] } (t + n)) rfl).trans ?_
    simp -zeta only [jpPass2]
    extract_lets -underBinder +onlyGivenNames jpDone at ⊢
    refine (ite_readLPString_eq hpF hv.password_le
      ((drop_add_of_drop hs).trans (List.append_nil _).symm)
      (fun p n => jpDone () { cp with password := p } (t + (optionalBytes cp.username).length + n))
      rfl).trans ?_
    simp only [jpDone, Outcome.pure_eq_ok, Outcome.ok.injEq, Prod.mk.injEq, and_true]
    rw [← ht, List.length_append, Nat.add_assoc]
  have hs5 : src.drop t5 = willBytes cp.will ++
      (optionalBytes cp.username ++ optionalBytes cp.password) :=
    drop_lpBytes_of_drop hs4
  have hLen : t5 + (willBytes cp.will ++
      (optionalBytes cp.username ++ optionalBytes cp.password)).length = cp.Len := by
    have hb := length_body hv
    simp only [body, List.length_append, length_lpBytes, List.length_cons, List.length_nil,
      length_putUint16] at hb
    simp only [t5, t4, t3, t2, t1, t0, Len, List.length_append]
    omega
  have hka : uint16 (src.getD t3 0) (src.getD (t3 + 1) 0) = cp.keepAlive :=
    uint16_getD_of_drop hs3
  rcases hw : cp.will with _ | w
  · have hw5 : cp5.will = none := by
      simp only [cp5, cp4, hcp3.2.2.2.2, hwF, hw, Option.isSome_none, Bool.false_eq_true, if_false]
    have hc5 : cp5 = { cp with username := [], password := [] } := by
      simp only [cp5, cp4, hka, hcp3.1, hcp3.2.1, hcp3.2.2.1, hcp3.2.2.2.1, hcp3.2.2.2.2, hwF, hw,
        Option.isSome_none, Bool.false_eq_true, if_false]
    rw [hw5]
    simp -zeta only
    rw [hc5]
    rw [hw, willBytes, List.nil_append] at hs5 hLen
    exact hrest t5 hs5 hLen
  · have hw0 : decide wR = w.retain ∧ wQ = w.qos := by
      rw [hwQ, hw, Bool.eq_iff_iff, decide_eq_true_iff, hwR, hw]
      simp
    have hw5 : cp5.will = some { topic := [], payload := [], qos := wQ, retain := decide wR } := by
      simp only [cp5, cp4, hcp3.2.2.2.2, hwF, hw, Option.isSome_some, if_true]
    rw [hw5]
    simp -zeta only
    rw [hw, willBytes, List.append_assoc] at hs5 hLen
    rw [hs5, readLPString_lpBytes (hv.will w hw).2.2.1, Outcome.offset_ok, Outcome.ok_bind]
    extract_lets -underBinder +onlyGivenNames t6 at ⊢
    have hs6 : src.drop t6 = lpBytes w.payload ++
        (optionalBytes cp.username ++ optionalBytes cp.password) :=
      drop_lpBytes_of_drop hs5
    rw [hs6, readLPBytes_lpBytes (hv.will w hw).2.2.2, Outcome.offset_ok, Outcome.ok_bind]
    extract_lets -underBinder +onlyGivenNames t7 cp6 at ⊢
    have hc6 : cp6 = { cp with username := [], password := [] } := by
      simp only [cp6, cp5, cp4, hka, hcp3.1, hcp3.2.1, hcp3.2.2.1, hcp3.2.2.2.1, hw, hw0]
    rw [hc6]
    apply hrest t7 (drop_lpBytes_of_drop hs6)
    rw [← hLen]
    simp only [t7, t6, List.length_append, length_lpBytes]
    omega

/-- What a successful `Encode` of a CONNECT packet into a buffer of `Len()` bytes writes, a
fresh `Decode` reads back: all of it, and the packet with its version `0` replaced. -/
theorem connect_packets_read_back {cp cp' : ConnectPacket} {out : List UInt8}
    (h : cp.encode cp.Len = .ok (out, cp')) :
    cp' = cp.normalized ∧ newConnectPacket.decode out = .ok (cp.Len, cp') := by
  obtain ⟨rfl, hv, rfl⟩ := encode_Len_eq_ok h
  refine ⟨rfl, ?_⟩
  rw [decode_encoded hv, Len_normalized]

/-- A packet of version `0` with a will, a username and a password goes through. -/
theorem connect_packets_read_back_with_will :
    ({ newConnectPacket with
        clientID := [97], username := [117], password := [112],
        will := some { topic := [116], payload := [109], qos := 1, retain := true },
        version := 4 } : ConnectPacket) =
      ({ newConnectPacket with
          clientID := [97], username := [117], password := [112],
          will := some { topic := [116], payload := [109], qos := 1, retain := true },
          version := 0 } : ConnectPacket).normalized ∧
    newConnectPacket.decode [16, 25, 0, 4, 77, 81, 84, 84, 4, 238, 0, 0, 0, 1, 97, 0, 1, 116, 0, 1,
        109, 0, 1, 117, 0, 1, 112] =
      .ok (({ newConnectPacket with
          clientID := [97], username := [117], password := [112],
          will := some { topic := [116], payload := [109], qos := 1, retain := true },
          version := 0 } : ConnectPacket).Len,
        { newConnectPacket with
          clientID := [97], username := [117], password := [112],
          will := some { topic := [116], payload := [109], qos := 1, retain := true },
          version := 4 }) :=
  connect_packets_read_back (by decide)

end ConnectPacket

end GoMqtt.Packet
