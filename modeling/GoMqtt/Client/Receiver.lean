import GoMqtt.Client.Client
import GoMqtt.Lib.Machine

namespace GoMqtt

open GoMqtt.Packet GoMqtt.ClientSession GoMqtt.Machine

inductive Inbound
  | publish (p : PublishPacket)
  | pubrel (id : UInt16)

def Inbound.toEvent : Inbound → Client.Event
  | .publish p => .receive (.publish p)
  | .pubrel id => .receive (.pubrel id)

/-- The ids `Decode` accepts: a PUBLISH of QoS 1 or 2 and a PUBREL carry an id that is not
zero. -/
def Inbound.Valid : Inbound → Prop
  | .publish p => p.message.qos ≠ 0 → p.id ≠ 0
  | .pubrel id => id ≠ 0

instance : DecidablePred Inbound.Valid
  | .publish p => inferInstanceAs (Decidable (p.message.qos ≠ 0 → p.id ≠ 0))
  | .pubrel id => inferInstanceAs (Decidable (id ≠ 0))

/-- The receiving side of the QoS flows of MQTT: a QoS 0 or 1 message is handed over when it
arrives, a QoS 2 message is held under its id until its PUBREL, and each QoS 1 or 2 packet is
acknowledged. -/
structure Receiver where
  held : UInt16 → Option PublishPacket
  delivered : List Message
  acks : List GenericPacket

namespace Receiver

def step (r : Receiver) : Inbound → Receiver
  | .publish p =>
    if p.message.qos = 0 then { r with delivered := r.delivered ++ [p.message] }
    else if p.message.qos = 1 then
      { r with delivered := r.delivered ++ [p.message], acks := r.acks ++ [.puback p.id] }
    else if p.message.qos = 2 then
      { r with held := Function.update r.held p.id (some p), acks := r.acks ++ [.pubrec p.id] }
    else r
  | .pubrel id =>
    match r.held id with
    | some p =>
      { held := Function.update r.held id none, delivered := r.delivered ++ [p.message],
        acks := r.acks ++ [.pubcomp id] }
    | none => r

/-- What the receiver answers to one packet: PUBACK for QoS 1, PUBREC for QoS 2, and PUBCOMP
for the PUBREL of an id that holds a message. -/
def answer (r : Receiver) : Inbound → List GenericPacket
  | .publish p =>
    if p.message.qos = 1 then [.puback p.id]
    else if p.message.qos = 2 then [.pubrec p.id]
    else []
  | .pubrel id => if (r.held id).isSome then [.pubcomp id] else []

variable {r : Receiver} {p : PublishPacket}

theorem step_pubrel_of_held (h : r.held p.id = some p) :
    r.step (.pubrel p.id) =
      { held := Function.update r.held p.id none, delivered := r.delivered ++ [p.message],
        acks := r.acks ++ [.pubcomp p.id] } := by
  simp [step, h]

theorem step_pubrel_of_none {id : UInt16} (h : r.held id = none) : r.step (.pubrel id) = r := by
  simp [step, h]

theorem acks_step (r : Receiver) : ∀ i : Inbound, (r.step i).acks = r.acks ++ r.answer i
  | .publish p => by
    rcases qos_cases p.message.qos with h0 | h1 | h2 | h3
    · simp [step, answer, h0]
    · simp [step, answer, h1]
    · simp [step, answer, h2]
    · have hne : ∀ n : UInt8, n.toNat ≤ 2 → p.message.qos ≠ n := by
        rintro n hn rfl
        omega
      simp [step, answer, hne 0 (by decide), hne 1 (by decide), hne 2 (by decide)]
  | .pubrel id => by
    cases h : r.held id with
    | none => simp [step, answer, h]
    | some q => simp [step, answer, h]

theorem acks_run (r : Receiver) (ins : List Inbound) :
    (run step r ins).acks =
      r.acks ++ ((runTrace (fun r i => (r.step i, r.answer i)) r ins).2.map Prod.snd).flatten := by
  induction ins generalizing r with
  | nil => simp
  | cons i ins ih => simp [runTrace_cons, ih, acks_step, List.append_assoc]

end Receiver

namespace Client

open Client

/-- A client whose processor reads packets after the first and is not handling a CONNACK,
whose connection is open, and whose callback returns nil for every message. -/
structure Live (c : Client) : Prop where
  processing : c.processing = true
  first : c.first = false
  connack : c.connack = none
  isOpen : c.conn.isOpen = true
  callback : ∃ cb, c.callback = some cb ∧ ∀ m, cb.message m = false

/-- The client implements the receiver: the same messages handed over, the same
acknowledgements sent, and the incoming store holding what the receiver holds. -/
structure Implements (c : Client) (r : Receiver) : Prop where
  live : Live c
  delivered : c.delivered = r.delivered
  acks : c.conn.sent = r.acks
  held : ∀ i, c.session.incStore.lookup i = (r.held i).map .publish
  held_id : ∀ i p, r.held i = some p → p.id = i

variable {c : Client} {r : Receiver}

theorem Live.deliver (h : Live c) (msg : Message) :
    c.deliver msg = .ok { c with delivered := c.delivered ++ [msg] } := by
  obtain ⟨cb, hcb, hnil⟩ := h.callback
  exact deliver_of_callback hcb (hnil msg)

theorem Live.step_receive {c' : Client} (h : Live c) (pkt : GenericPacket)
    (hc : c.handle pkt = (c', none)) : c.step (.receive pkt) = c' :=
  step_receive_of_handle pkt h.processing h.first h.isOpen h.connack hc

theorem Live.processPublish (h : Live c) (p : PublishPacket) (hv : (Inbound.publish p).Valid) :
    c.processPublish p =
      (if p.message.qos = 0 then { c with delivered := c.delivered ++ [p.message] }
      else if p.message.qos = 1 then
        { c with delivered := c.delivered ++ [p.message],
                 conn := { c.conn with sent := c.conn.sent ++ [.puback p.id] } }
      else if p.message.qos = 2 then
        { c with session := c.session.savePacket .incoming (.publish p),
                 conn := { c.conn with sent := c.conn.sent ++ [.pubrec p.id] } }
      else c, none) := by
  rcases qos_cases p.message.qos with h0 | h1 | h2 | h3
  · simp [Client.processPublish, h0, h.deliver]
  · have hack := (Encoder.write_ack_isOk (hv (by simp [h1])) []).1
    simp [Client.processPublish, h1, h.deliver, sendOrDie, send_of_isOk, h.isOpen, hack]
  · have hack := (Encoder.write_ack_isOk (hv (by simp [h2])) []).2.1
    simp [Client.processPublish, h2, sendOrDie, send_of_isOk, h.isOpen, hack]
  · have hle : ¬ p.message.qos ≤ 1 := by
      rw [UInt8.le_iff_toNat_le]
      simp
      omega
    have hne : ∀ n : UInt8, n.toNat ≤ 2 → p.message.qos ≠ n := by
      rintro n hn rfl
      omega
    simp [Client.processPublish, hle, hne 0 (by decide), hne 1 (by decide), hne 2 (by decide)]

theorem processPubrel_of_not_publish {id : UInt16}
    (hlk : ∀ p, c.session.incStore.lookup id ≠ some (.publish p)) :
    c.processPubrel id = (c, none) := by
  unfold Client.processPubrel
  split
  · rename_i p hp
    exact absurd hp (hlk p)
  · rfl

theorem Live.processPubrel_of_publish (h : Live c) {id : UInt16} {p : PublishPacket} (hid : p.id ≠ 0)
    (hlk : c.session.incStore.lookup id = some (.publish p)) :
    c.processPubrel id =
      ({ c with delivered := c.delivered ++ [p.message],
                conn := { c.conn with sent := c.conn.sent ++ [.pubcomp p.id] },
                session := c.session.deletePacket .incoming id }, none) := by
  have hack := (Encoder.write_ack_isOk hid []).2.2.2
  simp [Client.processPubrel, hlk, h.deliver, sendOrDie, send_of_isOk, h.isOpen, hack]

theorem lookup_of_update {s s' : PacketStore} {held : UInt16 → Option PublishPacket}
    (hh : ∀ i, s.lookup i = (held i).map .publish) {k : UInt16} {o : Option PublishPacket}
    (hs' : ∀ i, s'.lookup i = if i = k then o.map .publish else s.lookup i) :
    ∀ i, s'.lookup i = (Function.update held k o i).map .publish := by
  intro i
  rw [hs' i]
  by_cases hi : i = k
  · simp [hi]
  · simp [hi, hh i]

theorem held_id_update {held : UInt16 → Option PublishPacket}
    (hid : ∀ i p, held i = some p → p.id = i) {k : UInt16} {o : Option PublishPacket}
    (ho : ∀ p, o = some p → p.id = k) : ∀ i p, Function.update held k o i = some p → p.id = i := by
  intro i p hp
  by_cases hi : i = k
  · subst hi
    rw [Function.update_self] at hp
    exact ho p hp
  · rw [Function.update_of_ne hi] at hp
    exact hid i p hp

theorem Implements.step_publish (h : Implements c r) (p : PublishPacket) (hv : (Inbound.publish p).Valid) :
    Implements (c.step (.receive (.publish p))) (r.step (.publish p)) := by
  obtain ⟨hl, hd, ha, hh, hid⟩ := h
  have live : ∀ c' : Client, c'.processing = c.processing → c'.first = c.first →
      c'.connack = c.connack → c'.conn.isOpen = c.conn.isOpen → c'.callback = c.callback →
      Live c' := by
    intro c' h1 h2 h3 h4 h5
    exact ⟨h1 ▸ hl.processing, h2 ▸ hl.first, h3 ▸ hl.connack, h4 ▸ hl.isOpen, h5 ▸ hl.callback⟩
  rw [hl.step_receive (.publish p) (hl.processPublish p hv)]
  rcases qos_cases p.message.qos with h0 | h1 | h2 | h3
  · simp only [h0, if_true, Receiver.step]
    exact ⟨live _ rfl rfl rfl rfl rfl, by rw [hd], ha, hh, hid⟩
  · simp only [h1, Receiver.step, if_true, if_false, show (1 : UInt8) ≠ 0 by decide]
    exact ⟨live _ rfl rfl rfl rfl rfl, by rw [hd], by rw [ha], hh, hid⟩
  · simp only [h2, Receiver.step, if_true, if_false, show (2 : UInt8) ≠ 0 by decide,
      show (2 : UInt8) ≠ 1 by decide]
    refine ⟨live _ rfl rfl rfl rfl rfl, hd, by rw [ha],
      lookup_of_update hh (PacketStore.lookup_save _ rfl), held_id_update hid ?_⟩
    rintro q ⟨⟩
    rfl
  · have hne : ∀ n : UInt8, n.toNat ≤ 2 → p.message.qos ≠ n := by
      rintro n hn rfl
      omega
    simp only [Receiver.step, hne 0 (by decide), hne 1 (by decide), hne 2 (by decide), if_false]
    exact ⟨hl, hd, ha, hh, hid⟩

theorem Implements.step_pubrel (h : Implements c r) (id : UInt16) (hv : (Inbound.pubrel id).Valid) :
    Implements (c.step (.receive (.pubrel id))) (r.step (.pubrel id)) := by
  obtain ⟨hl, hd, ha, hh, hid⟩ := h
  cases hr : r.held id with
  | none =>
    have hc : c.processPubrel id = (c, none) :=
      processPubrel_of_not_publish (by simp [hh id, hr])
    rw [hl.step_receive (.pubrel id) hc, Receiver.step_pubrel_of_none hr]
    exact ⟨hl, hd, ha, hh, hid⟩
  | some p =>
    obtain rfl : p.id = id := hid id p hr
    have hlk : c.session.incStore.lookup p.id = some (.publish p) := by
      rw [hh, hr]
      rfl
    rw [hl.step_receive (.pubrel p.id) (hl.processPubrel_of_publish hv hlk),
      Receiver.step_pubrel_of_held hr]
    exact ⟨⟨hl.processing, hl.first, hl.connack, hl.isOpen, hl.callback⟩, by rw [hd], by rw [ha],
      lookup_of_update hh (PacketStore.lookup_delete _ _), held_id_update hid nofun⟩

theorem Implements.step (h : Implements c r) : ∀ i : Inbound, i.Valid →
    Implements (c.step i.toEvent) (r.step i)
  | .publish p, hv => h.step_publish p hv
  | .pubrel id, hv => h.step_pubrel id hv

theorem Implements.run (h : Implements c r) (ins : List Inbound) (hins : ∀ i ∈ ins, i.Valid) :
    Implements (run Client.step c (ins.map Inbound.toEvent)) (run Receiver.step r ins) := by
  rw [run_map]
  exact run_simulation_of_forall (fun _ _ i hv h => h.step i hv) ins hins h

def toReceiver (c : Client) : Receiver :=
  { held := fun i => match c.session.incStore.lookup i with
      | some (.publish p) => some p
      | _ => none,
    delivered := c.delivered, acks := c.conn.sent }

theorem implements_toReceiver (hl : Live c)
    (hs : ∀ i pkt, c.session.incStore.lookup i = some pkt → ∃ p, pkt = .publish p ∧ p.id = i) :
    Implements c c.toReceiver := by
  refine ⟨hl, rfl, rfl, ?_, ?_⟩
  · intro i
    cases hi : c.session.incStore.lookup i with
    | none => simp [toReceiver, hi]
    | some pkt =>
      obtain ⟨p, rfl, -⟩ := hs i pkt hi
      simp [toReceiver, hi]
  · intro i p hp
    cases hi : c.session.incStore.lookup i with
    | none => simp [toReceiver, hi] at hp
    | some pkt =>
      obtain ⟨p', rfl, hid⟩ := hs i pkt hi
      simp only [toReceiver, hi, Option.some.injEq] at hp
      rw [← hp, hid]

/-- A client connected with `newConfig`, whose callback returns nil. -/
def connectedClient : Client :=
  run step (Client.new (some ⟨fun _ => false, fun _ => false⟩))
    [.connect newConfig, .receive (.connack ⟨false, ConnectionAccepted⟩), .continueConnack]

theorem live_connectedClient : Live connectedClient :=
  ⟨by decide, by decide, by decide, by decide, ⟨_, rfl, fun _ => rfl⟩⟩

theorem incStore_connectedClient :
    ∀ i pkt, connectedClient.session.incStore.lookup i = some pkt →
      ∃ p, pkt = .publish p ∧ p.id = i := by
  have hinc : connectedClient.session.incStore = newPacketStore := by decide
  intro i pkt h
  simp [hinc, newPacketStore, PacketStore.lookup] at h

theorem delivered_as_receiver (c : Client) (hl : Live c)
    (hs : ∀ i pkt, c.session.incStore.lookup i = some pkt → ∃ p, pkt = .publish p ∧ p.id = i)
    (ins : List Inbound) (hins : ∀ i ∈ ins, i.Valid) :
    (run step c (ins.map Inbound.toEvent)).delivered =
        (run Receiver.step c.toReceiver ins).delivered ∧
      ∀ i, (run step c (ins.map Inbound.toEvent)).session.incStore.lookup i =
        ((run Receiver.step c.toReceiver ins).held i).map .publish := by
  have h := (implements_toReceiver hl hs).run ins hins
  exact ⟨h.delivered, h.held⟩

theorem delivered_as_receiver_connected :
    let p : PublishPacket := { message := ⟨[97], [98], 2, false⟩, dup := false, id := 7 }
    let ins := [Inbound.publish p, .publish p, .pubrel 7, .pubrel 7]
    Live connectedClient ∧
      (∀ i pkt, connectedClient.session.incStore.lookup i = some pkt →
        ∃ p, pkt = .publish p ∧ p.id = i) ∧ (∀ i ∈ ins, i.Valid) ∧
      ((run step connectedClient (ins.map Inbound.toEvent)).delivered =
          (run Receiver.step connectedClient.toReceiver ins).delivered ∧
        ∀ i, (run step connectedClient (ins.map Inbound.toEvent)).session.incStore.lookup i =
          ((run Receiver.step connectedClient.toReceiver ins).held i).map .publish) :=
  ⟨live_connectedClient, incStore_connectedClient, by decide,
    delivered_as_receiver _ live_connectedClient incStore_connectedClient _ (by decide)⟩

example :
    let p : PublishPacket := { message := ⟨[97], [98], 2, false⟩, dup := false, id := 7 }
    (run step connectedClient ([Inbound.publish p, .publish p, .pubrel 7, .pubrel 7].map
      Inbound.toEvent)).delivered = [⟨[97], [98], 2, false⟩] := by
  decide

theorem acks_as_receiver (c : Client) (hl : Live c)
    (hs : ∀ i pkt, c.session.incStore.lookup i = some pkt → ∃ p, pkt = .publish p ∧ p.id = i)
    (ins : List Inbound) (hins : ∀ i ∈ ins, i.Valid) :
    (run step c (ins.map Inbound.toEvent)).conn.sent = (run Receiver.step c.toReceiver ins).acks :=
  ((implements_toReceiver hl hs).run ins hins).acks

theorem acks_as_receiver_connected :
    let p : PublishPacket := { message := ⟨[97], [98], 1, false⟩, dup := false, id := 3 }
    let ins := [Inbound.publish p, .pubrel 3]
    Live connectedClient ∧
      (∀ i pkt, connectedClient.session.incStore.lookup i = some pkt →
        ∃ p, pkt = .publish p ∧ p.id = i) ∧ (∀ i ∈ ins, i.Valid) ∧
      (run step connectedClient (ins.map Inbound.toEvent)).conn.sent =
        (run Receiver.step connectedClient.toReceiver ins).acks :=
  ⟨live_connectedClient, incStore_connectedClient, by decide,
    acks_as_receiver _ live_connectedClient incStore_connectedClient _ (by decide)⟩

/-- The client answers each packet in turn: PUBACK for QoS 1, PUBREC for QoS 2, and PUBCOMP for
a PUBREL whose id holds a stored message, and nothing else. -/
theorem answers_held_handshakes (c : Client) (hl : Live c)
    (hs : ∀ i pkt, c.session.incStore.lookup i = some pkt → ∃ p, pkt = .publish p ∧ p.id = i)
    (ins : List Inbound) (hins : ∀ i ∈ ins, i.Valid) :
    (run step c (ins.map Inbound.toEvent)).conn.sent =
      c.conn.sent ++ ((runTrace (fun r i => (r.step i, r.answer i)) c.toReceiver ins).2.map
        Prod.snd).flatten := by
  rw [((implements_toReceiver hl hs).run ins hins).acks, Receiver.acks_run]
  rfl

theorem answers_held_handshakes_connected :
    let p : PublishPacket := { message := ⟨[97], [98], 2, false⟩, dup := false, id := 4 }
    let ins := [Inbound.publish { p with message.qos := 1, id := 3 }, .publish p, .pubrel 4, .pubrel 4]
    Live connectedClient ∧
      (∀ i pkt, connectedClient.session.incStore.lookup i = some pkt →
        ∃ p, pkt = .publish p ∧ p.id = i) ∧ (∀ i ∈ ins, i.Valid) ∧
      (run step connectedClient (ins.map Inbound.toEvent)).conn.sent =
        connectedClient.conn.sent ++ ((runTrace (fun r i => (r.step i, r.answer i))
          connectedClient.toReceiver ins).2.map Prod.snd).flatten :=
  ⟨live_connectedClient, incStore_connectedClient, by decide,
    answers_held_handshakes _ live_connectedClient incStore_connectedClient _ (by decide)⟩

theorem pubrel_without_stored_publish_unanswered (c : Client) (id : UInt16)
    (h : c.session.incStore.lookup id = none) :
    (c.step (.receive (.pubrel id))).conn.sent = c.conn.sent := by
  have hpr : c.processPubrel id = (c, none) := processPubrel_of_not_publish (by simp [h])
  simp only [step, receive]
  split_ifs
  · rfl
  · simp [processorReturns]
  · rw [show c.handle (.pubrel id) = (c, none) from hpr]

theorem pubrel_unanswered_on_connected :
    connectedClient.session.incStore.lookup 1 = none ∧
      (connectedClient.step (.receive (.pubrel 1))).conn.sent = connectedClient.conn.sent :=
  ⟨by decide, pubrel_without_stored_publish_unanswered _ _ (by decide)⟩

end Client

end GoMqtt
