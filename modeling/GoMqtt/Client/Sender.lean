import GoMqtt.Client.Receiver

namespace GoMqtt

open GoMqtt.Packet GoMqtt.ClientSession GoMqtt.Future GoMqtt.Machine GoMqtt.Lists

namespace Client

variable {c : Client}

theorem processPubrec_of_isOpen (h : c.conn.isOpen = true) {id : UInt16} (hid : id ≠ 0) :
    c.processPubrec id =
      ({ c with session := c.session.savePacket .outgoing (.pubrel id),
                conn := { c.conn with sent := c.conn.sent ++ [.pubrel id] } }, none) := by
  have hrel := (Encoder.write_ack_isOk hid []).2.2.1
  simp [processPubrec, sendOrDie, send_of_isOk, h, hrel]

theorem pubrec_stores_pubrel (c : Client) (id : UInt16) (hid : id ≠ 0) (hp : c.processing = true)
    (hf : c.first = false) (hn : c.connack = none) (ho : c.conn.isOpen = true) :
    (c.step (.receive (.pubrec id))).session.outStore.lookup id = some (.pubrel id) ∧
      (c.step (.receive (.pubrec id))).conn.sent = c.conn.sent ++ [.pubrel id] := by
  rw [step_receive_of_handle (.pubrec id) hp hf ho hn (processPubrec_of_isOpen ho hid)]
  exact ⟨PacketStore.lookup_save_self _ rfl, rfl⟩

theorem pubrec_stores_pubrel_connected :
    (5 : UInt16) ≠ 0 ∧ connectedClient.processing = true ∧ connectedClient.first = false ∧
      connectedClient.connack = none ∧ connectedClient.conn.isOpen = true ∧
      connectedClient.futureStore.get 5 = none ∧ connectedClient.session.outStore.lookup 5 = none ∧
      (connectedClient.step (.receive (.pubrec 5))).session.outStore.lookup 5 = some (.pubrel 5) ∧
      (connectedClient.step (.receive (.pubrec 5))).conn.sent = connectedClient.conn.sent ++ [.pubrel 5] :=
  ⟨by decide, by decide, by decide, by decide, by decide, by decide, by decide,
    pubrec_stores_pubrel _ _ (by decide) (by decide) (by decide) (by decide) (by decide)⟩

end Client

inductive Outbound
  | publish (msg : Message)
  | puback (id : UInt16)
  | pubrec (id : UInt16)
  | pubcomp (id : UInt16)

def Outbound.toEvent : Outbound → Client.Event
  | .publish msg => .publishMessage msg
  | .puback id => .receive (.puback id)
  | .pubrec id => .receive (.pubrec id)
  | .pubcomp id => .receive (.pubcomp id)

/-- A message in flight, with the future returned for it: published and waiting for its
PUBACK (QoS 1) or PUBREC (QoS 2), or released and waiting for its PUBCOMP. -/
inductive Flight
  | published (p : PublishPacket) (future : Nat)
  | released (future : Nat)
  deriving DecidableEq, Repr

namespace Flight

def future : Flight → Nat
  | .published _ f | .released f => f

/-- The packet that stands for a flight under `id`, and that is sent again on a new
connection. -/
def packet (id : UInt16) : Flight → GenericPacket
  | .published p _ => .publish p
  | .released _ => .pubrel id

def HasID (id : UInt16) (fl : Flight) : Prop :=
  ∀ p f, fl = .published p f → p.id = id

end Flight

/-- The sending side of the QoS 1 and 2 flows of MQTT: ids come from a counter that skips
zero, no id is in flight twice, the packet of every flight is one `Encode` accepts, and a
message leaves the flight, with its future completed, on its PUBACK or on the PUBCOMP after its
PUBREC. -/
structure Sender where
  counter : IDCounter
  inflight : UInt16 → Option Flight
  sent : List GenericPacket
  futures : List FutureState
  current_ne_zero : counter.current ≠ 0
  inflight_zero : inflight 0 = none
  hasID : ∀ i fl, inflight i = some fl → fl.HasID i
  encodes : ∀ i fl, inflight i = some fl → (Encoder.write [] (fl.packet i)).isOk

namespace Sender

variable (r : Sender)

theorem ne_zero_of_inflight {id : UInt16} {fl : Flight} (h : r.inflight id = some fl) : id ≠ 0 := by
  rintro rfl
  rw [r.inflight_zero] at h
  cases h

def next (msg : Message) : PublishPacket :=
  { newPublishPacket with message := msg, id := r.counter.current }

def launch (msg : Message) (h : (Encoder.write [] (.publish (r.next msg))).isOk) : Sender :=
  { counter := r.counter.nextID.2,
    inflight := Function.update r.inflight r.counter.current
      (some (.published (r.next msg) (new r.futures).1)),
    sent := r.sent ++ [.publish (r.next msg)],
    futures := (new r.futures).2,
    current_ne_zero := IDCounter.current_nextID_ne_zero r.counter,
    inflight_zero := by rw [Function.update_of_ne (Ne.symm r.current_ne_zero), r.inflight_zero],
    hasID := forall_update r.hasID (by rintro fl ⟨⟩ p f ⟨⟩; rfl),
    encodes := forall_update r.encodes (by rintro fl ⟨⟩; exact h) }

def release (id : UInt16) (f : Nat) (h : id ≠ 0) : Sender :=
  { r with
    inflight := Function.update r.inflight id (some (.released f)),
    sent := r.sent ++ [.pubrel id],
    inflight_zero := by rw [Function.update_of_ne (Ne.symm h), r.inflight_zero],
    hasID := forall_update r.hasID (by rintro fl ⟨⟩ p f ⟨⟩),
    encodes := forall_update r.encodes (by rintro fl ⟨⟩; exact (Encoder.write_ack_isOk h []).2.2.1) }

def finish (id : UInt16) (f : Nat) : Sender :=
  { r with
    inflight := Function.update r.inflight id none,
    futures := complete r.futures f,
    inflight_zero := by
      by_cases h : id = 0
      · rw [h, Function.update_self]
      · rw [Function.update_of_ne (Ne.symm h), r.inflight_zero],
    hasID := forall_update r.hasID nofun,
    encodes := forall_update r.encodes nofun }

/-- One call or acknowledgement; `none` where the application or the broker steps outside what
the client carries out: a message `Encode` refuses (an empty topic, a QoS above 2, a field too
long), an id handed out while still in flight, or an acknowledgement of the wrong kind for the
flight of its id. Stray PUBACK and PUBCOMP packets are ignored. -/
def step : Outbound → Option Sender
  | .publish msg =>
    if msg.qos = 0 then
      if (Encoder.write [] (.publish { newPublishPacket with message := msg })).isOk then
        some { r with
          sent := r.sent ++ [.publish { newPublishPacket with message := msg }],
          futures := complete (new r.futures).2 (new r.futures).1 }
      else none
    else if h : (Encoder.write [] (.publish (r.next msg))).isOk ∧
        r.inflight r.counter.current = none then some (r.launch msg h.1)
    else none
  | .puback id =>
    match r.inflight id with
    | none => some r
    | some (.published p f) => if p.message.qos = 1 then some (r.finish id f) else none
    | some (.released _) => none
  | .pubrec id =>
    match h : r.inflight id with
    | some (.published p f) =>
      if p.message.qos = 2 then some (r.release id f (r.ne_zero_of_inflight h)) else none
    | some (.released _) => some { r with sent := r.sent ++ [.pubrel id] }
    | none => none
  | .pubcomp id =>
    match r.inflight id with
    | none => some r
    | some (.released f) => some (r.finish id f)
    | some (.published _ _) => none

theorem step_publish_of_isOk (msg : Message) (hq : msg.qos ≠ 0)
    (he : (Encoder.write [] (.publish (r.next msg))).isOk) (hf : r.inflight r.counter.current = none) :
    r.step (.publish msg) = some (r.launch msg he) := by
  simp only [step]
  rw [if_neg hq, dif_pos ⟨he, hf⟩]

def idle (counter : IDCounter) (h : counter.current ≠ 0) (sent : List GenericPacket)
    (futures : List FutureState) : Sender :=
  { counter, inflight := fun _ => none, sent, futures, current_ne_zero := h, inflight_zero := rfl,
    hasID := nofun, encodes := nofun }

end Sender

namespace Client

variable {c : Client} {msg : Message}

theorem publishMessage_of_qos_zero (hs : c.state = .clientConnected) (ho : c.conn.isOpen = true)
    (h0 : msg.qos = 0) (he : (Encoder.write [] (.publish { newPublishPacket with message := msg })).isOk) :
    (c.publishMessage msg).1 = { c with
      conn := { c.conn with sent := c.conn.sent ++ [.publish { newPublishPacket with message := msg }] },
      futures := complete (Future.new c.futures).2 (Future.new c.futures).1,
      futureStore := (c.futureStore.put 0 (Future.new c.futures).1).delete 0 } := by
  simp only [newPublishPacket] at he
  simp [publishMessage, hs, h0, send_of_isOk, ho, he, newPublishPacket]

theorem publishMessage_of_qos_pos (hs : c.state = .clientConnected) (ho : c.conn.isOpen = true)
    (hq : msg.qos ≠ 0)
    (he : (Encoder.write [] (.publish { newPublishPacket with message := msg, id := c.session.counter.current })).isOk) :
    (c.publishMessage msg).1 =
      let p : PublishPacket := { newPublishPacket with message := msg, id := c.session.counter.current }
      { c with
        session := c.session.nextID.2.savePacket .outgoing (.publish p),
        conn := { c.conn with sent := c.conn.sent ++ [.publish p] },
        futures := (Future.new c.futures).2,
        futureStore := c.futureStore.put c.session.counter.current (Future.new c.futures).1 } := by
  have hpos : 0 < msg.qos := by
    rw [UInt8.lt_iff_toNat_lt]
    have : msg.qos.toNat ≠ 0 := fun h => hq (UInt8.toNat_inj.mp h)
    simp only [UInt8.toNat_zero]
    omega
  simp only [newPublishPacket] at he
  simp [publishMessage, hs, hq, hpos, send_of_isOk, ho, he, newPublishPacket, MemorySession.nextID,
    IDCounter.nextID]

theorem acknowledge_of_get_some {id : UInt16} {f : Nat} (h : c.futureStore.get id = some f) :
    c.acknowledge id =
      ({ c with session := c.session.deletePacket .outgoing id, futures := complete c.futures f,
                futureStore := c.futureStore.delete id }, none) := by
  simp [acknowledge, h]

theorem acknowledge_of_get_none {id : UInt16} (h : c.futureStore.get id = none) :
    c.acknowledge id = ({ c with session := c.session.deletePacket .outgoing id }, none) := by
  simp [acknowledge, h]

theorem acknowledge_snd (id : UInt16) : (c.acknowledge id).2 = none := by
  cases h : c.futureStore.get id with
  | none => rw [acknowledge_of_get_none h]
  | some f => rw [acknowledge_of_get_some h]

end Client

open Client

section Represent

variable {g : UInt16 → Option Flight}

theorem getID_packet {id : UInt16} {fl : Flight} (h : fl.HasID id) : (fl.packet id).getID = some id := by
  cases fl with
  | published p f => rw [Flight.packet, GenericPacket.getID, h p f rfl]
  | released f => rfl

theorem lookup_save_packet {s : PacketStore} (hs : ∀ i, s.lookup i = (g i).map (Flight.packet i))
    (id : UInt16) (fl : Flight) (hid : fl.HasID id) :
    ∀ i, (s.save (fl.packet id)).lookup i = (Function.update g id (some fl) i).map (Flight.packet i) :=
  agree_update (F := fun i (o : Option Flight) => o.map (Flight.packet i)) hs (PacketStore.lookup_save s (getID_packet hid))

theorem lookup_delete_packet {s : PacketStore} (hs : ∀ i, s.lookup i = (g i).map (Flight.packet i))
    (id : UInt16) : ∀ i, (s.delete id).lookup i = (Function.update g id none i).map (Flight.packet i) :=
  agree_update (F := fun i (o : Option Flight) => o.map (Flight.packet i)) hs (PacketStore.lookup_delete s id)

theorem get_put_future {s : Store} (hs : ∀ i, s.get i = (g i).map Flight.future) (id : UInt16)
    (fl : Flight) : ∀ i, (s.put id fl.future).get i = (Function.update g id (some fl) i).map Flight.future := by
  refine agree_update (F := fun _ (o : Option Flight) => o.map Flight.future) hs fun i => ?_
  by_cases hi : i = id
  · rw [if_pos hi, hi, Store.get_put_self]
    rfl
  · rw [if_neg hi, Store.get_put_of_ne _ _ hi]

theorem get_delete_future {s : Store} (hs : ∀ i, s.get i = (g i).map Flight.future) (id : UInt16) :
    ∀ i, (s.delete id).get i = (Function.update g id none i).map Flight.future := by
  refine agree_update (F := fun _ (o : Option Flight) => o.map Flight.future) hs fun i => ?_
  by_cases hi : i = id
  · rw [if_pos hi, hi, Store.get_delete_self]
    rfl
  · rw [if_neg hi, Store.get_delete_of_ne _ hi]

theorem get_future_of_eq {s : Store} (hs : ∀ i, s.get i = (g i).map Flight.future) {id : UInt16}
    {fl fl' : Flight} (hfl : g id = some fl') (hf : fl.future = fl'.future) :
    ∀ i, s.get i = (Function.update g id (some fl) i).map Flight.future := by
  refine agree_update (F := fun _ (o : Option Flight) => o.map Flight.future) hs fun i => ?_
  by_cases hi : i = id
  · rw [if_pos hi, hi, hs, hfl]
    simp [hf]
  · rw [if_neg hi]

end Represent

/-- The client implements the sender: it is connected and reading, and its connection, id
counter, outgoing store, future store and futures show the sender's. -/
structure ImplementsSender (c : Client) (r : Sender) : Prop where
  connected : c.state = .clientConnected
  processing : c.processing = true
  first : c.first = false
  connack : c.connack = none
  isOpen : c.conn.isOpen = true
  sent : c.conn.sent = r.sent
  counter : c.session.counter = r.counter
  store : ∀ i, c.session.outStore.lookup i = (r.inflight i).map (Flight.packet i)
  futureStore : ∀ i, c.futureStore.get i = (r.inflight i).map Flight.future
  futures : c.futures = r.futures
  ids : c.session.outStore.ids.Nodup

namespace ImplementsSender

variable {c : Client} {r r' : Sender}

theorem step_receive (h : ImplementsSender c r) (pkt : GenericPacket) {c' : Client}
    (hc : c.handle pkt = (c', none)) : c.step (.receive pkt) = c' :=
  step_receive_of_handle pkt h.processing h.first h.isOpen h.connack hc

theorem step_acknowledge (h : ImplementsSender c r) (id : UInt16) :
    c.step (.receive (.puback id)) = (c.acknowledge id).1 ∧
      c.step (.receive (.pubcomp id)) = (c.acknowledge id).1 := by
  have hack : c.acknowledge id = ((c.acknowledge id).1, none) := Prod.ext rfl (acknowledge_snd id)
  exact ⟨h.step_receive (.puback id) hack, h.step_receive (.pubcomp id) hack⟩

theorem step_publish (h : ImplementsSender c r) (msg : Message) (hr : r.step (.publish msg) = some r') :
    ImplementsSender (c.step (.publishMessage msg)) r' := by
  simp only [Sender.step] at hr
  by_cases h0 : msg.qos = 0
  · rw [if_pos h0] at hr
    split_ifs at hr with he
    rw [Option.some.injEq] at hr
    subst hr
    rw [step, publishMessage_of_qos_zero h.connected h.isOpen h0 he]
    refine ⟨h.connected, h.processing, h.first, h.connack, h.isOpen, by rw [h.sent], h.counter, h.store, ?_,
      by rw [h.futures], h.ids⟩
    -- the future of a QoS 0 message is put under id 0 and taken out again
    intro i
    by_cases hi : i = 0
    · subst hi
      rw [Store.get_delete_self, r.inflight_zero, Option.map_none]
    · rw [Store.get_delete_of_ne _ hi, Store.get_put_of_ne _ _ hi, h.futureStore]
  · rw [if_neg h0] at hr
    split_ifs at hr with hq
    rw [Option.some.injEq] at hr
    subst hr
    have he : (Encoder.write [] (.publish
        { newPublishPacket with message := msg, id := c.session.counter.current })).isOk := by
      rw [h.counter]
      exact hq.1
    rw [step, publishMessage_of_qos_pos h.connected h.isOpen h0 he, h.counter]
    refine ⟨h.connected, h.processing, h.first, h.connack, h.isOpen, by rw [h.sent]; rfl,
      by simp [MemorySession.nextID, h.counter, Sender.launch], ?_, ?_, by rw [h.futures]; rfl,
      PacketStore.nodup_ids_save h.ids _⟩
    · simp only [MemorySession.outStore_savePacket_outgoing, MemorySession.outStore_nextID]
      exact lookup_save_packet h.store _ (.published _ (Future.new r.futures).1) (by rintro p f ⟨⟩; rfl)
    · rw [h.futures]
      exact get_put_future h.futureStore _ (.published _ (Future.new r.futures).1)

theorem acknowledge_finish (h : ImplementsSender c r) {id : UInt16} {fl : Flight}
    (hfl : r.inflight id = some fl) : ImplementsSender (c.acknowledge id).1 (r.finish id fl.future) := by
  have hget : c.futureStore.get id = some fl.future := by
    rw [h.futureStore, hfl]
    rfl
  rw [acknowledge_of_get_some hget]
  exact ⟨h.connected, h.processing, h.first, h.connack, h.isOpen, h.sent,
    by rw [MemorySession.counter_deletePacket, h.counter]; rfl,
    by rw [MemorySession.outStore_deletePacket_outgoing]; exact lookup_delete_packet h.store id,
    get_delete_future h.futureStore id, by rw [h.futures]; rfl, PacketStore.nodup_ids_delete h.ids id⟩

theorem acknowledge_stray (h : ImplementsSender c r) {id : UInt16} (hfl : r.inflight id = none) :
    ImplementsSender (c.acknowledge id).1 r := by
  have hget : c.futureStore.get id = none := by
    rw [h.futureStore, hfl]
    rfl
  rw [acknowledge_of_get_none hget]
  have hstore := lookup_delete_packet h.store id
  rw [Function.update_eq_self_iff.mpr hfl.symm] at hstore
  exact ⟨h.connected, h.processing, h.first, h.connack, h.isOpen, h.sent,
    by rw [MemorySession.counter_deletePacket, h.counter],
    by rw [MemorySession.outStore_deletePacket_outgoing]; exact hstore, h.futureStore, h.futures,
    PacketStore.nodup_ids_delete h.ids id⟩

theorem step_puback (h : ImplementsSender c r) (id : UInt16) (hr : r.step (.puback id) = some r') :
    ImplementsSender (c.step (.receive (.puback id))) r' := by
  rw [(h.step_acknowledge id).1]
  simp only [Sender.step] at hr
  split at hr
  · next hfl =>
    cases hr
    exact h.acknowledge_stray hfl
  · next p f hfl =>
    split_ifs at hr
    cases hr
    exact h.acknowledge_finish hfl
  · cases hr

theorem step_pubcomp (h : ImplementsSender c r) (id : UInt16) (hr : r.step (.pubcomp id) = some r') :
    ImplementsSender (c.step (.receive (.pubcomp id))) r' := by
  rw [(h.step_acknowledge id).2]
  simp only [Sender.step] at hr
  split at hr
  · next hfl =>
    cases hr
    exact h.acknowledge_stray hfl
  · next f hfl =>
    cases hr
    exact h.acknowledge_finish hfl
  · cases hr

theorem step_pubrec (h : ImplementsSender c r) (id : UInt16) (hr : r.step (.pubrec id) = some r') :
    ImplementsSender (c.step (.receive (.pubrec id))) r' := by
  have hcounter : (c.session.savePacket .outgoing (.pubrel id)).counter = r.counter := by
    rw [MemorySession.counter_savePacket, h.counter]
  simp only [Sender.step] at hr
  split at hr
  · next p f hfl =>
    split_ifs at hr
    cases hr
    rw [h.step_receive (.pubrec id) (processPubrec_of_isOpen h.isOpen (r.ne_zero_of_inflight hfl))]
    exact ⟨h.connected, h.processing, h.first, h.connack, h.isOpen, by rw [h.sent]; rfl, hcounter,
      lookup_save_packet h.store id (.released f) nofun, get_future_of_eq h.futureStore hfl rfl,
      h.futures, PacketStore.nodup_ids_save h.ids _⟩
  · next f hfl =>
    cases hr
    rw [h.step_receive (.pubrec id) (processPubrec_of_isOpen h.isOpen (r.ne_zero_of_inflight hfl))]
    have hsame := lookup_save_packet h.store id (.released f) nofun
    rw [Function.update_eq_self_iff.mpr hfl.symm] at hsame
    exact ⟨h.connected, h.processing, h.first, h.connack, h.isOpen, by rw [h.sent], hcounter, hsame,
      h.futureStore, h.futures, PacketStore.nodup_ids_save h.ids _⟩
  · cases hr

theorem step (h : ImplementsSender c r) : ∀ {o : Outbound}, r.step o = some r' →
    ImplementsSender (c.step o.toEvent) r'
  | .publish msg, hr => h.step_publish msg hr
  | .puback id, hr => h.step_puback id hr
  | .pubrec id, hr => h.step_pubrec id hr
  | .pubcomp id, hr => h.step_pubcomp id hr

theorem run (h : ImplementsSender c r) (outs : List Outbound) (hr : outs.foldlM Sender.step r = some r') :
    ImplementsSender (run Client.step c (outs.map Outbound.toEvent)) r' := by
  rw [run_map]
  exact run_simulation_partial (fun _ _ _ _ h hr => h.step hr) outs h hr

end ImplementsSender

theorem implements_idle {c : Client} (hc : c.state = .clientConnected) (hp : c.processing = true)
    (hf : c.first = false) (hn : c.connack = none) (ho : c.conn.isOpen = true) (hz : c.session.counter.current ≠ 0)
    (hs : ∀ i, c.session.outStore.lookup i = none) (hfs : ∀ i, c.futureStore.get i = none) :
    ImplementsSender c (.idle c.session.counter hz c.conn.sent c.futures) := by
  have hnil : c.session.outStore.packets = [] := by
    rcases hpk : c.session.outStore.packets with _ | ⟨⟨k, pkt⟩, rest⟩
    · rfl
    · have := hs k
      simp [PacketStore.lookup, hpk] at this
  refine ⟨hc, hp, hf, hn, ho, rfl, rfl, hs, hfs, rfl, ?_⟩
  rw [PacketStore.ids, hnil]
  exact List.nodup_nil

theorem publishes_as_sender (c : Client) (hc : c.state = .clientConnected) (hp : c.processing = true)
    (hf : c.first = false) (hn : c.connack = none) (ho : c.conn.isOpen = true) (hz : c.session.counter.current ≠ 0)
    (hs : ∀ i, c.session.outStore.lookup i = none) (hfs : ∀ i, c.futureStore.get i = none)
    (outs : List Outbound)
    (hacc : (outs.foldlM Sender.step (.idle c.session.counter hz c.conn.sent c.futures)).isSome) :
    ImplementsSender (Machine.run Client.step c (outs.map Outbound.toEvent))
      ((outs.foldlM Sender.step (.idle c.session.counter hz c.conn.sent c.futures)).get hacc) :=
  (implements_idle hc hp hf hn ho hz hs hfs).run outs (Option.some_get hacc).symm

theorem publishes_as_sender_connected :
    let msg : Message := ⟨[97], [98], 1, false⟩
    let outs := [Outbound.publish msg, .publish { msg with qos := 2 }, .publish { msg with qos := 0 },
      .pubrec 2, .puback 1, .pubrec 2, .pubcomp 2, .puback 9]
    ∃ hz hacc, ImplementsSender (Machine.run Client.step Client.connectedClient (outs.map Outbound.toEvent))
      ((outs.foldlM Sender.step (.idle Client.connectedClient.session.counter hz
        Client.connectedClient.conn.sent Client.connectedClient.futures)).get hacc) := by
  have hs : Client.connectedClient.session.outStore = newPacketStore := by decide
  have hfs : Client.connectedClient.futureStore = newStore := by decide
  exact ⟨by decide, by decide, publishes_as_sender _ (by decide) (by decide) (by decide) (by decide) (by decide) _
    (by simp [hs, newPacketStore, PacketStore.lookup]) (by simp [hfs, newStore, Store.get]) _ _⟩

end GoMqtt
