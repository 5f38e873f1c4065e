import GoMqtt.Client.Service

namespace GoMqtt

open GoMqtt.Packet GoMqtt.ClientSession GoMqtt.Future GoMqtt.Machine GoMqtt.Lists

namespace Flight

def redup : Flight → Flight
  | .published p f => .published { p with dup := true } f
  | .released f => .released f

@[simp]
theorem future_redup (fl : Flight) : fl.redup.future = fl.future := by
  cases fl <;> rfl

theorem hasID_redup {id : UInt16} {fl : Flight} (h : fl.HasID id) : fl.redup.HasID id := by
  cases fl with
  | published p f =>
    rintro q g ⟨⟩
    exact h p f rfl
  | released f => nofun

theorem isOk_redup (id : UInt16) (fl : Flight) :
    (Encoder.write [] (fl.redup.packet id)).isOk = (Encoder.write [] (fl.packet id)).isOk := by
  cases fl with
  | published p f => exact Encoder.write_dup_isOk [] p true
  | released f => rfl

end Flight

namespace Sender

variable (r : Sender)

/-- The sender on a new connection of its session: its published messages marked DUP, its
connection's packets `sent`, and its heap grown by the connect future, completed. -/
def reconnect (sent : List GenericPacket) : Sender :=
  { r with
    inflight := fun i => (r.inflight i).map Flight.redup,
    sent := sent,
    futures := complete (new r.futures).2 (new r.futures).1,
    inflight_zero := by rw [r.inflight_zero, Option.map_none],
    hasID := by
      intro i fl hfl
      obtain ⟨fl0, h0, rfl⟩ := Option.map_eq_some_iff.mp hfl
      exact Flight.hasID_redup (r.hasID i fl0 h0),
    encodes := by
      intro i fl hfl
      obtain ⟨fl0, h0, rfl⟩ := Option.map_eq_some_iff.mp hfl
      rw [Flight.isOk_redup]
      exact r.encodes i fl0 h0 }

end Sender

namespace Client

/-- A stored packet as `processConnack` sends it again: a publish with its DUP flag set. -/
def resent : GenericPacket → GenericPacket
  | .publish p => .publish { p with dup := true }
  | pkt => pkt

/-- The session once `processConnack` has sent a stored packet again: setting DUP on a
publish changes the stored packet too. -/
def resave (s : MemorySession) : GenericPacket → MemorySession
  | .publish p => s.savePacket .outgoing (.publish { p with dup := true })
  | _ => s

theorem getID_resent (pkt : GenericPacket) : (resent pkt).getID = pkt.getID := by
  cases pkt <;> rfl

theorem resent_packet (id : UInt16) (fl : Flight) : resent (fl.packet id) = fl.redup.packet id := by
  cases fl <;> rfl

variable {c : Client}

theorem resend_of_isOpen (ho : c.conn.isOpen = true) (pkts : List GenericPacket)
    (henc : ∀ pkt ∈ pkts, (Encoder.write [] (resent pkt)).isOk) :
    c.resend pkts = .ok { c with
      conn := { c.conn with sent := c.conn.sent ++ pkts.map resent },
      session := pkts.foldl resave c.session } := by
  induction pkts generalizing c with
  | nil => simp [Client.resend]
  | cons pkt rest ih =>
    have hrest : ∀ q ∈ rest, (Encoder.write [] (resent q)).isOk :=
      fun q hq => henc q (List.mem_cons_of_mem _ hq)
    by_cases hp : ∃ p, pkt = .publish p
    · obtain ⟨p, rfl⟩ := hp
      have he : (Encoder.write [] (.publish { p with dup := true })).isOk := henc _ List.mem_cons_self
      rw [Client.resend.eq_2]
      dsimp only
      rw [sendOrDie_of_isOk (by exact ho) he]
      dsimp only
      rw [ih (by exact ho) hrest]
      simp [resent, resave]
    · have hr : resent pkt = pkt := by
        cases pkt <;> first | rfl | exact absurd ⟨_, rfl⟩ hp
      have hs : resave c.session pkt = c.session := by
        cases pkt <;> first | rfl | exact absurd ⟨_, rfl⟩ hp
      have he := henc pkt List.mem_cons_self
      rw [hr] at he
      rw [Client.resend.eq_3 _ _ _ fun p hp' => hp ⟨p, hp'⟩, sendOrDie_of_isOk ho he]
      dsimp only
      rw [ih (by exact ho) hrest]
      simp [hr, hs]

theorem counter_foldl_resave (pkts : List GenericPacket) (s : MemorySession) :
    (pkts.foldl resave s).counter = s.counter := by
  induction pkts generalizing s with
  | nil => rfl
  | cons pkt rest ih =>
    rw [List.foldl_cons, ih]
    cases pkt <;> simp [resave]

theorem ids_foldl_resave (pkts : List GenericPacket) {s : MemorySession} (h : s.outStore.ids.Nodup) :
    (pkts.foldl resave s).outStore.ids.Nodup := by
  induction pkts generalizing s with
  | nil => exact h
  | cons pkt rest ih =>
    rw [List.foldl_cons]
    apply ih
    cases pkt <;> first | exact h | exact PacketStore.nodup_ids_save h _

theorem lookup_resave {s : MemorySession} {k : UInt16} {pkt : GenericPacket}
    (hk : s.outStore.lookup k = some pkt) (hid : pkt.getID = some k) (j : UInt16) :
    (resave s pkt).outStore.lookup j =
      if j = k then (s.outStore.lookup j).map resent else s.outStore.lookup j := by
  cases pkt with
  | publish p =>
    simp only [resave, MemorySession.outStore_savePacket_outgoing]
    rw [PacketStore.lookup_save _ (by rw [← hid]; rfl)]
    split_ifs with hj
    · rw [hj, hk]
      rfl
    · rfl
  | _ =>
    show s.outStore.lookup j = _
    split_ifs with hj
    · rw [hj, hk]
      rfl
    · rfl

theorem lookup_foldl_resave {l : List (UInt16 × GenericPacket)} (hl : (l.map Prod.fst).Nodup)
    {s : MemorySession} (hs : ∀ e ∈ l, s.outStore.lookup e.1 = some e.2 ∧ e.2.getID = some e.1)
    (i : UInt16) :
    ((l.map Prod.snd).foldl resave s).outStore.lookup i =
      if i ∈ l.map Prod.fst then (s.outStore.lookup i).map resent else s.outStore.lookup i := by
  induction l generalizing s with
  | nil => simp
  | cons e rest ih =>
    obtain ⟨k, pkt⟩ := e
    rw [List.map_cons, List.nodup_cons] at hl
    obtain ⟨hk, hid⟩ := hs (k, pkt) List.mem_cons_self
    have h1 := lookup_resave hk hid
    have hs' : ∀ e ∈ rest, (resave s pkt).outStore.lookup e.1 = some e.2 ∧ e.2.getID = some e.1 := by
      intro e he
      have hne : e.1 ≠ k := by
        rintro h
        have hmem := List.mem_map_of_mem (f := Prod.fst) he
        rw [h] at hmem
        exact hl.1 hmem
      rw [h1, if_neg hne]
      exact hs e (List.mem_cons_of_mem _ he)
    rw [List.map_cons, List.foldl_cons, ih hl.2 hs', h1, List.map_cons]
    by_cases hi : i = k
    · subst hi
      rw [if_neg hl.1, if_pos rfl, if_pos List.mem_cons_self]
    · rw [if_neg hi]
      by_cases hr : i ∈ rest.map Prod.fst
      · rw [if_pos hr, if_pos (List.mem_cons_of_mem _ hr)]
      · rw [if_neg hr, if_neg (by simp [hi, hr])]

theorem connect_of_persistent (hs : c.state = .clientInitialized) {config : Config}
    (hclean : config.cleanSession = false) (hid : config.clientID ≠ [])
    (henc : (Encoder.write [] (.connect (connectPacket config))).isOk) :
    c.connect config = ({ c with
      config := some config, keepAlive := config.keepAlive, pings := 0, state := .clientConnecting,
      clean := false, conn := ⟨[.connect (connectPacket config)], true⟩, futures := (Future.new c.futures).2,
      connectFuture := some (Future.new c.futures).1, processing := true, first := true,
      pinging := decide (0 < config.keepAlive) }, .ok (Future.new c.futures).1) := by
  simp [Client.connect, hs, hclean, hid, State.toNat, send_of_isOk, henc]

theorem processConnack_accepted (ho : c.conn.isOpen = true) {f : Nat} (hcf : c.connectFuture = some f)
    (henc : ∀ pkt ∈ c.session.allPackets .outgoing, (Encoder.write [] (resent pkt)).isOk)
    (sessionPresent : Bool) :
    c.processConnack ⟨sessionPresent, ConnectionAccepted⟩ = ({ c with
      state := .clientConnected, futures := complete c.futures f,
      conn := { c.conn with sent := c.conn.sent ++ (c.session.allPackets .outgoing).map resent },
      session := (c.session.allPackets .outgoing).foldl resave c.session }, none) := by
  simp only [processConnack, ne_eq, not_true_eq_false, if_false, hcf]
  rw [resend_of_isOpen (by exact ho) _ (by exact henc)]
  rfl

theorem step_connack_accepted (hp : c.processing = true) (ho : c.conn.isOpen = true)
    (hn : c.connack = none) (hfirst : c.first = true) (hs : c.state = .clientConnecting) {f : Nat}
    (hcf : c.connectFuture = some f)
    (henc : ∀ pkt ∈ c.session.allPackets .outgoing, (Encoder.write [] (resent pkt)).isOk)
    (sessionPresent : Bool) :
    run step c [.receive (.connack ⟨sessionPresent, ConnectionAccepted⟩), .continueConnack] = { c with
      state := .clientConnected, futures := complete c.futures f, first := false, connack := none,
      conn := { c.conn with sent := c.conn.sent ++ (c.session.allPackets .outgoing).map resent },
      session := (c.session.allPackets .outgoing).foldl resave c.session } := by
  rw [run_cons, run_cons, run_nil, step_connack_held hp ho hn hfirst hs]
  simp only [step, continueConnack]
  rw [processConnack_accepted (by exact ho) (by exact hcf) (by exact henc)]

theorem receiveError_of_connected (hp : c.processing = true) (hs : c.state = .clientConnected)
    (hn : c.connack = none) (hfin : c.finished = false) {cb : Callback} (hcb : c.callback = some cb)
    (hcl : c.clean = false) (hprot : c.futureStore.isProtected = true) :
    c.receiveError = { c with
      state := .clientDisconnected, finished := true, errors := c.errors ++ [.transport],
      processing := false, dying := c.dying || cb.failure .transport } := by
  simp [receiveError, hp, hs, hn, State.toNat, die, hfin, hcb, cleanup_eq, hcl,
    Store.clear_of_isProtected _ _ hprot, processorReturns]
  cases cb.failure .transport <;> rfl

end Client

open Client

namespace ImplementsSender

variable {c : Client} {r : Sender}

theorem mem_packets (h : ImplementsSender c r) {e : UInt16 × GenericPacket} :
    e ∈ c.session.outStore.packets ↔ ∃ fl, r.inflight e.1 = some fl ∧ e.2 = fl.packet e.1 := by
  constructor
  · intro he
    have hl : c.session.outStore.lookup e.1 = some e.2 := lookup_eq_some_of_mem h.ids he
    rw [h.store] at hl
    obtain ⟨fl, hfl, he2⟩ := Option.map_eq_some_iff.mp hl
    exact ⟨fl, hfl, he2.symm⟩
  · rintro ⟨fl, hfl, he2⟩
    have hl := h.store e.1
    rw [hfl, Option.map_some, ← he2] at hl
    exact mem_of_lookup_eq_some hl

theorem stored (h : ImplementsSender c r) {e : UInt16 × GenericPacket}
    (he : e ∈ c.session.outStore.packets) :
    c.session.outStore.lookup e.1 = some e.2 ∧ e.2.getID = some e.1 := by
  obtain ⟨fl, hfl, he2⟩ := h.mem_packets.mp he
  exact ⟨lookup_eq_some_of_mem h.ids he, he2 ▸ getID_packet (r.hasID _ _ hfl)⟩

theorem lookup_resaved (h : ImplementsSender c r) (i : UInt16) :
    ((c.session.allPackets .outgoing).foldl resave c.session).outStore.lookup i =
      ((r.inflight i).map Flight.redup).map (Flight.packet i) := by
  rw [show c.session.allPackets .outgoing = c.session.outStore.packets.map Prod.snd from rfl,
    lookup_foldl_resave h.ids (fun e he => h.stored he), h.store i]
  split_ifs with hi
  · rw [Option.map_map, Option.map_map]
    exact congrArg (fun F => Option.map F (r.inflight i)) (funext (resent_packet i))
  · cases hfl : r.inflight i with
    | none => rfl
    | some fl =>
      have hl := h.store i
      rw [hfl, Option.map_some] at hl
      exact absurd (List.mem_map_of_mem (f := Prod.fst) (mem_of_lookup_eq_some hl)) hi

theorem mem_resent (h : ImplementsSender c r) (pkt : GenericPacket) :
    pkt ∈ (c.session.allPackets .outgoing).map resent ↔
      ∃ i fl, r.inflight i = some fl ∧ pkt = fl.redup.packet i := by
  simp only [MemorySession.allPackets, MemorySession.storeForDirection, PacketStore.all,
    List.map_map, List.mem_map, Function.comp_apply]
  constructor
  · rintro ⟨e, he, rfl⟩
    obtain ⟨fl, hfl, he2⟩ := h.mem_packets.mp he
    exact ⟨e.1, fl, hfl, by rw [he2, resent_packet]⟩
  · rintro ⟨i, fl, hfl, rfl⟩
    exact ⟨(i, fl.packet i), h.mem_packets.mpr ⟨fl, hfl, rfl⟩, resent_packet i fl⟩

theorem nodup_resent (h : ImplementsSender c r) :
    ((c.session.allPackets .outgoing).map resent).Nodup := by
  simp only [MemorySession.allPackets, MemorySession.storeForDirection, PacketStore.all,
    List.map_map]
  refine List.Nodup.map_on ?_ (List.Nodup.of_map Prod.fst h.ids)
  intro x hx y hy hxy
  obtain ⟨hlx, hidx⟩ := h.stored hx
  obtain ⟨hly, hidy⟩ := h.stored hy
  have hid : x.1 = y.1 := by
    have := congrArg GenericPacket.getID hxy
    simp only [Function.comp_apply, getID_resent, hidx, hidy, Option.some.injEq] at this
    exact this
  rw [hid, hly, Option.some.injEq] at hlx
  exact Prod.ext hid hlx.symm

theorem resent_isOk (h : ImplementsSender c r) :
    ∀ pkt ∈ c.session.allPackets .outgoing, (Encoder.write [] (resent pkt)).isOk := by
  intro pkt hpkt
  obtain ⟨i, fl, hfl, heq⟩ := (h.mem_resent (resent pkt)).mp (List.mem_map_of_mem hpkt)
  rw [heq, Flight.isOk_redup]
  exact r.encodes i fl hfl

theorem resume (h : ImplementsSender c r) (c' : Client) (hs : c'.state = .clientConnecting)
    (hp : c'.processing = true) (ho : c'.conn.isOpen = true) (hn : c'.connack = none)
    (hfirst : c'.first = true) (hcf : c'.connectFuture = some (Future.new r.futures).1)
    (hsess : c'.session = c.session) (hstore : c'.futureStore = c.futureStore)
    (hfut : c'.futures = (Future.new r.futures).2) (sessionPresent : Bool) :
    ImplementsSender
      (Machine.run Client.step c' [.receive (.connack ⟨sessionPresent, ConnectionAccepted⟩), .continueConnack])
      (r.reconnect (c'.conn.sent ++ (c.session.allPackets .outgoing).map resent)) := by
  rw [step_connack_accepted hp ho hn hfirst hs hcf (by rw [hsess]; exact h.resent_isOk), hsess]
  exact {
    connected := rfl
    processing := hp
    first := rfl
    connack := rfl
    isOpen := ho
    sent := rfl
    counter := (counter_foldl_resave _ _).trans h.counter
    store := h.lookup_resaved
    futureStore := fun i => by
      rw [hstore, h.futureStore]
      show _ = ((r.inflight i).map Flight.redup).map Flight.future
      cases r.inflight i <;> simp
    futures := by rw [hfut]; rfl
    ids := ids_foldl_resave _ h.ids }

end ImplementsSender

namespace Service

variable {s : Service}

theorem settle_of_errors (hon : s.phase = .online) (he : s.client.errors ≠ []) :
    s.settle = { s with phase := .offline } := by
  simp [settle, hon, he]

theorem settle_of_completed (hcon : s.phase = .connecting) {f : Nat}
    (hcf : s.client.connectFuture = some f) (hf : s.client.futures[f]? = some .completed) :
    s.settle = { s with phase := .online } := by
  simp [settle, hcon, hcf, hf]

theorem settle_of_pending (hcon : s.phase = .connecting) {f : Nat}
    (hcf : s.client.connectFuture = some f) (hf : s.client.futures[f]? = some .pending) :
    s.settle = s := by
  simp [settle, hcon, hcf, hf]

theorem reconnect_of_persistent (hoff : s.phase = .offline) (hn : s.client.connack = none)
    {config : Client.Config} (hcfg : s.config = some config) (hclean : config.cleanSession = false)
    (hid : config.clientID ≠ []) (henc : (Encoder.write [] (.connect (connectPacket config))).isOk) :
    s.reconnect = { s with phase := .connecting, client := { Client.new (some s.callback) with
      config := some config, keepAlive := config.keepAlive, state := .clientConnecting,
      conn := ⟨[.connect (connectPacket config)], true⟩, session := s.client.session,
      futureStore := s.client.futureStore, futures := (Future.new s.client.futures).2,
      connectFuture := some (Future.new s.client.futures).1, processing := true, first := true,
      pinging := decide (0 < config.keepAlive) } } := by
  have hc := connect_of_persistent (c := { Client.new (some s.callback) with
    session := s.client.session, futureStore := s.client.futureStore,
    futures := s.client.futures }) rfl hclean hid henc
  simp only [reconnect, hoff, ne_eq, not_true_eq_false, if_false, hcfg, continueConnack_of_none hn]
  rw [hc]
  rfl

theorem run_connack_online (hcon : s.phase = .connecting) (hp : s.client.processing = true)
    (ho : s.client.conn.isOpen = true) (hn : s.client.connack = none) (hfirst : s.client.first = true)
    (hs : s.client.state = .clientConnecting) {f : Nat} (hcf : s.client.connectFuture = some f)
    (hf : s.client.futures[f]? = some .pending)
    (henc : ∀ pkt ∈ s.client.session.allPackets .outgoing, (Encoder.write [] (resent pkt)).isOk)
    (sessionPresent : Bool) :
    run step s [.receive (.connack ⟨sessionPresent, ConnectionAccepted⟩), .continueConnack] =
      { s with
        client := run Client.step s.client
          [.receive (.connack ⟨sessionPresent, ConnectionAccepted⟩), .continueConnack],
        phase := .online } := by
  have hheld := step_connack_held hp ho hn hfirst hs ⟨sessionPresent, ConnectionAccepted⟩
  have hc : (s.client.step (.receive (.connack ⟨sessionPresent, ConnectionAccepted⟩))).step
      .continueConnack = _ := step_connack_accepted hp ho hn hfirst hs hcf henc sessionPresent
  have h1 : s.step (.receive (.connack ⟨sessionPresent, ConnectionAccepted⟩)) =
      { s with client := s.client.step (.receive (.connack ⟨sessionPresent, ConnectionAccepted⟩)) } :=
    settle_of_pending hcon (by rw [hheld]; exact hcf) (by rw [hheld]; exact hf)
  rw [run_cons, run_cons, run_nil, h1]
  exact settle_of_completed hcon (by rw [hc]; exact hcf) (by rw [hc]; exact getElem?_complete_of_pending hf)

def reconnection (sessionPresent : Bool) : List Event :=
  [.receiveError, .reconnect, .receive (.connack ⟨sessionPresent, ConnectionAccepted⟩), .continueConnack]

theorem reconnect_resends_inflight (s : Service) (r : Sender) (config : Client.Config)
    (sessionPresent : Bool) (h : ImplementsSender s.client r) (hon : s.phase = .online)
    (hcfg : s.config = some config) (hclean : config.cleanSession = false)
    (hid : config.clientID ≠ []) (henc : (Encoder.write [] (.connect (connectPacket config))).isOk)
    (hcl : s.client.clean = false) (hfin : s.client.finished = false) (hcb : s.client.callback.isSome)
    (hprot : s.client.futureStore.isProtected = true) :
    (run step s (reconnection sessionPresent)).phase = .online ∧
      ∃ L, (run step s (reconnection sessionPresent)).client.conn.sent =
          .connect (connectPacket config) :: L ∧
        L.Nodup ∧ (∀ pkt, pkt ∈ L ↔ ∃ i fl, r.inflight i = some fl ∧ pkt = fl.redup.packet i) ∧
        ImplementsSender (run step s (reconnection sessionPresent)).client
          (r.reconnect (.connect (connectPacket config) :: L)) := by
  obtain ⟨cb, hcb⟩ := Option.isSome_iff_exists.mp hcb
  have hfail := receiveError_of_connected h.processing h.connected h.connack hfin hcb hcl hprot
  have h1 : s.step .receiveError = { s with client := s.client.receiveError, phase := .offline } :=
    settle_of_errors hon (by simp [Client.step, hfail])
  have h2 := reconnect_of_persistent (s := { s with client := s.client.receiveError, phase := .offline })
    rfl (by rw [hfail]; exact h.connack) hcfg hclean hid henc
  rw [reconnection, run_cons, run_cons, h1]
  generalize hs2 : step _ .reconnect = s2
  replace h2 := hs2.symm.trans h2
  have hst : s2.client.state = .clientConnecting := by rw [h2]
  have hp : s2.client.processing = true := by rw [h2]
  have ho : s2.client.conn.isOpen = true := by rw [h2]
  have hn : s2.client.connack = none := by rw [h2]; rfl
  have hfirst : s2.client.first = true := by rw [h2]
  have hsent : s2.client.conn.sent = [.connect (connectPacket config)] := by rw [h2]
  have hsess : s2.client.session = s.client.session := by rw [h2, hfail]
  have hfut : s2.client.futures = (Future.new r.futures).2 := by rw [h2, hfail, h.futures]
  have hcf : s2.client.connectFuture = some (Future.new r.futures).1 := by rw [h2, hfail, h.futures]
  have hr := h.resume s2.client hst hp ho hn hfirst hcf hsess (by rw [h2, hfail]) hfut sessionPresent
  rw [hsent] at hr
  have hresent : ∀ pkt ∈ s2.client.session.allPackets .outgoing, (Encoder.write [] (resent pkt)).isOk := by
    rw [hsess]
    exact h.resent_isOk
  rw [run_connack_online (by rw [h2]) hp ho hn hfirst hst hcf (by rw [hfut]; exact getElem?_new_self _)
    hresent sessionPresent]
  refine ⟨rfl, _, ?_, h.nodup_resent, h.mem_resent, hr⟩
  rw [step_connack_accepted hp ho hn hfirst hst hcf hresent, hsent, hsess]
  rfl

theorem reconnect_resends_inflight_publish :
    let s0 : Service := run step (newService 100 none)
      [.start { Client.newConfig with clientID := [99], cleanSession := false }, .reconnect,
        .receive (.connack ⟨false, ConnectionAccepted⟩), .continueConnack]
    let s : Service := { s0 with client := s0.client.step (.publishMessage ⟨[97], [98], 1, false⟩) }
    ∃ r : Sender, ImplementsSender s.client r ∧ r.inflight 1 ≠ none ∧
      (run step s (reconnection true)).phase = .online ∧
      ∃ L, (run step s (reconnection true)).client.conn.sent =
          .connect (connectPacket { Client.newConfig with clientID := [99], cleanSession := false }) :: L ∧
        L.Nodup ∧ (∀ pkt, pkt ∈ L ↔ ∃ i fl, r.inflight i = some fl ∧ pkt = fl.redup.packet i) ∧
        ImplementsSender (run step s (reconnection true)).client
          (r.reconnect
            (.connect (connectPacket { Client.newConfig with clientID := [99], cleanSession := false }) :: L)) := by
  intro s0 s
  -- the service as the run leaves it, so that its client is a step of the client before
  simp only [s]
  have hout : s0.client.session.outStore = newPacketStore := by decide
  have hfs : s0.client.futureStore = ⟨true, []⟩ := by decide
  have h0 := implements_idle (c := s0.client) (by decide) (by decide) (by decide) (by decide) (by decide)
    (by decide) (by simp [hout, newPacketStore, PacketStore.lookup]) (by simp [hfs, Store.get])
  have h1 := h0.step (Sender.step_publish_of_isOk _ ⟨[97], [98], 1, false⟩ (by decide) (by decide) rfl)
  have hc1 : s0.client.session.counter.current = 1 := by decide
  simp only [Outbound.toEvent] at h1
  -- the client of the service before the reconnection, as the projection the theorem reads
  have hc : ({ s0 with client := s0.client.step (.publishMessage ⟨[97], [98], 1, false⟩) } : Service).client =
      s0.client.step (.publishMessage ⟨[97], [98], 1, false⟩) := by
    dsimp only
  have h1' := h1
  rw [← hc] at h1'
  refine ⟨_, h1, ?_, reconnect_resends_inflight _ _ { Client.newConfig with clientID := [99], cleanSession := false }
    true h1' (by decide) (by decide) rfl (by decide) (by decide) (by decide) (by decide) (by decide) (by decide)⟩
  simp [Sender.launch, Sender.idle, hc1]

end Service

end GoMqtt
