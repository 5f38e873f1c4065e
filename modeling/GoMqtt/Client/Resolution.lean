import GoMqtt.Client.Service

namespace GoMqtt

open GoMqtt.Packet GoMqtt.ClientSession GoMqtt.Future GoMqtt.Future.Store GoMqtt.Machine

namespace Client

/-- Whether the event hands the processor a CONNACK that refuses the connection. -/
def Event.refusedConnack : Event → Bool
  | .receive (.connack cp) => cp.returnCode != ConnectionAccepted
  | _ => false

/-- While the processor holds a checked CONNACK, it is an accepted one, and its connect future
is not among `others` and can still be completed: it is free, or `cleanup` has canceled it. -/
def Held (c : Client) (others : List Nat) : Prop :=
  ∀ cp, c.connack = some cp → cp.returnCode = ConnectionAccepted ∧
    ∀ f, c.connectFuture = some f → Completable c.futureStore c.futures f ∧ f ∉ others

/-- Each future of a client is resolved at most once: its store is sound, its connect future
is free while `cleanup` may still cancel it, the futures of `queued` (those a service has
handed out for its queued calls) are free and are not the connect future, and a CONNACK the
processor holds can be carried out. -/
structure ResolvesOnce (c : Client) (queued : List Nat) : Prop where
  sound : c.futureStore.Sound c.futures
  connecting : c.state.toNat < State.clientConnacked.toNat → ∀ f, c.connectFuture = some f →
    Free c.futureStore c.futures f ∧ f ∉ queued
  others : ∀ f ∈ queued, Free c.futureStore c.futures f
  held : c.Held queued

variable {c c' : Client} {o : List Nat}

theorem held_of_connack_none (hn : c.connack = none) : c.Held o := by
  intro cp hcp
  rw [hn] at hcp
  cases hcp

theorem Held.of_completable (h : c.Held o) (hn : c'.connack = c.connack)
    (hc : c'.connectFuture = c.connectFuture)
    (hcomp : ∀ f, c.connectFuture = some f → Completable c.futureStore c.futures f →
      Completable c'.futureStore c'.futures f) : c'.Held o := by
  intro cp hcp
  rw [hn] at hcp
  obtain ⟨hacc, hcf⟩ := h cp hcp
  refine ⟨hacc, fun f hf => ?_⟩
  rw [hc] at hf
  exact ⟨hcomp f hf (hcf f hf).1, (hcf f hf).2⟩

@[simp]
theorem state_cleanup (b : Bool) : (c.cleanup b).state = .clientDisconnected := by
  rw [cleanup_eq]

@[simp]
theorem connectFuture_cleanup (b : Bool) : (c.cleanup b).connectFuture = c.connectFuture := by
  rw [cleanup_eq]

theorem futureStore_of_send {pkt : GenericPacket} {e : Option ClientError}
    (hs : c.send pkt = (c', e)) : c'.futureStore = c.futureStore := by
  rcases send_cases c pkt with h | h <;>
    (rw [h, Prod.mk.injEq] at hs; rw [← hs.1])

/-- What `ResolvesOnce` reads of a client. -/
def futureView (c : Client) : State × Store × List FutureState × Option Nat × Option ConnackPacket :=
  (c.state, c.futureStore, c.futures, c.connectFuture, c.connack)

namespace ResolvesOnce

theorem of_eq (h : c.ResolvesOnce o) (hv : c'.futureView = c.futureView) : c'.ResolvesOnce o := by
  obtain ⟨hs, hfs, hf, hc, hn⟩ : c'.state = c.state ∧ c'.futureStore = c.futureStore ∧
      c'.futures = c.futures ∧ c'.connectFuture = c.connectFuture ∧ c'.connack = c.connack := by
    simpa [futureView] using hv
  obtain ⟨hsound, hconn, hothers, hheld⟩ := h
  refine ⟨by rw [hfs, hf]; exact hsound, ?_, by rw [hfs, hf]; exact hothers,
    hheld.of_completable hn hc fun f _ hcomp => by rw [hfs, hf]; exact hcomp⟩
  rw [hs, hfs, hf, hc]
  exact hconn

theorem of_connacked (hs : ¬ c.state.toNat < State.clientConnacked.toNat)
    (hsound : c.futureStore.Sound c.futures) (hothers : ∀ f ∈ o, Free c.futureStore c.futures f)
    (hheld : c.Held o) : c.ResolvesOnce o :=
  ⟨hsound, fun hlt => absurd hlt hs, hothers, hheld⟩

theorem release (h : c.ResolvesOnce o) : ({ c with connack := none } : Client).ResolvesOnce o :=
  ⟨h.sound, h.connecting, h.others, held_of_connack_none rfl⟩

theorem disconnected (h : c.ResolvesOnce o) :
    ({ c with
        state := .clientDisconnected,
        futures := if c.state.toNat < State.clientConnacked.toNat then
          c.connectFuture.elim c.futures (cancel c.futures) else c.futures } : Client).ResolvesOnce o := by
  split_ifs with hlt
  · rcases hcf : c.connectFuture with _ | f
    · exact of_connacked (by dsimp only; decide) h.sound h.others fun cp hcp => ⟨(h.held cp hcp).1, nofun⟩
    · obtain ⟨hfree, hno⟩ := h.connecting hlt f hcf
      refine of_connacked (by dsimp only; decide) (h.sound.modify hfree (by decide)) (fun g hg => ?_)
        fun cp hcp => ⟨(h.held cp hcp).1, ?_⟩
      · exact (h.others g hg).modify (by rintro rfl; exact hno hg) _
      · rintro g ⟨⟩
        exact ⟨hfree.cancel, hno⟩
  · exact of_connacked (by dsimp only; decide) h.sound h.others h.held

theorem clear (h : c.ResolvesOnce o) :
    ({ c with
        futureStore := (c.futureStore.clear c.futures).1,
        futures := (c.futureStore.clear c.futures).2 } : Client).ResolvesOnce o := by
  refine ⟨h.sound.clear, fun hlt f hf => ?_, fun f hf => (h.others f hf).clear h.sound,
    h.held.of_completable rfl rfl fun f _ hcomp => hcomp.clear h.sound⟩
  obtain ⟨hfree, hfo⟩ := h.connecting hlt f hf
  exact ⟨hfree.clear h.sound, hfo⟩

theorem cleanup (h : c.ResolvesOnce o) (b : Bool) : (c.cleanup b).ResolvesOnce o := by
  rw [cleanup_eq]
  exact h.disconnected.clear.of_eq (by rfl)

theorem die (h : c.ResolvesOnce o) (err : ClientError) (close fromCallback : Bool) :
    (c.die err close fromCallback).1.ResolvesOnce o := by
  rw [die_fst]
  by_cases hf : c.finished
  · rw [if_pos hf]
    exact h
  · rw [if_neg hf]
    exact (h.cleanup close).of_eq (by rfl)

theorem send (h : c.ResolvesOnce o) (pkt : GenericPacket) : (c.send pkt).1.ResolvesOnce o := by
  rcases send_cases c pkt with hs | hs <;> rw [hs] <;>
    exact h.of_eq (by rfl)

theorem of_send (h : c.ResolvesOnce o) {pkt : GenericPacket} {e : Option ClientError}
    (hs : c.send pkt = (c', e)) : c'.ResolvesOnce o := by
  have h' := h.send pkt
  rw [hs] at h'
  exact h'

def Result (o : List Nat) : Except Returned Client → Prop
  | .ok c => c.ResolvesOnce o
  | .error r => r.1.ResolvesOnce o

theorem result_bind {x : Except Returned Client} {k : Client → Except Returned Client}
    (hx : Result o x) (hk : ∀ c, c.ResolvesOnce o → Result o (k c)) : Result o (x >>= k) := by
  cases x with
  | error r => exact hx
  | ok c => exact hk c hx

theorem finish {x : Except Returned Client} (hx : Result o x) : (Client.finish x).1.ResolvesOnce o := by
  cases x with
  | error r => exact hx
  | ok c => exact hx

theorem sendOrDie (h : c.ResolvesOnce o) (pkt : GenericPacket) : Result o (c.sendOrDie pkt) := by
  unfold Client.sendOrDie
  split
  · next c' hs => exact h.of_send hs
  · next c' err hs => exact (h.of_send hs).die ..

theorem deliver (h : c.ResolvesOnce o) (msg : Message) : Result o (c.deliver msg) := by
  unfold Client.deliver
  split
  · exact h
  · dsimp only
    split_ifs
    · exact (h.of_eq (by rfl)).die .callback true true
    · exact h.of_eq (by rfl)

theorem resolve (h : c.ResolvesOnce o) {id : UInt16} {f : Nat} (hget : c.futureStore.get id = some f)
    (op : FutureState → FutureState) (hop : op .pending ≠ .panicked)
    (hs : c'.state = c.state) (hc : c'.connectFuture = c.connectFuture)
    (hfs : c'.futureStore = c.futureStore.delete id) (hf : c'.futures = c.futures.modify f op)
    (hn : c'.connack = c.connack) : c'.ResolvesOnce o := by
  have hne : ∀ g, Free c.futureStore c.futures g → f ≠ g := by
    rintro g hg rfl
    exact hg.2 id hget
  refine ⟨?_, ?_, ?_, h.held.of_completable hn hc fun g _ hcomp => ?_⟩
  · rw [hfs, hf]
    exact (h.sound.delete id).modify (h.sound.free_delete hget) hop
  · rw [hs, hc, hfs, hf]
    intro hlt g hg
    obtain ⟨hgf, hno⟩ := h.connecting hlt g hg
    exact ⟨(hgf.delete id).modify (hne g hgf) op, hno⟩
  · rw [hfs, hf]
    intro g hg
    exact ((h.others g hg).delete id).modify (hne g (h.others g hg)) op
  · rw [hfs, hf]
    exact (hcomp.delete id).modify (fun hfg => hcomp.not_get h.sound id (hfg ▸ hget)) op

theorem put_new (h : c.ResolvesOnce o) (id : UInt16) (hs : c'.state = c.state)
    (hc : c'.connectFuture = c.connectFuture)
    (hfs : c'.futureStore = c.futureStore.put id (Future.new c.futures).1)
    (hf : c'.futures = (Future.new c.futures).2) (hn : c'.connack = c.connack) :
    c'.ResolvesOnce o := by
  refine ⟨by rw [hfs, hf]; exact h.sound.put_new id, ?_, ?_,
    h.held.of_completable hn hc fun g _ hcomp => by rw [hfs, hf]; exact hcomp.put_new id⟩
  · rw [hs, hc, hfs, hf]
    intro hlt g hg
    obtain ⟨hgf, hno⟩ := h.connecting hlt g hg
    exact ⟨hgf.put_new id, hno⟩
  · rw [hfs, hf]
    exact fun g hg => (h.others g hg).put_new id

theorem acknowledge (h : c.ResolvesOnce o) (id : UInt16) : (c.acknowledge id).1.ResolvesOnce o := by
  cases hget : c.futureStore.get id with
  | none =>
    rw [acknowledge_of_get_none hget]
    exact h.of_eq (by rfl)
  | some f =>
    rw [acknowledge_of_get_some hget]
    exact h.resolve hget FutureState.complete (by decide) rfl rfl rfl rfl rfl

theorem processSuback (h : c.ResolvesOnce o) (suback : SubackPacket) :
    (c.processSuback suback).1.ResolvesOnce o := by
  unfold Client.processSuback
  dsimp only
  split
  · exact h.of_eq (by rfl)
  · next f hget =>
    split_ifs
    · exact h.resolve hget FutureState.cancel (by decide) rfl rfl rfl rfl rfl
    · exact h.resolve hget FutureState.complete (by decide) rfl rfl rfl rfl rfl

theorem processPublish (h : c.ResolvesOnce o) (p : PublishPacket) :
    (c.processPublish p).1.ResolvesOnce o := by
  unfold Client.processPublish
  refine finish ?_
  extract_lets qos jp
  have hjp : ∀ c', c'.ResolvesOnce o → Result o (jp c') := by
    intro c' h'
    simp only [jp]
    split_ifs
    · exact h'.sendOrDie _
    · exact (h'.of_eq (by rfl)).sendOrDie _
    · exact h'
  split_ifs
  · exact result_bind (h.deliver _) hjp
  · exact result_bind h hjp

theorem processPubrec (h : c.ResolvesOnce o) (id : UInt16) : (c.processPubrec id).1.ResolvesOnce o :=
  finish ((h.of_eq (by rfl)).sendOrDie _)

theorem processPubrel (h : c.ResolvesOnce o) (id : UInt16) : (c.processPubrel id).1.ResolvesOnce o := by
  unfold Client.processPubrel
  split
  · refine finish (result_bind (h.deliver _) fun c' h' => result_bind (h'.sendOrDie _) fun c'' h'' => ?_)
    exact h''.of_eq (by rfl)
  · exact h

theorem handle (h : c.ResolvesOnce o) (pkt : GenericPacket) : (c.handle pkt).1.ResolvesOnce o := by
  cases pkt with
  | suback p => exact h.processSuback p
  | unsuback id => exact h.acknowledge id
  | pingresp => exact h.of_eq (by rfl)
  | publish p => exact h.processPublish p
  | puback id => exact h.acknowledge id
  | pubcomp id => exact h.acknowledge id
  | pubrec id => exact h.processPubrec id
  | pubrel id => exact h.processPubrel id
  | _ => exact h

theorem resend (h : c.ResolvesOnce o) (pkts : List GenericPacket) : Result o (c.resend pkts) := by
  induction pkts generalizing c with
  | nil => exact h
  | cons pkt rest ih =>
    have hnext : ∀ (c' : Client) (pkt' : GenericPacket), c'.ResolvesOnce o →
        Result o (match c'.sendOrDie pkt' with
          | .ok c => c.resend rest
          | .error r => .error r) := by
      intro c' pkt' h'
      have hsend := h'.sendOrDie pkt'
      split
      · next c'' hs =>
        rw [hs] at hsend
        exact ih hsend
      · next r hs =>
        rw [hs] at hsend
        exact hsend
    by_cases hp : ∃ p, pkt = .publish p
    · obtain ⟨p, rfl⟩ := hp
      rw [Client.resend.eq_2]
      exact hnext _ _ (h.of_eq (by rfl))
    · rw [Client.resend.eq_3 _ _ _ fun p hp' => hp ⟨p, hp'⟩]
      exact hnext _ _ h

theorem processConnack (h : c.ResolvesOnce o) (hn : c.connack = none) {cp : ConnackPacket}
    (hacc : cp.returnCode = ConnectionAccepted)
    (hcf : ∀ f, c.connectFuture = some f → Completable c.futureStore c.futures f ∧ f ∉ o) :
    (c.processConnack cp).1.ResolvesOnce o := by
  unfold Client.processConnack
  dsimp only
  rw [if_neg (not_not.mpr hacc)]
  refine finish (resend ?_ _)
  split
  · next f hf =>
    obtain ⟨hcomp, hfo⟩ := hcf f hf
    refine of_connacked (by dsimp only; decide) (h.sound.complete hcomp) (fun g hg => ?_) (held_of_connack_none hn)
    exact (h.others g hg).modify (by rintro rfl; exact hfo hg) _
  · exact of_connacked (by dsimp only; decide) h.sound h.others (held_of_connack_none hn)

theorem continueConnack (h : c.ResolvesOnce o) : c.continueConnack.ResolvesOnce o := by
  unfold Client.continueConnack
  split
  · next cp hcp =>
    obtain ⟨hacc, hcf⟩ := h.held cp hcp
    exact h.release.processConnack rfl hacc hcf
  · exact h

theorem «end» (h : c.ResolvesOnce o) (err : Option ClientError) : (c.end err).1.ResolvesOnce o :=
  (h.cleanup true).continueConnack.of_eq (by rfl)

theorem receive (h : c.ResolvesOnce o) (pkt : GenericPacket)
    (hpkt : (Event.receive pkt).refusedConnack = false) : (c.receive pkt).ResolvesOnce o := by
  unfold Client.receive
  by_cases hblock : (!(c.processing && c.conn.isOpen) || c.connack.isSome) = true
  · rw [if_pos hblock]
    exact h
  rw [if_neg hblock]
  by_cases hfirst : c.first = true
  · rw [if_pos hfirst]
    cases pkt with
    | connack cp =>
      dsimp only
      by_cases hs : c.state = .clientConnecting
      · -- the processor holds the CONNACK of a client that is still connecting
        rw [if_neg (not_not.mpr hs)]
        have hlt : c.state.toNat < State.clientConnacked.toNat := by
          rw [hs]
          decide
        have hacc : cp.returnCode = ConnectionAccepted := by
          simpa [Event.refusedConnack] using hpkt
        refine ⟨h.sound, h.connecting, h.others, ?_⟩
        rintro cp' ⟨⟩
        exact ⟨hacc, fun f hf => ⟨.inl (h.connecting hlt f hf).1, (h.connecting hlt f hf).2⟩⟩
      · rw [if_pos hs]
        exact h.of_eq (by rfl)
    | _ => exact (h.die _ _ _).of_eq (by rfl)
  · rw [if_neg hfirst]
    have hh := h.handle pkt
    split
    · next c' heq =>
      rw [heq] at hh
      exact hh
    · next c' err heq =>
      rw [heq] at hh
      exact hh.of_eq (by rfl)

theorem receiveError (h : c.ResolvesOnce o) : c.receiveError.ResolvesOnce o := by
  unfold Client.receiveError
  split_ifs
  · exact h
  · exact h.of_eq (by rfl)
  · exact (h.die _ _ _).of_eq (by rfl)

theorem pinger (h : c.ResolvesOnce o) : c.pinger.ResolvesOnce o := by
  unfold Client.pinger
  split_ifs
  · exact h
  · exact (h.die _ _ _).of_eq (by rfl)
  · split
    · next c' err hs => exact ((h.of_send hs).die _ _ _).of_eq (by rfl)
    · next c' hs => exact (h.of_send hs).of_eq (by rfl)

theorem new_connect (h : c.ResolvesOnce o) (hfs : c'.futureStore = c.futureStore)
    (hf : c'.futures = (Future.new c.futures).2) (hc : c'.connectFuture = some (Future.new c.futures).1)
    (hn : c'.connack = c.connack) : c'.ResolvesOnce o := by
  have hnew : Free c'.futureStore c'.futures (Future.new c.futures).1 ∧ (Future.new c.futures).1 ∉ o := by
    rw [hfs, hf]
    exact ⟨h.sound.free_new, fun hfo => new_fst_ne (h.others _ hfo).1 rfl⟩
  refine ⟨by rw [hfs, hf]; exact h.sound.heap_new, ?_, ?_, fun cp hcp => ⟨(h.held cp (hn ▸ hcp)).1, ?_⟩⟩
  · rw [hc]
    rintro - f ⟨⟩
    exact hnew
  · rw [hfs, hf]
    exact fun g hg => (h.others g hg).heap_new
  · rw [hc]
    rintro f ⟨⟩
    exact ⟨.inl hnew.1, hnew.2⟩

theorem connect (h : c.ResolvesOnce o) (config : Config) : (c.connect config).1.ResolvesOnce o := by
  unfold Client.connect
  dsimp only
  split_ifs
  · exact h.of_eq (by rfl)
  · exact h.of_eq (by rfl)
  all_goals
    split
    · next c' err hs => exact ((h.new_connect (by rfl) (by rfl) (by rfl) (by rfl)).of_send hs).cleanup false
    · next c' hs =>
      exact ((h.new_connect (by rfl) (by rfl) (by rfl) (by rfl)).of_send hs).of_eq (by rfl)

theorem publishMessage (h : c.ResolvesOnce o) (msg : Message) :
    (c.publishMessage msg).1.ResolvesOnce o := by
  unfold Client.publishMessage
  dsimp only
  split_ifs
  · exact h
  all_goals
    split
    · next c' err hs =>
      exact ((h.put_new _ (by rfl) (by rfl) (by rfl) (by rfl) (by rfl)).of_send hs).cleanup false
    · next c' hs =>
      have h' := (h.put_new _ (by rfl) (by rfl) (by rfl) (by rfl) (by rfl)).of_send hs
      have hfs := futureStore_of_send hs
      first
        | exact h'
        | exact h'.resolve (by rw [hfs]; exact Store.get_put_self _ _ _) FutureState.complete (by decide)
            (by rfl) (by rfl) (by rfl) (by rfl) (by rfl)

theorem request (h : c.ResolvesOnce o) (request : UInt16 → GenericPacket) :
    (c.request request).1.ResolvesOnce o := by
  unfold Client.request
  dsimp only
  split_ifs
  · exact h
  · split
    · next c' err hs =>
      exact ((h.put_new _ (by rfl) (by rfl) (by rfl) (by rfl) (by rfl)).of_send hs).cleanup false
    · next c' hs => exact (h.put_new _ (by rfl) (by rfl) (by rfl) (by rfl) (by rfl)).of_send hs

theorem disconnect (h : c.ResolvesOnce o) : c.disconnect.1.ResolvesOnce o := by
  unfold Client.disconnect
  dsimp only
  split_ifs
  · exact h
  · have h' : ({ c with state := .clientDisconnecting } : Client).ResolvesOnce o :=
      of_connacked (by dsimp only; decide) h.sound h.others h.held
    exact (h'.send _).end _

theorem close (h : c.ResolvesOnce o) : c.close.1.ResolvesOnce o := by
  unfold Client.close
  split_ifs
  · exact h
  · exact h.end _

theorem step (h : c.ResolvesOnce o) : ∀ e : Event, e.refusedConnack = false → (c.step e).ResolvesOnce o
  | .connect config, _ => h.connect config
  | .publishMessage msg, _ => h.publishMessage msg
  | .subscribeMultiple _, _ => h.request _
  | .unsubscribeMultiple _, _ => h.request _
  | .disconnect, _ => h.disconnect
  | .close, _ => h.close
  | .receive pkt, he => h.receive pkt he
  | .continueConnack, _ => h.continueConnack
  | .receiveError, _ => h.receiveError
  | .keepAlive, _ => h.pinger
  | .connectionLost, _ => h.of_eq (by rfl)

theorem resolve_other {f : Nat} (h : c.ResolvesOnce (f :: o)) (hfo : f ∉ o)
    (op : FutureState → FutureState) (hop : op .pending ≠ .panicked)
    (hs : c'.state = c.state) (hc : c'.connectFuture = c.connectFuture)
    (hfs : c'.futureStore = c.futureStore) (hf : c'.futures = c.futures.modify f op)
    (hn : c'.connack = c.connack) : c'.ResolvesOnce o := by
  have hfree := h.others f List.mem_cons_self
  refine ⟨by rw [hfs, hf]; exact h.sound.modify hfree hop, ?_, ?_, fun cp hcp => ?_⟩
  · rw [hs, hc, hfs, hf]
    intro hlt g hg
    obtain ⟨hgf, hno⟩ := h.connecting hlt g hg
    have hne : f ≠ g := by
      rintro rfl
      exact hno List.mem_cons_self
    exact ⟨hgf.modify hne op, fun hgo => hno (List.mem_cons_of_mem f hgo)⟩
  · rw [hfs, hf]
    intro g hg
    have hne : f ≠ g := by
      rintro rfl
      exact hfo hg
    exact (h.others g (List.mem_cons_of_mem f hg)).modify hne op
  · obtain ⟨hacc, hcf⟩ := h.held cp (hn ▸ hcp)
    refine ⟨hacc, fun g hg => ?_⟩
    obtain ⟨hcomp, hno⟩ := hcf g (hc ▸ hg)
    have hne : f ≠ g := by
      rintro rfl
      exact hno List.mem_cons_self
    rw [hfs, hf]
    exact ⟨hcomp.modify hne op, fun hgo => hno (List.mem_cons_of_mem f hgo)⟩

theorem mono {o' : List Nat} (h : c.ResolvesOnce o) (ho : o' ⊆ o) : c.ResolvesOnce o' :=
  ⟨h.sound, fun hlt f hf => ⟨(h.connecting hlt f hf).1, fun hfo => (h.connecting hlt f hf).2 (ho hfo)⟩,
    fun f hf => h.others f (ho hf),
    fun cp hcp => ⟨(h.held cp hcp).1, fun f hf => ⟨((h.held cp hcp).2 f hf).1,
      fun hfo => ((h.held cp hcp).2 f hf).2 (ho hfo)⟩⟩⟩

theorem protect (h : c.ResolvesOnce o) (value : Bool) :
    ({ c with futureStore := c.futureStore.protect value } : Client).ResolvesOnce o :=
  ⟨h.sound.protect value, h.connecting, h.others, h.held⟩

theorem heap_new (h : c.ResolvesOnce o) (hs : c'.state = c.state)
    (hc : c'.connectFuture = c.connectFuture) (hfs : c'.futureStore = c.futureStore)
    (hf : c'.futures = (Future.new c.futures).2) (hn : c'.connack = c.connack) :
    c'.ResolvesOnce (o ++ [(Future.new c.futures).1]) := by
  refine ⟨by rw [hfs, hf]; exact h.sound.heap_new, ?_, ?_, fun cp hcp => ?_⟩
  · rw [hs, hc, hfs, hf]
    intro hlt g hg
    obtain ⟨hgf, hno⟩ := h.connecting hlt g hg
    refine ⟨hgf.heap_new, fun hgo => ?_⟩
    rcases List.mem_append.mp hgo with hgo | hgo
    · exact hno hgo
    · exact new_fst_ne hgf.1 (List.mem_singleton.mp hgo).symm
  · rw [hfs, hf]
    intro g hg
    rcases List.mem_append.mp hg with hg | hg
    · exact (h.others g hg).heap_new
    · rw [List.mem_singleton.mp hg]
      exact h.sound.free_new
  · obtain ⟨hacc, hcf⟩ := h.held cp (hn ▸ hcp)
    refine ⟨hacc, fun g hg => ?_⟩
    obtain ⟨hcomp, hno⟩ := hcf g (hc ▸ hg)
    rw [hfs, hf]
    refine ⟨hcomp.heap_new, fun hgo => ?_⟩
    rcases List.mem_append.mp hgo with hgo | hgo
    · exact hno hgo
    · exact hcomp.new_fst_ne (List.mem_singleton.mp hgo).symm

end ResolvesOnce

end Client

namespace Service

def Event.refusedConnack : Event → Bool
  | .receive pkt => (Client.Event.receive pkt).refusedConnack
  | _ => false

/-- Each future of a service is resolved at most once: its client's are, with the futures
of the queued calls free and distinct. -/
structure ResolvesOnce (s : Service) : Prop where
  client : s.client.ResolvesOnce (s.commandQueue.map Command.future)
  queued : (s.commandQueue.map Command.future).Nodup

variable {s : Service}

@[simp]
theorem client_settle : s.settle.client = s.client := by
  unfold Service.settle
  split
  · split <;> rfl
  · split_ifs <;> rfl
  · rfl

@[simp]
theorem commandQueue_settle : s.settle.commandQueue = s.commandQueue := by
  unfold Service.settle
  split
  · split <;> rfl
  · split_ifs <;> rfl
  · rfl

namespace ResolvesOnce

theorem settle (h : s.ResolvesOnce) : s.settle.ResolvesOnce := by
  refine ⟨?_, ?_⟩
  · rw [client_settle, commandQueue_settle]
    exact h.client
  · rw [commandQueue_settle]
    exact h.queued

theorem start (h : s.ResolvesOnce) (config : Client.Config) : (s.start config).ResolvesOnce := by
  unfold Service.start
  split_ifs
  · exact h
  · exact ⟨h.client.protect true, h.queued⟩

theorem stop (h : s.ResolvesOnce) (clearFutures : Bool) : (s.stop clearFutures).ResolvesOnce := by
  unfold Service.stop
  split_ifs
  · exact h
  · refine ⟨?_, h.queued⟩
    split
    · exact (h.client.disconnect.protect false).clear
    · exact (h.client.close.protect false).clear
    · exact (h.client.protect false).clear
  · refine ⟨?_, h.queued⟩
    split
    · exact h.client.disconnect
    · exact h.client.close
    · exact h.client

theorem request (h : s.ResolvesOnce) (command : Nat → Command) (hcmd : ∀ f, (command f).future = f) :
    (s.request command).ResolvesOnce := by
  unfold Service.request
  split_ifs
  · obtain ⟨hc, hq⟩ := h
    have hfresh : (Future.new s.client.futures).1 ∉ s.commandQueue.map Command.future :=
      fun hm => new_fst_ne (hc.others _ hm).1 rfl
    refine ⟨?_, ?_⟩
    · rw [List.map_append, List.map_singleton, hcmd]
      exact hc.heap_new (by rfl) (by rfl) (by rfl) (by rfl) (by rfl)
    · rw [List.map_append, List.map_singleton, hcmd]
      refine List.nodup_append.mpr ⟨hq, List.nodup_singleton _, fun a ha b hb hab => ?_⟩
      rw [List.mem_singleton] at hb
      subst hb
      exact hfresh (hab ▸ ha)
  · exact h

theorem reconnect (h : s.ResolvesOnce) : s.reconnect.ResolvesOnce := by
  unfold Service.reconnect
  split_ifs
  · exact h
  · split
    · exact h
    · next config hcfg =>
      -- the new client shares the future store and the futures of the one before, once its
      -- processor is done with a CONNACK it held, and has no connect future yet
      have hold := h.client.continueConnack
      have h0 : ({ Client.new (some s.callback) with
          session := s.client.continueConnack.session,
          futureStore := s.client.continueConnack.futureStore,
          futures := s.client.continueConnack.futures } : Client).ResolvesOnce
            (s.commandQueue.map Command.future) :=
        ⟨hold.sound, by rintro - f ⟨⟩, hold.others, Client.held_of_connack_none rfl⟩
      have hconn := h0.connect config
      dsimp only at hconn ⊢
      split
      · next client f hp =>
        rw [hp] at hconn
        exact ⟨hconn, h.queued⟩
      · next client err hp =>
        rw [hp] at hconn
        exact ⟨hconn, h.queued⟩

theorem connectTimeout (h : s.ResolvesOnce) : s.connectTimeout.ResolvesOnce := by
  unfold Service.connectTimeout
  split_ifs
  · exact h
  · exact ⟨h.client.close, h.queued⟩

theorem client_step (h : s.ResolvesOnce) (e : Client.Event) (he : e.refusedConnack = false) :
    ({ s with client := s.client.step e } : Service).ResolvesOnce :=
  ⟨h.client.step e he, h.queued⟩

theorem dispatch (h : s.ResolvesOnce) : s.dispatch.ResolvesOnce := by
  unfold Service.dispatch
  split_ifs
  · exact h
  · split
    · exact h
    · next cmd rest hq =>
      obtain ⟨hc, hnd⟩ := h
      rw [hq, List.map_cons] at hc hnd
      rw [List.nodup_cons] at hnd
      split
      next client result hp =>
        have hcl : client.ResolvesOnce (cmd.future :: rest.map Command.future) := by
          rw [Prod.ext_iff] at hp
          obtain ⟨rfl, -⟩ := hp
          cases cmd with
          | subscribe _ subscriptions => exact hc.request _
          | unsubscribe _ topics => exact hc.request _
          | publish _ msg => exact hc.publishMessage msg
        split
        · exact ⟨hcl.mono (List.subset_cons_self _ _), hnd.2⟩
        · -- a failed call cancels the command's future, which only the service holds
          exact ⟨hcl.resolve_other hnd.1 FutureState.cancel (by decide) (by rfl) (by rfl) (by rfl) (by rfl)
            (by rfl),
            hnd.2⟩

theorem step (h : s.ResolvesOnce) : ∀ e : Event, e.refusedConnack = false → (s.step e).ResolvesOnce
  | .start config, _ => h.start config
  | .stop clearFutures, _ => h.stop clearFutures
  | .publishMessage msg, _ => h.request (fun f => .publish f msg) fun _ => rfl
  | .subscribeMultiple subscriptions, _ => h.request (fun f => .subscribe f subscriptions) fun _ => rfl
  | .unsubscribeMultiple topics, _ => h.request (fun f => .unsubscribe f topics) fun _ => rfl
  | .reconnect, _ => h.reconnect
  | .connectTimeout, _ => h.connectTimeout
  | .dispatch, _ => h.dispatch
  | .receive pkt, he => (h.client_step (.receive pkt) he).settle
  | .continueConnack, _ => (h.client_step .continueConnack rfl).settle
  | .receiveError, _ => (h.client_step .receiveError rfl).settle
  | .keepAlive, _ => (h.client_step .keepAlive rfl).settle
  | .connectionLost, _ => (h.client_step .connectionLost rfl).settle

end ResolvesOnce

end Service

/-- With a refused CONNACK in its place, `processConnack` cancels the canceled connect future
again, which panics. -/
example : (run Client.step (Client.new none) [.connect Client.newConfig,
    .receive (.connack ⟨false, 5⟩), .close]).futures[0]? = some .panicked := by
  decide

end GoMqtt
