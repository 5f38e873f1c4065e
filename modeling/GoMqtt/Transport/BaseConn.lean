import GoMqtt.Packet.Stream
import GoMqtt.Lib.Machine

namespace GoMqtt.Transport

open GoMqtt.Packet GoMqtt.Machine

inductive ConnError
  | encode (n : Int) (e : CodecError)
  | stream (e : StreamError)
  | carrier
  deriving DecidableEq, Repr

/-- A `Carrier` as the connection uses it: the bytes its writes delivered, the bytes that
arrived and are still to be read, whether the peer has closed its side (no more bytes will
arrive), whether it is closed, and whether its writes fail. -/
structure Carrier where
  written : List UInt8
  incoming : List UInt8
  ended : Bool
  closed : Bool
  broken : Bool
  deriving DecidableEq, Repr

namespace Carrier

def write (c : Carrier) (bytes : List UInt8) : Except ConnError Carrier :=
  if c.closed || c.broken then .error .carrier
  else .ok { c with written := c.written ++ bytes }

/-- The carrier at the other end: it delivers the bytes written to this one, then ends. -/
def peer (c : Carrier) : Carrier :=
  { written := [], incoming := c.written, ended := true, closed := false, broken := false }

/-- `Close`, which fails on a carrier already closed. -/
def close (c : Carrier) : Carrier × Option ConnError :=
  if c.closed then (c, some .carrier) else ({ c with closed := true }, none)

end Carrier

/-- The `bufio.Writer` of the encoder: the bytes it holds until `Flush`, and the first error it
met, which it returns from then on. -/
structure Writer where
  buffer : List UInt8
  err : Option ConnError
  deriving DecidableEq, Repr

namespace Writer

def write (w : Writer) (bytes : List UInt8) : Except ConnError Writer :=
  match w.err with
  | some e => .error e
  | none => .ok { w with buffer := w.buffer ++ bytes }

def flush (w : Writer) (carrier : Carrier) : Writer × Carrier × Option ConnError :=
  match w.err with
  | some e => (w, carrier, some e)
  | none =>
    if w.buffer = [] then (w, carrier, none)
    else
      match carrier.write w.buffer with
      | .ok carrier => ({ w with buffer := [] }, carrier, none)
      | .error e => ({ w with err := some e }, carrier, some e)

end Writer

/-- What a call returns; a `Receive` that waits for more bytes has not returned. -/
inductive Reply
  | ok
  | packet (pkt : GenericPacket)
  | error (e : ConnError)
  | waiting
  | panic
  deriving DecidableEq, Repr

structure BaseConn where
  carrier : Carrier
  writer : Writer
  /-- `Decoder.Limit` -/
  limit : Int
  /-- `flushTimer`: `none` until the first `BufferedSend`, then whether it is running -/
  flushTimer : Option Bool
  flushError : Option ConnError
  deriving DecidableEq, Repr

def newBaseConn (carrier : Carrier) : BaseConn :=
  { carrier := carrier, writer := ⟨[], none⟩, limit := 0, flushTimer := none, flushError := none }

namespace BaseConn

variable (c : BaseConn)

/-- `c.carrier.Close()` where its error is ignored. -/
def closeCarrier : BaseConn :=
  { c with carrier := c.carrier.close.1 }

def write (stale : List UInt8) (pkt : GenericPacket) : BaseConn × Reply :=
  match Encoder.write stale pkt with
  | .ok bytes =>
    match c.writer.write bytes with
    | .ok writer => ({ c with writer := writer }, .ok)
    | .error e => (c.closeCarrier, .error e)
  | .error n e => (c.closeCarrier, .error (.encode n e))
  | .panic => (c, .panic)

def flush : BaseConn × Option ConnError :=
  match c.writer.flush c.carrier with
  | (writer, carrier, none) => ({ c with writer := writer, carrier := carrier }, none)
  | (writer, carrier, some e) => ({ c with writer := writer, carrier := carrier.close.1 }, some e)

def send (stale : List UInt8) (pkt : GenericPacket) : BaseConn × Reply :=
  match c.write stale pkt with
  | (c, .ok) =>
    -- a running timer is stopped: this flush takes the buffered bytes too
    let c := { c with flushTimer := c.flushTimer.map fun _ => false }
    match c.flush with
    | (c, none) => (c, .ok)
    | (c, some e) => (c, .error e)
  | r => r

def bufferedSend (stale : List UInt8) (pkt : GenericPacket) : BaseConn × Reply :=
  let c := if c.flushTimer.isNone then { c with flushTimer := some false } else c
  match c.flushError with
  | some e => (c, .error e)
  | none =>
    match c.write stale pkt with
    | (c, .ok) => ({ c with flushTimer := some true }, .ok)
    | r => r

def asyncFlush : BaseConn :=
  match c.flush with
  | (c, none) => c
  | (c, some e) => { c with flushError := some e }

/-- `Receive`: a read that runs out of bytes waits while the peer may still send. -/
def receive : BaseConn × Reply :=
  if c.carrier.closed then (c, .error .carrier)
  else
    match Decoder.read c.limit c.carrier.incoming with
    | .ok pkt rest => ({ c with carrier := { c.carrier with incoming := rest } }, .packet pkt)
    | .error e =>
      if (e = .eof ∨ e = .unexpectedEOF) ∧ c.carrier.ended = false then (c, .waiting)
      else (c.closeCarrier, .error (.stream e))
    | .panic => (c, .panic)

def close : BaseConn × Reply :=
  match c.flush with
  | (c, some e) => (c, .error e)
  | (c, none) =>
    match c.carrier.close with
    | (carrier, none) => ({ c with carrier := carrier }, .ok)
    | (carrier, some e) => ({ c with carrier := carrier }, .error e)

inductive Event
  | send (stale : List UInt8) (pkt : GenericPacket)
  | bufferedSend (stale : List UInt8) (pkt : GenericPacket)
  | receive
  | close
  | setReadLimit (limit : Int)
  | flushTimeout
  | arrive (bytes : List UInt8)
  | peerClose
  | fail

def step : Event → BaseConn × Reply
  | .send stale pkt => c.send stale pkt
  | .bufferedSend stale pkt => c.bufferedSend stale pkt
  | .receive => c.receive
  | .close => c.close
  | .setReadLimit limit => ({ c with limit := limit }, .ok)
  | .flushTimeout =>
    if c.flushTimer = some true then ({ c with flushTimer := some false }.asyncFlush, .ok)
    else (c, .ok)
  | .arrive bytes =>
    if c.carrier.ended then (c, .ok)
    else ({ c with carrier := { c.carrier with incoming := c.carrier.incoming ++ bytes } }, .ok)
  | .peerClose => ({ c with carrier := { c.carrier with ended := true } }, .ok)
  | .fail => ({ c with carrier := { c.carrier with broken := true } }, .ok)

def after (events : List Event) : BaseConn :=
  Machine.run (fun c e => (c.step e).1) c events

end BaseConn

section Lemmas

namespace Carrier

variable {c c' : Carrier} {bytes : List UInt8}

@[simp]
theorem closed_close (c : Carrier) : c.close.1.closed = true := by
  unfold close
  split <;> simp_all

@[simp]
theorem written_close (c : Carrier) : c.close.1.written = c.written := by
  unfold close
  split <;> rfl

theorem close_of_closed (h : c.closed = true) : c.close = (c, some .carrier) := by
  simp [close, h]

theorem write_eq_ok (h : c.write bytes = .ok c') :
    c.closed = false ∧ c' = { c with written := c.written ++ bytes } := by
  unfold write at h
  split at h
  · cases h
  · cases h
    simp_all

end Carrier

namespace Writer

variable {w : Writer} {carrier : Carrier}

theorem flush_cases (w : Writer) (carrier : Carrier) :
    (w.flush carrier = (w, carrier, w.err) ∧ (w.err.isSome ∨ w.buffer = [])) ∨
    (∃ carrier', w.err = none ∧ carrier.write w.buffer = .ok carrier' ∧
      w.flush carrier = ({ w with buffer := [] }, carrier', none)) ∨
    (∃ e, w.err = none ∧ carrier.write w.buffer = .error e ∧
      w.flush carrier = ({ w with err := some e }, carrier, some e)) := by
  unfold flush
  rcases he : w.err with _ | e
  · by_cases hb : w.buffer = []
    · exact .inl ⟨by simp [hb], .inr hb⟩
    · rcases hw : carrier.write w.buffer with e | carrier'
      · exact .inr (.inr ⟨e, rfl, rfl, by simp [hb]⟩)
      · exact .inr (.inl ⟨carrier', rfl, rfl, by simp [hb]⟩)
  · exact .inl ⟨rfl, .inl rfl⟩

end Writer

namespace BaseConn

variable {c : BaseConn}

@[simp]
theorem flushError_flush (c : BaseConn) : c.flush.1.flushError = c.flushError := by
  unfold flush
  split <;> rfl

@[simp]
theorem flushTimer_flush (c : BaseConn) : c.flush.1.flushTimer = c.flushTimer := by
  unfold flush
  split <;> rfl

theorem flush_moves (c : BaseConn) :
    (c.flush.1.carrier.written = c.carrier.written ∧ c.flush.1.writer.buffer = c.writer.buffer ∧
      (c.flush.1.writer.err = none → c.writer.err = none)) ∨
    (c.writer.err = none ∧ c.flush.2 = none ∧
      c.flush.1.carrier.written = c.carrier.written ++ c.writer.buffer ∧
      c.flush.1.writer = ⟨[], none⟩) := by
  unfold flush
  rcases Writer.flush_cases c.writer c.carrier with ⟨hf, -⟩ | ⟨carrier', he, hw, hf⟩ | ⟨e, -, -, hf⟩
  · left
    rw [hf]
    rcases he : c.writer.err with _ | e <;> simp [he]
  · right
    obtain ⟨-, rfl⟩ := Carrier.write_eq_ok hw
    simp [hf, he]
  · left
    simp [hf]

theorem closed_flush (c : BaseConn) (h : c.flush.2.isSome ∨ c.flush.1.writer.err.isSome) :
    c.flush.1.carrier.closed = true := by
  unfold flush at h ⊢
  rcases Writer.flush_cases c.writer c.carrier with ⟨hf, -⟩ | ⟨carrier', he, -, hf⟩ | ⟨e, -, -, hf⟩
  · rw [hf] at h ⊢
    rcases he : c.writer.err with _ | e
    · simp [he] at h
    · simp
  · simp [hf, he] at h
  · simp [hf]

theorem closed_flush_of_closed (c : BaseConn) (h : c.carrier.closed = true) :
    c.flush.1.carrier.closed = true := by
  unfold flush
  rcases Writer.flush_cases c.writer c.carrier with ⟨hf, -⟩ | ⟨carrier', -, hw, hf⟩ | ⟨e, -, -, hf⟩
  · rw [hf]
    split <;> simp_all
  · simp [(Carrier.write_eq_ok hw).1] at h
  · simp [hf]

theorem write_cases (c : BaseConn) (stale : List UInt8) (pkt : GenericPacket) :
    (∃ bs, Encoder.write stale pkt = .ok bs ∧ c.writer.err = none ∧
      c.write stale pkt = ({ c with writer := { c.writer with buffer := c.writer.buffer ++ bs } }, .ok)) ∨
    (∃ e, c.write stale pkt = (c.closeCarrier, .error e)) ∨
    c.write stale pkt = (c, .panic) := by
  unfold write
  rcases hw : Encoder.write stale pkt with bs | ⟨n, e⟩ | _
  · rcases he : c.writer.err with _ | e
    · exact .inl ⟨bs, rfl, rfl, by simp [Writer.write, he]⟩
    · exact .inr (.inl ⟨e, by simp [Writer.write, he]⟩)
  · exact .inr (.inl ⟨_, rfl⟩)
  · exact .inr (.inr rfl)

/-- Every error the connection keeps has closed its carrier. -/
structure ErrorsClose (c : BaseConn) : Prop where
  writer : c.writer.err.isSome → c.carrier.closed = true
  flushError : c.flushError.isSome → c.carrier.closed = true

/-- What a call leaves: a connection whose errors have closed its carrier, and a closed carrier
if the call returned an error. -/
structure Closes (r : BaseConn × Reply) : Prop where
  errorsClose : r.1.ErrorsClose
  closed : ∀ e, r.2 = .error e → r.1.carrier.closed = true

namespace ErrorsClose

theorem of_closed (h : c.carrier.closed = true) : c.ErrorsClose :=
  ⟨fun _ => h, fun _ => h⟩

theorem closeCarrier (c : BaseConn) : c.closeCarrier.ErrorsClose :=
  of_closed (Carrier.closed_close c.carrier)

theorem flush (h : c.ErrorsClose) : c.flush.1.ErrorsClose ∧ (c.flush.2.isSome → c.flush.1.carrier.closed = true) := by
  refine ⟨⟨fun hw => c.closed_flush (.inr hw), fun hf => ?_⟩, fun he => c.closed_flush (.inl he)⟩
  rw [flushError_flush] at hf
  exact c.closed_flush_of_closed (h.flushError hf)

theorem closes (h : c.ErrorsClose) {r : Reply} (hr : ∀ e, r ≠ .error e) : Closes (c, r) :=
  ⟨h, fun e he => absurd he (hr e)⟩

theorem closes_ok (h : c.ErrorsClose) : Closes (c, .ok) :=
  h.closes nofun

theorem write (h : c.ErrorsClose) (stale : List UInt8) (pkt : GenericPacket) :
    Closes (c.write stale pkt) := by
  rcases c.write_cases stale pkt with ⟨bs, -, -, hw⟩ | ⟨e, hw⟩ | hw <;> rw [hw]
  · exact ⟨⟨h.writer, h.flushError⟩, nofun⟩
  · exact ⟨closeCarrier c, fun _ _ => Carrier.closed_close c.carrier⟩
  · exact h.closes nofun

theorem send (h : c.ErrorsClose) (stale : List UInt8) (pkt : GenericPacket) :
    Closes (c.send stale pkt) := by
  unfold BaseConn.send
  split
  · next c' hw =>
    have h' : ErrorsClose { c' with flushTimer := c'.flushTimer.map fun _ => false } := by
      have := (h.write stale pkt).errorsClose
      rw [hw] at this
      exact ⟨this.writer, this.flushError⟩
    obtain ⟨hf, hclosed⟩ := h'.flush
    dsimp only
    split
    · next hn => exact ⟨by rw [hn] at hf; exact hf, nofun⟩
    · next c'' e hs =>
      rw [hs] at hf hclosed
      exact ⟨hf, fun _ _ => hclosed rfl⟩
  · exact h.write stale pkt

theorem bufferedSend (h : c.ErrorsClose) (stale : List UInt8) (pkt : GenericPacket) :
    Closes (c.bufferedSend stale pkt) := by
  unfold BaseConn.bufferedSend
  have h' : ErrorsClose (if c.flushTimer.isNone then { c with flushTimer := some false } else c) := by
    split
    · exact ⟨h.writer, h.flushError⟩
    · exact h
  generalize (if c.flushTimer.isNone then { c with flushTimer := some false } else c) = c' at h' ⊢
  dsimp only
  split
  · next e he => exact ⟨h', fun _ _ => h'.flushError (by simp [he])⟩
  · split
    · next c'' hw =>
      have := (h'.write stale pkt).errorsClose
      rw [hw] at this
      exact ⟨⟨this.writer, this.flushError⟩, nofun⟩
    · exact h'.write stale pkt

theorem asyncFlush (h : c.ErrorsClose) : c.asyncFlush.ErrorsClose := by
  obtain ⟨hf, hclosed⟩ := h.flush
  unfold BaseConn.asyncFlush
  split
  · next c' hs =>
    rw [hs] at hf
    exact hf
  · next c' e hs =>
    rw [hs] at hf hclosed
    exact ⟨hf.writer, fun _ => hclosed rfl⟩

theorem receive (h : c.ErrorsClose) : Closes c.receive := by
  unfold BaseConn.receive
  split
  · next hc => exact ⟨h, fun _ _ => hc⟩
  · split
    · exact ⟨⟨h.writer, h.flushError⟩, nofun⟩
    · split
      · exact h.closes nofun
      · exact ⟨closeCarrier c, fun _ _ => Carrier.closed_close c.carrier⟩
    · exact h.closes nofun

theorem close (h : c.ErrorsClose) : Closes c.close := by
  obtain ⟨hf, hclosed⟩ := h.flush
  unfold BaseConn.close
  split
  · next c' e hs =>
    rw [hs] at hf hclosed
    exact ⟨hf, fun _ _ => hclosed rfl⟩
  · next c' hs =>
    have hc := Carrier.closed_close c'.carrier
    split
    · next carrier hcl =>
      rw [hcl] at hc
      exact ⟨of_closed hc, nofun⟩
    · next carrier e hcl =>
      rw [hcl] at hc
      exact ⟨of_closed hc, fun _ _ => hc⟩

theorem step (h : c.ErrorsClose) : ∀ e : Event, Closes (c.step e)
  | .send stale pkt => h.send stale pkt
  | .bufferedSend stale pkt => h.bufferedSend stale pkt
  | .receive => h.receive
  | .close => h.close
  | .setReadLimit _ => closes_ok ⟨h.writer, h.flushError⟩
  | .flushTimeout => by
    simp only [BaseConn.step]
    split
    · exact closes_ok (asyncFlush ⟨h.writer, h.flushError⟩)
    · exact h.closes_ok
  | .arrive _ => by
    simp only [BaseConn.step]
    split
    · exact h.closes_ok
    · exact closes_ok ⟨h.writer, h.flushError⟩
  | .peerClose => closes_ok ⟨h.writer, h.flushError⟩
  | .fail => closes_ok ⟨h.writer, h.flushError⟩

end ErrorsClose

theorem errorsClose_newBaseConn (carrier : Carrier) : (newBaseConn carrier).ErrorsClose :=
  ⟨nofun, nofun⟩

section Closed

variable (hc : c.carrier.closed = true)
include hc

@[simp]
theorem carrier_closeCarrier_of_closed : c.closeCarrier.carrier = c.carrier := by
  simp [closeCarrier, Carrier.close_of_closed hc]

theorem carrier_flush_of_closed : c.flush.1.carrier = c.carrier := by
  unfold flush
  rcases Writer.flush_cases c.writer c.carrier with ⟨hf, -⟩ | ⟨carrier', -, hw, -⟩ | ⟨e, -, -, hf⟩
  · rw [hf]
    cases c.writer.err <;> simp [Carrier.close_of_closed hc]
  · simp [(Carrier.write_eq_ok hw).1] at hc
  · simp [hf, Carrier.close_of_closed hc]

theorem carrier_write_of_closed (stale : List UInt8) (pkt : GenericPacket) :
    (c.write stale pkt).1.carrier = c.carrier := by
  rcases c.write_cases stale pkt with ⟨bs, -, -, hw⟩ | ⟨e, hw⟩ | hw <;> rw [hw]
  · exact carrier_closeCarrier_of_closed hc

theorem carrier_send_of_closed (stale : List UInt8) (pkt : GenericPacket) :
    (c.send stale pkt).1.carrier = c.carrier := by
  have hw := carrier_write_of_closed hc stale pkt
  unfold send
  split
  · next c' hs =>
    rw [hs] at hw
    have hf := carrier_flush_of_closed (c := { c' with flushTimer := c'.flushTimer.map fun _ => false })
      (by rw [← hc, ← hw])
    dsimp only
    split <;> simp_all
  · exact hw

theorem carrier_bufferedSend_of_closed (stale : List UInt8) (pkt : GenericPacket) :
    (c.bufferedSend stale pkt).1.carrier = c.carrier := by
  unfold bufferedSend
  have hc' : (if c.flushTimer.isNone then { c with flushTimer := some false } else c).carrier = c.carrier := by
    split <;> rfl
  generalize (if c.flushTimer.isNone then { c with flushTimer := some false } else c) = c' at hc' ⊢
  have hw := carrier_write_of_closed (c := c') (hc'.symm ▸ hc) stale pkt
  dsimp only
  split
  · exact hc'
  · split
    · next c'' hs =>
      rw [hs] at hw
      exact hw.trans hc'
    · exact hw.trans hc'

theorem carrier_asyncFlush_of_closed : c.asyncFlush.carrier = c.carrier := by
  have hf := carrier_flush_of_closed hc
  unfold asyncFlush
  split <;> simp_all

theorem carrier_close_of_closed : c.close.1.carrier = c.carrier := by
  have hf := carrier_flush_of_closed hc
  unfold close
  split
  · simp_all
  · next c' hs =>
    rw [hs] at hf
    rw [hf, Carrier.close_of_closed hc]

end Closed

theorem step_of_closed (hc : c.carrier.closed = true) (e : Event) :
    (c.step e).1.carrier.closed = true ∧ (c.step e).1.carrier.written = c.carrier.written := by
  cases e with
  | send stale pkt => simp [step, carrier_send_of_closed hc, hc]
  | bufferedSend stale pkt => simp [step, carrier_bufferedSend_of_closed hc, hc]
  | receive => simp [step, receive, hc]
  | close => simp [step, carrier_close_of_closed hc, hc]
  | setReadLimit _ => exact ⟨hc, rfl⟩
  | flushTimeout =>
    simp only [step]
    split
    · rw [carrier_asyncFlush_of_closed (c := { c with flushTimer := some false }) hc]
      exact ⟨hc, rfl⟩
    · exact ⟨hc, rfl⟩
  | arrive _ =>
    simp only [step]
    split <;> exact ⟨hc, rfl⟩
  | peerClose => exact ⟨hc, rfl⟩
  | fail => exact ⟨hc, rfl⟩

theorem after_of_closed (hc : c.carrier.closed = true) (events : List Event) :
    (c.after events).carrier.closed = true ∧ (c.after events).carrier.written = c.carrier.written := by
  have hstep : ∀ (c' : BaseConn) (e : Event),
      c'.carrier.closed = true ∧ c'.carrier.written = c.carrier.written →
        (c'.step e).1.carrier.closed = true ∧ (c'.step e).1.carrier.written = c.carrier.written :=
    fun c' e ⟨hc', hw'⟩ => ⟨(step_of_closed hc' e).1, (step_of_closed hc' e).2.trans hw'⟩
  exact run_invariant hstep events ⟨hc, rfl⟩

theorem error_closes_carrier (carrier : Carrier) (events : List Event) (e : Event) (err : ConnError)
    (h : (((newBaseConn carrier).after events).step e).2 = .error err) (more : List Event) :
    ((((newBaseConn carrier).after events).step e).1.after more).carrier.closed = true ∧
      ((((newBaseConn carrier).after events).step e).1.after more).carrier.written =
        (((newBaseConn carrier).after events).step e).1.carrier.written := by
  have hinv : ((newBaseConn carrier).after events).ErrorsClose :=
    run_invariant (fun c e h => (h.step e).errorsClose) events (errorsClose_newBaseConn carrier)
  exact after_of_closed ((hinv.step e).closed err h) more

theorem error_closes_carrier_invalid_qos :
    (((newBaseConn ⟨[], [], false, false, false⟩).after [.bufferedSend [] .pingreq]).step
        (.send [] (.publish ⟨⟨[97], [1], 3, false⟩, false, 7⟩))).2 =
      .error (.encode 0 (.invalidQOSLevel 3)) ∧
    ((((newBaseConn ⟨[], [], false, false, false⟩).after [.bufferedSend [] .pingreq]).step
        (.send [] (.publish ⟨⟨[97], [1], 3, false⟩, false, 7⟩))).1.after
        [.send [] .pingreq, .flushTimeout]).carrier.closed = true ∧
      ((((newBaseConn ⟨[], [], false, false, false⟩).after [.bufferedSend [] .pingreq]).step
        (.send [] (.publish ⟨⟨[97], [1], 3, false⟩, false, 7⟩))).1.after
        [.send [] .pingreq, .flushTimeout]).carrier.written =
        (((newBaseConn ⟨[], [], false, false, false⟩).after [.bufferedSend [] .pingreq]).step
          (.send [] (.publish ⟨⟨[97], [1], 3, false⟩, false, 7⟩))).1.carrier.written :=
  have h : (((newBaseConn ⟨[], [], false, false, false⟩).after [.bufferedSend [] .pingreq]).step
      (.send [] (.publish ⟨⟨[97], [1], 3, false⟩, false, 7⟩))).2 =
      .error (.encode 0 (.invalidQOSLevel 3)) := by decide
  ⟨h, error_closes_carrier _ _ _ _ h _⟩

section Accepted

def Event.packet? : Event → Option GenericPacket
  | .send _ pkt | .bufferedSend _ pkt => some pkt
  | _ => none

/-- The packets whose `Send` or `BufferedSend` returned nil, in the order of the calls. -/
def accepted : List (Event × Reply) → List GenericPacket :=
  List.filterMap fun
    | (.send _ pkt, .ok) | (.bufferedSend _ pkt, .ok) => some pkt
    | _ => none

theorem accepted_append (tr tr' : List (Event × Reply)) :
    accepted (tr ++ tr') = accepted tr ++ accepted tr' :=
  List.filterMap_append

theorem accepted_of_ne_ok (e : Event) (r : Reply) (hr : r ≠ .ok) : accepted [(e, r)] = [] := by
  cases r <;> first | exact absurd rfl hr | cases e <;> rfl

theorem accepted_of_packet_none {e : Event} (he : e.packet? = none) (r : Reply) :
    accepted [(e, r)] = [] := by
  cases e with
  | send _ _ => cases he
  | bufferedSend _ _ => cases he
  | _ => cases r <;> rfl

variable {c' : BaseConn}

theorem err_flush_of_error (he : c.writer.err = none) {e : ConnError} (h : c.flush.2 = some e) :
    c.flush.1.writer.err = some e := by
  unfold flush at h ⊢
  rcases Writer.flush_cases c.writer c.carrier with ⟨hf, -⟩ | ⟨carrier', -, -, hf⟩ | ⟨e', -, -, hf⟩
  · simp [hf, he] at h
  · simp [hf] at h
  · simp_all

/-- `frames` are what `Encoder.Write` wrote for `pkts`, one each, in order. -/
def Encoded (pkts : List GenericPacket) (frames : List (List UInt8)) : Prop :=
  List.Forall₂ (fun p bs => ∃ stale, Encoder.write stale p = .ok bs) pkts frames

theorem Encoded.push {pkts : List GenericPacket} {frames : List (List UInt8)}
    (h : Encoded pkts frames) {stale : List UInt8} {pkt : GenericPacket} {bs : List UInt8}
    (hw : Encoder.write stale pkt = .ok bs) : Encoded (pkts ++ [pkt]) (frames ++ [bs]) :=
  List.rel_append h (.cons ⟨stale, hw⟩ .nil)

/-- The bytes the sending side has taken, frame by frame: after those the carrier held at first,
the carrier holds the frames of the first `k` packets and the writer those of the others,
followed by the encoding of one more packet only once it is stopped: that of a `Send` whose
flush failed. -/
structure Flushed (c : BaseConn) (initial : List UInt8) (pkts : List GenericPacket)
    (frames : List (List UInt8)) (k : Nat) : Prop where
  encoded : Encoded pkts frames
  le : k ≤ frames.length
  written : c.carrier.written = initial ++ (frames.take k).flatten
  buffer : ∃ extra, c.writer.buffer = (frames.drop k).flatten ++ extra ∧
    (c.writer.err = none → extra = [])

/-- `Flushed` as a later state has it: more frames may follow, and more of them may have
reached the carrier. -/
def FlushedPast (c : BaseConn) (initial : List UInt8) (pkts : List GenericPacket)
    (frames : List (List UInt8)) (k : Nat) : Prop :=
  ∃ more k', k ≤ k' ∧ c.Flushed initial pkts (frames ++ more) k'

theorem send_of_write_ok {stale : List UInt8} {pkt : GenericPacket} (hw : c.write stale pkt = (c', .ok)) :
    c.send stale pkt =
      match ({ c' with flushTimer := c'.flushTimer.map fun _ => false } : BaseConn).flush with
      | (c, none) => (c, .ok)
      | (c, some e) => (c, .error e) := by
  unfold send
  rw [hw]

theorem send_of_write_ne_ok {stale : List UInt8} {pkt : GenericPacket} (hw : (c.write stale pkt).2 ≠ .ok) :
    c.send stale pkt = c.write stale pkt := by
  unfold send
  split
  · next c' h => simp [h] at hw
  · rfl

section Flushed

variable {initial : List UInt8} {pkts pkts' : List GenericPacket} {frames : List (List UInt8)}
  {k : Nat}

namespace FlushedPast

theorem of_eq (h : c.FlushedPast initial pkts frames k)
    (f : ∀ more k', c.Flushed initial pkts (frames ++ more) k' →
      c'.Flushed initial pkts' (frames ++ more) k') :
    c'.FlushedPast initial pkts' frames k := by
  obtain ⟨more, k', hk, h'⟩ := h
  exact ⟨more, k', hk, f more k' h'⟩

theorem of_append {more : List (List UInt8)} {k' : Nat}
    (h : c.FlushedPast initial pkts (frames ++ more) k)
    (hk : k' ≤ k) : c.FlushedPast initial pkts frames k' := by
  obtain ⟨more', k'', hk', h'⟩ := h
  rw [List.append_assoc] at h'
  exact ⟨more ++ more', k'', hk.trans hk', h'⟩

theorem keep (h : c.FlushedPast initial pkts frames k) {e : Event} {r : Reply}
    (hr : accepted [(e, r)] = []) : c.FlushedPast initial (pkts ++ accepted [(e, r)]) frames k := by
  rw [hr, List.append_nil]
  exact h

end FlushedPast

namespace Flushed

theorem of_eq (h : c.Flushed initial pkts frames k)
    (hw : c'.carrier.written = c.carrier.written) (hb : c'.writer.buffer = c.writer.buffer)
    (herr : c'.writer.err = none → c.writer.err = none) : c'.Flushed initial pkts frames k := by
  obtain ⟨extra, hb', hx⟩ := h.buffer
  exact ⟨h.encoded, h.le, hw.trans h.written, extra, hb.trans hb', fun he => hx (herr he)⟩

theorem past (h : c.Flushed initial pkts frames k) : c.FlushedPast initial pkts frames k :=
  ⟨[], k, le_rfl, by rwa [List.append_nil]⟩

theorem closeCarrier (h : c.Flushed initial pkts frames k) :
    c.closeCarrier.Flushed initial pkts frames k :=
  h.of_eq (Carrier.written_close c.carrier) rfl id

theorem flush (h : c.Flushed initial pkts frames k) : c.flush.1.FlushedPast initial pkts frames k := by
  rcases c.flush_moves with ⟨hw, hb, herr⟩ | ⟨he, -, hw, hwr⟩
  · exact (h.of_eq hw hb herr).past
  · obtain ⟨extra, hb, hx⟩ := h.buffer
    refine ⟨[], frames.length, h.le, ?_⟩
    rw [List.append_nil]
    refine ⟨h.encoded, le_rfl, ?_, [], by simp [hwr], fun _ => rfl⟩
    rw [hw, h.written, hb, hx he, List.take_length, List.append_nil, List.append_assoc,
      ← List.flatten_append, List.take_append_drop]

theorem push (h : c.Flushed initial pkts frames k) (he : c.writer.err = none) {stale : List UInt8}
    {pkt : GenericPacket} {bs : List UInt8} (hE : Encoder.write stale pkt = .ok bs)
    (hw : c'.carrier.written = c.carrier.written) (hb : c'.writer.buffer = c.writer.buffer ++ bs) :
    c'.Flushed initial (pkts ++ [pkt]) (frames ++ [bs]) k := by
  obtain ⟨extra, hb0, hx⟩ := h.buffer
  rw [hx he, List.append_nil] at hb0
  have hk : k ≤ frames.length := h.le
  refine ⟨h.encoded.push hE, by simp; omega, ?_, [], ?_, fun _ => rfl⟩
  · rw [hw, h.written, List.take_append_of_le_length hk]
  · rw [hb, hb0, List.drop_append_of_le_length hk, List.flatten_append, List.flatten_singleton,
      List.append_nil]

theorem push_stopped (h : c.Flushed initial pkts frames k) (he : c.writer.err = none)
    {bs : List UInt8} (hw : c'.carrier.written = c.carrier.written)
    (hb : c'.writer.buffer = c.writer.buffer ++ bs) (hs : c'.writer.err ≠ none) :
    c'.Flushed initial pkts frames k := by
  obtain ⟨extra, hb0, hx⟩ := h.buffer
  rw [hx he, List.append_nil] at hb0
  exact ⟨h.encoded, h.le, hw.trans h.written, bs, by rw [hb, hb0], fun h' => absurd h' hs⟩

theorem written_of_empty (h : c.Flushed initial pkts frames k) (hb : c.writer.buffer = []) :
    c.carrier.written = initial ++ frames.flatten := by
  obtain ⟨extra, hb', -⟩ := h.buffer
  rw [hb] at hb'
  have hd : (frames.drop k).flatten = [] := (List.append_eq_nil_iff.mp hb'.symm).1
  calc c.carrier.written = initial ++ (frames.take k).flatten := h.written
    _ = initial ++ ((frames.take k).flatten ++ (frames.drop k).flatten) := by rw [hd, List.append_nil]
    _ = initial ++ frames.flatten := by rw [← List.flatten_append, List.take_append_drop]

theorem send (h : c.Flushed initial pkts frames k) (stale : List UInt8) (pkt : GenericPacket) :
    (c.send stale pkt).1.FlushedPast initial
      (pkts ++ accepted [(.send stale pkt, (c.send stale pkt).2)]) frames k := by
  rcases c.write_cases stale pkt with ⟨bs, hE, he, hw⟩ | ⟨e, hw⟩ | hw
  · have hw1 : ({ c with writer := { c.writer with buffer := c.writer.buffer ++ bs } } :
        BaseConn).carrier.written = c.carrier.written := rfl
    have hb1 : ({ c with writer := { c.writer with buffer := c.writer.buffer ++ bs } } :
        BaseConn).writer.buffer = c.writer.buffer ++ bs := rfl
    have he1 : ({ c with writer := { c.writer with buffer := c.writer.buffer ++ bs } } :
        BaseConn).writer.err = none := he
    generalize ({ c with writer := { c.writer with buffer := c.writer.buffer ++ bs } } :
      BaseConn) = cw at hw hw1 hb1 he1
    rw [send_of_write_ok hw]
    generalize hc2 : ({ cw with flushTimer := cw.flushTimer.map fun _ => false } : BaseConn) = c2
    have hw2 : c2.carrier.written = c.carrier.written := by rw [← hc2]; exact hw1
    have hb2 : c2.writer.buffer = c.writer.buffer ++ bs := by rw [← hc2]; exact hb1
    have he2 : c2.writer.err = none := by rw [← hc2]; exact he1
    have h2 : c2.Flushed initial (pkts ++ [pkt]) (frames ++ [bs]) k := h.push he hE hw2 hb2
    rcases hf : c2.flush with ⟨c3, _ | e⟩
    · have h3 := h2.flush
      rw [hf] at h3
      exact h3.of_append le_rfl
    · have hs := err_flush_of_error he2 (by rw [hf])
      rcases c2.flush_moves with ⟨hw3, hb3, -⟩ | ⟨-, hn, -, -⟩
      · rw [hf] at hs hw3 hb3
        dsimp only at hs hw3 hb3
        show c3.FlushedPast initial (pkts ++ accepted [(.send stale pkt, .error e)]) frames k
        rw [accepted_of_ne_ok _ (.error e) nofun, List.append_nil]
        exact (h.push_stopped he (hw3.trans hw2) (hb3.trans hb2) (by simp [hs])).past
      · rw [hf] at hn
        cases hn
  · rw [send_of_write_ne_ok (by rw [hw]; nofun), hw, accepted_of_ne_ok _ (.error e) nofun,
      List.append_nil]
    exact h.closeCarrier.past
  · rw [send_of_write_ne_ok (by rw [hw]; nofun), hw, accepted_of_ne_ok _ .panic nofun,
      List.append_nil]
    exact h.past

theorem bufferedSend (h : c.Flushed initial pkts frames k) (stale : List UInt8)
    (pkt : GenericPacket) :
    (c.bufferedSend stale pkt).1.FlushedPast initial
      (pkts ++ accepted [(.bufferedSend stale pkt, (c.bufferedSend stale pkt).2)]) frames k := by
  unfold BaseConn.bufferedSend
  have h0 : (if c.flushTimer.isNone then { c with flushTimer := some false } else c).Flushed
      initial pkts frames k := by
    split
    · exact h.of_eq rfl rfl id
    · exact h
  generalize (if c.flushTimer.isNone then { c with flushTimer := some false } else c) = c0 at h0 ⊢
  dsimp only
  split
  · next e _ => exact h0.past.keep (accepted_of_ne_ok _ (.error e) nofun)
  · rcases c0.write_cases stale pkt with ⟨bs, hE, he, hw⟩ | ⟨e, hw⟩ | hw <;> rw [hw]
    · refine (Flushed.push h0 he hE ?_ ?_).past.of_append le_rfl <;> rfl
    · exact h0.closeCarrier.past.keep (accepted_of_ne_ok _ (.error e) nofun)
    · exact h0.past.keep (accepted_of_ne_ok _ .panic nofun)

theorem asyncFlush (h : c.Flushed initial pkts frames k) :
    c.asyncFlush.FlushedPast initial pkts frames k := by
  have hf := h.flush
  unfold BaseConn.asyncFlush
  split
  · next c' hs =>
    rw [hs] at hf
    exact hf
  · next c' e hs =>
    rw [hs] at hf
    exact hf.of_eq fun _ _ h' => h'.of_eq rfl rfl id

theorem receive (h : c.Flushed initial pkts frames k) : c.receive.1.Flushed initial pkts frames k := by
  unfold BaseConn.receive
  split
  · exact h
  · split
    · exact h.of_eq rfl rfl id
    · split
      · exact h
      · exact h.closeCarrier
    · exact h

theorem close (h : c.Flushed initial pkts frames k) : c.close.1.FlushedPast initial pkts frames k := by
  have hf := h.flush
  unfold BaseConn.close
  split
  · next c' e hs =>
    rw [hs] at hf
    exact hf
  · next c' hs =>
    rw [hs] at hf
    have hw := Carrier.written_close c'.carrier
    split
    · next carrier hcl =>
      rw [hcl] at hw
      exact hf.of_eq fun _ _ h' => h'.of_eq hw rfl id
    · next carrier e hcl =>
      rw [hcl] at hw
      exact hf.of_eq fun _ _ h' => h'.of_eq hw rfl id

theorem quiet (h : c.Flushed initial pkts frames k) {e : Event} (he : e.packet? = none)
    (hw : (c.step e).1.carrier.written = c.carrier.written) (hwr : (c.step e).1.writer = c.writer) :
    (c.step e).1.FlushedPast initial (pkts ++ accepted [(e, (c.step e).2)]) frames k :=
  (h.of_eq hw (by rw [hwr]) (by rw [hwr]; exact id)).past.keep (accepted_of_packet_none he _)

theorem step (h : c.Flushed initial pkts frames k) :
    ∀ e : Event, (c.step e).1.FlushedPast initial (pkts ++ accepted [(e, (c.step e).2)]) frames k
  | .send stale pkt => h.send stale pkt
  | .bufferedSend stale pkt => h.bufferedSend stale pkt
  | .receive => h.receive.past.keep (accepted_of_packet_none rfl _)
  | .close => h.close.keep (accepted_of_packet_none rfl _)
  | .setReadLimit _ => h.quiet rfl rfl rfl
  | .flushTimeout => by
    refine FlushedPast.keep ?_ (accepted_of_packet_none rfl _)
    simp only [BaseConn.step]
    split
    · exact Flushed.asyncFlush (c := { c with flushTimer := some false }) (h.of_eq rfl rfl id)
    · exact h.past
  | .arrive _ => h.quiet rfl (by simp only [BaseConn.step]; split <;> rfl)
    (by simp only [BaseConn.step]; split <;> rfl)
  | .peerClose => h.quiet rfl rfl rfl
  | .fail => h.quiet rfl rfl rfl

end Flushed

end Flushed

theorem flushed_newBaseConn (carrier : Carrier) :
    (newBaseConn carrier).Flushed carrier.written [] [] 0 :=
  ⟨.nil, le_rfl, by simp [newBaseConn], [], rfl, fun _ => rfl⟩

theorem flushed_runTrace (carrier : Carrier) (events : List Event) :
    ∃ frames k, (runTrace step (newBaseConn carrier) events).1.Flushed carrier.written
      (accepted (runTrace step (newBaseConn carrier) events).2) frames k := by
  have hstep : ∀ (c : BaseConn) (tr : List (Event × Reply)) (e : Event),
      (∃ frames k, c.Flushed carrier.written (accepted tr) frames k) →
        ∃ frames k, (c.step e).1.Flushed carrier.written
          (accepted (tr ++ [(e, (c.step e).2)])) frames k := by
    rintro c tr e ⟨frames, k, h⟩
    obtain ⟨more, k', -, h'⟩ := h.step e
    rw [accepted_append]
    exact ⟨_, _, h'⟩
  have h0 : ∃ frames k, (newBaseConn carrier).Flushed carrier.written (accepted []) frames k :=
    ⟨[], 0, flushed_newBaseConn carrier⟩
  simpa using runTrace_invariant hstep events h0

theorem writer_flush_of_none (h : c.flush.2 = none) : c.flush.1.writer = ⟨[], none⟩ := by
  unfold flush at h ⊢
  rcases Writer.flush_cases c.writer c.carrier with ⟨hf, hb⟩ | ⟨carrier', he, -, hf⟩ | ⟨e, -, -, hf⟩
  · rw [hf] at h ⊢
    rcases he : c.writer.err with _ | e
    · rcases hb with hb | hb
      · simp [he] at hb
      · calc c.writer = ⟨c.writer.buffer, c.writer.err⟩ := rfl
          _ = ⟨[], none⟩ := by rw [hb, he]
    · simp [he] at h
  · simp [hf, he]
  · simp [hf] at h

theorem writer_close_of_ok (h : c.close.2 = .ok) : c.close.1.writer = ⟨[], none⟩ := by
  unfold close at h ⊢
  split at h
  · cases h
  · next c' hs =>
    have hw := writer_flush_of_none (c := c) (by rw [hs])
    rw [hs] at hw
    split <;> exact hw

theorem mem_accepted {tr : List (Event × Reply)} {p : GenericPacket} (h : p ∈ accepted tr) :
    ∃ x ∈ tr, x.1.packet? = some p := by
  obtain ⟨⟨e, r⟩, hx, hfx⟩ := List.mem_filterMap.mp h
  refine ⟨(e, r), hx, ?_⟩
  cases e <;> cases r <;> simp_all [Event.packet?]


/-- The packets the stream round trip covers under a read limit: no CONNECT or UNSUBSCRIBE,
their lists not empty, and no longer than the limit. -/
def RoundTrips (limit : Int) (p : GenericPacket) : Prop :=
  p.type ≠ .connect ∧ p.type ≠ .unsubscribe ∧ p.ListsNonEmpty ∧ (limit ≤ 0 ∨ (p.Len : Int) ≤ limit)

instance (limit : Int) : DecidablePred (RoundTrips limit) := fun _ =>
  inferInstanceAs (Decidable (_ ∧ _ ∧ _ ∧ _))

theorem receive_encoded (hopen : c.carrier.closed = false) {p : GenericPacket}
    (hp : RoundTrips c.limit p) {stale bs : List UInt8} (hw : Encoder.write stale p = .ok bs)
    {rest : List UInt8} (hin : c.carrier.incoming = bs ++ rest) :
    c.receive = ({ c with carrier := { c.carrier with incoming := rest } }, .packet p.onWire) := by
  obtain ⟨hc, hu, hne, hlim⟩ := hp
  obtain ⟨p', he⟩ := Encoder.write_eq_ok hc hu hw
  simp [receive, hopen, hin, Decoder.read_encoded hc hu hne hlim he rest]

theorem runTrace_receive (hopen : c.carrier.closed = false) {ps : List GenericPacket}
    {frames : List (List UInt8)}
    (hF : List.Forall₂ (fun p bs => ∃ stale, Encoder.write stale p = .ok bs) ps frames)
    (hp : ∀ p ∈ ps, RoundTrips c.limit p) {rest : List UInt8}
    (hin : c.carrier.incoming = frames.flatten ++ rest) :
    runTrace step c (List.replicate ps.length .receive) =
      ({ c with carrier := { c.carrier with incoming := rest } },
        ps.map fun p => (.receive, .packet p.onWire)) := by
  induction hF generalizing c with
  | nil =>
    rw [List.flatten_nil, List.nil_append] at hin
    rw [← hin]
    rfl
  | @cons p bs ps frames hpb _ ih =>
    obtain ⟨stale, hw⟩ := hpb
    have hr := receive_encoded hopen (hp p List.mem_cons_self) hw
      (by rw [hin, List.flatten_cons, List.append_assoc])
    rw [List.length_cons, List.replicate_succ, runTrace_cons]
    rw [show c.step .receive = c.receive from rfl, hr]
    dsimp only
    rw [ih (c := { c with carrier := { c.carrier with incoming := frames.flatten ++ rest } }) hopen
      (fun q hq => hp q (List.mem_cons_of_mem p hq)) rfl]
    rfl

theorem receive_of_ended (hopen : c.carrier.closed = false) (hend : c.carrier.ended = true)
    (hin : c.carrier.incoming = []) : c.receive = (c.closeCarrier, .error (.stream .eof)) := by
  simp [receive, hopen, hin, hend, Decoder.read, Decoder.detect]

theorem peer_receives_accepted (carrier : Carrier) (hw : carrier.written = []) (events : List Event)
    (limit : Int) (hgood : ∀ e ∈ events, ∀ p ∈ e.packet?, RoundTrips limit p)
    (hclose : (runTrace step (newBaseConn carrier) events).1.close.2 = .ok) :
    (runTrace step (newBaseConn (runTrace step (newBaseConn carrier) events).1.close.1.carrier.peer)
        (.setReadLimit limit :: List.replicate
          ((accepted (runTrace step (newBaseConn carrier) events).2).length + 1) .receive)).2.map
        Prod.snd =
      .ok :: (accepted (runTrace step (newBaseConn carrier) events).2).map (.packet ·.onWire) ++
        [.error (.stream .eof)] := by
  have hmap : (runTrace step (newBaseConn carrier) events).2.map Prod.fst = events :=
    runTrace_map_fst _ _
  obtain ⟨frames, k, hC⟩ := flushed_runTrace carrier events
  generalize runTrace step (newBaseConn carrier) events = run at hmap hC hclose ⊢
  -- after a good Close, the carrier holds exactly the frames of the accepted packets
  obtain ⟨more, k', -, hC'⟩ := hC.close
  have hbytes : run.1.close.1.carrier.written = (frames ++ more).flatten := by
    rw [hC'.written_of_empty (by rw [writer_close_of_ok hclose]), hw, List.nil_append]
  have hps : ∀ p ∈ accepted run.2, RoundTrips limit p := by
    intro p hp
    obtain ⟨x, hx, hpx⟩ := mem_accepted hp
    exact hgood x.1 (hmap ▸ List.mem_map_of_mem hx) p hpx
  rw [runTrace_cons, List.replicate_succ', runTrace_append,
    runTrace_receive (c := ((newBaseConn run.1.close.1.carrier.peer).step (.setReadLimit limit)).1)
      rfl hC'.encoded hps (hbytes.trans (List.append_nil _).symm),
    runTrace_cons, show ∀ c : BaseConn, c.step .receive = c.receive from fun _ => rfl,
    receive_of_ended rfl rfl rfl]
  simp
  rfl

theorem peer_receives_accepted_publish :
    let events : List Event := [.bufferedSend [] (.publish ⟨⟨[97], [1], 1, false⟩, false, 7⟩),
      .flushTimeout, .send [] .pingreq, .bufferedSend [] (.puback 7)]
    (runTrace step (newBaseConn ⟨[], [], false, false, false⟩) events).1.close.2 = .ok ∧
    (runTrace step (newBaseConn
        (runTrace step (newBaseConn ⟨[], [], false, false, false⟩) events).1.close.1.carrier.peer)
        (.setReadLimit 0 :: List.replicate ((accepted (runTrace step
          (newBaseConn ⟨[], [], false, false, false⟩) events).2).length + 1) .receive)).2.map
        Prod.snd =
      .ok :: (accepted (runTrace step (newBaseConn ⟨[], [], false, false, false⟩) events).2).map
        (.packet ·.onWire) ++ [.error (.stream .eof)] := by
  intro events
  have hclose : (runTrace step (newBaseConn ⟨[], [], false, false, false⟩) events).1.close.2 = .ok := by
    decide
  exact ⟨hclose, peer_receives_accepted _ rfl events 0 (by decide) hclose⟩

end Accepted

end BaseConn

end Lemmas

end GoMqtt.Transport
