import GoMqtt.ClientSession.Session
import GoMqtt.Client.Future
import GoMqtt.Packet.Stream

namespace GoMqtt

open GoMqtt.Packet GoMqtt.ClientSession GoMqtt.Future

namespace Client

inductive State
  | clientInitialized
  | clientConnecting
  | clientConnacked
  | clientConnected
  | clientDisconnecting
  | clientDisconnected
  deriving DecidableEq, Repr

/-- The `uint32` values of the states, which the client compares. -/
def State.toNat : State → Nat
  | .clientInitialized => 0
  | .clientConnecting => 1
  | .clientConnacked => 2
  | .clientConnected => 3
  | .clientDisconnecting => 4
  | .clientDisconnected => 5

/-- The errors the client returns or passes to the callback; `transport` is any error of the
connection and `callback` the error a callback returned. -/
inductive ClientError
  | clientAlreadyConnecting
  | clientNotConnected
  | clientMissingID
  | clientConnectionDenied
  | clientMissingPong
  | clientExpectedConnack
  | failedSubscription
  | transport
  | callback
  deriving DecidableEq, Repr

/-- A `Config` as `Connect` reads it: the user info of `BrokerURL` parsed into `username` and
`password` (empty when there is none), and `KeepAlive` parsed into seconds. -/
structure Config where
  username : List UInt8
  password : List UInt8
  clientID : List UInt8
  cleanSession : Bool
  keepAlive : Nat
  willMessage : Option Message
  validateSubs : Bool
  deriving DecidableEq, Repr

def newConfig : Config :=
  { username := [], password := [], clientID := [], cleanSession := true, keepAlive := 30,
    willMessage := none, validateSubs := true }

/-- A `Callback`: whether it returns an error when called with a message, and when called
with an error. -/
structure Callback where
  message : Message → Bool
  failure : ClientError → Bool

structure Conn where
  sent : List GenericPacket
  isOpen : Bool
  deriving DecidableEq, Repr

end Client

open Client

structure Client where
  state : State
  config : Option Config
  conn : Conn
  session : MemorySession
  callback : Option Callback
  clean : Bool
  keepAlive : Nat
  pings : UInt8
  futureStore : Store
  futures : List FutureState
  connectFuture : Option Nat
  connack : Option ConnackPacket
  finished : Bool
  processing : Bool
  first : Bool
  pinging : Bool
  dying : Bool
  delivered : List Message
  errors : List ClientError

def Client.new (callback : Option Callback) : Client :=
  { state := .clientInitialized, config := none, conn := ⟨[], false⟩,
    session := newMemorySession, callback := callback, clean := false, keepAlive := 0,
    pings := 0, futureStore := newStore, futures := [], connectFuture := none,
    connack := none, finished := false, processing := false, first := false, pinging := false, dying := false,
    delivered := [], errors := [] }

namespace Client

/-- A handler that has returned early, with its client and its return value. -/
abbrev Returned := Client × Option ClientError

variable (c : Client)

/-- `send`: `Send` or `BufferedSend` of the connection, which encodes the packet with
`Encoder.Write`. A closed connection fails, and an encoding error closes it. -/
def send (pkt : GenericPacket) : Returned :=
  match c.conn.isOpen, Encoder.write [] pkt with
  | true, .ok _ => ({ c with conn := { c.conn with sent := c.conn.sent ++ [pkt] } }, none)
  | _, _ => ({ c with conn := { c.conn with isOpen := false } }, some .transport)

def cancelConnectFuture : Client :=
  match c.connectFuture with
  | some f => { c with futures := cancel c.futures f }
  | none => c

/-- `cleanup`; closing the connection and resetting the session never fail here, so the
error passes through unchanged and is left to the caller. -/
def cleanup (doClose : Bool) : Client :=
  let c := if c.state.toNat < State.clientConnacked.toNat then c.cancelConnectFuture else c
  let c := { c with state := .clientDisconnected }
  let c := if doClose then { c with conn := { c.conn with isOpen := false } } else c
  let c := if c.clean then { c with session := c.session.reset } else c
  let cleared := c.futureStore.clear c.futures
  { c with futureStore := cleared.1, futures := cleared.2 }

/-- `die`: only its first call cleans up and reports the error to the callback, which may
swallow it. -/
def die (err : ClientError) (close fromCallback : Bool) : Returned :=
  if c.finished then (c, some err)
  else
    let c := { c.cleanup close with finished := true }
    match c.callback with
    | some cb =>
      if fromCallback then (c, some err)
      else ({ c with errors := c.errors ++ [err] }, if cb.failure err then some err else none)
    | none => (c, some err)

def sendOrDie (pkt : GenericPacket) : Except Returned Client :=
  match c.send pkt with
  | (c, none) => .ok c
  | (c, some err) => .error (c.die err false false)

def deliver (msg : Message) : Except Returned Client :=
  match c.callback with
  | none => .ok c
  | some cb =>
    let c := { c with delivered := c.delivered ++ [msg] }
    if cb.message msg then .error (c.die .callback true true) else .ok c

def finish : Except Returned Client → Returned
  | .ok c => (c, none)
  | .error r => r

def connectPacket (config : Config) : ConnectPacket :=
  { newConnectPacket with
    clientID := config.clientID, keepAlive := config.keepAlive.toUInt16,
    cleanSession := config.cleanSession, username := config.username,
    password := config.password, will := config.willMessage }

/-- `Connect`; the URL and the keep alive are parsed into the config, and dialing succeeds. -/
def connect (config : Config) : Client × Except ClientError Nat :=
  let c := { c with config := some config }
  if State.clientConnecting.toNat ≤ c.state.toNat then (c, .error .clientAlreadyConnecting)
  else if !config.cleanSession && config.clientID.isEmpty then (c, .error .clientMissingID)
  else
    let c := { c with
      keepAlive := config.keepAlive, pings := 0, state := .clientConnecting,
      clean := config.cleanSession, conn := ⟨[], true⟩ }
    let c := if c.clean then { c with session := c.session.reset } else c
    let (f, futures) := Future.new c.futures
    let c := { c with futures := futures, connectFuture := some f }
    match c.send (.connect (connectPacket config)) with
    | (c, some err) => (c.cleanup false, .error err)
    | (c, none) => ({ c with processing := true, first := true, pinging := decide (0 < c.keepAlive) }, .ok f)

def publishMessage (msg : Message) : Client × Except ClientError Nat :=
  if c.state ≠ .clientConnected then (c, .error .clientNotConnected)
  else
    let publish : PublishPacket := { newPublishPacket with message := msg }
    let (publish, c) := if 0 < msg.qos then
        let (id, session) := c.session.nextID
        ({ publish with id := id }, { c with session := session })
      else (publish, c)
    let (f, futures) := Future.new c.futures
    let c := { c with futures := futures, futureStore := c.futureStore.put publish.id f }
    let c := if 0 < msg.qos then
        { c with session := c.session.savePacket .outgoing (.publish publish) }
      else c
    match c.send (.publish publish) with
    | (c, some err) => (c.cleanup false, .error err)
    | (c, none) =>
      if msg.qos = 0 then
        ({ c with futures := complete c.futures f, futureStore := c.futureStore.delete publish.id },
          .ok f)
      else (c, .ok f)

/-- What `SubscribeMultiple` and `UnsubscribeMultiple` share: the packet `request id` under a
fresh id, with a future stored under that id and the packet not saved in the session. -/
def request (request : UInt16 → GenericPacket) : Client × Except ClientError Nat :=
  if c.state ≠ .clientConnected then (c, .error .clientNotConnected)
  else
    let (id, session) := c.session.nextID
    let (f, futures) := Future.new c.futures
    let c := { c with session := session, futures := futures, futureStore := c.futureStore.put id f }
    match c.send (request id) with
    | (c, some err) => (c.cleanup false, .error err)
    | (c, none) => (c, .ok f)

def subscribeMultiple (subscriptions : List Subscription) : Client × Except ClientError Nat :=
  c.request fun id => .subscribe { newSubscribePacket with id := id, subscriptions := subscriptions }

def unsubscribeMultiple (topics : List (List UInt8)) : Client × Except ClientError Nat :=
  c.request fun id => .unsubscribe { newUnsubscribePacket with topics := topics, id := id }

/-- The loop of `processConnack` over the stored outgoing packets; setting `Dup` on a
publish changes the packet in the store too. -/
def resend (c : Client) : List GenericPacket → Except Returned Client
  | [] => .ok c
  | pkt :: rest =>
    let (pkt, c) := match pkt with
      | .publish p =>
        let p := { p with dup := true }
        (GenericPacket.publish p, { c with session := c.session.savePacket .outgoing (.publish p) })
      | pkt => (pkt, c)
    match c.sendOrDie pkt with
    | .ok c => resend c rest
    | .error r => .error r

/-- `processConnack` after its state check, which `receive` makes: the processor may be
preempted between the two, and `cleanup` may then cancel the connect future first. -/
def processConnack (connack : ConnackPacket) : Returned :=
  let c := { c with state := .clientConnacked }
  if connack.returnCode ≠ ConnectionAccepted then
    let (c, err) := c.die .clientConnectionDenied true false
    (c.cancelConnectFuture, err)
  else
    let c := { c with state := .clientConnected }
    let c := match c.connectFuture with
      | some f => { c with futures := complete c.futures f }
      | none => c
    finish (c.resend (c.session.allPackets .outgoing))

/-- The processor goes on with the CONNACK whose state check it has passed; the error of
`processConnack` is not looked at. -/
def continueConnack : Client :=
  match c.connack with
  | some connack => ({ c with connack := none }.processConnack connack).1
  | none => c

/-- `end`, for `Disconnect` and `Close`: the tomb is killed and its goroutines are waited
for, so a CONNACK the processor has checked is handled to its end. -/
def «end» (err : Option ClientError) : Returned :=
  let c := (c.cleanup true).continueConnack
  ({ c with dying := true, processing := false, pinging := false }, err)

/-- `Disconnect`; waiting for the futures with a timeout is left out. -/
def disconnect : Returned :=
  if c.state ≠ .clientConnected then (c, some .clientNotConnected)
  else
    let c := { c with state := .clientDisconnecting }
    let (c, err) := c.send .disconnect
    c.end err

def close : Returned :=
  if c.state.toNat < State.clientConnecting.toNat then (c, some .clientNotConnected)
  else c.end none

def processSuback (suback : SubackPacket) : Returned :=
  let c := { c with session := c.session.deletePacket .outgoing suback.id }
  match c.futureStore.get suback.id with
  | none => (c, none)
  | some f =>
    let c := { c with futureStore := c.futureStore.delete suback.id }
    if c.config.any (·.validateSubs) && suback.returnCodes.contains QOSFailure then
      ({ c with futures := cancel c.futures f }, some .failedSubscription)
    else ({ c with futures := complete c.futures f }, none)

/-- What `processUnsuback` and `processPubackAndPubcomp` share: the outgoing packet of `id` is
deleted, and the future of `id`, if any, completed and removed. -/
def acknowledge (id : UInt16) : Returned :=
  let c := { c with session := c.session.deletePacket .outgoing id }
  match c.futureStore.get id with
  | none => (c, none)
  | some f => ({ c with futures := complete c.futures f, futureStore := c.futureStore.delete id }, none)

def processUnsuback (id : UInt16) : Returned :=
  c.acknowledge id

def processPubackAndPubcomp (id : UInt16) : Returned :=
  c.acknowledge id

def processPublish (publish : PublishPacket) : Returned :=
  finish do
    let qos := publish.message.qos
    let c ← if qos ≤ 1 then c.deliver publish.message else pure c
    if qos = 1 then
      c.sendOrDie (.puback publish.id)
    else if qos = 2 then
      let c := { c with session := c.session.savePacket .incoming (.publish publish) }
      c.sendOrDie (.pubrec publish.id)
    else pure c

def processPubrec (id : UInt16) : Returned :=
  let c := { c with session := c.session.savePacket .outgoing (.pubrel id) }
  finish (c.sendOrDie (.pubrel id))

def processPubrel (id : UInt16) : Returned :=
  match c.session.lookupPacket .incoming id with
  | some (.publish publish) =>
    finish do
      let c ← c.deliver publish.message
      let c ← c.sendOrDie (.pubcomp publish.id)
      pure { c with session := c.session.deletePacket .incoming id }
  | _ => (c, none)

def handle : GenericPacket → Returned
  | .suback p => c.processSuback p
  | .unsuback id => c.processUnsuback id
  | .pingresp => ({ c with pings := c.pings - 1 }, none)
  | .publish p => c.processPublish p
  | .puback id => c.processPubackAndPubcomp id
  | .pubcomp id => c.processPubackAndPubcomp id
  | .pubrec id => c.processPubrec id
  | .pubrel id => c.processPubrel id
  | _ => (c, none)

/-- The processor returns `err`, which kills the tomb when it is not `nil`. -/
def processorReturns (err : Option ClientError) : Client :=
  { c with processing := false, dying := c.dying || err.isSome }

def pingerReturns (err : Option ClientError) : Client :=
  { c with pinging := false, dying := c.dying || err.isSome }

/-- One iteration of the processor's loop on a received packet: the first must be a
`ConnackPacket`, whose state check is made here. The processor does not read while it handles
a CONNACK. -/
def receive (pkt : GenericPacket) : Client :=
  if !(c.processing && c.conn.isOpen) || c.connack.isSome then c
  else if c.first then
    match pkt with
    | .connack connack =>
      if c.state ≠ .clientConnecting then { c with first := false }
      else { c with first := false, connack := some connack }
    | _ =>
      let (c, err) := c.die .clientExpectedConnack true false
      c.processorReturns err
  else
    match c.handle pkt with
    | (c, none) => c
    | (c, some err) => c.processorReturns (some err)

def receiveError : Client :=
  if !c.processing || c.connack.isSome then c
  else if State.clientDisconnecting.toNat ≤ c.state.toNat then c.processorReturns none
  else
    let (c, err) := c.die .transport false false
    c.processorReturns err

def pinger : Client :=
  if !(c.pinging && !c.dying) then c
  else if 0 < c.pings then
    let (c, err) := c.die .clientMissingPong true false
    c.pingerReturns err
  else
    match c.send .pingreq with
    | (c, some err) =>
      let (c, err) := c.die err false false
      c.pingerReturns err
    | (c, none) => { c with pings := c.pings + 1 }

def connectionLost : Client :=
  { c with conn := { c.conn with isOpen := false } }

inductive Event
  | connect (config : Config)
  | publishMessage (msg : Message)
  | subscribeMultiple (subscriptions : List Subscription)
  | unsubscribeMultiple (topics : List (List UInt8))
  | disconnect
  | close
  | receive (pkt : GenericPacket)
  | continueConnack
  | receiveError
  | keepAlive
  | connectionLost

def step : Event → Client
  | .connect config => (c.connect config).1
  | .publishMessage msg => (c.publishMessage msg).1
  | .subscribeMultiple subscriptions => (c.subscribeMultiple subscriptions).1
  | .unsubscribeMultiple topics => (c.unsubscribeMultiple topics).1
  | .disconnect => c.disconnect.1
  | .close => c.close.1
  | .receive pkt => c.receive pkt
  | .continueConnack => c.continueConnack
  | .receiveError => c.receiveError
  | .keepAlive => c.pinger
  | .connectionLost => c.connectionLost

section Lemmas

variable {c : Client} {pkt : GenericPacket}

theorem send_of_isOk (h : c.conn.isOpen = true) (he : (Encoder.write [] pkt).isOk) :
    c.send pkt = ({ c with conn := { c.conn with sent := c.conn.sent ++ [pkt] } }, none) := by
  obtain ⟨bs, hbs⟩ := Outcome.isOk_iff.mp he
  simp [send, h, hbs]

theorem send_cases (c : Client) (pkt : GenericPacket) :
    c.send pkt = ({ c with conn := { c.conn with sent := c.conn.sent ++ [pkt] } }, none) ∨
      c.send pkt = ({ c with conn := { c.conn with isOpen := false } }, some .transport) := by
  unfold send
  split
  · exact .inl rfl
  · exact .inr rfl

theorem sendOrDie_of_isOk (h : c.conn.isOpen = true) (he : (Encoder.write [] pkt).isOk) :
    c.sendOrDie pkt = .ok { c with conn := { c.conn with sent := c.conn.sent ++ [pkt] } } := by
  simp [sendOrDie, send_of_isOk h he]

theorem deliver_of_callback {cb : Callback} {msg : Message} (hcb : c.callback = some cb)
    (h : cb.message msg = false) : c.deliver msg = .ok { c with delivered := c.delivered ++ [msg] } := by
  simp [deliver, hcb, h]

@[simp]
theorem finish_ok (c : Client) : finish (.ok c) = (c, none) := rfl

@[simp]
theorem finish_pure (c : Client) : finish (pure c) = (c, none) := rfl

@[simp]
theorem ok_bind (c : Client) (f : Client → Except Returned Client) : (Except.ok c >>= f) = f c :=
  rfl

@[simp]
theorem error_bind (r : Returned) (f : Client → Except Returned Client) :
    (Except.error r >>= f) = .error r :=
  rfl

@[simp]
theorem finish_error (r : Returned) : finish (.error r) = r := rfl

theorem cancelConnectFuture_eq :
    c.cancelConnectFuture = { c with futures := c.connectFuture.elim c.futures (cancel c.futures) } := by
  obtain ⟨_, _, _, _, _, _, _, _, _, _, connectFuture, _⟩ := c
  cases connectFuture <;> rfl

theorem cleanup_eq (b : Bool) :
    c.cleanup b =
      let futures := if c.state.toNat < State.clientConnacked.toNat then
          c.connectFuture.elim c.futures (cancel c.futures) else c.futures
      { c with
        state := .clientDisconnected,
        conn := if b then { c.conn with isOpen := false } else c.conn,
        session := if c.clean then c.session.reset else c.session,
        futureStore := (c.futureStore.clear futures).1,
        futures := (c.futureStore.clear futures).2 } := by
  simp only [cleanup, cancelConnectFuture_eq]
  split_ifs <;> rfl

@[simp]
theorem sent_cleanup (b : Bool) : (c.cleanup b).conn.sent = c.conn.sent := by
  rw [cleanup_eq]
  split_ifs <;> rfl

@[simp]
theorem callback_cleanup (b : Bool) : (c.cleanup b).callback = c.callback := by
  rw [cleanup_eq]

@[simp]
theorem errors_cleanup (b : Bool) : (c.cleanup b).errors = c.errors := by
  rw [cleanup_eq]

theorem die_fst (err : ClientError) (close fromCallback : Bool) :
    (c.die err close fromCallback).1 =
      if c.finished then c
      else { c.cleanup close with
        finished := true,
        errors := if c.callback.isSome && !fromCallback then c.errors ++ [err] else c.errors } := by
  unfold die
  cases hf : c.finished
  · cases hcb : c.callback <;> cases fromCallback <;> simp [hcb]
  · rfl

@[simp]
theorem sent_die (err : ClientError) (close fromCallback : Bool) :
    (c.die err close fromCallback).1.conn.sent = c.conn.sent := by
  rw [die_fst]
  split_ifs <;> simp

theorem continueConnack_of_none (hn : c.connack = none) : c.continueConnack = c := by
  simp [continueConnack, hn]

theorem step_connack_held (hp : c.processing = true) (ho : c.conn.isOpen = true)
    (hn : c.connack = none) (hfirst : c.first = true) (hs : c.state = .clientConnecting)
    (cp : ConnackPacket) :
    c.step (.receive (.connack cp)) = { c with first := false, connack := some cp } := by
  simp [step, receive, hp, ho, hn, hfirst, hs]

theorem step_receive_of_handle (pkt : GenericPacket) {c' : Client} (hp : c.processing = true)
    (hf : c.first = false) (ho : c.conn.isOpen = true) (hn : c.connack = none)
    (h : c.handle pkt = (c', none)) : c.step (.receive pkt) = c' := by
  simp [step, receive, hp, hf, ho, hn, h]

end Lemmas

end Client

end GoMqtt
