import GoMqtt.Client.Sender

namespace GoMqtt

open GoMqtt.Packet GoMqtt.ClientSession GoMqtt.Future GoMqtt.Machine

namespace Service

inductive Command
  | publish (future : Nat) (message : Message)
  | subscribe (future : Nat) (subscriptions : List Subscription)
  | unsubscribe (future : Nat) (topics : List (List UInt8))

def Command.future : Command → Nat
  | .publish f _ | .subscribe f _ | .unsubscribe f _ => f

/-- Where the supervisor is: stopped, about to connect, waiting for the CONNACK of the
current client, or dispatching to it. -/
inductive Phase
  | stopped
  | offline
  | connecting
  | online
  deriving DecidableEq, Repr

end Service

open Service

structure Service where
  started : Bool
  config : Option Client.Config
  queueSize : Nat
  commandQueue : List Command
  messageCallback : Option (Message → Bool)
  client : Client
  phase : Phase
  bindings : List (Nat × Nat)

namespace Service

def newService (queueSize : Nat) (messageCallback : Option (Message → Bool)) : Service :=
  { started := false, config := none, queueSize := queueSize, commandQueue := [],
    messageCallback := messageCallback, client := Client.new none, phase := .stopped,
    bindings := [] }

variable (s : Service)

/-- The callback `connect` gives each client: an error closes `fail` and is swallowed, a
message goes to the `MessageCallback`. -/
def callback : Client.Callback :=
  { message := fun msg => match s.messageCallback with
      | some cb => cb msg
      | none => false,
    failure := fun _ => false }

/-- The state of a future the service returned: `Bind` makes it follow the client's future
it is bound to. -/
def futureState (f : Nat) : Option FutureState :=
  match s.bindings.lookup f with
  | some f2 => s.client.futures[f2]?
  | none => s.client.futures[f]?

def start (config : Client.Config) : Service :=
  if s.started then s
  else { s with
    started := true, config := some config, phase := .offline,
    client := { s.client with futureStore := s.client.futureStore.protect true } }

/-- What `PublishMessage`, `SubscribeMultiple` and `UnsubscribeMultiple` share: a new future
and the command queued with it; the call waits while the queue is full. -/
def request (command : Nat → Command) : Service :=
  if s.commandQueue.length < s.queueSize then
    let (f, futures) := Future.new s.client.futures
    { s with client := { s.client with futures := futures },
             commandQueue := s.commandQueue ++ [command f] }
  else s

def publishMessage (msg : Message) : Service :=
  s.request fun f => .publish f msg

def subscribeMultiple (subscriptions : List Subscription) : Service :=
  s.request fun f => .subscribe f subscriptions

def unsubscribeMultiple (topics : List (List UInt8)) : Service :=
  s.request fun f => .unsubscribe f topics

/-- One attempt of the supervisor: `connect` with a new client that shares the session and
the future store. The processor of the client before may still hold a CONNACK it has checked;
it handles it first. -/
def reconnect : Service :=
  if s.phase ≠ .offline then s
  else
    match s.config with
    | none => s
    | some config =>
      let old := s.client.continueConnack
      let client := { Client.new (some s.callback) with
        session := old.session, futureStore := old.futureStore, futures := old.futures }
      match client.connect config with
      | (client, .ok _) => { s with client := client, phase := .connecting }
      | (client, .error _) => { s with client := client }

/-- The supervisor once the current client has handled an event: `connect` returns when the
connect future is completed or canceled, and the dispatcher returns when `fail` is closed. -/
def settle : Service :=
  match s.phase with
  | .connecting =>
    match s.client.connectFuture.bind (s.client.futures[·]?) with
    | some .completed => { s with phase := .online }
    | some .canceled => { s with phase := .offline }
    | _ => s
  | .online => if s.client.errors.isEmpty then s else { s with phase := .offline }
  | _ => s

def connectTimeout : Service :=
  if s.phase ≠ .connecting then s
  else { s with client := s.client.close.1, phase := .offline }

/-- One iteration of the dispatcher that takes a command: a failed call cancels the
command's future and ends the dispatcher, a successful one binds it to the client's
future. -/
def dispatch : Service :=
  if s.phase ≠ .online then s
  else
    match s.commandQueue with
    | [] => s
    | cmd :: rest =>
      let (client, result) := match cmd with
        | .subscribe _ subscriptions => s.client.subscribeMultiple subscriptions
        | .unsubscribe _ topics => s.client.unsubscribeMultiple topics
        | .publish _ msg => s.client.publishMessage msg
      match result with
      | .ok f2 =>
        { s with commandQueue := rest, client := client,
                 bindings := s.bindings ++ [(cmd.future, f2)] }
      | .error _ =>
        { s with commandQueue := rest, phase := .offline,
                 client := { client with futures := cancel client.futures cmd.future } }

/-- `Stop`: the dispatcher disconnects the client, and the futures are canceled when asked
for; a supervisor still waiting for a CONNACK closes its client. -/
def stop (clearFutures : Bool) : Service :=
  if !s.started then s
  else
    let client := match s.phase with
      | .online => s.client.disconnect.1
      | .connecting => s.client.close.1
      | _ => s.client
    let client := if clearFutures then
        let cleared := (client.futureStore.protect false).clear client.futures
        { client with futureStore := cleared.1, futures := cleared.2 }
      else client
    { s with client := client, started := false, phase := .stopped }

inductive Event
  | start (config : Client.Config)
  | stop (clearFutures : Bool)
  | publishMessage (msg : Message)
  | subscribeMultiple (subscriptions : List Subscription)
  | unsubscribeMultiple (topics : List (List UInt8))
  | reconnect
  | connectTimeout
  | dispatch
  | receive (pkt : GenericPacket)
  | continueConnack
  | receiveError
  | keepAlive
  | connectionLost

def step : Event → Service
  | .start config => s.start config
  | .stop clearFutures => s.stop clearFutures
  | .publishMessage msg => s.publishMessage msg
  | .subscribeMultiple subscriptions => s.subscribeMultiple subscriptions
  | .unsubscribeMultiple topics => s.unsubscribeMultiple topics
  | .reconnect => s.reconnect
  | .connectTimeout => s.connectTimeout
  | .dispatch => s.dispatch
  | .receive pkt => { s with client := s.client.step (.receive pkt) }.settle
  | .continueConnack => { s with client := s.client.step .continueConnack }.settle
  | .receiveError => { s with client := s.client.step .receiveError }.settle
  | .keepAlive => { s with client := s.client.step .keepAlive }.settle
  | .connectionLost => { s with client := s.client.step .connectionLost }.settle

/-- A run of a service with `CleanSession`: a QoS 1 publish is dispatched to the first client,
whose connection is lost before the PUBACK, and a second QoS 1 publish is dispatched to the
next client. -/
def cleanReconnect : List Event :=
  let msg : Message := ⟨[97], [98], 1, false⟩
  let connack : ConnackPacket := ⟨false, ConnectionAccepted⟩
  [.start Client.newConfig, .reconnect, .receive (.connack connack), .continueConnack,
    .publishMessage msg, .dispatch, .receiveError, .reconnect, .receive (.connack connack),
    .continueConnack, .publishMessage msg, .dispatch]

/-- The first request's client future (future 2, bound to the service future 1) is still
pending when the second request's future (5) is put under the same packet id 1, and after
`Stop(true)` neither of them is resolved. -/
theorem reconnect_overwrites_pending_future :
    let s : Service := run step (newService 100 none) cleanReconnect
    s.client.futures[2]? = some .pending ∧ s.client.futureStore.get 1 = some 5 ∧
      (s.step (.stop true)).client.futures[2]? = some .pending ∧
      (s.step (.stop true)).futureState 1 = some .pending ∧
      (s.step (.stop true)).client.futureStore.all = [] := by
  decide

end Service

end GoMqtt
