import GoMqtt.Binary
import GoMqtt.Lib.Lists
import GoMqtt.Lib.Machine
import GoMqtt.Lib.Runs
import GoMqtt.Packet.Type
import GoMqtt.Packet.Strings
import GoMqtt.Packet.Header
import GoMqtt.Packet.Naked
import GoMqtt.Packet.Connect
import GoMqtt.Packet.Publish
import GoMqtt.Packet.Subscribe
import GoMqtt.Packet.Generic
import GoMqtt.Packet.Stream
import GoMqtt.Topic.Tree
import GoMqtt.Topic.Filter
import GoMqtt.Topic.Paths
import GoMqtt.Topic.TopicMap
import GoMqtt.Topic.Parse
import GoMqtt.Topic.Search
import GoMqtt.ClientSession.Session
import GoMqtt.Client.Future
import GoMqtt.Client.Client
import GoMqtt.Client.Receiver
import GoMqtt.Client.Sender
import GoMqtt.Client.KeepAlive
import GoMqtt.Client.Service
import GoMqtt.Client.Resolution
import GoMqtt.Client.Reconnect
import GoMqtt.Transport.WebSocket
import GoMqtt.Transport.BaseConn
import GoMqtt.Packet.RoundTrip
import GoMqtt.Packet.ConnectRoundTrip
