import Emcs.Lib.BlockMode
import Emcs.Aes.Cipher
import Emcs.Aes.Correct
import Emcs.Lib.RingCache
import Emcs.Bridge.Gateway
import Emcs.Mesh.Node
import Emcs.Delivery.Downlink
import Emcs.Bridge.Registry
import Emcs.Delivery.Uplink
import Emcs.Lib.Trace
import Emcs.Network.Model
import Emcs.Network.Provenance
import Emcs.Network.Freshness
import Emcs.Network.Duplicates
import Emcs.Lib.Bytes
import Emcs.Mqttsn.Wire
import Emcs.Mqttsn.Pending
import Emcs.Arduino.Client
import Emcs.Arduino.Loop
import Emcs.Arduino.Effects
import Emcs.Arduino.Ready
import Emcs.Arduino.Registration
import Emcs.Pico.Client
import Emcs.Pico.Effects
import Emcs.Pico.Machine
import Emcs.Pico.Registration
import Emcs.Pico.ExactlyOnce
import Emcs.Lib.Tenure
import Emcs.Mqttsn.LifeCycle
import Emcs.Arduino.LifeCycle
import Emcs.Pico.LifeCycle
import Emcs.Clients
import Emcs.Arduino.Moments
import Emcs.Mqttsn.AtLeastOnce
import Emcs.Arduino.Publishing
import Emcs.Pico.Publishing
import Emcs.Mqttsn.Inbound
import Emcs.Commands
import Emcs.Arduino.Acks
import Emcs.Bridge.Interrupts
import Emcs.Bridge.Reception
import Emcs.Lib.Relaying
import Emcs.Mesh.Forwarding
import Emcs.Network.Forwarding
import Emcs.Network.Unicast
import Emcs.Arduino.Connecting
import Emcs.Bridge.Sockets
import Emcs.Bridge.Downstream
import Emcs.Aes.Statics
import Emcs.Delivery.Unsealing
import Emcs.Dashboard.Runs
import Emcs.Lib.Arrivals
import Emcs.Dashboard.Conservation
import Emcs.Dashboard.Loss
import Emcs.Dashboard.Frozen
import Emcs.Lib.Access
import Emcs.Pico.Reading
import Emcs.Arduino.Leftovers
import Emcs.Paho.Packet
import Emcs.Pico.Encoding
import Emcs.Pico.Decoding
import Emcs.Arduino.Retries
import Emcs.Arduino.Schedule
import Emcs.Arduino.SendBuffer
import Emcs.Arduino.TopicTable
import Emcs.Delivery.FrameBuffers
import Emcs.Delivery.SendBuffers
import Emcs.Lib.Weave
import Emcs.Lib.Window
import Emcs.Mesh.Deadline
import Emcs.Mesh.Window
import Emcs.Pico.MqttTask
import Emcs.Pico.Recovery
import Emcs.Mqttsn.MessageIds
import Emcs.Performance.Analysis
import Emcs.Performance.Loss
import Emcs.Performance.Pooling
import Emcs.Performance.Reported
import Emcs.Pico.Draws
import Emcs.Lib.Book
import Emcs.Lib.SharedQueue
import Emcs.Lib.TopicFilter
import Emcs.Paho.Client
import Emcs.Paho.Clients
import Emcs.Paho.RoundTrip
import Emcs.System.Node
import Emcs.System.Uplink
import Emcs.Paho.Identity
import Emcs.Paho.Served
import Emcs.System.Agreement
import Emcs.System.Runs
import Emcs.Network.Integrity
import Emcs.Lib.Refinement
import Emcs.System.Field
import Emcs.System.Passage
import Emcs.System.Undisturbed
import Emcs.System.EndToEnd
import Emcs.Paho.Stream
import Emcs.Paho.Survival
