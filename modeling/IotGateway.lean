import IotGateway.Lib.Machine
import IotGateway.SerialLink.Impl.ReadMessage
import IotGateway.SerialLink.Frame
import IotGateway.SerialLink.Lemmas.ReadMessage
import IotGateway.SerialLink.Lemmas.RoundTrip
import IotGateway.SerialLink.Lemmas.ReaderThread
import IotGateway.SerialLink.Lemmas.Framing
import IotGateway.SerialLink.Lemmas.Timeout
import IotGateway.SerialLink.Lemmas.Bounds
import IotGateway.SerialLink.Lemmas.MessageQueue
import IotGateway.SerialLink.Lemmas.SendMessage
import IotGateway.Lib.CString
import IotGateway.Json.Lemmas.Parser
import IotGateway.Json.Grammar
import IotGateway.Json.Lemmas.Stores
import IotGateway.Json.Lemmas.Nesting
import IotGateway.Json.Lemmas.Failure
import IotGateway.Json.Lemmas.Callbacks
import IotGateway.Json.Lemmas.Tokens
import IotGateway.Json.Lemmas.Parse
import IotGateway.Json.Lemmas.Create
import IotGateway.Lib.Slots
import IotGateway.Lib.Table
import IotGateway.NewDb.Impl.Tables
import IotGateway.NewDb.Impl.Edit
import IotGateway.NewDb.Impl.PlugUsage
import IotGateway.NewDb.Impl.PlugReadings
import IotGateway.ZcbDaemon.Impl.Devices
import IotGateway.ZcbDaemon.Impl.Plug
import IotGateway.ControlInterface.Impl.Devices
import IotGateway.ControlInterface.Impl.Topo
import IotGateway.ControlInterface.Impl.DbEdit
import IotGateway.ControlInterface.Impl.Ctrl
import IotGateway.ControlInterface.Impl.TopoGen
import IotGateway.ControlInterface.Impl.Upload
import IotGateway.ControlInterface.Impl.Commands
import IotGateway.ControlInterface.Impl.TopoLock
import IotGateway.ControlInterface.Impl.Children
import IotGateway.ControlInterface.Lemmas.DbEdit
import IotGateway.ControlInterface.Impl.StringArgs
import IotGateway.ControlInterface.Lemmas.StringArgs
import IotGateway.ControlInterface.Lemmas.Declared
import IotGateway.ControlInterface.Lemmas.Session
import IotGateway.ControlInterface.Lemmas.Configured
import IotGateway.ControlInterface.Lemmas.Upload
import IotGateway.ControlInterface.Lemmas.Commands
import IotGateway.ControlInterface.Lemmas.TopoLock
import IotGateway.ControlInterface.Lemmas.Traversal
import IotGateway.ControlInterface.Lemmas.Children
import IotGateway.ControlInterface.Lemmas.TopoGen
import IotGateway.NewDb.Lemmas.Edit
import IotGateway.NewDb.Lemmas.CleanScan
import IotGateway.NewDb.Lemmas.Cleanup
import IotGateway.NewDb.Lemmas.PlugHist
import IotGateway.Gateway.Parents
import IotGateway.Gateway.Sessions
import IotGateway.Gateway.Unique
import IotGateway.Gateway.Updates
import IotGateway.Gateway.PlugReaders
import IotGateway.NewDb.Impl.Save
import IotGateway.NewDb.Lemmas.Save
import IotGateway.NewDb.Lemmas.Persist
import IotGateway.ZcbDaemon.Impl.Nodes
import IotGateway.ZcbDaemon.Lemmas.Nodes
import IotGateway.ZcbDaemon.Impl.Discovery
import IotGateway.ZcbDaemon.Lemmas.Provenance
import IotGateway.ZcbDaemon.Lemmas.PlugIsolation
import IotGateway.ZcbDaemon.Lemmas.PlugHistory
import IotGateway.Common.Parsing
import IotGateway.ZcbDaemon.Impl.Tunnel
import IotGateway.ZcbDaemon.Lemmas.Tunnel
import IotGateway.Semaphore.Impl
import IotGateway.Semaphore.Lemmas
import IotGateway.NfcDaemon.Impl.Ndef
import IotGateway.NfcDaemon.Lemmas.Ndef
import IotGateway.NfcDaemon.Impl.Commission
import IotGateway.NfcDaemon.Lemmas.Commission
import IotGateway.NfcDaemon.Lemmas.Handled
import IotGateway.SecureJoiner.Impl
import IotGateway.SecureJoiner.Lemmas.Response
import IotGateway.SecureJoiner.Lemmas.Correlation
import IotGateway.Lib.Fallible
import IotGateway.Lib.Tiles
import IotGateway.JnFlasher.Impl.Programmer
import IotGateway.JnFlasher.Lemmas.Flash
import IotGateway.JnFlasher.Impl.DeviceConfig
import IotGateway.JnFlasher.Lemmas.DeviceConfig
import IotGateway.Lib.Ring
import IotGateway.UtilsQueue.Impl
import IotGateway.UtilsQueue.Lemmas
import IotGateway.NewLog.Impl
import IotGateway.NewLog.Lemmas.Loop
import IotGateway.NewLog.Lemmas.Reader
import IotGateway.Lib.Stamped
import IotGateway.NewDb.Lemmas.Tables
import IotGateway.NewDb.Impl.Lastupdate
import IotGateway.NewDb.Lemmas.Lastupdate
import IotGateway.ZcbDaemon.Impl.Cmd
import IotGateway.ZcbDaemon.Lemmas.Cmd
import IotGateway.Dbp.Impl
import IotGateway.Dbp.Lemmas
import IotGateway.Dbp.Impl.Client
import IotGateway.Dbp.Lemmas.Copy
import IotGateway.Dbp.Lemmas.Client
import IotGateway.Lib.Separated
import IotGateway.NewDb.Impl.Serialize
import IotGateway.NewDb.Lemmas.Serialize
import IotGateway.Json.Lemmas.Recovery
import IotGateway.ZcbDaemon.Impl.Attributes
import IotGateway.ZcbDaemon.Lemmas.Attributes
import IotGateway.Lib.Bcd
import IotGateway.ZcbDaemon.Lemmas.PlugMetering
import IotGateway.NewDb.Lemmas.PlugReadings
import IotGateway.Lib.Preorder
import IotGateway.SerialLink.Impl.Callbacks
import IotGateway.SerialLink.Lemmas.Callbacks
import IotGateway.Lib.Packed
import IotGateway.ZcbDaemon.Impl.Requests
import IotGateway.ZcbDaemon.Lemmas.Requests
import IotGateway.Lib.Timespec
import IotGateway.SerialLink.Impl.TimedWait
import IotGateway.SerialLink.Lemmas.TimedWait
import IotGateway.ZcbDaemon.Impl.NeighbourTable
import IotGateway.ZcbDaemon.Lemmas.Accesses
import IotGateway.ZcbDaemon.Lemmas.NeighbourTable
import IotGateway.ZcbDaemon.Impl.Lamp
import IotGateway.ZcbDaemon.Lemmas.Lamp
import IotGateway.ZcbDaemon.Lemmas.LampMembers
import IotGateway.ZcbDaemon.Lemmas.Transparency
import IotGateway.Lib.Accesses
import IotGateway.NfcDaemon.Impl.Mful
import IotGateway.NfcDaemon.Lemmas.NdefBounds
import IotGateway.Lib.Loop
import IotGateway.JnFlasher.Impl.Eeprom
import IotGateway.JnFlasher.Lemmas.Eeprom
import IotGateway.JnFlasher.Impl.Firmware
import IotGateway.JnFlasher.Lemmas.Firmware
import IotGateway.JnFlasher.Impl.BootLoader
import IotGateway.JnFlasher.Lemmas.BootLoader
import IotGateway.JnFlasher.Lemmas.Extension
import IotGateway.Lib.Substring
import IotGateway.ConfigEdit.Impl
import IotGateway.ConfigEdit.Grammar
import IotGateway.ConfigEdit.Lemmas
import IotGateway.ConfigEdit.Sections
import IotGateway.Cgi.Impl
import IotGateway.Cgi.Lemmas
import IotGateway.Lib.Positional
import IotGateway.Common.Impl.Nibbles
import IotGateway.Common.Lemmas.Nibbles
import IotGateway.Dbp.Impl.LocReceiver
import IotGateway.Dbp.Lemmas.LocReceiver
import IotGateway.Lib.Registry
import IotGateway.Common.Impl.FieldParser
import IotGateway.Common.Lemmas.FieldParser
import IotGateway.ZcbDaemon.Impl.Channel
import IotGateway.ZcbDaemon.Lemmas.Channel
import IotGateway.Lib.Lockstep
import IotGateway.JnFlasher.Impl.Line
import IotGateway.JnFlasher.Lemmas.Line
import IotGateway.JnFlasher.Lemmas.Programming
import IotGateway.Lib.Cascade
import IotGateway.Common.Impl.MessageQueue
import IotGateway.ZcbDaemon.Impl.Main
import IotGateway.Json.Lemmas.Objects
import IotGateway.ZcbDaemon.Lemmas.Main
import IotGateway.ZcbDaemon.Lemmas.Members
import IotGateway.Gateway.ClientCommands
import IotGateway.Gateway.LampCommands
import IotGateway.Common.Impl.Listener
import IotGateway.Common.Lemmas.Listener
import IotGateway.Common.Lemmas.MessageQueue
import IotGateway.Dbp.Impl.Receiver
import IotGateway.Dbp.Lemmas.Receiver
import IotGateway.Gateway.SensorReadings
import IotGateway.Json.Lemmas.Stream
import IotGateway.ControlInterface.Impl.HandleClient
import IotGateway.ControlInterface.Lemmas.HandleClient
import IotGateway.ControlInterface.Lemmas.Sent
