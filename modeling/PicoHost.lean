import PicoHost.Event.RegisterFailed
import PicoHost.Dhcps.ConfiguredPool
import PicoHost.Dhcps.Lifecycle
import PicoHost.Event.FlatOrder
import PicoHost.Event.KeyMap
import PicoHost.Event.Places
import PicoHost.Event.Nodes
import PicoHost.Event.WalkSteps
import PicoHost.Event.WalkRun
import PicoHost.Event.Reentrant
import PicoHost.Event.Loop
import PicoHost.Event.Flow
import PicoHost.Event.LoopFlow
import PicoHost.Event.Conserved
import PicoHost.Event.Invoked
import PicoHost.Event.Delete
import PicoHost.Event.Dedicated
import PicoHost.Ota.Http
import PicoHost.Ota.Sessions
import PicoHost.Lib.FreeList
import PicoHost.Mempool.Pool
import PicoHost.Timer.Hosted
import PicoHost.Interface.Api
import PicoHost.Netif.Receive
import PicoHost.Interface.World
import PicoHost.Interface.Frame
import PicoHost.Interface.Registry
import PicoHost.Interface.DhcpServer
import PicoHost.Interface.ReportTimers
import PicoHost.Lib.Best
import PicoHost.Interface.DefaultNetif
import PicoHost.Interface.Address
import PicoHost.Interface.LostIp
import PicoHost.Log.Level
import PicoHost.Event.RunningTask
import PicoHost.Event.RunTime
import PicoHost.Dhcps.Subnet
import PicoHost.Dhcps.Fields
import PicoHost.Dhcps.Countdown
import PicoHost.Interface.DhcpsOption
import PicoHost.Dhcps.Padding
import PicoHost.Dhcps.Bounds
import PicoHost.Event.Locking
import PicoHost.Event.TracedRuns
import PicoHost.L2tap.Filter
import PicoHost.L2tap.Delivery
import PicoHost.Interface.Connected
import PicoHost.Interface.IpChanged
import PicoHost.Lib.BlockMemory
import PicoHost.OsWrapper.Alloc
import PicoHost.Interface.BridgeGlue
import PicoHost.Mempool.Release
import PicoHost.Log.Hexdump
import PicoHost.Ping.Receive
import PicoHost.Ping.Thread
import PicoHost.Ping.Waits
import PicoHost.Ping.Result
import PicoHost.Dhcpc.VendorInfo
import PicoHost.OsWrapper.Handles
import PicoHost.Dhcpc.ExtraOpts
import PicoHost.Interface.Sntp
import PicoHost.Netif.WifiTables
import PicoHost.L2tap.Objects
import PicoHost.L2tap.Close
import PicoHost.Lib.Find
import PicoHost.Http.Client
import PicoHost.Http.Parse
import PicoHost.Http.Calls
import PicoHost.Http.Life
import PicoHost.Http.Segments
import PicoHost.Http.Timeout
import PicoHost.Ota.Download
import PicoHost.Lib.BlockStream
import PicoHost.Md5.Digest
import PicoHost.Md5.Reference
import PicoHost.Md5.Streaming
import PicoHost.Md5.Isn
import PicoHost.Http.Start
import PicoHost.Http.Request
import PicoHost.Dhcps.Lookup
import PicoHost.Netif.WifiPath
import PicoHost.Ping.Session
import PicoHost.L2tap.Fifo
import PicoHost.Netif.Ipc
import PicoHost.Lib.Region
import PicoHost.Dhcps.Wire
import PicoHost.Interface.Advertised
import PicoHost.Smartconfig.Sends
import PicoHost.Interface.DhcpClient
