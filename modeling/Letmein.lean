import Letmein.Lib.Bytes
import Letmein.Lib.Fields
import Letmein.Lib.Gather
import Letmein.Lib.HashMap
import Letmein.Lib.Hex
import Letmein.Lib.History
import Letmein.Lib.Ledger
import Letmein.Lib.Link
import Letmein.Lib.List
import Letmein.Lib.Net
import Letmein.Lib.NetRead
import Letmein.Lib.NetRound
import Letmein.Lib.Nftables
import Letmein.Lib.Prog
import Letmein.Lib.RuleMap
import Letmein.Lib.Run
import Letmein.Lib.Text
import Letmein.Lib.Utf8
import Letmein.Panic
import Letmein.Conf
import Letmein.Ini
import Letmein.IniSpec
import Letmein.FwProto
import Letmein.FwWire
import Letmein.Lease
import Letmein.Nft
import Letmein.NftSpec
import Letmein.NftOps
import Letmein.NftCalls
import Letmein.NftRuns
import Letmein.NftOrphans
import Letmein.NftDebug
import Letmein.FwServer
import Letmein.FwRequests
import Letmein.NftInstalled
import Letmein.NftHistory
import Letmein.NftDeletes
import Letmein.NftStray
import Letmein.Verify
import Letmein.Udp
import Letmein.UdpInv
import Letmein.UdpAccounting
import Letmein.UdpSessions
import Letmein.UdpIsolation
import Letmein.UdpTasks
import Letmein.UdpWakeups
import Letmein.UdpDelivery
import Letmein.UdpAccepts
import Letmein.UdpOverflow
import Letmein.Proto
import Letmein.ConfLoad
import Letmein.ConfSpec
import Letmein.ConfTable
import Letmein.ConfItems
import Letmein.ConfUnique
import Letmein.ConfResource
import Letmein.ConfPort
import Letmein.ConfFile
import Letmein.ConfSlices
import Letmein.FwProtocols
import Letmein.FwAddresses
import Letmein.NftAliases
import Letmein.Endpoint
import Letmein.Protocol
import Letmein.ProtocolTrace
import Letmein.Policy
import Letmein.Wire
import Letmein.ProtocolAuth
import Letmein.Client
import Letmein.Tamper
import Letmein.Handshake
import Letmein.Agreement
import Letmein.Command
import Letmein.NoPanic
import Letmein.KnockClose
import Letmein.Hosts
import Letmein.Honest
import Letmein.Limit
import Letmein.FwTasks
import Letmein.Stream
import Letmein.GenKey
import Letmein.Seccomp
import Letmein.Sandbox
import Letmein.Site
import Letmein.SiteKnock
import Letmein.SiteRules
import Letmein.SiteFiles
import Letmein.NftFrame
import Letmein.FwIds
import Letmein.Sockets
import Letmein.SrvTasks
import Letmein.ClientUdp
import Letmein.SrvLife
import Letmein.FwLives
import Letmein.NftExpiry
import Letmein.SessionCost
