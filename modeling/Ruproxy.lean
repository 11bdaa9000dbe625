import Ruproxy.Hysteria2.Completeness
import Ruproxy.Hysteria2.RoundTrip
import Ruproxy.Vmess.BodyRoundTrip
import Ruproxy.Wireguard.Downlink
import Ruproxy.Xhttp.Deadlock
import Ruproxy.Xhttp.InUse
import Ruproxy.AnyTls.Downlink
import Ruproxy.Tuic.UdpSession
import Ruproxy.Shadowsocks.StreamRoundTrip
import Ruproxy.Vmess.AuthLength
import Ruproxy.Xhttp.Reorder
import Ruproxy.Wireguard.Endpoints
import Ruproxy.Wireguard.Translation
import Ruproxy.AnyTls.Demux
import Ruproxy.Hysteria2.ReturnPath
import Ruproxy.Hysteria2.Cleanup
import Ruproxy.Vmess.RequestHeader
import Ruproxy.Address.Agreement
import Ruproxy.Wireguard.FindPeer
import Ruproxy.Wireguard.FlowTables
import Ruproxy.Wireguard.AllowedIps
import Ruproxy.Tuic.Relay
import Ruproxy.Wireguard.Activity
import Ruproxy.Vless.Peek
import Ruproxy.Xhttp.EndOfStream
import Ruproxy.Vmess.Nonces
import Ruproxy.Vmess.HeaderGrammar
import Ruproxy.Vmess.AuthId
import Ruproxy.Hysteria2.Mixing
import Ruproxy.Xhttp.Stale
import Ruproxy.Xhttp.ZeroRead
import Ruproxy.Xhttp.Path
import Ruproxy.AnyTls.EndOfStream
import Ruproxy.AnyTls.Handler
import Ruproxy.Shadowsocks.EndOfStream
import Ruproxy.Shadowsocks.RequestHeader
import Ruproxy.Tuic.RelayModes
import Ruproxy.Tuic.DatagramPath
import Ruproxy.Vless.HelloLoops
import Ruproxy.Vless.KeyShare
import Ruproxy.Vless.ShortIds
import Ruproxy.Vless.Certificate
import Ruproxy.Wireguard.FlowHeader
import Ruproxy.Hysteria2.TcpRequest
import Ruproxy.Vless.Request
import Ruproxy.Trojan.Request
import Ruproxy.Socks.Handshake
import Ruproxy.Hysteria2.Congestion
import Ruproxy.Tuic.Parked
import Ruproxy.WebSocket.Stream
import Ruproxy.AnyTls.Writer
import Ruproxy.Wireguard.Reopen
import Ruproxy.Shadowsocks.Nonces
import Ruproxy.Vless.DerLength
import Ruproxy.Vless.Uuid
import Ruproxy.Hysteria2.Bandwidth
import Ruproxy.Hysteria2.TcpStream
import Ruproxy.Vmess.Connection
import Ruproxy.Shadowsocks.Connection
import Ruproxy.AnyTls.Replies
import Ruproxy.AnyTls.Streams
import Ruproxy.AnyTls.Multiplex
import Ruproxy.Hysteria2.UdpPath
import Ruproxy.Hysteria2.Connection
import Ruproxy.Vless.Fallback
import Ruproxy.Tuic.Replies
