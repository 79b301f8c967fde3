import ZoTunnel.Client.MaskedToken
import ZoTunnel.Client.Reconnect
import ZoTunnel.Client.Signals
import ZoTunnel.Client.Tracking
import ZoTunnel.Protocol.Limits
import ZoTunnel.Server.Connections
import ZoTunnel.Server.Cookies
import ZoTunnel.Server.Download
import ZoTunnel.Server.Drain
import ZoTunnel.Server.ErrorBody
import ZoTunnel.Server.FailedAuth
import ZoTunnel.Server.Forward
import ZoTunnel.Server.Heartbeat
import ZoTunnel.Server.HostNames
import ZoTunnel.Server.LimiterKeys
import ZoTunnel.Server.OpenStream
import ZoTunnel.Server.RateLimits
import ZoTunnel.Server.Restarts
import ZoTunnel.Server.Start
import ZoTunnel.Server.TakeoverOrder
import ZoTunnel.Session.Service
import ZoTunnel.Update.Replace
import ZoTunnel.Web.Browser
