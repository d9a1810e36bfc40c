import Axsh.Lib.BigEndian
import Axsh.Lib.Stuffing
import Axsh.Basic
import Axsh.Hdlc.Reader
import Axsh.Packet
import Axsh.Transport
import Axsh.Transport.Call
import Axsh.Channel
import Axsh.Transport.Genuine
import Axsh.Crypto.Sample
import Axsh.Receivable
import Axsh.Delivery
import Axsh.Detached
import Axsh.Base64
import Axsh.Client
import Axsh.Handshake.Session
import Axsh.Client.Trace
import Axsh.Lib.Precedence
import Axsh.TrustGate
import Axsh.Handshake.Drive
import Axsh.Server
import Axsh.Server.Trace
import Axsh.Network
import Axsh.Agreement
import Axsh.Network.Handshake
import Axsh.Admission
import Axsh.Relay
import Axsh.Handshake.Phase
import Axsh.Honest
import Axsh.Hdlc.Stream
import Axsh.Framing
import Axsh.Parsed
import Axsh.RoundTrip
import Axsh.Sequence
import Axsh.ReadSide
import Axsh.WriteSide
import Axsh.Lib.Lines
import Axsh.Text
import Axsh.KnownHosts
import Axsh.KnownHosts.Sharing
import Axsh.Commands
import Axsh.Commands.Order
import Axsh.WithoutPanic
import Axsh.WithoutPanic.Session
import Axsh.Lib.ShiftRegister
import Axsh.Hdlc.Fcs
import Axsh.Hdlc.Agree
import Axsh.Idle
import Axsh.Hybrid
import Axsh.Lib.Scanner
import Axsh.Text.Lossy
import Axsh.Display
import Axsh.Base64.Exact
import Axsh.Lib.Table
import Axsh.AuthorizedKeys
import Axsh.Fingerprint
import Axsh.Keys.Bundle
import Axsh.Lib.Decimal
import Axsh.Duration
import Axsh.Statement
import Axsh.CommandLine
import Axsh.Connection
import Axsh.Deployment
import Axsh.Deployment.EndToEnd
import Axsh.KnownHosts.Pinning
import Axsh.Keys.File
import Axsh.Keys.Provisioned
import Axsh.Network.Modes
import Axsh.Handshake.Footprint
import Axsh.Hdlc.Segments
import Axsh.Server.Cost
import Axsh.Link
import Axsh.Link.Complete
import Axsh.Link.Deadlock
