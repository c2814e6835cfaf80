import BitcoinCoreRpc.Utf8
import BitcoinCoreRpc.Grammar
import BitcoinCoreRpc.Tokens
import BitcoinCoreRpc.Meaning
import BitcoinCoreRpc.Python
import BitcoinCoreRpc.Loads
import BitcoinCoreRpc.Reply
import BitcoinCoreRpc.Request
import BitcoinCoreRpc.Batch
import BitcoinCoreRpc.RoundTrip
import BitcoinCoreRpc.WholeDecimal
import BitcoinCoreRpc.Parameters
import BitcoinCoreRpc.Transport
import BitcoinCoreRpc.Session
import BitcoinCoreRpc.HttpRequest
import BitcoinCoreRpc.BoundedRead
import BitcoinCoreRpc.BrokenBody
import BitcoinCoreRpc.UrlText
import BitcoinCoreRpc.Endpoint
import BitcoinCoreRpc.Rest
import BitcoinCoreRpc.Steps
import BitcoinCoreRpc.Partial
import BitcoinCoreRpc.Encoded
import BitcoinCoreRpc.Stream
import BitcoinCoreRpc.StreamSteps
import BitcoinCoreRpc.StreamValues
import BitcoinCoreRpc.StreamMethods
import BitcoinCoreRpc.StreamMoves
import BitcoinCoreRpc.StreamKeeps
import BitcoinCoreRpc.StreamCuts
import BitcoinCoreRpc.StreamedReply
import BitcoinCoreRpc.Unambiguous
import BitcoinCoreRpc.StreamedCall
import BitcoinCoreRpc.CallStream
import BitcoinCoreRpc.CompactSize
import BitcoinCoreRpc.SendAll
import BitcoinCoreRpc.Sha256
import BitcoinCoreRpc.AssertChain
import BitcoinCoreRpc.Wallet
import BitcoinCoreRpc.Call
import BitcoinCoreRpc.Printable
import BitcoinCoreRpc.Surrogates
import BitcoinCoreRpc.WalkSteps
import BitcoinCoreRpc.Walk
import BitcoinCoreRpc.StreamedWalk
import BitcoinCoreRpc.Threads
import BitcoinCoreRpc.SharedSession
import BitcoinCoreRpc.Node
import BitcoinCoreRpc.Raw
import BitcoinCoreRpc.Plan
import BitcoinCoreRpc.PlannedCall
import BitcoinCoreRpc.Credential
import BitcoinCoreRpc.Handles
import BitcoinCoreRpc.CookieRead
import BitcoinCoreRpc.Deadline
import BitcoinCoreRpc.Paths
import BitcoinCoreRpc.FromChain
import BitcoinCoreRpc.StreamTransports
import BitcoinCoreRpc.Raised
import BitcoinCoreRpc.Reuse
