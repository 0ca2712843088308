import Wormhole.Lib.LittleEndian
import Wormhole.Codec.Platform
import Wormhole.Codec.Impls
import Wormhole.Codec.Universe
import Wormhole.Codec.Wire
import Wormhole.Codec.Block
import Wormhole.Codec.Leaves
import Wormhole.Codec.RoundTrip
import Wormhole.Codec.Tuples
import Wormhole.Codec.Grammar
import Wormhole.Codec.Language
import Wormhole.Codec.Overflow
import Wormhole.Codec.Canonical
import Wormhole.Codec.Capacity
import Wormhole.Derive.Positional
import Wormhole.Derive.PrefixFree
import Wormhole.Codec.Narrow
import Wormhole.Lib.Transition
import Wormhole.Lib.HashMap
import Wormhole.Lib.Queues
import Wormhole.Lib.Precedence
import Wormhole.Lib.Log
import Wormhole.Lib.Async
import Wormhole.Lib.Waiting
import Wormhole.Lib.BigEndian
import Wormhole.Lib.Varint
import Wormhole.Lib.Text
import Wormhole.Lib.Reader
import Wormhole.Lib.LetSequence
import Wormhole.Derive.Generated
import Wormhole.Derive.Named
import Wormhole.Derive.Products
import Wormhole.Derive.Running
import Wormhole.Derive.Hygiene
import Wormhole.Derive.GenerateDeps
import Wormhole.Derive.Gating
import Wormhole.Conduit.Framing
import Wormhole.Conduit.ReceiveLoop
import Wormhole.Conduit.UnixSocket
import Wormhole.Conduit.Ssh
import Wormhole.Conduit.WebSocket
import Wormhole.Portal.Types
import Wormhole.Context.Impls
import Wormhole.Context.Format
import Wormhole.Context.Carried
import Wormhole.Context.Asks
import Wormhole.Portal.Handle
import Wormhole.Portal.Timeouts
import Wormhole.Portal.Turns
import Wormhole.Portal.Node
import Wormhole.Portal.Steps
import Wormhole.Portal.Actors
import Wormhole.Portal.Pair
import Wormhole.Portal.Registry
import Wormhole.Portal.LastWord
import Wormhole.Portal.Capability
import Wormhole.Portal.Ports
import Wormhole.Portal.Forgetting
import Wormhole.Portal.Phases
import Wormhole.Portal.Queries
import Wormhole.Portal.Requests
import Wormhole.Portal.Handshake
import Wormhole.Portal.ExitNotice
import Wormhole.Portal.Delivery
import Wormhole.Portal.Linking
import Wormhole.Portal.Pipeline
import Wormhole.Portal.Ordering
import Wormhole.Portal.Routing
import Wormhole.Portal.Spending
import Wormhole.Portal.Serializing
import Wormhole.Portal.Hop
import Wormhole.Portal.References
import Wormhole.Portal.Values
import Wormhole.Portal.Network
import Wormhole.Portal.Accounting
import Wormhole.Portal.Work
import Wormhole.Portal.Rest
import Wormhole.Portal.Answered
import Wormhole.Nexus.Handle
import Wormhole.Nexus.World
import Wormhole.Nexus.Steps
import Wormhole.Nexus.Table
import Wormhole.Portal.Programs
import Wormhole.Nexus.Waiting
import Wormhole.Util.Combinators
import Wormhole.Util.FunctionActor
import Wormhole.Nexus.Isolation
import Wormhole.Nexus.Abandoned
import Wormhole.Nexus.Names
import Wormhole.Chat.Kept
