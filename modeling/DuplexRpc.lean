import DuplexRpc.Definition.Cursor
import DuplexRpc.Definition.Parse
import DuplexRpc.Pair
import DuplexRpc.Proofs.Definition.Language
import DuplexRpc.Proofs.Endpoint.Boundary
import DuplexRpc.Proofs.Endpoint.Lifecycle
import DuplexRpc.Proofs.Envelope.Members
import DuplexRpc.Proofs.Envelope.Reread
import DuplexRpc.Proofs.Pair.Correlation
import DuplexRpc.Rehearsal.Crowd
import DuplexRpc.Rehearsal.Duo
import DuplexRpc.Rehearsal.Solo
import DuplexRpc.Server
import DuplexRpc.Proofs.Server
import DuplexRpc.Proofs.Definition.Order
import DuplexRpc.Proofs.Definition.Trailing
import DuplexRpc.Session.Calculator
import DuplexRpc.Session.Script
import DuplexRpc.Definition.Reading
import DuplexRpc.Proofs.Definition.Blanks
import DuplexRpc.Proofs.Definition.LineByLine
import DuplexRpc.Proofs.Payload.Readers
import DuplexRpc.Proofs.Definition.References
import DuplexRpc.Proofs.Pair.Handshake
import DuplexRpc.Proofs.Connection.Attendance
import DuplexRpc.Proofs.Connection.InOrder
import DuplexRpc.Proofs.Connection.Outgoing
import DuplexRpc.Proofs.Connection.Rejections
import DuplexRpc.Proofs.Connection.Requests
import DuplexRpc.Proofs.Payload.Again
import DuplexRpc.Proofs.PendingCalls.History
import DuplexRpc.Proofs.Session.Calculator
import DuplexRpc.Proofs.Definition.Walks
