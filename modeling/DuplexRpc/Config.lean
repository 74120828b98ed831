/-!
# Configuration

The settings of one end of a connection.
-/

namespace DuplexRpc

structure Config where
  /-- The protocol version; both ends must name the same one. -/
  version : String := "ango-0.1"
  /-- The greatest length of a frame's payload in bytes, for reading and for writing. -/
  maxFrame : Nat := 8 * 1024 * 1024
  deriving DecidableEq, Repr

end DuplexRpc
