import DuplexRpc.Failure

/-!
# Framing

A byte stream carries frames: the length of a payload in four bytes, the most
significant first, and then the payload. A length above the limit is refused as soon
as it has been read. When the stream ends nothing may be left over, except that a
length alone, whose payload has not begun, does not count.
-/

namespace DuplexRpc

/-- What the stream below a connection delivers next. -/
inductive Arrival
  | frame (payload : Bytes)
  /-- The stream ended. -/
  | closed
  | fault (fault : TransportFault)
  deriving DecidableEq, Repr

/-- How far a stream of frames has been read. -/
structure Framing where
  /-- The length of the frame that is being read, once it is known. -/
  announced : Option Nat
  /-- The bytes that have not been used yet. -/
  buffer : Bytes
  deriving DecidableEq, Repr

namespace Framing

def start : Framing := ⟨none, []⟩

def lengthBytes (n : Nat) : Bytes := [n >>> 24, n >>> 16, n >>> 8, n].map UInt8.ofNat

def encode (payload : Bytes) : Bytes := lengthBytes payload.length ++ payload

def lengthOf (bytes : Bytes) : Nat := bytes.foldl (fun n b => n <<< 8 + b.toNat) 0

def push (f : Framing) (bytes : Bytes) : Framing := { f with buffer := f.buffer ++ bytes }

/-- Take the next payload of a known length, if all of it is there. -/
def takePayload (n : Nat) (buffer : Bytes) : Option Arrival × Framing :=
  let payload := buffer.take n
  if payload.length < n then (none, ⟨some n, buffer⟩)
  else (some (.frame payload), ⟨none, buffer.drop n⟩)

/-- Take the next frame, if all of it is there, or its length is refused. -/
def takeFrame (limit : Nat) (f : Framing) : Option Arrival × Framing :=
  match f.announced with
  | some n => takePayload n f.buffer
  | none =>
    let length := f.buffer.take 4
    if length.length < 4 then (none, f)
    else if limit < lengthOf length then (some (.fault .frameTooBig), f)
    else takePayload (lengthOf length) (f.buffer.drop 4)

/-- Take what the stream delivers next; nothing if more bytes have to arrive first. -/
def next (limit : Nat) (ended : Bool) (f : Framing) : Option Arrival × Framing :=
  match takeFrame limit f with
  | (some arrival, f) => (some arrival, f)
  | (none, f) =>
    if ended then (some (if f.buffer.isEmpty then .closed else .fault .bytesRemaining), f)
    else (none, f)

def receive (limit : Nat) (payload : Bytes) : Arrival :=
  if limit < payload.length then .fault .frameTooBig else .frame payload

@[simp] theorem length_lengthBytes (n : Nat) : (lengthBytes n).length = 4 := rfl

/-- Four bytes spell every length below `2 ^ 32`. -/
theorem lengthOf_lengthBytes {n : Nat} (h : n < 1 <<< 32) : lengthOf (lengthBytes n) = n := by
  simp only [lengthOf, lengthBytes, List.map_cons, List.map_nil, List.foldl_cons, List.foldl_nil,
    UInt8.toNat_ofNat']
  omega

/-- A frame is read as the payload from which it was made, whatever follows it, unless its length
is refused. -/
theorem takeFrame_encode (limit : Nat) {payload : Bytes} (h : payload.length < 1 <<< 32)
    (rest : Bytes) : (takeFrame limit ⟨none, encode payload ++ rest⟩).1 =
      some (receive limit payload) := by
  have length : (encode payload ++ rest).take 4 = lengthBytes payload.length := by
    rw [encode, List.append_assoc]
    exact List.take_left' (length_lengthBytes _)
  have behind : (encode payload ++ rest).drop 4 = payload ++ rest := by
    rw [encode, List.append_assoc]
    exact List.drop_left' (length_lengthBytes _)
  simp only [takeFrame, length, behind, lengthOf_lengthBytes h, length_lengthBytes, receive]
  rw [if_neg (Nat.lt_irrefl 4)]
  split
  · rfl
  · simp [takePayload]

end Framing

/-- The way out to the far end. -/
structure Outlet where
  /-- The greatest length of a payload. -/
  limit : Nat
  /-- Whether the far end still reads. -/
  isOpen : Bool
  deriving DecidableEq, Repr

namespace Outlet

/-- Why a payload cannot be written, if it cannot. Its length is looked at first. -/
def refuse? (o : Outlet) (payload : Bytes) : Option TransportFault :=
  if o.limit < payload.length then some .frameTooBig
  else if o.isOpen then none
  else some .brokenPipe

end Outlet

end DuplexRpc
