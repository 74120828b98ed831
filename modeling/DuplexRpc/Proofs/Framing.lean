import DuplexRpc.Framing

/-!
# Cutting a stream into frames

What has been read of a stream and what is still to be read make up what has arrived. So
the frames that are read are the bytes that were written, and nothing is left but a part
of a frame when the stream has ended. That part is missed only if it is more or less than
a length: behind a length alone the stream has ended as it does behind a whole frame.
-/

namespace DuplexRpc.Framing

/-- Four bytes are those of the length that they spell. -/
theorem lengthBytes_lengthOf {bytes : Bytes} (h : bytes.length = 4) :
    lengthBytes (lengthOf bytes) = bytes := by
  obtain ⟨a, b, c, d, rfl⟩ : ∃ a b c d, bytes = [a, b, c, d] := by
    match bytes, h with
    | [a, b, c, d], _ => exact ⟨a, b, c, d, rfl⟩
  have ha := a.toNat_lt
  have hb := b.toNat_lt
  have hc := c.toNat_lt
  have hd := d.toNat_lt
  simp only [lengthBytes, lengthOf, List.foldl_cons, List.foldl_nil, List.map_cons, List.map_nil,
    List.cons.injEq, and_true, ← UInt8.toNat_inj, UInt8.toNat_ofNat']
  omega

/-- The bytes of the stream that have arrived and do not belong to a frame that has been read. -/
def bytes (f : Framing) : Bytes :=
  (match f.announced with
    | none => []
    | some n => lengthBytes n) ++ f.buffer

theorem bytes_push (f : Framing) (chunk : Bytes) : (f.push chunk).bytes = f.bytes ++ chunk := by
  simp [bytes, push]

/-- What may be left behind the last frame of a stream that counts as closed: nothing, or a length
alone, whose payload has not begun. -/
def IsSpent (rest : Bytes) : Prop := rest = [] ∨ rest.length = 4

/-- What can be taken off a stream: the next frame, or something that leaves the bytes as they
are. -/
inductive Takes (ended : Bool) (f : Framing) : Option Arrival × Framing → Prop
  | frame {payload : Bytes} {left : Framing} (h : encode payload ++ left.bytes = f.bytes) :
      Takes ended f (some (.frame payload), left)
  | closed {left : Framing} (hended : ended = true) (hleft : left.bytes = f.bytes)
      (hspent : IsSpent f.bytes) : Takes ended f (some .closed, left)
  | torn {left : Framing} (hended : ended = true) (hleft : left.bytes = f.bytes)
      (hunspent : ¬ IsSpent f.bytes) : Takes ended f (some (.fault .bytesRemaining), left)
  | tooBig {left : Framing} (hleft : left.bytes = f.bytes) :
      Takes ended f (some (.fault .frameTooBig), left)
  | waiting {left : Framing} (hleft : left.bytes = f.bytes)
      (hshort : left.announced = none → left.buffer.length < 4) : Takes ended f (none, left)

theorem Takes.of_bytes_eq {ended : Bool} {f g : Framing} {result : Option Arrival × Framing}
    (h : Takes ended f result) (same : f.bytes = g.bytes) : Takes ended g result := by
  cases h with
  | frame h => exact .frame (h.trans same)
  | closed hended hleft hspent => exact .closed hended (hleft.trans same) (same ▸ hspent)
  | torn hended hleft hunspent => exact .torn hended (hleft.trans same) (same ▸ hunspent)
  | tooBig hleft => exact .tooBig (hleft.trans same)
  | waiting hleft hshort => exact .waiting (hleft.trans same) hshort

theorem takes_takePayload (ended : Bool) (n : Nat) (buffer : Bytes) :
    Takes ended ⟨some n, buffer⟩ (takePayload n buffer) := by
  simp only [takePayload]
  split
  next => exact .waiting rfl fun unannounced => absurd unannounced (Option.some_ne_none n)
  next enough =>
    have hlength : (buffer.take n).length = n := by
      rw [List.length_take] at enough ⊢
      omega
    refine .frame ?_
    simp [encode, bytes, hlength]

theorem takes_takeFrame (limit : Nat) (ended : Bool) (f : Framing) :
    Takes ended f (takeFrame limit f) := by
  obtain ⟨announced, buffer⟩ := f
  cases announced with
  | some n => exact takes_takePayload ended n buffer
  | none =>
      simp only [takeFrame]
      split
      next short =>
        refine .waiting rfl fun _ => ?_
        show buffer.length < 4
        rw [List.length_take] at short
        omega
      next enough =>
        split
        next => exact .tooBig rfl
        next =>
          have hlength : (buffer.take 4).length = 4 := by
            rw [List.length_take] at enough ⊢
            omega
          -- With its length announced, the frame is the same bytes.
          have same : bytes ⟨some (lengthOf (buffer.take 4)), buffer.drop 4⟩ =
              bytes ⟨none, buffer⟩ := by
            simp only [bytes, lengthBytes_lengthOf hlength]
            exact List.take_append_drop 4 buffer
          exact (takes_takePayload ended _ _).of_bytes_eq same

/-- At the end of the stream a part of a frame is left over unless it is a length alone. -/
theorem isSpent_iff {f : Framing} (hshort : f.announced = none → f.buffer.length < 4) :
    IsSpent f.bytes ↔ f.buffer = [] := by
  obtain ⟨announced, buffer⟩ := f
  cases announced with
  | none =>
      have few : buffer.length < 4 := hshort rfl
      refine ⟨fun spent => spent.resolve_right fun whole => ?_, .inl⟩
      have whole : buffer.length = 4 := whole
      omega
  | some n =>
      have length : (bytes ⟨some n, buffer⟩).length = 4 + buffer.length := by
        rw [bytes, List.length_append, length_lengthBytes]
      constructor
      · rintro (empty | whole)
        · rw [empty, List.length_nil] at length
          omega
        · show buffer = []
          apply List.length_eq_zero_iff.mp
          omega
      · rintro rfl
        exact .inr length

theorem takes_next (limit : Nat) (ended : Bool) (f : Framing) :
    Takes ended f (next limit ended f) := by
  have taken := takes_takeFrame limit ended f
  rw [next]
  generalize takeFrame limit f = result at taken
  obtain ⟨arrival?, left⟩ := result
  cases arrival? with
  | some arrival => exact taken
  | none =>
      cases taken with
      | waiting hleft hshort =>
          have spent := isSpent_iff hshort
          rw [hleft] at spent
          cases ended with
          | false => exact .waiting hleft hshort
          | true =>
              simp only [if_true, List.isEmpty_iff]
              split
              next empty => exact .closed rfl hleft (spent.mpr empty)
              next left_over => exact .torn rfl hleft (mt spent.mp left_over)

/-! ### Whole frames -/

/-- Whether bytes are those of whole frames. -/
def IsWhole (bytes : Bytes) : Prop :=
  ∃ payloads : List Bytes, (∀ payload ∈ payloads, payload.length < 1 <<< 32) ∧
    payloads.flatMap encode = bytes

/-- Nothing else is read where a frame begins than this frame. -/
theorem encode_append_inj {payload other rest more : Bytes} (h : payload.length < 1 <<< 32)
    (k : other.length < 1 <<< 32) (same : encode payload ++ rest = encode other ++ more) :
    payload = other ∧ rest = more := by
  have first := takeFrame_encode (payload.length + other.length) h rest
  have again := takeFrame_encode (payload.length + other.length) k more
  rw [same, again, receive, receive, if_neg (by omega), if_neg (by omega)] at first
  obtain rfl := Arrival.frame.inj (Option.some.inj first)
  exact ⟨rfl, List.append_cancel_left same⟩

/-- A length that announces something is no whole frame. -/
theorem not_isWhole_lengthBytes {n : Nat} (positive : 0 < n) (h : n < 1 <<< 32) :
    ¬ IsWhole (lengthBytes n) := by
  rintro ⟨payloads, short, same⟩
  have length := congrArg List.length same
  cases payloads with
  | nil => simp at length
  | cons payload rest =>
      simp only [List.flatMap_cons, encode, List.length_append, length_lengthBytes] at length
      have empty : payload = [] := List.length_eq_zero_iff.mp (by omega)
      have none_left : rest.flatMap encode = [] := List.length_eq_zero_iff.mp (by omega)
      rw [List.flatMap_cons, none_left, List.append_nil, encode, empty, List.append_nil] at same
      have zero := congrArg lengthOf same
      rw [lengthOf_lengthBytes h, lengthOf_lengthBytes (by simp)] at zero
      exact absurd zero (Nat.ne_of_lt positive)

/-- Behind whole frames a length that announces something leaves no whole frames. -/
theorem not_isWhole_append {frames : List Bytes}
    (short : ∀ payload ∈ frames, payload.length < 1 <<< 32) {rest : Bytes}
    (torn : ¬ IsWhole rest) : ¬ IsWhole (frames.flatMap encode ++ rest) := by
  induction frames with
  | nil => exact torn
  | cons payload frames ih =>
      obtain ⟨first, later⟩ := List.forall_mem_cons.mp short
      rintro ⟨payloads, bounded, same⟩
      rw [List.flatMap_cons, List.append_assoc] at same
      cases payloads with
      | nil => simp [encode, lengthBytes] at same
      | cons other payloads =>
          obtain ⟨other_short, bounded⟩ := List.forall_mem_cons.mp bounded
          rw [List.flatMap_cons] at same
          obtain ⟨_, same⟩ := encode_append_inj other_short first same
          exact ih later ⟨payloads, bounded, same⟩

end DuplexRpc.Framing
