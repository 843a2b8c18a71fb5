import OutpostPi.Relay.FrameAdmission

/-!
# The guard of an unauthenticated socket

`PreAuthGuard` inspects every read until the connection has authenticated. The task of the
connection reads the socket only while it waits for a frame. It verifies the `auth` frame once the
read with its last byte has returned, and sets the flag before it reads again.

So the read that ends the `auth` frame is inspected whole. `accepted_iff` says that a stream gets
through exactly when what this read holds behind the `auth` frame announces no message beyond the
bound of the time before authentication (`exists_pipelined_frame_refused`).
-/

set_option autoImplicit false

namespace OutpostPi.Relay

open OutpostPi.Lib.WebSocket

structure PreAuthGuard where
  authenticated : Bool
  admission : PreAuthFrameAdmission

namespace PreAuthGuard

def new : PreAuthGuard := ⟨false, .default⟩

/-- `poll_read` on the bytes that the transport has delivered. -/
def pollRead (guard : PreAuthGuard) (read : List UInt8) : Except InvalidData PreAuthGuard :=
  if guard.authenticated then .ok guard
  else (guard.admission.inspect read).map fun admission => { guard with admission := admission }

/-- A connection and the number of bytes that it has read. -/
structure Connection where
  guard : PreAuthGuard
  received : Nat

def start : Connection := ⟨.new, 0⟩

/-- A read returns. It authenticates the connection when it ends the `auth` frame. -/
def receive (authEnd : Nat) (c : Connection) (read : List UInt8) : Except InvalidData Connection :=
  (c.guard.pollRead read).map fun guard =>
    { guard := { guard with
        authenticated := guard.authenticated || decide (authEnd ≤ c.received + read.length) }
      received := c.received + read.length }

/-- The reads of a stream, until one is refused. -/
def receiveAll (authEnd : Nat) (c : Connection) (reads : List (List UInt8)) :
    Except InvalidData Connection :=
  reads.foldlM (receive authEnd) c

/-- The frames of a valid `hello` and a valid `auth`, each of which is a text message within the
limit of a frame before authentication. -/
structure Handshake where
  hello : List WireFrame
  auth : List WireFrame
  helloText : IsTextMessage (hello.map WireFrame.header)
  authText : IsTextMessage (auth.map WireFrame.header)
  helloSize : announcedSize (hello.map WireFrame.header) ≤ preAuthMessageMaxBytes
  authSize : announcedSize (auth.map WireFrame.header) ≤ preAuthMessageMaxBytes

def Handshake.bytes (handshake : Handshake) : List UInt8 :=
  (handshake.hello ++ handshake.auth).flatMap WireFrame.encode

/-- What the read that reaches a position holds behind it. -/
def behind (position : Nat) : List (List UInt8) → List UInt8
  | [] => []
  | read :: reads =>
    if position ≤ read.length then read.drop position else behind (position - read.length) reads

/-- The reads up to the one that reaches a position. -/
def upTo (position : Nat) : List (List UInt8) → List UInt8
  | [] => []
  | read :: reads =>
    if position ≤ read.length then read else read ++ upTo (position - read.length) reads

theorem upTo_eq {position : Nat} {reads : List (List UInt8)}
    (within : position ≤ reads.flatten.length) :
    upTo position reads = reads.flatten.take position ++ behind position reads := by
  induction reads generalizing position with
  | nil => simp [upTo, behind]
  | cons read reads ih =>
    rw [List.flatten_cons, List.length_append] at within
    rw [upTo, behind, List.flatten_cons]
    split
    · next reached => rw [List.take_append_of_le_length reached, List.take_append_drop]
    · next before =>
      have past : read.length ≤ position := by omega
      rw [ih (by omega), List.take_append, List.take_of_length_le past, List.append_assoc]

/-- Nothing is refused once the connection has authenticated. -/
theorem isOk_receiveAll_of_authenticated {authEnd : Nat} {c : Connection}
    (authenticated : c.guard.authenticated = true) (reads : List (List UInt8)) :
    (receiveAll authEnd c reads).isOk = true := by
  induction reads generalizing c with
  | nil => rfl
  | cons read reads ih =>
    rw [receiveAll, List.foldlM_cons, receive, pollRead, if_pos authenticated]
    exact ih (by simp [authenticated])

/-- Before that, the reads up to the end of the `auth` frame are inspected as their bytes are. -/
theorem isOk_receiveAll_iff {authEnd : Nat} {c : Connection}
    (wellFormed : c.guard.admission.WellFormed) (waits : c.guard.authenticated = false)
    (before : c.received < authEnd) (reads : List (List UInt8)) :
    (receiveAll authEnd c reads).isOk = true ↔
      (c.guard.admission.inspect (upTo (authEnd - c.received) reads)).isOk = true := by
  induction reads generalizing c with
  | nil => exact iff_of_true rfl rfl
  | cons read reads ih =>
    have bytes : ∀ more : List UInt8, c.guard.admission.inspect (read ++ more) =
        c.guard.admission.inspect read >>= fun s => more.foldlM PreAuthFrameAdmission.inspectByte s := by
      intro more
      rw [PreAuthFrameAdmission.inspect_eq_foldlM wellFormed,
        PreAuthFrameAdmission.inspect_eq_foldlM wellFormed, List.foldlM_append]
    rw [receiveAll, List.foldlM_cons, receive, pollRead, if_neg (by simp [waits]), upTo]
    split
    · next reached =>
      -- This read ends the `auth` frame, and the later ones are not inspected.
      have ends : authEnd ≤ c.received + read.length := by omega
      cases inspected : c.guard.admission.inspect read with
      | error error => exact iff_of_false Bool.false_ne_true Bool.false_ne_true
      | ok admission =>
        refine iff_of_true ?_ rfl
        exact isOk_receiveAll_of_authenticated (by simp [ends]) reads
    · next short =>
      have waiting : ¬ authEnd ≤ c.received + read.length := by omega
      rw [bytes]
      cases inspected : c.guard.admission.inspect read with
      | error error => exact iff_of_false Bool.false_ne_true Bool.false_ne_true
      | ok admission =>
        have kept : admission.WellFormed := by
          rw [PreAuthFrameAdmission.inspect_eq_foldlM wellFormed] at inspected
          exact PreAuthFrameAdmission.wellFormed_foldlM wellFormed inspected
        have later := @ih ⟨⟨false, admission⟩, c.received + read.length⟩ kept rfl
          (Nat.lt_of_not_le waiting)
        dsimp only at later
        rw [PreAuthFrameAdmission.inspect_eq_foldlM kept, ← Nat.sub_sub] at later
        refine Iff.trans ?_ later
        have same : (c.guard.authenticated || decide (authEnd ≤ c.received + read.length)) =
            false := by simp [waits, waiting]
        refine Iff.of_eq (congrArg (fun flag =>
          (receiveAll authEnd ⟨⟨flag, admission⟩, c.received + read.length⟩ reads).isOk = true) same)

/-- A connection gets through exactly when no message beyond the bound is announced up to the read
that ends the `auth` frame. -/
theorem isOk_receiveAll_start {authEnd : Nat} (positive : 0 < authEnd) (reads : List (List UInt8)) :
    (receiveAll authEnd start reads).isOk = true ↔
      Bounded preAuthMessageMaxBytes (headers (upTo authEnd reads)) := by
  rw [isOk_receiveAll_iff (c := start) PreAuthFrameAdmission.wellFormed_default rfl positive]
  change (PreAuthFrameAdmission.default.inspect (upTo (authEnd - 0) reads)).isOk = true ↔ _
  rw [Nat.sub_zero, PreAuthFrameAdmission.isOk_inspect_iff PreAuthFrameAdmission.wellFormed_default,
    PreAuthFrameAdmission.admits_default]

theorem Handshake.bytes_length_pos (handshake : Handshake) : 0 < handshake.bytes.length := by
  have text := handshake.helloText
  rw [Handshake.bytes, List.flatMap_append, List.length_append]
  cases frames : handshake.hello with
  | nil =>
    rw [frames] at text
    exact text.elim
  | cons frame others =>
    rw [List.flatMap_cons, WireFrame.encode, WireFrame.head]
    simp

/-- A handshake is within the bound and leaves no message open. -/
theorem Handshake.bounded_headers (handshake : Handshake) (later : List UInt8) :
    Bounded preAuthMessageMaxBytes (headers (handshake.bytes ++ later)) ↔
      Bounded preAuthMessageMaxBytes (headers later) := by
  rw [Handshake.bytes, headers_frames, List.map_append, List.append_assoc, ← boundedFrom_zero,
    boundedFrom_textMessage handshake.helloText handshake.helloSize,
    boundedFrom_textMessage handshake.authText handshake.authSize, boundedFrom_zero]

/-- A stream that begins with a handshake gets through exactly when what the read that ends the
`auth` frame holds behind it announces no message beyond the bound. -/
theorem accepted_iff (handshake : Handshake) (later : List UInt8) (reads : List (List UInt8))
    (stream : reads.flatten = handshake.bytes ++ later) :
    (receiveAll handshake.bytes.length start reads).isOk = true ↔
      Bounded preAuthMessageMaxBytes (headers (behind handshake.bytes.length reads)) := by
  have within : handshake.bytes.length ≤ reads.flatten.length := by
    rw [stream, List.length_append]
    exact Nat.le_add_right _ _
  rw [isOk_receiveAll_start handshake.bytes_length_pos, upTo_eq within, stream, List.take_left,
    handshake.bounded_headers]

/-- A masked text frame of zeros. -/
private def zeros (size : Nat) (fits : size < 256 ^ 2) : WireFrame where
  first := 0x81
  form := .medium
  mask := some [0, 0, 0, 0]
  payload := List.replicate size 0
  fits := by rw [List.length_replicate]; exact fits
  maskSize := by rintro key ⟨⟩; rfl

private theorem header_zeros (size : Nat) (fits : size < 256 ^ 2) :
    (zeros size fits).header = ⟨true, 1, size⟩ := by
  simp [WireFrame.header, zeros]

/-- A `hello` of 200 and an `auth` of 120 bytes. -/
private def shortHandshake : Handshake where
  hello := [zeros 200 (by decide)]
  auth := [zeros 120 (by decide)]
  helloText := by
    rw [List.map_singleton, header_zeros]
    exact ⟨rfl, rfl⟩
  authText := by
    rw [List.map_singleton, header_zeros]
    exact ⟨rfl, rfl⟩
  helloSize := by
    rw [List.map_singleton, header_zeros]
    decide
  authSize := by
    rw [List.map_singleton, header_zeros]
    decide

/-- A frame of 20000 bytes that is read apart from the end of the handshake gets through. -/
theorem accepted_iff_separate :
    ∃ (handshake : Handshake) (later : List UInt8), headers later = [⟨true, 1, 20000⟩] ∧
      (receiveAll handshake.bytes.length start [handshake.bytes, later]).isOk = true := by
  refine ⟨shortHandshake, (zeros 20000 (by decide)).encode, ?_, ?_⟩
  · have decoded := headers_encode (zeros 20000 (by decide)) []
    rwa [List.append_nil, headers_nil, header_zeros] at decoded
  · refine (accepted_iff shortHandshake (zeros 20000 (by decide)).encode _ (by simp)).mpr ?_
    rw [behind, if_pos le_rfl, List.drop_length]
    rintro message ⟨⟩

/-- The read that ends the `auth` frame holds the header of a frame of 20000 bytes, which is
refused. -/
theorem exists_pipelined_frame_refused :
    ∃ (handshake : Handshake) (frame : WireFrame) (reads : List (List UInt8)),
      reads.flatten = handshake.bytes ++ frame.encode ∧ (∀ read ∈ reads, read ≠ []) ∧
        frame.header = ⟨true, 1, 20000⟩ ∧
        (receiveAll handshake.bytes.length start reads).isOk = false := by
  refine ⟨shortHandshake, zeros 20000 (by decide),
    [shortHandshake.bytes ++ (zeros 20000 (by decide)).head, (zeros 20000 (by decide)).payload],
    ?_, ?_, header_zeros _ _, ?_⟩
  · simp [WireFrame.encode]
  · intro read mem
    rcases List.mem_pair.mp mem with rfl | rfl
    · exact List.append_ne_nil_of_right_ne_nil _ (List.cons_ne_nil _ _)
    · exact List.cons_ne_nil _ _
  · have first : upTo shortHandshake.bytes.length
        [shortHandshake.bytes ++ (zeros 20000 (by decide)).head, (zeros 20000 (by decide)).payload] =
          shortHandshake.bytes ++ (zeros 20000 (by decide)).head := by
      rw [upTo, if_pos (by simp)]
    have announces : headers (zeros 20000 (by decide)).head = [⟨true, 1, 20000⟩] := by
      have read := headers_head_append (zeros 20000 (by decide)).headerSize_head []
      rwa [List.append_nil, List.drop_nil, headers_nil, WireFrame.announced_head,
        header_zeros] at read
    rw [← Bool.not_eq_true, isOk_receiveAll_start shortHandshake.bytes_length_pos, first,
      shortHandshake.bounded_headers, announces]
    exact fun bounded => absurd (bounded _ (List.mem_cons_self ..)) (by decide)

end PreAuthGuard

end OutpostPi.Relay
