import OutpostPi.Lib.WebSocket

/-!
# Admission of frames before authentication

Before a peer has authenticated, every read of its socket is inspected for frame headers, and a
message whose frames announce too many bytes is refused. `PreAuthFrameAdmission` keeps the bytes
of a header that is not complete, what is left of a payload, and what the frames of the message
have announced.

`inspect` copies and skips as many bytes at once as it can. It agrees with the inspection of one
byte after the other (`inspect_eq_foldlM`), so the reads do not matter, and it refuses exactly
the byte strings in which the complete headers announce a message beyond the bound
(`admission_exact`).
-/

set_option autoImplicit false

namespace OutpostPi.Relay

open OutpostPi.Lib OutpostPi.Lib.WebSocket

/-- `PRE_AUTH_MESSAGE_MAX_BYTES`. -/
def preAuthMessageMaxBytes : Nat := 16384

/-- The error of a refused read. -/
inductive InvalidData
  | preAuthMessageTooLarge
  deriving DecidableEq

/-- `header` holds the bytes of the header that are filled. -/
structure PreAuthFrameAdmission where
  header : List UInt8
  payloadRemaining : Nat
  messageBytes : Nat
  messageInProgress : Bool
  resetMessageAfterPayload : Bool
  deriving DecidableEq

namespace PreAuthFrameAdmission

def default : PreAuthFrameAdmission := ⟨[], 0, 0, false, false⟩

def headerTargetLen (s : PreAuthFrameAdmission) : Nat :=
  match s.header with
  | _ :: second :: _ =>
    let extendedLen := if second &&& 0x7f = 126 then 2 else if second &&& 0x7f = 127 then 8 else 0
    let maskLen := if second &&& 0x80 = 0 then 0 else 4
    2 + extendedLen + maskLen
  | _ => 2

/-- The payload length of a complete header. -/
def payloadLen : List UInt8 → Nat
  | _ :: second :: rest =>
    if second &&& 0x7f = 126 then bigEndian (rest.take 2)
    else if second &&& 0x7f = 127 then bigEndian (rest.take 8)
    else (second &&& 0x7f).toNat
  | _ => 0

/-- `begin_frame` once the first byte and the payload length are read off the header. -/
def beginWith (s : PreAuthFrameAdmission) (first : UInt8) (payloadLen : Nat) :
    Except InvalidData PreAuthFrameAdmission :=
  let fin := decide (first &&& 0x80 ≠ 0)
  let opcode := first &&& 0x0f
  if opcode ≤ 2 then
    let carried := if opcode ≠ 0 ∧ s.messageInProgress = false then 0 else s.messageBytes
    -- The checked addition of two `u64` fails first.
    if 2 ^ 64 ≤ carried + payloadLen then .error .preAuthMessageTooLarge
    else if preAuthMessageMaxBytes < carried + payloadLen then .error .preAuthMessageTooLarge
    else
      .ok { s with
        messageBytes := carried + payloadLen
        messageInProgress := !fin
        resetMessageAfterPayload := fin
        payloadRemaining := payloadLen }
  else .ok { s with resetMessageAfterPayload := false, payloadRemaining := payloadLen }

def beginFrame (s : PreAuthFrameAdmission) : Except InvalidData PreAuthFrameAdmission :=
  s.beginWith (s.header.headD 0) (payloadLen s.header)

def finishFrame (s : PreAuthFrameAdmission) : PreAuthFrameAdmission :=
  if s.resetMessageAfterPayload then
    { s with messageBytes := 0, messageInProgress := false, resetMessageAfterPayload := false }
  else s

/-- Finish the frame when nothing is left of its payload. -/
def finishIfEmpty (s : PreAuthFrameAdmission) : PreAuthFrameAdmission :=
  if s.payloadRemaining = 0 then s.finishFrame else s

/-- Skip bytes of the payload. -/
def skip (s : PreAuthFrameAdmission) (consumed : Nat) : PreAuthFrameAdmission :=
  finishIfEmpty { s with payloadRemaining := s.payloadRemaining - consumed }

/-- The frame begins once its header is complete. -/
def completeHeader (s : PreAuthFrameAdmission) : Except InvalidData PreAuthFrameAdmission :=
  if s.header.length < s.headerTargetLen then .ok s
  else s.beginFrame.map fun begun => finishIfEmpty { begun with header := [] }

/-- The loop of `inspect`. Every round consumes a byte, so there are no more rounds than bytes. -/
def inspectLoop : Nat → PreAuthFrameAdmission → List UInt8 →
    Except InvalidData PreAuthFrameAdmission
  | 0, s, _ => .ok s
  | fuel + 1, s, bytes =>
    if bytes = [] then .ok s
    else if 0 < s.payloadRemaining then
      let consumed := min bytes.length s.payloadRemaining
      inspectLoop fuel (s.skip consumed) (bytes.drop consumed)
    else
      let copied := min bytes.length (s.headerTargetLen - s.header.length)
      match completeHeader { s with header := s.header ++ bytes.take copied } with
      | .error error => .error error
      | .ok s => inspectLoop fuel s (bytes.drop copied)

def inspect (s : PreAuthFrameAdmission) (bytes : List UInt8) :
    Except InvalidData PreAuthFrameAdmission :=
  inspectLoop bytes.length s bytes

/-- Inspect one read after the other, until one is refused. -/
def feed (s : PreAuthFrameAdmission) (chunks : List (List UInt8)) :
    Except InvalidData PreAuthFrameAdmission :=
  chunks.foldlM inspect s

/-! ## One byte after the other -/

/-- `inspect` on a single byte. -/
def inspectByte (s : PreAuthFrameAdmission) (byte : UInt8) :
    Except InvalidData PreAuthFrameAdmission :=
  if 0 < s.payloadRemaining then .ok (s.skip 1)
  else completeHeader { s with header := s.header ++ [byte] }

/-- Between two reads the header is not complete and its bytes are not those of a payload, and a
message that is not in progress has announced nothing unless its last payload is being skipped. -/
structure WellFormed (s : PreAuthFrameAdmission) : Prop where
  partialHeader : s.header.length < s.headerTargetLen
  noHeader : 0 < s.payloadRemaining → s.header = []
  bounded : s.messageBytes ≤ preAuthMessageMaxBytes
  settled : s.payloadRemaining = 0 → s.resetMessageAfterPayload = false
  fresh : s.resetMessageAfterPayload = false → s.messageInProgress = false → s.messageBytes = 0

theorem wellFormed_default : default.WellFormed := by
  constructor
  case partialHeader => decide
  case noHeader => exact fun _ => rfl
  case bounded => decide
  case settled => exact fun _ => rfl
  case fresh => exact fun _ _ => rfl

/-! ### Headers as the decoder sees them -/

theorem and_0x7f (byte : UInt8) : (byte &&& 0x7f).toNat = byte.toNat % 128 := by
  rw [UInt8.toNat_and]
  exact Nat.and_two_pow_sub_one_eq_mod byte.toNat 7

theorem and_0x7f_eq_iff (byte : UInt8) {code : UInt8} :
    byte &&& 0x7f = code ↔ byte.toNat % 128 = code.toNat := by
  rw [← and_0x7f, UInt8.toNat_inj]

theorem and_0x80_eq_zero_iff (byte : UInt8) : byte &&& 0x80 = 0 ↔ byte.toNat < 128 := by
  have all : ∀ n < 256, UInt8.ofNat n &&& 0x80 = 0 ↔ n < 128 := by decide +kernel
  have here := all byte.toNat byte.toNat_lt
  rwa [UInt8.ofNat_toNat] at here

theorem and_0x0f (byte : UInt8) : (byte &&& 0x0f).toNat = byte.toNat % 16 := by
  rw [UInt8.toNat_and]
  exact Nat.and_two_pow_sub_one_eq_mod byte.toNat 4

theorem headerTargetLen_eq (s : PreAuthFrameAdmission) :
    s.headerTargetLen = headerSize s.header := by
  obtain ⟨header, payloadRemaining, messageBytes, messageInProgress, reset⟩ := s
  match header with
  | [] => rfl
  | [_] => rfl
  | _ :: second :: _ =>
    simp only [headerTargetLen, headerSize, and_0x7f_eq_iff, and_0x80_eq_zero_iff, lengthSize,
      maskSize]
    rfl

theorem payloadLen_eq (header : List UInt8) :
    payloadLen header = (announced header).payloadLen := by
  match header with
  | [] => rfl
  | [_] => rfl
  | _ :: second :: rest =>
    simp only [payloadLen, announced, and_0x7f_eq_iff, and_0x7f, lengthSize]
    by_cases medium : second.toNat % 128 = 126
    · simp [medium]
    · by_cases long : second.toNat % 128 = 127
      · simp [long]
      · simp [medium, long]

/-- The target does not shrink when bytes are added to a header. -/
theorem headerSize_le_append (header more : List UInt8) :
    headerSize header ≤ headerSize (header ++ more) := by
  match header with
  | [] => exact two_le_headerSize more
  | [first] => exact two_le_headerSize (first :: more)
  | _ :: _ :: _ => exact le_rfl

/-! ### Preservation -/

variable {s s' : PreAuthFrameAdmission}

theorem wellFormed_finishIfEmpty (noHeader : s.header = [])
    (bounded : s.messageBytes ≤ preAuthMessageMaxBytes)
    (fresh : s.resetMessageAfterPayload = false → s.messageInProgress = false → s.messageBytes = 0) :
    s.finishIfEmpty.WellFormed := by
  have short : s.header.length < s.headerTargetLen := by
    rw [headerTargetLen_eq, noHeader]
    exact Nat.lt_of_lt_of_le Nat.two_pos (two_le_headerSize [])
  by_cases finished : s.payloadRemaining = 0
  · rw [finishIfEmpty, if_pos finished, finishFrame]
    split
    · constructor
      case partialHeader => exact short
      case noHeader => exact fun _ => noHeader
      case bounded => exact Nat.zero_le _
      case settled => exact fun _ => rfl
      case fresh => exact fun _ _ => rfl
    · next kept =>
      have off : s.resetMessageAfterPayload = false := by simpa using kept
      exact ⟨short, fun _ => noHeader, bounded, fun _ => off, fresh⟩
  · rw [finishIfEmpty, if_neg finished]
    exact ⟨short, fun _ => noHeader, bounded, fun none => absurd none finished, fresh⟩

theorem wellFormed_skip (wellFormed : s.WellFormed) (payload : 0 < s.payloadRemaining)
    (consumed : Nat) : (s.skip consumed).WellFormed :=
  wellFormed_finishIfEmpty (wellFormed.noHeader payload) wellFormed.bounded wellFormed.fresh

/-- What a frame that begins leaves, for a header that is complete. -/
theorem beginFrame_ok (fresh : s.messageInProgress = false → s.messageBytes = 0)
    (bounded : s.messageBytes ≤ preAuthMessageMaxBytes) (begun : s.beginFrame = .ok s') :
    s'.header = s.header ∧ s'.payloadRemaining = payloadLen s.header ∧
      s'.messageBytes ≤ preAuthMessageMaxBytes ∧
      (s'.resetMessageAfterPayload = false → s'.messageInProgress = false →
        s'.messageBytes = 0) := by
  rw [beginFrame, beginWith] at begun
  dsimp only at begun
  generalize (if s.header.headD 0 &&& 0x0f ≠ 0 ∧ s.messageInProgress = false then 0
    else s.messageBytes) = before at begun
  split at begun
  · split at begun
    · cases begun
    · split at begun
      · cases begun
      · next fits =>
        cases begun
        refine ⟨rfl, rfl, Nat.le_of_not_lt fits, ?_⟩
        intro reset finished
        -- The two flags of a data frame are opposite.
        dsimp only at reset finished
        rw [reset] at finished
        cases finished
  · cases begun
    exact ⟨rfl, rfl, bounded, fun _ => fresh⟩

/-- A header without a payload before it grows, or its frame begins. -/
theorem wellFormed_completeHeader (bounded : s.messageBytes ≤ preAuthMessageMaxBytes)
    (between : s.payloadRemaining = 0) (settled : s.resetMessageAfterPayload = false)
    (fresh : s.messageInProgress = false → s.messageBytes = 0)
    (completed : s.completeHeader = .ok s') : s'.WellFormed := by
  rw [completeHeader] at completed
  split at completed
  · next short =>
    cases completed
    exact ⟨short, fun payload => absurd between (Nat.ne_of_gt payload), bounded, fun _ => settled,
      fun _ => fresh⟩
  · cases begun : s.beginFrame with
    | error error =>
      rw [begun] at completed
      cases completed
    | ok next =>
      rw [begun] at completed
      cases completed
      obtain ⟨-, -, bounded', fresh'⟩ := beginFrame_ok fresh bounded begun
      exact wellFormed_finishIfEmpty rfl bounded' fresh'

theorem wellFormed_inspectByte (wellFormed : s.WellFormed) {byte : UInt8}
    (inspected : s.inspectByte byte = .ok s') : s'.WellFormed := by
  rw [inspectByte] at inspected
  split at inspected
  · next payload =>
    cases inspected
    exact wellFormed_skip wellFormed payload 1
  · next none =>
    have between : s.payloadRemaining = 0 := by omega
    have settled := wellFormed.settled between
    refine wellFormed_completeHeader ?_ ?_ ?_ ?_ inspected
    · exact wellFormed.bounded
    · exact between
    · exact settled
    · exact wellFormed.fresh settled

variable {bytes : List UInt8}

theorem wellFormed_foldlM (wellFormed : s.WellFormed)
    (inspected : bytes.foldlM inspectByte s = .ok s') : s'.WellFormed := by
  induction bytes generalizing s with
  | nil =>
    cases inspected
    exact wellFormed
  | cons byte bytes ih =>
    rw [List.foldlM_cons] at inspected
    cases first : s.inspectByte byte with
    | error error =>
      rw [first] at inspected
      cases inspected
    | ok next =>
      rw [first] at inspected
      exact ih (wellFormed_inspectByte wellFormed first) inspected

/-! ### The loop takes its bytes one after the other -/

theorem finishIfEmpty_of_pos (payload : 0 < s.payloadRemaining) : s.finishIfEmpty = s :=
  if_neg (Nat.ne_of_gt payload)

/-- Bytes of a payload are skipped together or one by one. -/
theorem foldlM_payload (nonempty : bytes ≠ []) (within : bytes.length ≤ s.payloadRemaining) :
    bytes.foldlM inspectByte s = .ok (s.skip bytes.length) := by
  induction bytes generalizing s with
  | nil => exact absurd rfl nonempty
  | cons byte bytes ih =>
    rw [List.length_cons] at within
    rw [List.foldlM_cons, inspectByte, if_pos (by omega)]
    change bytes.foldlM inspectByte (s.skip 1) = _
    cases bytes with
    | nil => rfl
    | cons next rest =>
      rw [List.length_cons] at within
      -- The payload is not finished, so one byte less is left of it.
      have left : s.skip 1 = { s with payloadRemaining := s.payloadRemaining - 1 } := by
        refine finishIfEmpty_of_pos ?_
        dsimp only
        omega
      have count : s.payloadRemaining - 1 - (next :: rest).length =
          s.payloadRemaining - (byte :: next :: rest).length := by
        simp only [List.length_cons]
        omega
      rw [left, ih (by simp) (by simp only [List.length_cons]; omega), skip, skip]
      dsimp only
      rw [count]

/-- Bytes of a header are copied together or one by one. -/
theorem foldlM_header (nonempty : bytes ≠ []) (between : s.payloadRemaining = 0)
    (within : s.header.length + bytes.length ≤ headerSize s.header) :
    bytes.foldlM inspectByte s = completeHeader { s with header := s.header ++ bytes } := by
  induction bytes generalizing s with
  | nil => exact absurd rfl nonempty
  | cons byte bytes ih =>
    rw [List.length_cons] at within
    rw [List.foldlM_cons, inspectByte, if_neg (by omega)]
    cases bytes with
    | nil => cases completeHeader { s with header := s.header ++ [byte] } <;> rfl
    | cons next rest =>
      rw [List.length_cons] at within
      have grows := headerSize_le_append s.header [byte]
      -- The header is not complete yet, since its target does not shrink.
      have short : completeHeader { s with header := s.header ++ [byte] } =
          .ok { s with header := s.header ++ [byte] } := by
        rw [completeHeader, if_pos]
        rw [headerTargetLen_eq]
        dsimp only
        rw [List.length_append, List.length_singleton]
        omega
      rw [short]
      change (next :: rest).foldlM inspectByte { s with header := s.header ++ [byte] } = _
      have later := @ih { s with header := s.header ++ [byte] } (by simp) between
        (by simp only [List.length_append, List.length_cons, List.length_nil]; omega)
      rw [later]
      simp

theorem inspectLoop_eq_foldlM {fuel : Nat} (enough : bytes.length ≤ fuel)
    (wellFormed : s.WellFormed) : inspectLoop fuel s bytes = bytes.foldlM inspectByte s := by
  induction fuel generalizing s bytes with
  | zero =>
    rw [List.length_eq_zero_iff.mp (Nat.le_zero.mp enough)]
    rfl
  | succ fuel ih =>
    rw [inspectLoop]
    split
    · next none =>
      rw [none]
      rfl
    · next some =>
      have positive := List.length_pos_iff.mpr some
      split
      -- a round that skips payload does what its bytes do one by one
      · next payload =>
        dsimp only
        generalize count : min bytes.length s.payloadRemaining = consumed
        have taken : (bytes.take consumed).length = consumed := List.length_take_of_le (by omega)
        have skipped : (bytes.take consumed).foldlM inspectByte s = .ok (s.skip consumed) := by
          have together := @foldlM_payload s (bytes.take consumed)
            (List.ne_nil_of_length_pos (by omega)) (by omega)
          rwa [taken] at together
        rw [ih (by rw [List.length_drop]; omega) (wellFormed_skip wellFormed payload consumed)]
        conv_rhs => rw [← List.take_append_drop consumed bytes, List.foldlM_append, skipped]
        rfl
      -- a round that copies header bytes does so, too
      · next none =>
        have between : s.payloadRemaining = 0 := by omega
        have short := wellFormed.partialHeader
        dsimp only
        generalize count : min bytes.length (s.headerTargetLen - s.header.length) = copied
        have taken : (bytes.take copied).length = copied := List.length_take_of_le (by omega)
        have together := @foldlM_header s (bytes.take copied)
          (List.ne_nil_of_length_pos (by omega)) between (by rw [← headerTargetLen_eq]; omega)
        conv_rhs => rw [← List.take_append_drop copied bytes, List.foldlM_append, together]
        cases completed : completeHeader { s with header := s.header ++ bytes.take copied } with
        | error error => rfl
        | ok next =>
          have settled := wellFormed.settled between
          have wellFormed' := wellFormed_completeHeader
            (s := { s with header := s.header ++ bytes.take copied }) wellFormed.bounded between
            settled (wellFormed.fresh settled) completed
          exact ih (by rw [List.length_drop]; omega) wellFormed'

/-- A read is inspected as its bytes are, one after the other. -/
theorem inspect_eq_foldlM (wellFormed : s.WellFormed) (bytes : List UInt8) :
    s.inspect bytes = bytes.foldlM inspectByte s :=
  inspectLoop_eq_foldlM le_rfl wellFormed

/-- Reads one after the other are inspected as all of their bytes at once. -/
theorem feed_eq_inspect (wellFormed : s.WellFormed) (chunks : List (List UInt8)) :
    s.feed chunks = s.inspect chunks.flatten := by
  rw [inspect_eq_foldlM wellFormed]
  induction chunks generalizing s with
  | nil => rfl
  | cons chunk chunks ih =>
    rw [feed, List.foldlM_cons, inspect_eq_foldlM wellFormed, List.flatten_cons,
      List.foldlM_append]
    cases first : chunk.foldlM inspectByte s with
    | error error => rfl
    | ok next => exact ih (wellFormed_foldlM wellFormed first)

/-! ## Agreement with the plain decoder -/

/-- What the frames of the current message have announced. A message whose last payload is being
skipped counts no more. -/
def carried (s : PreAuthFrameAdmission) : Nat :=
  if s.resetMessageAfterPayload then 0 else s.messageBytes

/-- The plain decoder finds no message beyond the bound in the bytes to come. -/
def Admits (s : PreAuthFrameAdmission) (bytes : List UInt8) : Prop :=
  BoundedFrom preAuthMessageMaxBytes s.carried (headers (s.header ++ bytes.drop s.payloadRemaining))

theorem carried_finishIfEmpty : s.finishIfEmpty.carried = s.carried := by
  rw [finishIfEmpty]
  split
  · rw [finishFrame]
    split
    · next reset => simp [carried, reset]
    · rfl
  · rfl

theorem header_finishIfEmpty : s.finishIfEmpty.header = s.header := by
  rw [finishIfEmpty]
  split
  · rw [finishFrame]
    split <;> rfl
  · rfl

theorem payloadRemaining_finishIfEmpty : s.finishIfEmpty.payloadRemaining = s.payloadRemaining := by
  rw [finishIfEmpty]
  split
  · rw [finishFrame]
    split <;> rfl
  · rfl

/-- A complete header is refused exactly when its frame crosses the bound, and otherwise leaves
what the decoder has left. -/
theorem beginFrame_spec (complete : headerSize s.header = s.header.length)
    (settled : s.resetMessageAfterPayload = false)
    (fresh : s.messageInProgress = false → s.messageBytes = 0)
    (bounded : s.messageBytes ≤ preAuthMessageMaxBytes) :
    match s.beginFrame with
    | .error _ => (announced s.header).isData = true ∧
        preAuthMessageMaxBytes < s.messageBytes + (announced s.header).payloadLen
    | .ok s' => s'.payloadRemaining = (announced s.header).payloadLen ∧
        if (announced s.header).isData then
          s.messageBytes + (announced s.header).payloadLen ≤ preAuthMessageMaxBytes ∧
            s'.carried = if (announced s.header).fin then 0
              else s.messageBytes + (announced s.header).payloadLen
        else s'.carried = s.messageBytes := by
  have two := two_le_headerSize s.header
  obtain ⟨header, payloadRemaining, messageBytes, messageInProgress, reset⟩ := s
  dsimp only at complete two settled fresh bounded ⊢
  match header, two with
  | [], _ => simp at complete; omega
  | [_], _ => simp at complete; omega
  | first :: second :: rest, _ =>
    have data : (announced (first :: second :: rest)).isData = decide (first &&& 0x0f ≤ 2) := by
      refine decide_eq_decide.mpr ?_
      rw [UInt8.le_iff_toNat_le, and_0x0f]
      exact Iff.rfl
    have fin : (announced (first :: second :: rest)).fin = decide (first &&& 0x80 ≠ 0) := by
      refine decide_eq_decide.mpr ?_
      rw [ne_eq, and_0x80_eq_zero_iff, Nat.not_lt]
    -- Nothing is carried over by a message that begins.
    have nothing : (if first &&& 0x0f ≠ 0 ∧ messageInProgress = false then 0 else messageBytes) =
        messageBytes := by
      split
      · next begins => exact (fresh begins.2).symm
      · rfl
    rw [data, beginFrame]
    dsimp only
    rw [List.headD_cons, payloadLen_eq, beginWith]
    dsimp only
    rw [nothing, ← fin]
    have small : preAuthMessageMaxBytes < 2 ^ 64 := by decide
    by_cases isData : first &&& 0x0f ≤ 2
    · rw [if_pos isData]
      by_cases overflow : 2 ^ 64 ≤ messageBytes + (announced (first :: second :: rest)).payloadLen
      · rw [if_pos overflow]
        exact ⟨decide_eq_true isData, by omega⟩
      · rw [if_neg overflow]
        by_cases crosses : preAuthMessageMaxBytes <
            messageBytes + (announced (first :: second :: rest)).payloadLen
        · rw [if_pos crosses]
          exact ⟨decide_eq_true isData, crosses⟩
        · rw [if_neg crosses]
          refine ⟨rfl, ?_⟩
          rw [if_pos (decide_eq_true isData)]
          exact ⟨Nat.le_of_not_lt crosses, rfl⟩
    · rw [if_neg isData]
      refine ⟨rfl, ?_⟩
      rw [if_neg (by simpa using isData)]
      rfl

/-- A byte is refused only if no continuation is admitted, and otherwise leaves what the decoder
has left. -/
theorem inspectByte_spec (wellFormed : s.WellFormed) (byte : UInt8) (rest : List UInt8) :
    match s.inspectByte byte with
    | .error _ => ¬ s.Admits (byte :: rest)
    | .ok s' => s.Admits (byte :: rest) ↔ s'.Admits rest := by
  -- a byte of the payload is skipped
  by_cases payload : 0 < s.payloadRemaining
  · rw [inspectByte, if_pos payload]
    dsimp only
    obtain ⟨left, some⟩ : ∃ left, s.payloadRemaining = left + 1 :=
      ⟨s.payloadRemaining - 1, by omega⟩
    rw [Admits, Admits, skip, carried_finishIfEmpty, header_finishIfEmpty,
      payloadRemaining_finishIfEmpty, some, List.drop_succ_cons]
    rfl
  -- a byte of the header is added to it
  · have between : s.payloadRemaining = 0 := by omega
    have settled := wellFormed.settled between
    have short := wellFormed.partialHeader
    have grows := headerSize_le_append s.header [byte]
    rw [headerTargetLen_eq] at short
    have bytes : s.header ++ (byte :: rest).drop s.payloadRemaining =
        s.header ++ [byte] ++ rest := by
      rw [between, List.drop_zero, List.append_assoc]
      rfl
    have carries : s.carried = s.messageBytes := by simp [carried, settled]
    rw [inspectByte, if_neg payload, Admits, bytes, carries, completeHeader, headerTargetLen_eq]
    dsimp only
    by_cases waits : (s.header ++ [byte]).length < headerSize (s.header ++ [byte])
    · rw [if_pos waits]
      dsimp only
      rw [Admits]
      dsimp only
      rw [between, List.drop_zero]
      exact Iff.of_eq (congrArg (BoundedFrom _ · _) carries.symm)
    · -- The byte completes the header, and its frame begins.
      have complete : headerSize (s.header ++ [byte]) = (s.header ++ [byte]).length := by
        rw [List.length_append, List.length_singleton] at waits ⊢
        omega
      rw [if_neg waits, headers_head_append complete, BoundedFrom]
      have spec := beginFrame_spec (s := { s with header := s.header ++ [byte] }) complete settled
        (wellFormed.fresh settled) wellFormed.bounded
      cases begun : beginFrame { s with header := s.header ++ [byte] } with
      | error error =>
        rw [begun] at spec
        obtain ⟨data, crosses⟩ := spec
        dsimp only at data crosses
        change ¬ _
        rw [if_pos data]
        exact fun admitted => absurd admitted.1 (by omega)
      | ok next =>
        rw [begun] at spec
        obtain ⟨remaining, carriedOver⟩ := spec
        dsimp only at remaining carriedOver
        change _ ↔ (finishIfEmpty { next with header := [] }).Admits rest
        rw [Admits, carried_finishIfEmpty, header_finishIfEmpty, payloadRemaining_finishIfEmpty]
        have same : carried { next with header := [] } = next.carried := rfl
        rw [same]
        dsimp only
        rw [remaining, List.nil_append]
        split at carriedOver
        · next data =>
          rw [if_pos data, carriedOver.2]
          exact and_iff_right carriedOver.1
        · next control => rw [if_neg control, carriedOver]

/-- Bytes are accepted exactly when the decoder finds no message beyond the bound in them. -/
theorem isOk_inspect_iff (wellFormed : s.WellFormed) (bytes : List UInt8) :
    (s.inspect bytes).isOk = true ↔ s.Admits bytes := by
  rw [inspect_eq_foldlM wellFormed]
  induction bytes generalizing s with
  | nil =>
    refine iff_of_true rfl ?_
    have short := wellFormed.partialHeader
    rw [headerTargetLen_eq] at short
    rw [Admits, List.drop_nil, List.append_nil, headers_eq, if_pos short]
    trivial
  | cons byte bytes ih =>
    have spec := inspectByte_spec wellFormed byte bytes
    rw [List.foldlM_cons]
    cases first : s.inspectByte byte with
    | error error =>
      rw [first] at spec
      exact iff_of_false Bool.false_ne_true spec
    | ok next =>
      rw [first] at spec
      exact (ih (wellFormed_inspectByte wellFormed first)).trans spec.symm

theorem admits_default (bytes : List UInt8) :
    default.Admits bytes ↔ Bounded preAuthMessageMaxBytes (headers bytes) :=
  boundedFrom_zero

/-- Feeding the reads of a byte string has the result of feeding it at once. It is accepted exactly
when the frames of each data message announce at most the bound together, as far as their headers
are complete, and it is a list of frames and an incomplete one. Reads are refused as soon as they
hold the whole header of the frame that crosses the bound. -/
theorem admission_exact (chunks : List (List UInt8)) :
    default.feed chunks = default.inspect chunks.flatten ∧
    ((default.feed chunks).isOk = true ↔
      Bounded preAuthMessageMaxBytes (headers chunks.flatten)) ∧
    (∃ (frames : List WireFrame) (tail : List UInt8),
      chunks.flatten = frames.flatMap WireFrame.encode ++ tail ∧ Incomplete tail ∧
        headers chunks.flatten = frames.map WireFrame.header ++ headers tail) ∧
    ∀ n, ¬ Bounded preAuthMessageMaxBytes (headers (chunks.take n).flatten) →
      (default.feed (chunks.take n)).isOk = false := by
  have accepts : ∀ reads : List (List UInt8), (default.feed reads).isOk = true ↔
      Bounded preAuthMessageMaxBytes (headers reads.flatten) := by
    intro reads
    rw [feed_eq_inspect wellFormed_default, isOk_inspect_iff wellFormed_default, admits_default]
  refine ⟨feed_eq_inspect wellFormed_default chunks, accepts chunks, ?_, ?_⟩
  · obtain ⟨frames, tail, whole, incomplete⟩ := exists_frames chunks.flatten
    refine ⟨frames, tail, whole, incomplete, ?_⟩
    rw [whole, headers_frames]
  · intro n beyond
    exact Bool.eq_false_iff.mpr fun accepted => beyond ((accepts _).mp accepted)

end PreAuthFrameAdmission

end OutpostPi.Relay
