import Mathlib.Algebra.Ring.Nat
import Mathlib.Data.List.Basic
import Mathlib.Tactic.Ring

/-!
# WebSocket framing

A frame is a header and a payload. The header has two bytes, an extended length of two or eight
bytes where the seven-bit length says so, and a masking key of four bytes where the mask bit is
set. `headers` is the plain decoder of a byte string into the headers that are complete in it;
it skips each payload by its announced length.

`WireFrame` is a frame as it is sent, with any of the length forms that can hold its payload.
Decoding gives back the headers of encoded frames (`headers_frames`), and every byte string is a
list of encoded frames and an incomplete one (`exists_frames`).

Data frames make up messages, each ended by a frame with the FIN bit, and control frames may come
between them (`messages`).
-/

set_option autoImplicit false

namespace OutpostPi.Lib.WebSocket

/-! ## Headers -/

/-- What the header of a frame announces. -/
structure FrameHeader where
  fin : Bool
  opcode : Nat
  payloadLen : Nat
  deriving DecidableEq

/-- Continuation, text and binary frames. The others are control frames. -/
def FrameHeader.isData (header : FrameHeader) : Bool := decide (header.opcode ≤ 2)

/-- Bytes of the extended length. -/
def lengthSize (second : UInt8) : Nat :=
  if second.toNat % 128 = 126 then 2 else if second.toNat % 128 = 127 then 8 else 0

/-- Bytes of the masking key. -/
def maskSize (second : UInt8) : Nat := if second.toNat < 128 then 0 else 4

/-- Bytes of the header that begins a byte string, as far as that is known from it. -/
def headerSize : List UInt8 → Nat
  | _ :: second :: _ => 2 + lengthSize second + maskSize second
  | _ => 2

def bigEndian (bytes : List UInt8) : Nat := bytes.foldl (fun n byte => n * 256 + byte.toNat) 0

/-- The header that begins a byte string in which it is complete. -/
def announced : List UInt8 → FrameHeader
  | first :: second :: rest =>
    { fin := decide (128 ≤ first.toNat)
      opcode := first.toNat % 16
      payloadLen :=
        if lengthSize second = 0 then second.toNat % 128
        else bigEndian (rest.take (lengthSize second)) }
  | _ => ⟨false, 0, 0⟩

/-- The size of the frame that begins a byte string. -/
def frameSize (bytes : List UInt8) : Nat := headerSize bytes + (announced bytes).payloadLen

private def headersWithin : Nat → List UInt8 → List FrameHeader
  | 0, _ => []
  | fuel + 1, bytes =>
    if bytes.length < headerSize bytes then []
    else announced bytes :: headersWithin fuel (bytes.drop (frameSize bytes))

/-- The headers that are complete in a byte string. -/
def headers (bytes : List UInt8) : List FrameHeader := headersWithin bytes.length bytes

theorem two_le_headerSize (bytes : List UInt8) : 2 ≤ headerSize bytes := by
  unfold headerSize
  split
  · omega
  · exact le_rfl

variable {bytes : List UInt8}

private theorem headersWithin_congr {fuel fuel' : Nat} (enough : bytes.length ≤ fuel)
    (enough' : bytes.length ≤ fuel') : headersWithin fuel bytes = headersWithin fuel' bytes := by
  have two := two_le_headerSize bytes
  induction fuel generalizing fuel' bytes with
  | zero =>
    cases fuel' with
    | zero => rfl
    | succ fuel' => rw [headersWithin, headersWithin, if_pos (by omega)]
  | succ fuel ih =>
    cases fuel' with
    | zero => rw [headersWithin, headersWithin, if_pos (by omega)]
    | succ fuel' =>
      rw [headersWithin, headersWithin]
      split
      · rfl
      · have shorter : (bytes.drop (frameSize bytes)).length ≤ bytes.length - 2 := by
          rw [List.length_drop, frameSize]
          omega
        exact congrArg (announced bytes :: ·) (ih (by omega) (by omega) (two_le_headerSize _))

/-- One round of the decoder. -/
theorem headers_eq (bytes : List UInt8) :
    headers bytes =
      if bytes.length < headerSize bytes then []
      else announced bytes :: headers (bytes.drop (frameSize bytes)) := by
  have two := two_le_headerSize bytes
  rw [headers, headersWithin_congr le_rfl (Nat.le_succ _), headersWithin]
  split
  · rfl
  · rw [headers, headersWithin_congr (by rw [List.length_drop]; omega) le_rfl]

theorem headers_nil : headers [] = [] := rfl

/-- The size of a header is known from its first two bytes. -/
theorem headerSize_append (known : 2 ≤ bytes.length) (more : List UInt8) :
    headerSize (bytes ++ more) = headerSize bytes := by
  match bytes, known with
  | first :: second :: rest, _ => rfl

/-- What a complete header announces does not depend on what follows. -/
theorem announced_append (complete : headerSize bytes ≤ bytes.length) (more : List UInt8) :
    announced (bytes ++ more) = announced bytes := by
  have two := two_le_headerSize bytes
  match bytes, complete with
  | [], complete => simp at complete; omega
  | [_], complete => simp at complete; omega
  | first :: second :: rest, complete =>
    have within : lengthSize second ≤ rest.length := by
      simp only [headerSize, List.length_cons] at complete
      omega
    simp only [List.cons_append, announced, List.take_append_of_le_length within]

/-- Behind a complete header the decoder skips the payload that it announces. -/
theorem headers_head_append {header : List UInt8} (size : headerSize header = header.length)
    (rest : List UInt8) :
    headers (header ++ rest) =
      announced header :: headers (rest.drop (announced header).payloadLen) := by
  have two := two_le_headerSize header
  have same : headerSize (header ++ rest) = header.length := by
    rw [headerSize_append (by omega), size]
  rw [headers_eq, same, if_neg (by simp), frameSize, same, announced_append size.le,
    List.drop_length_add_append]

/-! ## Frames as they are sent -/

theorem foldl_bigEndian (bytes : List UInt8) (n : Nat) :
    bytes.foldl (fun n byte => n * 256 + byte.toNat) n = n * 256 ^ bytes.length + bigEndian bytes := by
  induction bytes generalizing n with
  | nil => simp [bigEndian]
  | cons byte bytes ih =>
    have whole : bigEndian (byte :: bytes) = byte.toNat * 256 ^ bytes.length + bigEndian bytes := by
      rw [bigEndian, List.foldl_cons, Nat.zero_mul, Nat.zero_add]
      exact ih byte.toNat
    rw [List.foldl_cons, ih, whole, List.length_cons, Nat.pow_succ]
    ring

theorem bigEndian_cons (byte : UInt8) (bytes : List UInt8) :
    bigEndian (byte :: bytes) = byte.toNat * 256 ^ bytes.length + bigEndian bytes := by
  rw [bigEndian, List.foldl_cons, foldl_bigEndian, Nat.zero_mul, Nat.zero_add]

/-- A number in some bytes, the most significant first. -/
def toBigEndian : Nat → Nat → List UInt8
  | 0, _ => []
  | size + 1, n => UInt8.ofNat (n / 256 ^ size) :: toBigEndian size (n % 256 ^ size)

@[simp] theorem length_toBigEndian (size n : Nat) : (toBigEndian size n).length = size := by
  induction size generalizing n with
  | zero => rfl
  | succ size ih => rw [toBigEndian, List.length_cons, ih]

theorem bigEndian_lt (bytes : List UInt8) : bigEndian bytes < 256 ^ bytes.length := by
  induction bytes with
  | nil => exact Nat.one_pos
  | cons byte bytes ih =>
    rw [bigEndian_cons, List.length_cons, Nat.pow_succ, Nat.mul_comm]
    have small := byte.toNat_lt
    calc 256 ^ bytes.length * byte.toNat + bigEndian bytes
        < 256 ^ bytes.length * byte.toNat + 256 ^ bytes.length := Nat.add_lt_add_left ih _
      _ = 256 ^ bytes.length * (byte.toNat + 1) := by ring
      _ ≤ 256 ^ bytes.length * 256 := Nat.mul_le_mul_left _ (by omega)

theorem bigEndian_toBigEndian {size n : Nat} (fits : n < 256 ^ size) :
    bigEndian (toBigEndian size n) = n := by
  induction size generalizing n with
  | zero =>
    have zero : n = 0 := by simpa using fits
    rw [zero]
    rfl
  | succ size ih =>
    have positive : 0 < 256 ^ size := Nat.pow_pos (by decide)
    have high : n / 256 ^ size < 256 := by
      rw [Nat.div_lt_iff_lt_mul positive, ← Nat.pow_succ']
      exact fits
    rw [toBigEndian, bigEndian_cons, length_toBigEndian, ih (Nat.mod_lt _ positive),
      UInt8.toNat_ofNat', Nat.mod_eq_of_lt high, Nat.mul_comm, Nat.div_add_mod]

theorem toBigEndian_bigEndian (bytes : List UInt8) :
    toBigEndian bytes.length (bigEndian bytes) = bytes := by
  induction bytes with
  | nil => rfl
  | cons byte bytes ih =>
    have low := bigEndian_lt bytes
    have positive : 0 < 256 ^ bytes.length := Nat.pow_pos (by decide)
    rw [List.length_cons, toBigEndian, bigEndian_cons, Nat.mul_comm, Nat.mul_add_div positive,
      Nat.div_eq_of_lt low, Nat.add_zero, UInt8.ofNat_toNat, Nat.mul_add_mod, Nat.mod_eq_of_lt low,
      ih]

/-- The length of a payload in seven bits, or in two or eight further bytes. -/
inductive LengthForm
  | short
  | medium
  | long
  deriving DecidableEq

namespace LengthForm

/-- Bytes of the extended length. -/
def size : LengthForm → Nat
  | .short => 0
  | .medium => 2
  | .long => 8

/-- The seven-bit length. -/
def code (form : LengthForm) (payloadLen : Nat) : Nat :=
  match form with
  | .short => payloadLen
  | .medium => 126
  | .long => 127

/-- The form can hold a length. -/
def Holds (form : LengthForm) (payloadLen : Nat) : Prop :=
  match form with
  | .short => payloadLen < 126
  | .medium => payloadLen < 256 ^ 2
  | .long => payloadLen < 256 ^ 8

theorem code_lt {form : LengthForm} {payloadLen : Nat} (holds : form.Holds payloadLen) :
    form.code payloadLen < 128 := by
  cases form with
  | short =>
    have small : payloadLen < 126 := holds
    exact Nat.lt_trans small (by decide)
  | medium => exact (by decide : 126 < 128)
  | long => exact (by decide : 127 < 128)

end LengthForm

/-- A frame as it is sent. The first byte carries the FIN bit, the reserved bits and the opcode,
and the payload is masked already. -/
structure WireFrame where
  first : UInt8
  form : LengthForm
  mask : Option (List UInt8)
  payload : List UInt8
  fits : form.Holds payload.length
  maskSize : ∀ key, mask = some key → key.length = 4

namespace WireFrame

/-- The second byte. -/
def second (frame : WireFrame) : UInt8 :=
  UInt8.ofNat
    ((if frame.mask.isSome then 128 else 0) + frame.form.code frame.payload.length)

/-- The header. -/
def head (frame : WireFrame) : List UInt8 :=
  frame.first :: frame.second ::
    (toBigEndian frame.form.size frame.payload.length ++ frame.mask.getD [])

def encode (frame : WireFrame) : List UInt8 := frame.head ++ frame.payload

def header (frame : WireFrame) : FrameHeader where
  fin := decide (128 ≤ frame.first.toNat)
  opcode := frame.first.toNat % 16
  payloadLen := frame.payload.length

variable (frame : WireFrame)

theorem toNat_second :
    frame.second.toNat =
      (if frame.mask.isSome then 128 else 0) + frame.form.code frame.payload.length := by
  have small := LengthForm.code_lt frame.fits
  rw [second, UInt8.toNat_ofNat', Nat.mod_eq_of_lt]
  split <;> omega

theorem toNat_second_mod :
    frame.second.toNat % 128 = frame.form.code frame.payload.length := by
  have small := LengthForm.code_lt frame.fits
  rw [toNat_second]
  split <;> omega

theorem lengthSize_second : lengthSize frame.second = frame.form.size := by
  have fits := frame.fits
  rw [lengthSize, toNat_second_mod]
  cases form : frame.form with
  | short =>
    rw [form] at fits
    have small : frame.payload.length < 126 := fits
    rw [LengthForm.code, if_neg (by omega), if_neg (by omega)]
    rfl
  | medium => rfl
  | long => rfl

theorem maskSize_second : WebSocket.maskSize frame.second = (frame.mask.getD []).length := by
  have small := LengthForm.code_lt frame.fits
  rw [WebSocket.maskSize, toNat_second]
  cases mask : frame.mask with
  | none =>
    rw [if_pos (by simpa using small)]
    rfl
  | some key => rw [if_neg (by simp), Option.getD_some, frame.maskSize key mask]

theorem headerSize_head : headerSize frame.head = frame.head.length := by
  rw [head, headerSize, lengthSize_second, maskSize_second, List.length_cons, List.length_cons,
    List.length_append, length_toBigEndian]
  omega

theorem announced_head : announced frame.head = frame.header := by
  have fits := frame.fits
  rw [head, announced, header, lengthSize_second,
    List.take_append_of_le_length (by rw [length_toBigEndian]), List.take_of_length_le (by simp)]
  congr 1
  split
  · next short =>
    -- Only the short form has no extended length.
    have form : frame.form = .short := by
      cases form : frame.form with
      | short => rfl
      | medium => rw [form] at short; cases short
      | long => rw [form] at short; cases short
    rw [form] at fits
    have small : frame.payload.length < 126 := fits
    rw [toNat_second, form, LengthForm.code]
    split <;> omega
  · cases form : frame.form with
    | short => next extended => exact absurd (by rw [form]; rfl) extended
    | medium =>
      rw [form] at fits
      exact bigEndian_toBigEndian fits
    | long =>
      rw [form] at fits
      exact bigEndian_toBigEndian fits

end WireFrame

/-- Decoding an encoded frame gives its header. -/
theorem headers_encode (frame : WireFrame) (rest : List UInt8) :
    headers (frame.encode ++ rest) = frame.header :: headers rest := by
  have skipped : (frame.payload ++ rest).drop frame.header.payloadLen = rest := List.drop_left
  rw [WireFrame.encode, List.append_assoc, headers_head_append frame.headerSize_head,
    frame.announced_head, skipped]

/-- Decoding encoded frames gives their headers. -/
theorem headers_frames (frames : List WireFrame) (rest : List UInt8) :
    headers (frames.flatMap WireFrame.encode ++ rest) =
      frames.map WireFrame.header ++ headers rest := by
  induction frames with
  | nil => rfl
  | cons frame frames ih =>
    rw [List.flatMap_cons, List.append_assoc, headers_encode, ih]
    rfl

/-! ### Every byte string is a list of frames -/

/-- The bytes of a frame whose header or payload is not complete. -/
def Incomplete (tail : List UInt8) : Prop :=
  tail.length < headerSize tail ∨ tail.length < frameSize tail

/-- The form that a second byte announces. -/
def formOf (second : UInt8) : LengthForm :=
  if second.toNat % 128 = 126 then .medium else if second.toNat % 128 = 127 then .long else .short

/-- A byte string begins with a frame that is complete in it. -/
theorem exists_frame (complete : ¬ Incomplete bytes) :
    ∃ frame : WireFrame, bytes = frame.encode ++ bytes.drop (frameSize bytes) := by
  obtain ⟨headed, whole⟩ : headerSize bytes ≤ bytes.length ∧ frameSize bytes ≤ bytes.length := by
    simpa [Incomplete] using complete
  have two := two_le_headerSize bytes
  match bytes, two with
  | [], _ => simp at headed; omega
  | [_], _ => simp at headed; omega
  | first :: second :: rest, _ =>
    have sized : headerSize (first :: second :: rest) = 2 + lengthSize second + maskSize second :=
      rfl
    rw [sized, List.length_cons, List.length_cons] at headed
    rw [frameSize, sized, List.length_cons, List.length_cons] at whole
    rw [frameSize, sized]
    -- The parts of the frame, in their order.
    let extended := rest.take (lengthSize second)
    let key := (rest.drop (lengthSize second)).take (maskSize second)
    let afterHead := rest.drop (lengthSize second + maskSize second)
    have extendedLength : extended.length = lengthSize second :=
      List.length_take_of_le (by omega)
    have keyLength : key.length = maskSize second :=
      List.length_take_of_le (by rw [List.length_drop]; omega)
    have announces : (announced (first :: second :: rest)).payloadLen =
        if lengthSize second = 0 then second.toNat % 128 else bigEndian extended := rfl
    generalize payload : (announced (first :: second :: rest)).payloadLen = payloadLen
      at announces whole
    have payloadLength : (afterHead.take payloadLen).length = payloadLen :=
      List.length_take_of_le (by simp only [afterHead, List.length_drop]; omega)
    have bounded := bigEndian_lt extended
    rw [extendedLength] at bounded
    have fits : (formOf second).Holds payloadLen ∧
        toBigEndian (formOf second).size payloadLen = extended ∧
        (formOf second).code payloadLen = second.toNat % 128 := by
      have encoded := toBigEndian_bigEndian extended
      rw [extendedLength] at encoded
      by_cases medium : second.toNat % 128 = 126
      · have form : formOf second = .medium := by rw [formOf, if_pos medium]
        have size : lengthSize second = 2 := by rw [lengthSize, if_pos medium]
        rw [size, if_neg (by decide)] at announces
        rw [size] at bounded encoded
        rw [form, announces]
        exact ⟨bounded, encoded, medium.symm⟩
      · by_cases long : second.toNat % 128 = 127
        · have form : formOf second = .long := by rw [formOf, if_neg medium, if_pos long]
          have size : lengthSize second = 8 := by rw [lengthSize, if_neg medium, if_pos long]
          rw [size, if_neg (by decide)] at announces
          rw [size] at bounded encoded
          rw [form, announces]
          exact ⟨bounded, encoded, long.symm⟩
        · have form : formOf second = .short := by rw [formOf, if_neg medium, if_neg long]
          have size : lengthSize second = 0 := by rw [lengthSize, if_neg medium, if_neg long]
          rw [size, if_pos rfl] at announces
          rw [size] at extendedLength
          rw [form, announces, List.length_eq_zero_iff.mp extendedLength]
          refine ⟨?_, rfl, rfl⟩
          change second.toNat % 128 < 126
          omega
    obtain ⟨holds, extension, code⟩ := fits
    let frame : WireFrame :=
      { first := first
        form := formOf second
        mask := if second.toNat < 128 then none else some key
        payload := afterHead.take payloadLen
        fits := by rw [payloadLength]; exact holds
        maskSize := by
          intro key' found
          split at found
          · cases found
          · next masked =>
            cases found
            rw [keyLength, maskSize, if_neg masked] }
    have keyed : frame.mask.getD [] = key := by
      change (if second.toNat < 128 then none else some key).getD [] = key
      split
      · next unmasked =>
        rw [maskSize, if_pos unmasked] at keyLength
        exact (List.length_eq_zero_iff.mp keyLength).symm
      · rfl
    have same : frame.second = second := by
      apply UInt8.toNat_inj.mp
      rw [frame.toNat_second]
      change (if (if second.toNat < 128 then none else some key).isSome then 128 else 0) +
        (formOf second).code (afterHead.take payloadLen).length = _
      rw [payloadLength, code]
      have byte := second.toNat_lt
      by_cases low : second.toNat < 128
      · rw [if_pos low, Option.isSome_none, if_neg Bool.false_ne_true]
        omega
      · rw [if_neg low, Option.isSome_some, if_pos rfl]
        omega
    refine ⟨frame, ?_⟩
    have head : frame.encode =
        first :: second :: (extended ++ key ++ afterHead.take payloadLen) := by
      rw [WireFrame.encode, WireFrame.head, same, keyed]
      change first :: second ::
        (toBigEndian (formOf second).size (afterHead.take payloadLen).length ++ key) ++ _ = _
      rw [payloadLength, extension]
      rfl
    have tail : (first :: second :: rest).drop (2 + lengthSize second + maskSize second + payloadLen) =
        afterHead.drop payloadLen := by
      rw [show 2 + lengthSize second + maskSize second + payloadLen =
        (lengthSize second + maskSize second + payloadLen) + 1 + 1 by omega, List.drop_succ_cons,
        List.drop_succ_cons, List.drop_drop]
    rw [head, tail]
    simp only [List.cons_append, List.append_assoc, List.take_append_drop, extended, key, afterHead,
      ← List.drop_drop]

/-- Every byte string is a list of encoded frames and an incomplete one. -/
theorem exists_frames (bytes : List UInt8) :
    ∃ (frames : List WireFrame) (tail : List UInt8),
      bytes = frames.flatMap WireFrame.encode ++ tail ∧ Incomplete tail := by
  induction count : bytes.length using Nat.strong_induction_on generalizing bytes with
  | _ length ih =>
    by_cases incomplete : Incomplete bytes
    · exact ⟨[], bytes, rfl, incomplete⟩
    · obtain ⟨frame, split⟩ := exists_frame incomplete
      have two := two_le_headerSize bytes
      have long : frameSize bytes ≤ bytes.length := by
        by_contra short
        exact incomplete (Or.inr (Nat.lt_of_not_le short))
      have shorter : (bytes.drop (frameSize bytes)).length < length := by
        rw [List.length_drop, frameSize] at *
        omega
      obtain ⟨frames, tail, rest, last⟩ := ih _ shorter _ rfl
      refine ⟨frame :: frames, tail, ?_, last⟩
      rw [List.flatMap_cons, List.append_assoc, ← rest]
      exact split

/-! ## Messages -/

/-- The data frames of each message. The last message may lack its final frame. -/
def messages : List FrameHeader → List (List FrameHeader)
  | [] => []
  | header :: rest =>
    if !header.isData then messages rest
    else if header.fin then [header] :: messages rest
    else
      match messages rest with
      | [] => [[header]]
      | message :: others => (header :: message) :: others

/-- What the frames of a message announce together. -/
def announcedSize (message : List FrameHeader) : Nat :=
  (message.map FrameHeader.payloadLen).sum

/-- Every message announces at most so many bytes. -/
def Bounded (max : Nat) (list : List FrameHeader) : Prop :=
  ∀ message ∈ messages list, announcedSize message ≤ max

/-- The messages are bounded where the first one has begun with some bytes already. -/
def BoundedFrom (max : Nat) : Nat → List FrameHeader → Prop
  | _, [] => True
  | carried, header :: rest =>
    if header.isData then
      carried + header.payloadLen ≤ max ∧
        BoundedFrom max (if header.fin then 0 else carried + header.payloadLen) rest
    else BoundedFrom max carried rest

variable {max : Nat}

theorem boundedFrom_iff {carried : Nat} {list : List FrameHeader} (small : carried ≤ max) :
    BoundedFrom max carried list ↔
      (∀ message ∈ (messages list).head?, carried + announcedSize message ≤ max) ∧
        ∀ message ∈ (messages list).tail, announcedSize message ≤ max := by
  induction list generalizing carried with
  | nil => simp [BoundedFrom, messages]
  | cons header rest ih =>
    rw [BoundedFrom, messages]
    cases data : header.isData with
    | false => simpa using ih small
    | true =>
      cases fin : header.fin with
      | true =>
        -- The message ends here, and the next one starts from nothing.
        have next := ih (Nat.zero_le max)
        cases others : messages rest with
        | nil =>
          rw [others] at next
          simpa [announcedSize] using fun _ => next.mpr (by simp)
        | cons message others' =>
          rw [others] at next
          simp only [List.head?_cons, Option.mem_some_iff, forall_eq', Nat.zero_add,
            List.tail_cons] at next
          simp [next, announcedSize]
      | false =>
        by_cases within : carried + header.payloadLen ≤ max
        · have next := ih within
          cases others : messages rest with
          | nil =>
            rw [others] at next
            simpa [announcedSize, within] using next.mpr (by simp)
          | cons message others' =>
            rw [others] at next
            simp only [List.head?_cons, Option.mem_some_iff, forall_eq', List.tail_cons] at next
            simp [next, within, announcedSize, Nat.add_assoc]
        · -- The message exceeds the bound whatever follows.
          have exceeds : ¬ ∀ message ∈ (match messages rest with
              | [] => [[header]]
              | message :: others => (header :: message) :: others).head?,
              carried + announcedSize message ≤ max := by
            intro all
            cases others : messages rest with
            | nil =>
              have here := all [header] (by rw [others]; rfl)
              simp [announcedSize] at here
              omega
            | cons message others' =>
              have here := all (header :: message) (by rw [others]; rfl)
              simp only [announcedSize, List.map_cons, List.sum_cons] at here
              omega
          simp only [Bool.not_true, Bool.false_eq_true, if_false, if_true]
          exact iff_of_false (fun both => within both.1) fun both => exceeds both.1

theorem boundedFrom_zero {list : List FrameHeader} : BoundedFrom max 0 list ↔ Bounded max list := by
  rw [boundedFrom_iff (Nat.zero_le max), Bounded]
  cases messages list with
  | nil => simp
  | cons message others => simp

/-- Continuation frames up to the one with the FIN bit. -/
def Continues : List FrameHeader → Prop
  | [] => False
  | header :: rest =>
    header.opcode = 0 ∧ if header.fin then rest = [] else Continues rest

/-- A text message in one frame or in several. -/
def IsTextMessage : List FrameHeader → Prop
  | [] => False
  | header :: rest =>
    header.opcode = 1 ∧ if header.fin then rest = [] else Continues rest

/-- The end of a message that stays within the bound leaves the messages after it. -/
theorem boundedFrom_continues {carried : Nat} {message rest : List FrameHeader}
    (continues : Continues message) (within : carried + announcedSize message ≤ max) :
    BoundedFrom max carried (message ++ rest) ↔ BoundedFrom max 0 rest := by
  induction message generalizing carried with
  | nil => exact continues.elim
  | cons header others ih =>
    obtain ⟨opcode, final⟩ := continues
    have data : header.isData = true := by simp [FrameHeader.isData, opcode]
    rw [announcedSize, List.map_cons, List.sum_cons] at within
    rw [List.cons_append, BoundedFrom, if_pos data, and_iff_right (by omega)]
    split at final
    · next last =>
      rw [final, if_pos last]
      rfl
    · next more =>
      rw [if_neg more]
      exact ih final (by rw [announcedSize]; omega)

theorem boundedFrom_textMessage {message rest : List FrameHeader} (text : IsTextMessage message)
    (within : announcedSize message ≤ max) :
    BoundedFrom max 0 (message ++ rest) ↔ BoundedFrom max 0 rest := by
  cases message with
  | nil => exact text.elim
  | cons header others =>
    obtain ⟨opcode, final⟩ := text
    have data : header.isData = true := by simp [FrameHeader.isData, opcode]
    rw [announcedSize, List.map_cons, List.sum_cons] at within
    rw [List.cons_append, BoundedFrom, if_pos data, and_iff_right (by omega)]
    split at final
    · next last =>
      rw [final, if_pos last]
      rfl
    · next more =>
      rw [if_neg more]
      exact boundedFrom_continues final (by rw [announcedSize]; omega)

end OutpostPi.Lib.WebSocket
