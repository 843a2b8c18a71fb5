import OutpostPi.Lib.Base64Padding
import OutpostPi.Relay.MeshStore

/-!
# Ciphertexts and the limits on them

The relay forwards a ciphertext in an outer envelope after a check of its size. The Pi extension
and the app both bound the raw frame, decode the ciphertext and bound what it decodes to. The Pi
decoder is lenient about padding and unused bits, and the decoder of the app is not.

`relayed_ciphertexts_agree` says on which texts the two decoders agree, that the check of the
relay passes exactly the encodings which both accept, and that no forwarded frame exceeds a raw
limit. `exists_ciphertexts_that_differ` has the texts that the Pi extension takes and the app does
not.
-/

set_option autoImplicit false

namespace OutpostPi.Relay

open OutpostPi.Lib

/-! ## Limits -/

/-- The bound of a ciphertext in octets. -/
def relayDefaultMaxDecodedBytes : Nat := 4194304

/-- What the rest of a frame may add to it. -/
def relayMaxFrameOverheadBytes : Nat := 65536

/-- The bound of a device id. -/
def relayMaxDeviceIdBytes : Nat := 128

/-- The bound of a room id. -/
def relayMaxRoomIdBytes : Nat := 256

/-- `RELAY_MAX_RAW_MESSAGE_BYTES` of the Pi extension. -/
def piMaxRawMessageBytes : Nat :=
  4 * ((relayDefaultMaxDecodedBytes + 2) / 3) + relayMaxFrameOverheadBytes

/-- `relayMaxRawMessageBytes` of the app. -/
def appMaxRawMessageBytes : Nat := 5657944

/-! ## Texts -/

/-- The UTF-16 code units of a character. -/
def codeUnits (c : Char) : Nat := if c.toNat ≤ 0xffff then 1 else 2

/-- The length of a string in JavaScript and Dart. -/
def utf16Length (text : List Char) : Nat := (text.map codeUnits).sum

/-- The regular expression of both endpoints: letters of either alphabet and at most two `=`. -/
def isRelayBase64 (text : List Char) : Bool :=
  [[], ['='], ['=', '=']].contains (text.dropWhile Base64.isLetter)

/-- The padding that brings a text to a multiple of four. -/
def missingPadding (length : Nat) : List Char := List.replicate ((4 - length % 4) % 4) '='

/-! ## The Pi extension -/

/-- Why the Pi refuses a frame. -/
inductive RelayIngressCode where
  | tooLarge
  | invalidMessage
  deriving DecidableEq

/-- The refusal of the Pi, with what it has measured. -/
structure RelayIngressDecodeError where
  code : RelayIngressCode
  observedBytes : Nat
  deriving DecidableEq

/-- The octets of a ciphertext as the Pi decodes it. A text too long for the bound is not
decoded. -/
def decodeBase64Bounded (value : String) (maxDecodedBytes : Nat) :
    Except RelayIngressDecodeError (List UInt8) :=
  let text := value.toList
  if 4 * ((maxDecodedBytes + 2) / 3) < utf16Length text then
    .error ⟨.tooLarge, utf16Length text⟩
  else if utf16Length text % 4 = 1 ∨ isRelayBase64 text = false then
    .error ⟨.invalidMessage, utf16Length text⟩
  else
    let normalized := text.map Base64.normalize
    let padded := normalized ++ missingPadding (utf16Length normalized)
    let decoded := Base64.decode (String.ofList padded)
    if maxDecodedBytes < decoded.length then .error ⟨.tooLarge, decoded.length⟩ else .ok decoded

/-- The raw bound that `decodeRelayIngress` checks first. -/
def decodeRelayIngressAccepts (line : String) : Bool :=
  decide (line.utf8ByteSize ≤ piMaxRawMessageBytes)

/-! ## The app -/

/-- Why the app refuses a frame. -/
inductive RelayFrameDecodeFailure where
  | tooLarge
  | malformed
  deriving DecidableEq

/-- The refusal of the app, with what it has measured. -/
structure RelayFrameDecodeException where
  reason : RelayFrameDecodeFailure
  observedSize : Nat
  deriving DecidableEq

/-- The octets of a ciphertext as the app decodes it. A text too long for the bound is not
decoded. -/
def decodeRelayBase64 (value : String) (maxDecodedBytes : Nat) :
    Except RelayFrameDecodeException (List UInt8) :=
  let text := value.toList
  if 4 * ((maxDecodedBytes + 2) / 3) < utf16Length text then
    .error ⟨.tooLarge, utf16Length text⟩
  else if utf16Length text % 4 = 1 ∨ isRelayBase64 text = false then
    .error ⟨.malformed, utf16Length text⟩
  else
    let padded := text ++ missingPadding (utf16Length text)
    -- `base64` and `base64Url` have one decoder, so a second try fails where the first one does
    match Base64.decodeStrict padded with
    | none => .error ⟨.malformed, utf16Length text⟩
    | some decoded =>
      if maxDecodedBytes < decoded.length then .error ⟨.tooLarge, decoded.length⟩ else .ok decoded

/-- Count the UTF-8 bytes of a string until the bound is crossed. -/
def relayUtf8ByteLength (maxBytes : Nat) : List Char → Nat → Nat
  | [], bytes => bytes
  | c :: rest, bytes =>
    let bytes := bytes +
      if c.toNat ≤ 0x7f then 1 else if c.toNat ≤ 0x7ff then 2 else if c.toNat ≤ 0xffff then 3
      else 4
    if maxBytes < bytes then bytes else relayUtf8ByteLength maxBytes rest bytes

/-- The raw bound that `decodeRelayInboundFrame` checks first. -/
def decodeRelayInboundFrameAccepts (raw : String) : Bool :=
  decide (relayUtf8ByteLength appMaxRawMessageBytes raw.toList 0 ≤ appMaxRawMessageBytes)

/-! ## The relay -/

/-- Why the relay refuses a frame. -/
inductive ParseError where
  | tooLarge (estimated max : Nat)
  deriving DecidableEq

/-- The check of `OuterEnvelopeParser::parse_line` on the ciphertext. -/
def checkCt (maxCtBytes : Nat) (ct : String) : Except ParseError Unit :=
  let padding := ((ct.toList.reverse.take 2).takeWhile (· == '=')).length
  let estimated := min (ct.utf8ByteSize * 3) usizeMax / 4 - padding
  if maxCtBytes < estimated then .error (.tooLarge estimated maxCtBytes) else .ok ()

/-- The frame that carries a ciphertext. -/
structure OuterEnvelope where
  peer : String
  room : String
  ct : String

/-- A character of a JSON string, as `serde_json` escapes it. -/
def escapeChar (c : Char) : List Char :=
  if c = '"' then ['\\', '"']
  else if c = '\\' then ['\\', '\\']
  else if c = '\n' then ['\\', 'n']
  else if c = '\r' then ['\\', 'r']
  else if c = '\t' then ['\\', 't']
  else if c.toNat = 8 then ['\\', 'b']
  else if c.toNat = 12 then ['\\', 'f']
  else if c.toNat < 32 then
    ['\\', 'u', '0', '0', Nat.digitChar (c.toNat / 16), Nat.digitChar (c.toNat % 16)]
  else [c]

/-- A string as `serde_json` writes it. -/
def jsonString (text : String) : List Char := '"' :: text.toList.flatMap escapeChar ++ ['"']

/-- What stands before the fields of an envelope. -/
def peerField : List Char := "\x7b\"peer\":".toList

/-- What stands in front of the room. -/
def roomField : List Char := ",\"room\":".toList

/-- What stands in front of the ciphertext. -/
def ctField : List Char := ",\"ct\":".toList

/-- The frame as it is sent on. -/
def OuterEnvelope.toJsonString (env : OuterEnvelope) : String :=
  String.ofList (peerField ++ jsonString env.peer ++ roomField ++ jsonString env.room ++ ctField ++
    jsonString env.ct ++ ['}'])

/-- Why the relay refuses a `hello`. -/
inductive AuthError where
  | invalidDeviceId
  | fieldTooLarge (field : String) (actual max : Nat)
  | base64
  | invalidPubkey
  deriving DecidableEq

/-- The identity fields of a `hello` frame. -/
structure Hello where
  pubkey : String
  deviceId : String
  roomId : String

/-- The peer id and the room id of an accepted `hello`. Whether 32 bytes are the bytes of a
verifying key is a parameter. -/
def parseHelloBootstrap (isKey : List UInt8 → Bool) (hello : Hello) :
    Except AuthError (String × String) :=
  if hello.deviceId.isEmpty then .error .invalidDeviceId
  else if relayMaxDeviceIdBytes < hello.deviceId.utf8ByteSize then
    .error (.fieldTooLarge "device_id" hello.deviceId.utf8ByteSize relayMaxDeviceIdBytes)
  else if relayMaxRoomIdBytes < hello.roomId.utf8ByteSize then
    .error (.fieldTooLarge "room_id" hello.roomId.utf8ByteSize relayMaxRoomIdBytes)
  else
    let bytes := Base64.decode hello.pubkey
    if Base64.encode bytes ≠ hello.pubkey then .error .base64
    else if bytes.length ≠ 32 ∨ isKey bytes = false then .error .invalidPubkey
    else .ok (Base64.encode bytes, hello.roomId)

/-- A frame is forwarded under the peer id and the room id of its sender. -/
def dispatchOuter (peerId roomId : String) (env : OuterEnvelope) : String :=
  OuterEnvelope.toJsonString ⟨peerId, roomId, env.ct⟩

/-! ## Letters and padding -/

variable {c : Char}

/-- What holds of the 64 letters, and of the two that stand for the last of them in the URL-safe
alphabet, holds of every letter. -/
theorem of_isLetter {P : Char → Prop} [DecidablePred P]
    (all : ('-' :: '_' :: Base64.alphabet).all (fun c => decide (P c)) = true)
    (isLetter : Base64.isLetter c = true) : P c := by
  have holds : ∀ c ∈ '-' :: '_' :: Base64.alphabet, P c :=
    fun c mem => of_decide_eq_true (List.all_eq_true.mp all c mem)
  obtain ⟨digit, found⟩ := Base64.exists_digit isLetter
  have mem : Base64.normalize c ∈ Base64.alphabet := by
    have small := (List.findIdx?_eq_some_iff_getElem.mp found).1
    have same := (List.findIdx?_eq_some_iff_getElem.mp found).2.1
    rw [← beq_iff_eq.mp same]
    exact List.getElem_mem small
  rw [Base64.normalize] at mem
  split at mem
  · next same => exact holds c (by simp [same])
  · split at mem
    · next same => exact holds c (by simp [same])
    · exact holds c (List.mem_cons_of_mem _ (List.mem_cons_of_mem _ mem))

theorem codeUnits_of_isLetter (isLetter : Base64.isLetter c = true) : codeUnits c = 1 :=
  of_isLetter (P := fun c => codeUnits c = 1) (by rw [Base64.alphabet_eq]; decide +kernel) isLetter

theorem utf8Size_of_isLetter (isLetter : Base64.isLetter c = true) : c.utf8Size = 1 :=
  of_isLetter (P := fun c => c.utf8Size = 1) (by rw [Base64.alphabet_eq]; decide +kernel) isLetter

theorem escapeChar_of_isLetter (isLetter : Base64.isLetter c = true) : escapeChar c = [c] :=
  of_isLetter (P := fun c => escapeChar c = [c]) (by rw [Base64.alphabet_eq]; decide +kernel) isLetter

theorem utf16Length_append (first second : List Char) :
    utf16Length (first ++ second) = utf16Length first + utf16Length second := by
  rw [utf16Length, List.map_append, List.sum_append]
  rfl

variable {letters : List Char}

/-- Letters are one code unit each. -/
theorem utf16Length_letters (all : ∀ c ∈ letters, Base64.isLetter c = true) :
    utf16Length letters = letters.length := by
  induction letters with
  | nil => rfl
  | cons c letters ih =>
    have rest := ih fun other mem => all other (List.mem_cons_of_mem _ mem)
    have one := codeUnits_of_isLetter (all c List.mem_cons_self)
    rw [utf16Length, List.map_cons, List.sum_cons, one, List.length_cons, Nat.add_comm]
    exact congrArg (· + 1) rest

theorem utf16Length_padding (padding : Nat) :
    utf16Length (List.replicate padding '=') = padding := by
  induction padding with
  | zero => rfl
  | succ padding ih =>
    rw [List.replicate_succ, utf16Length, List.map_cons, List.sum_cons, Nat.add_comm]
    exact congrArg (· + 1) ih

/-- The letters at the front of a text. -/
def lettersOf (text : List Char) : List Char := text.takeWhile Base64.isLetter

variable {text : List Char}

theorem isLetter_of_mem_lettersOf (mem : c ∈ lettersOf text) : Base64.isLetter c = true := by
  induction text with
  | nil => exact absurd mem List.not_mem_nil
  | cons other text ih =>
    rw [lettersOf, List.takeWhile_cons] at mem
    split at mem
    · next isLetter =>
      rcases List.mem_cons.mp mem with rfl | later
      · exact isLetter
      · exact ih later
    · exact absurd mem List.not_mem_nil

/-- The texts that the expression matches are letters with at most two `=` behind them. -/
theorem exists_padding (isText : isRelayBase64 text = true) :
    ∃ padding ≤ 2, text = lettersOf text ++ List.replicate padding '=' := by
  have parts := (List.takeWhile_append_dropWhile (p := Base64.isLetter) (l := text)).symm
  rw [isRelayBase64, List.contains_iff_mem] at isText
  simp only [List.mem_cons, List.not_mem_nil, or_false] at isText
  rcases isText with none | one | two
  · exact ⟨0, by decide, by rw [none] at parts; exact parts⟩
  · exact ⟨1, by decide, by rw [one] at parts; exact parts⟩
  · exact ⟨2, by decide, by rw [two] at parts; exact parts⟩

/-- The letters of a padded text are those before the padding. -/
theorem lettersOf_append_padding (all : ∀ c ∈ letters, Base64.isLetter c = true) (padding : Nat) :
    lettersOf (letters ++ List.replicate padding '=') = letters := by
  rw [lettersOf, List.takeWhile_append_of_pos all]
  cases padding with
  | zero => exact List.append_nil letters
  | succ padding =>
    rw [List.replicate_succ, List.takeWhile_cons_of_neg (by simp [Base64.isLetter_padding]),
      List.append_nil]

/-- Letters with at most two padding characters have the form that is asked for. -/
theorem isRelayBase64_append_padding (all : ∀ c ∈ letters, Base64.isLetter c = true)
    {padding : Nat} (few : padding ≤ 2) :
    isRelayBase64 (letters ++ List.replicate padding '=') = true := by
  rw [isRelayBase64, List.dropWhile_append_of_pos all]
  have all : ∀ n ≤ 2, [[], ['='], ['=', '=']].contains (List.replicate n '=') = true := by decide
  have kept : (List.replicate padding '=').dropWhile Base64.isLetter = List.replicate padding '=' := by
    cases padding with
    | zero => rfl
    | succ padding =>
      rw [List.replicate_succ, List.dropWhile_cons_of_neg (by simp [Base64.isLetter_padding])]
  rw [kept]
  exact all padding few

theorem utf16Length_text {padding : Nat}
    (parts : text = lettersOf text ++ List.replicate padding '=') :
    utf16Length text = (lettersOf text).length + padding := by
  have all : ∀ c ∈ lettersOf text, Base64.isLetter c = true :=
    fun c mem => isLetter_of_mem_lettersOf mem
  calc utf16Length text
      = utf16Length (lettersOf text ++ List.replicate padding '=') := congrArg utf16Length parts
    _ = (lettersOf text).length + padding := by
      rw [utf16Length_append, utf16Length_letters all, utf16Length_padding]

/-! ## What the decoders give -/

section Decoders

variable {value : String} {max padding : Nat}

/-- The text is over a limit, in its encoding or in the bytes that its letters stand for. -/
def TooLarge (max : Nat) (value : String) : Prop :=
  4 * ((max + 2) / 3) < utf16Length value.toList ∨
    max < (lettersOf value.toList).length * 3 / 4

/-- The text fails the length test or the expression of both endpoints. -/
def Malformed (value : String) : Prop :=
  utf16Length value.toList % 4 = 1 ∨ isRelayBase64 value.toList = false

/-- The letters make whole bytes with no bit left over, and a full last group is not padded. -/
def Canonical (value : String) : Prop :=
  Base64.unusedBits (Base64.digitsOf (lettersOf value.toList)) = 0 ∧
    (lettersOf value.toList).length % 4 ≠ 1 ∧
    ((lettersOf value.toList).length % 4 = 0 →
      utf16Length value.toList = (lettersOf value.toList).length)

/-- The bytes that the letters of a text stand for. -/
def bytesOfLetters (value : String) : List UInt8 :=
  Base64.bytesOf (Base64.digitsOf (lettersOf value.toList))

/-- Four letters hold three octets. -/
theorem length_bytesOfLetters (value : String) :
    (bytesOfLetters value).length = (lettersOf value.toList).length * 3 / 4 := by
  rw [bytesOfLetters, Base64.length_bytesOf,
    Base64.length_digitsOf fun c mem => isLetter_of_mem_lettersOf mem]

instance (max : Nat) (value : String) : Decidable (TooLarge max value) :=
  inferInstanceAs (Decidable (_ ∨ _))

instance (value : String) : Decidable (Malformed value) :=
  inferInstanceAs (Decidable (_ ∨ _))

instance (value : String) : Decidable (Canonical value) :=
  inferInstanceAs (Decidable (_ ∧ _))

/-- The Pi decoder reads the letters and stops at the padding. -/
theorem decode_padded {padding : Nat}
    (parts : text = lettersOf text ++ List.replicate padding '=') (missing : Nat) :
    Base64.decode (String.ofList (text.map Base64.normalize ++ List.replicate missing '=')) =
      Base64.bytesOf (Base64.digitsOf (lettersOf text)) := by
  have letters : ∀ c ∈ lettersOf text, Base64.isLetter c = true :=
    fun c mem => isLetter_of_mem_lettersOf mem
  rw [Base64.decode, String.toList_ofList, Base64.readDigits_append_padding,
    Base64.readDigits_map_normalize]
  congr 1
  calc Base64.readDigits text
      = Base64.readDigits (lettersOf text ++ List.replicate padding '=') := by rw [← parts]
    _ = Base64.readDigits (lettersOf text) := Base64.readDigits_append_padding _ _
    _ = Base64.digitsOf (lettersOf text) := Base64.readDigits_letters letters

/-- What the Pi accepts, and as which octets. -/
theorem decodeBase64Bounded_toOption (value : String) (max : Nat) :
    (decodeBase64Bounded value max).toOption =
      if TooLarge max value ∨ Malformed value then none else some (bytesOfLetters value) := by
  unfold decodeBase64Bounded
  dsimp only
  by_cases long : 4 * ((max + 2) / 3) < utf16Length value.toList
  · have large : TooLarge max value := Or.inl long
    rw [if_pos long, if_pos (Or.inl large)]
    rfl
  · rw [if_neg long]
    by_cases malformed : utf16Length value.toList % 4 = 1 ∨ isRelayBase64 value.toList = false
    · have rejected : Malformed value := malformed
      rw [if_pos malformed, if_pos (Or.inr rejected)]
      rfl
    · rw [if_neg malformed]
      obtain ⟨padding, -, parts⟩ := exists_padding
        (Bool.not_eq_false _ |>.mp (not_or.mp malformed).2)
      have decoded := decode_padded parts
        ((4 - utf16Length (value.toList.map Base64.normalize) % 4) % 4)
      change _ = bytesOfLetters value at decoded
      rw [missingPadding, decoded, length_bytesOfLetters]
      by_cases large : max < (lettersOf value.toList).length * 3 / 4
      · have rejected : TooLarge max value := Or.inr large
        rw [if_pos large, if_pos (Or.inl rejected)]
        rfl
      · have accepted : ¬(TooLarge max value ∨ Malformed value) :=
          not_or.mpr ⟨not_or.mpr ⟨long, large⟩, malformed⟩
        rw [if_neg large, if_neg accepted]
        rfl

/-- With the padding that is missing, the letters are padded where they are canonical. -/
theorem padded_iff_canonical {padding : Nat} (few : padding ≤ 2)
    (parts : value.toList = lettersOf value.toList ++ List.replicate padding '=')
    (formed : utf16Length value.toList % 4 ≠ 1) :
    Base64.Padded (Base64.digitsOf (lettersOf value.toList))
        (padding + (4 - utf16Length value.toList % 4) % 4) ↔ Canonical value := by
  have length := utf16Length_text parts
  rw [Base64.Padded, Canonical, Base64.length_digitsOf fun c mem => isLetter_of_mem_lettersOf mem]
  refine and_congr_right fun _ => ?_
  rw [length] at formed ⊢
  omega

/-- What the app accepts, and as which octets. It asks for the canonical form as well. -/
theorem decodeRelayBase64_toOption (value : String) (max : Nat) :
    (decodeRelayBase64 value max).toOption =
      if TooLarge max value ∨ Malformed value ∨ ¬Canonical value then none
      else some (bytesOfLetters value) := by
  unfold decodeRelayBase64
  dsimp only
  by_cases long : 4 * ((max + 2) / 3) < utf16Length value.toList
  · have large : TooLarge max value := Or.inl long
    rw [if_pos long, if_pos (Or.inl large)]
    rfl
  · rw [if_neg long]
    by_cases malformed : utf16Length value.toList % 4 = 1 ∨ isRelayBase64 value.toList = false
    · have rejected : Malformed value := malformed
      rw [if_pos malformed, if_pos (Or.inr (Or.inl rejected))]
      rfl
    · rw [if_neg malformed]
      obtain ⟨padding, few, parts⟩ := exists_padding
        (Bool.not_eq_false _ |>.mp (not_or.mp malformed).2)
      -- the padding that is written and the padding that is missing make one row
      have padded : value.toList ++ missingPadding (utf16Length value.toList) =
          lettersOf value.toList ++
            List.replicate (padding + (4 - utf16Length value.toList % 4) % 4) '=' := by
        calc value.toList ++ missingPadding (utf16Length value.toList)
            = (lettersOf value.toList ++ List.replicate padding '=') ++
                missingPadding (utf16Length value.toList) :=
              congrArg (· ++ missingPadding (utf16Length value.toList)) parts
          _ = _ := by rw [missingPadding, List.append_assoc, List.replicate_append_replicate]
      rw [padded,
        Base64.decodeStrict_append_padding _ _ fun c mem => isLetter_of_mem_lettersOf mem,
        if_congr (padded_iff_canonical few parts (not_or.mp malformed).1) rfl rfl]
      by_cases canonical : Canonical value
      · rw [if_pos canonical]
        change (if max < (bytesOfLetters value).length then
          Except.error (RelayFrameDecodeException.mk .tooLarge (bytesOfLetters value).length)
          else Except.ok (bytesOfLetters value)).toOption = _
        rw [length_bytesOfLetters]
        -- the text was short enough, and its bytes may still be too many
        by_cases large : max < (lettersOf value.toList).length * 3 / 4
        · have rejected : TooLarge max value := Or.inr large
          rw [if_pos large, if_pos (Or.inl rejected)]
          rfl
        · have accepted : ¬(TooLarge max value ∨ Malformed value ∨ ¬Canonical value) :=
            not_or.mpr ⟨not_or.mpr ⟨long, large⟩, not_or.mpr ⟨malformed, not_not.mpr canonical⟩⟩
          rw [if_neg large, if_neg accepted]
          rfl
      · rw [if_neg canonical, if_pos (Or.inr (Or.inr canonical))]
        rfl

/-- The decoders agree on a text that both reject for its size or form, and on canonical ones. -/
theorem decoders_agree_iff (value : String) (max : Nat) :
    (decodeBase64Bounded value max).toOption = (decodeRelayBase64 value max).toOption ↔
      TooLarge max value ∨ Malformed value ∨ Canonical value := by
  rw [decodeBase64Bounded_toOption, decodeRelayBase64_toOption]
  by_cases large : TooLarge max value
  · simp [large]
  · by_cases malformed : Malformed value
    · simp [malformed]
    · by_cases canonical : Canonical value
      · simp [large, malformed, canonical]
      · simp [large, malformed, canonical]

end Decoders

/-! ## Encodings of payloads -/

section Encodings

variable {payload : List UInt8} {max : Nat}

/-- An encoding has its letters, its padding and its octets. -/
theorem lettersOf_encode (payload : List UInt8) :
    ∃ padding, (Base64.encode payload).toList =
        lettersOf (Base64.encode payload).toList ++ List.replicate padding '=' ∧
      Base64.Padded (Base64.digitsOf (lettersOf (Base64.encode payload).toList)) padding ∧
      bytesOfLetters (Base64.encode payload) = payload := by
  obtain ⟨letters, padding, text, all, padded, decodes⟩ := Base64.exists_encodeChars payload
  have shown : (Base64.encode payload).toList = letters ++ List.replicate padding '=' := by
    rw [Base64.encode, String.toList_ofList, text]
  have front : lettersOf (Base64.encode payload).toList = letters := by
    rw [shown, lettersOf_append_padding all]
  refine ⟨padding, ?_, ?_, ?_⟩
  · rw [front, shown]
  · rwa [front]
  · rwa [bytesOfLetters, front]

theorem length_lettersOf (value : String) :
    (Base64.digitsOf (lettersOf value.toList)).length = (lettersOf value.toList).length :=
  Base64.length_digitsOf fun _ mem => isLetter_of_mem_lettersOf mem

/-- How long an encoding is, and what of it is padding. -/
theorem utf16Length_encode (payload : List UInt8) :
    utf16Length (Base64.encode payload).toList = 4 * ((payload.length + 2) / 3) := by
  obtain ⟨padding, parts, -, -⟩ := lettersOf_encode payload
  have length : (Base64.encode payload).toList.length = 4 * ((payload.length + 2) / 3) := by
    rw [Base64.encode, String.toList_ofList, Base64.length_encodeChars]
  rw [utf16Length_text parts, ← length]
  have sum := congrArg List.length parts
  rw [List.length_append, List.length_replicate] at sum
  exact sum.symm

/-- An encoding is canonical. -/
theorem canonical_encode (payload : List UInt8) : Canonical (Base64.encode payload) := by
  obtain ⟨padding, parts, padded, -⟩ := lettersOf_encode payload
  rw [Base64.Padded, length_lettersOf] at padded
  refine ⟨padded.1, by omega, fun whole => ?_⟩
  rw [utf16Length_text parts]
  omega

/-- An encoding is well formed. -/
theorem not_malformed_encode (payload : List UInt8) : ¬Malformed (Base64.encode payload) := by
  obtain ⟨padding, parts, padded, -⟩ := lettersOf_encode payload
  rw [Base64.Padded] at padded
  rw [Malformed, utf16Length_encode, not_or]
  refine ⟨by omega, ?_⟩
  have letters : ∀ c ∈ lettersOf (Base64.encode payload).toList, Base64.isLetter c = true :=
    fun _ mem => isLetter_of_mem_lettersOf mem
  have matched := isRelayBase64_append_padding letters (show padding ≤ 2 by omega)
  rw [← parts] at matched
  rw [matched]
  exact Bool.true_eq_false.mp

/-- An encoding is too large exactly when its octets are. -/
theorem tooLarge_encode_iff : TooLarge max (Base64.encode payload) ↔ max < payload.length := by
  obtain ⟨padding, -, -, decodes⟩ := lettersOf_encode payload
  rw [TooLarge, utf16Length_encode, ← length_bytesOfLetters, decodes]
  omega

/-- Both endpoints decode an encoding to its payload, if that is within the limit. -/
theorem decode_encode_toOption (payload : List UInt8) (max : Nat) :
    (decodeBase64Bounded (Base64.encode payload) max).toOption =
        (if payload.length ≤ max then some payload else none) ∧
      (decodeRelayBase64 (Base64.encode payload) max).toOption =
        if payload.length ≤ max then some payload else none := by
  obtain ⟨padding, -, -, decodes⟩ := lettersOf_encode payload
  rw [decodeBase64Bounded_toOption, decodeRelayBase64_toOption, decodes]
  have formed := not_malformed_encode payload
  have canonical := canonical_encode payload
  by_cases fits : payload.length ≤ max
  · have small : ¬TooLarge max (Base64.encode payload) :=
      fun large => Nat.not_lt.mpr fits (tooLarge_encode_iff.mp large)
    simp [small, formed, canonical, fits]
  · have large : TooLarge max (Base64.encode payload) :=
      tooLarge_encode_iff.mpr (Nat.lt_of_not_le fits)
    simp [large, fits]

/-! ## The check of the relay -/

/-- The UTF-8 bytes of a text. -/
def utf8Length (text : List Char) : Nat := (text.map Char.utf8Size).sum

theorem utf8Length_append (first second : List Char) :
    utf8Length (first ++ second) = utf8Length first + utf8Length second := by
  rw [utf8Length, List.map_append, List.sum_append]
  rfl

theorem utf8Length_cons (c : Char) (text : List Char) :
    utf8Length (c :: text) = c.utf8Size + utf8Length text := by
  rw [utf8Length, List.map_cons, List.sum_cons]
  rfl

/-- The size of a text is that of its characters. -/
theorem utf8ByteSize_ofList (text : List Char) :
    (String.ofList text).utf8ByteSize = utf8Length text := by
  induction text with
  | nil => rfl
  | cons c text ih =>
    rw [String.ofList_cons, String.utf8ByteSize_append, String.utf8ByteSize_singleton, ih,
      utf8Length_cons]

theorem utf8Length_of_ascii (ascii : ∀ c ∈ text, c.utf8Size = 1) :
    utf8Length text = text.length := by
  induction text with
  | nil => rfl
  | cons c text ih =>
    rw [utf8Length_cons, ascii c List.mem_cons_self,
      ih fun other mem => ascii other (List.mem_cons_of_mem _ mem), List.length_cons, Nat.add_comm]

/-- The characters of an encoding take one byte, and are not escaped. -/
theorem plain_of_mem_encode (mem : c ∈ (Base64.encode payload).toList) :
    c.utf8Size = 1 ∧ escapeChar c = [c] := by
  obtain ⟨padding, parts, -, -⟩ := lettersOf_encode payload
  rw [parts] at mem
  rcases List.mem_append.mp mem with letter | equals
  · have isLetter := isLetter_of_mem_lettersOf letter
    exact ⟨utf8Size_of_isLetter isLetter, escapeChar_of_isLetter isLetter⟩
  · rw [List.eq_of_mem_replicate equals]
    decide +kernel

theorem length_encode (payload : List UInt8) :
    (Base64.encode payload).toList.length = 4 * ((payload.length + 2) / 3) := by
  rw [Base64.encode, String.toList_ofList, Base64.length_encodeChars]

/-- The size of an encoding. -/
theorem utf8ByteSize_encode (payload : List UInt8) :
    (Base64.encode payload).utf8ByteSize = 4 * ((payload.length + 2) / 3) := by
  have size := utf8ByteSize_ofList (Base64.encode payload).toList
  rw [String.ofList_toList] at size
  rw [size, utf8Length_of_ascii fun c mem => (plain_of_mem_encode mem).1, length_encode]

/-- The padding that the relay counts behind letters. -/
theorem length_countedPadding (all : ∀ c ∈ letters, Base64.isLetter c = true) {padding : Nat}
    (few : padding ≤ 2) :
    ((((letters ++ List.replicate padding '=').reverse).take 2).takeWhile (· == '=')).length =
      padding := by
  have counted : ∀ c ∈ List.replicate padding '=', (c == '=') = true := by
    intro c mem
    rw [List.eq_of_mem_replicate mem]
    rfl
  have stops : (letters.reverse.take (2 - padding)).takeWhile (· == '=') = [] := by
    cases found : letters.reverse.take (2 - padding) with
    | nil => rfl
    | cons c rest =>
      have mem : c ∈ letters.reverse.take (2 - padding) := found ▸ List.mem_cons_self
      have isLetter := all c (List.mem_reverse.mp (List.mem_of_mem_take mem))
      exact List.takeWhile_cons_of_neg (by simpa using Base64.ne_padding_of_isLetter isLetter)
  rw [List.reverse_append, List.reverse_replicate, List.take_append, List.length_replicate,
    List.take_replicate, Nat.min_eq_right few, List.takeWhile_append_of_pos counted, stops,
    List.append_nil, List.length_replicate]

/-- The relay passes an encoding where its payload is within the limit. -/
theorem checkCt_encode_iff (small : max < 2 ^ 61) :
    checkCt max (Base64.encode payload) = .ok () ↔ payload.length ≤ max := by
  obtain ⟨padding, parts, padded, decodes⟩ := lettersOf_encode payload
  have length := congrArg List.length parts
  have bytes := length_bytesOfLetters (Base64.encode payload)
  rw [List.length_append, List.length_replicate, length_encode] at length
  rw [decodes] at bytes
  rw [Base64.Padded, length_lettersOf] at padded
  have letters : ∀ c ∈ lettersOf (Base64.encode payload).toList, Base64.isLetter c = true :=
    fun _ mem => isLetter_of_mem_lettersOf mem
  have counted := length_countedPadding letters (show padding ≤ 2 by omega)
  rw [← parts] at counted
  -- three bytes for every four letters, less one byte for every `=`
  have estimated : max < min (4 * ((payload.length + 2) / 3) * 3) usizeMax / 4 - padding ↔
      max < payload.length := by
    rw [usizeMax]
    omega
  rw [checkCt, utf8ByteSize_encode, counted]
  by_cases fits : max < payload.length
  · rw [if_pos (estimated.mpr fits)]
    exact ⟨fun accepted => (by cases accepted), fun within => absurd fits (Nat.not_lt.mpr within)⟩
  · rw [if_neg (mt estimated.mp fits)]
    exact ⟨fun _ => Nat.not_lt.mp fits, fun _ => rfl⟩

/-! ## The forwarded frame -/

/-- No character takes more than six times its bytes in a JSON string. -/
theorem utf8Length_escapeChar (c : Char) : utf8Length (escapeChar c) ≤ 6 * c.utf8Size := by
  have positive : 1 ≤ c.utf8Size := Char.utf8Size_pos c
  have pair (d : Char) (one : d.utf8Size = 1) : utf8Length ['\\', d] ≤ 6 * c.utf8Size := by
    rw [utf8Length_cons, utf8Length_cons, one]
    change 1 + (1 + 0) ≤ _
    omega
  have digit {n : Nat} (small : n < 16) : (Nat.digitChar n).utf8Size = 1 := by
    have all : ∀ d : Fin 16, (Nat.digitChar d).utf8Size = 1 := by decide +kernel
    exact all ⟨n, small⟩
  unfold escapeChar
  split_ifs with quote backslash newline carriage tab backspace feed control
  · exact pair '"' rfl
  · exact pair '\\' rfl
  · exact pair 'n' rfl
  · exact pair 'r' rfl
  · exact pair 't' rfl
  · exact pair 'b' rfl
  · exact pair 'f' rfl
  · -- a control character is written with its code
    have high := digit (show c.toNat / 16 < 16 by omega)
    have low := digit (show c.toNat % 16 < 16 by omega)
    simp only [utf8Length_cons, high, low]
    change 1 + (1 + (1 + (1 + (1 + (1 + 0))))) ≤ _
    omega
  · rw [utf8Length_cons]
    change c.utf8Size + 0 ≤ _
    omega

/-- An escaped character takes at most six octets for one. -/
theorem utf8Length_escaped (text : List Char) :
    utf8Length (text.flatMap escapeChar) ≤ 6 * utf8Length text := by
  induction text with
  | nil => exact Nat.le_refl 0
  | cons c text ih =>
    have first := utf8Length_escapeChar c
    rw [List.flatMap_cons, utf8Length_append, utf8Length_cons]
    omega

/-- The quotes of a JSON string take two bytes more. -/
theorem utf8Length_jsonString (text : String) :
    utf8Length (jsonString text) = utf8Length (text.toList.flatMap escapeChar) + 2 := by
  rw [jsonString, List.cons_append, utf8Length_cons, utf8Length_append]
  change 1 + (_ + 1) = _
  omega

/-- A bound of the size of a JSON string. -/
theorem utf8Length_jsonString_le (text : String) :
    utf8Length (jsonString text) ≤ 6 * text.utf8ByteSize + 2 := by
  have size := utf8ByteSize_ofList text.toList
  rw [String.ofList_toList] at size
  rw [utf8Length_jsonString, size]
  exact Nat.add_le_add_right (utf8Length_escaped text.toList) 2

/-- An encoding is written as it is. -/
theorem utf8Length_jsonString_encode (payload : List UInt8) :
    utf8Length (jsonString (Base64.encode payload)) = 4 * ((payload.length + 2) / 3) + 2 := by
  have same : ∀ text : List Char, (∀ c ∈ text, escapeChar c = [c]) →
      text.flatMap escapeChar = text := by
    intro text plain
    induction text with
    | nil => rfl
    | cons c text ih =>
      rw [List.flatMap_cons, plain c List.mem_cons_self,
        ih fun other mem => plain other (List.mem_cons_of_mem _ mem)]
      rfl
  rw [utf8Length_jsonString, same _ fun c mem => (plain_of_mem_encode mem).2,
    utf8Length_of_ascii fun c mem => (plain_of_mem_encode mem).1, length_encode]

/-- The ids that the relay admits are short. -/
theorem admitted_ids {isKey : List UInt8 → Bool} {hello : Hello} {peerId roomId : String}
    (admitted : parseHelloBootstrap isKey hello = .ok (peerId, roomId)) :
    peerId.utf8ByteSize = 44 ∧ roomId.utf8ByteSize ≤ relayMaxRoomIdBytes := by
  unfold parseHelloBootstrap at admitted
  split at admitted
  · cases admitted
  · split at admitted
    · cases admitted
    · split at admitted
      · cases admitted
      · next short =>
        dsimp only at admitted
        split at admitted
        · cases admitted
        · split at admitted
          · cases admitted
          · next key =>
            cases admitted
            refine ⟨?_, Nat.not_lt.mp short⟩
            rw [utf8ByteSize_encode, not_not.mp (not_or.mp key).1]

/-- The frame around an encoding within the limit is within the overhead. -/
theorem utf8ByteSize_dispatchOuter {isKey : List UInt8 → Bool} {hello : Hello}
    {peerId roomId : String} (admitted : parseHelloBootstrap isKey hello = .ok (peerId, roomId))
    {env : OuterEnvelope} (ct : env.ct = Base64.encode payload)
    (fits : payload.length ≤ relayDefaultMaxDecodedBytes) :
    (dispatchOuter peerId roomId env).utf8ByteSize ≤ piMaxRawMessageBytes := by
  obtain ⟨peer, room⟩ := admitted_ids admitted
  have peerText := utf8Length_jsonString_le peerId
  have roomText := utf8Length_jsonString_le roomId
  have size : (dispatchOuter peerId roomId env).utf8ByteSize =
      utf8Length peerField + utf8Length (jsonString peerId) + utf8Length roomField +
        utf8Length (jsonString roomId) + utf8Length ctField +
        utf8Length (jsonString (Base64.encode payload)) + utf8Length ['}'] := by
    rw [dispatchOuter, OuterEnvelope.toJsonString, ct, utf8ByteSize_ofList]
    simp only [utf8Length_append]
  have fields : utf8Length peerField = 8 ∧ utf8Length roomField = 8 ∧ utf8Length ctField = 6 ∧
      utf8Length ['}'] = 1 := by decide +kernel
  rw [utf8Length_jsonString_encode] at size
  have limit : piMaxRawMessageBytes = 5657944 := by
    simp only [piMaxRawMessageBytes, relayDefaultMaxDecodedBytes, relayMaxFrameOverheadBytes,
      Nat.reduceAdd, Nat.reduceDiv, Nat.reduceMul]
  have decoded : payload.length ≤ 4194304 := fits
  have ids : roomId.utf8ByteSize ≤ 256 := room
  omega

/-- The app counts the bytes of a text until the bound is crossed. -/
theorem relayUtf8ByteLength_le {bytes : Nat} (fits : bytes + utf8Length text ≤ max) :
    relayUtf8ByteLength max text bytes ≤ max := by
  induction text generalizing bytes with
  | nil => exact fits
  | cons c text ih =>
    have size : (if c.toNat ≤ 0x7f then 1 else if c.toNat ≤ 0x7ff then 2
        else if c.toNat ≤ 0xffff then 3 else 4) = c.utf8Size := rfl
    rw [utf8Length_cons] at fits
    rw [relayUtf8ByteLength, size, if_neg (by omega)]
    exact ih (by omega)

end Encodings

/-! ## Agreement -/

/-- Under the default limits, the endpoints accept the same and decode it alike exactly for the
texts that are too large, malformed or canonical. The relay passes the encoding of a payload if
and only if both endpoints accept it, and the frame that it forwards is within both raw limits. -/
theorem relayed_ciphertexts_agree (ct : String) :
    ((decodeBase64Bounded ct relayDefaultMaxDecodedBytes).toOption =
        (decodeRelayBase64 ct relayDefaultMaxDecodedBytes).toOption ↔
      TooLarge relayDefaultMaxDecodedBytes ct ∨ Malformed ct ∨ Canonical ct) ∧
    (∀ payload : List UInt8,
      checkCt relayDefaultMaxDecodedBytes (Base64.encode payload) = .ok () ↔
        (decodeBase64Bounded (Base64.encode payload) relayDefaultMaxDecodedBytes).toOption.isSome ∧
          (decodeRelayBase64 (Base64.encode payload) relayDefaultMaxDecodedBytes).toOption.isSome) ∧
    ∀ (payload : List UInt8) (isKey : List UInt8 → Bool) (hello : Hello) (peerId roomId : String)
      (env : OuterEnvelope), parseHelloBootstrap isKey hello = .ok (peerId, roomId) →
      env.ct = Base64.encode payload → checkCt relayDefaultMaxDecodedBytes env.ct = .ok () →
      decodeRelayIngressAccepts (dispatchOuter peerId roomId env) = true ∧
        decodeRelayInboundFrameAccepts (dispatchOuter peerId roomId env) = true := by
  have small : relayDefaultMaxDecodedBytes < 2 ^ 61 := by decide +kernel
  refine ⟨decoders_agree_iff ct _, fun payload => ?_, ?_⟩
  · obtain ⟨pi, app⟩ := decode_encode_toOption payload relayDefaultMaxDecodedBytes
    rw [checkCt_encode_iff small, pi, app]
    by_cases fits : payload.length ≤ relayDefaultMaxDecodedBytes
    · simp [fits]
    · simp [fits]
  · intro payload isKey hello peerId roomId env admitted ct checked
    rw [ct, checkCt_encode_iff small] at checked
    have size := utf8ByteSize_dispatchOuter admitted ct checked
    refine ⟨decide_eq_true size, decide_eq_true ?_⟩
    have limits : piMaxRawMessageBytes = appMaxRawMessageBytes := by decide +kernel
    have text := utf8ByteSize_ofList (dispatchOuter peerId roomId env).toList
    rw [String.ofList_toList] at text
    exact relayUtf8ByteLength_le (by rw [Nat.zero_add, ← text, ← limits]; exact size)

/-- The bytes of the base point, which are a verifying key. -/
def basePoint : List UInt8 := 0x58 :: List.replicate 31 0x66

/-- A frame whose sender has a real key. -/
theorem relayed_ciphertexts_agree_base_point :
    decodeRelayIngressAccepts
        (dispatchOuter (Base64.encode basePoint) "main" ⟨"dest", "room", Base64.encode [104, 105]⟩) =
        true ∧
      decodeRelayInboundFrameAccepts
        (dispatchOuter (Base64.encode basePoint) "main" ⟨"dest", "room", Base64.encode [104, 105]⟩) =
        true := by
  obtain ⟨-, -, forwards⟩ := relayed_ciphertexts_agree ""
  have admitted : parseHelloBootstrap (fun bytes => bytes = basePoint)
      ⟨Base64.encode basePoint, "device", "main"⟩ = .ok (Base64.encode basePoint, "main") := by
    rw [parseHelloBootstrap, Base64.decode_encode]
    decide +kernel
  exact forwards [104, 105] _ _ _ _ ⟨"dest", "room", Base64.encode [104, 105]⟩ admitted rfl
    (by decide +kernel)

/-- A letter that makes no byte, padding behind a full group, and a last letter with bits to
spare: the Pi extension decodes each, and the app rejects it. -/
theorem exists_ciphertexts_that_differ :
    (["A=", "AAAA==", "AB"].all fun ct =>
      (decodeBase64Bounded ct relayDefaultMaxDecodedBytes).toOption.isSome &&
        (decodeRelayBase64 ct relayDefaultMaxDecodedBytes).toOption.isNone) = true := by
  decide +kernel

end OutpostPi.Relay
