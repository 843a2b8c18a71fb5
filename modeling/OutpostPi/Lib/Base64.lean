import Mathlib.Data.List.Nodup
import Mathlib.Data.UInt

/-!
# Base64

`encode` is the standard encoding with padding. `decode` is the lenient decoder: it reads the letters
of the standard and the URL-safe alphabet up to the first padding, and skips the other characters.
`decodeCanonical` accepts a text only when it is the encoding of what it decodes to, which makes the
leniency of `decode` immaterial: `decodeCanonical_iff` says that exactly the encodings are accepted.
-/

set_option autoImplicit false

namespace OutpostPi.Lib.Base64

/-- The letters of the digits 0 to 63. -/
def alphabet : List Char :=
  ['A', 'B', 'C', 'D', 'E', 'F', 'G', 'H', 'I', 'J', 'K', 'L', 'M', 'N', 'O', 'P', 'Q', 'R', 'S',
    'T', 'U', 'V', 'W', 'X', 'Y', 'Z', 'a', 'b', 'c', 'd', 'e', 'f', 'g', 'h', 'i', 'j', 'k', 'l',
    'm', 'n', 'o', 'p', 'q', 'r', 's', 't', 'u', 'v', 'w', 'x', 'y', 'z', '0', '1', '2', '3', '4',
    '5', '6', '7', '8', '9', '+', '/']

/-- The letter of a digit. -/
def letter (digit : Nat) : Char := alphabet.getD digit '='

/-- The digit of a letter. -/
def digit? (c : Char) : Option Nat := alphabet.findIdx? (· == c)

/-- The letter of the standard alphabet for one of the URL-safe alphabet. -/
def normalize (c : Char) : Char := if c = '-' then '+' else if c = '_' then '/' else c

/-- The digit of a letter of either alphabet. -/
def urlDigit? (c : Char) : Option Nat := digit? (normalize c)

/-- The digits of the letters of a text. -/
def digitsOf (text : List Char) : List Nat := text.filterMap urlDigit?

/-- The digits of the letters before the first padding. -/
def readDigits (text : List Char) : List Nat := digitsOf (text.takeWhile (· != '='))

/-- The digits and the padding of a group of bytes. -/
def encodeChars : List UInt8 → List Char
  | a :: b :: c :: rest =>
    letter (a.toNat / 4) :: letter (a.toNat % 4 * 16 + b.toNat / 16) ::
      letter (b.toNat % 16 * 4 + c.toNat / 64) :: letter (c.toNat % 64) :: encodeChars rest
  | [a, b] =>
    [letter (a.toNat / 4), letter (a.toNat % 4 * 16 + b.toNat / 16), letter (b.toNat % 16 * 4), '=']
  | [a] => [letter (a.toNat / 4), letter (a.toNat % 4 * 16), '=', '=']
  | [] => []

/-- The bytes of a sequence of digits. -/
def bytesOf : List Nat → List UInt8
  | p :: q :: r :: s :: rest =>
    UInt8.ofNat (p * 4 + q / 16) :: UInt8.ofNat (q % 16 * 16 + r / 4) ::
      UInt8.ofNat (r % 4 * 64 + s) :: bytesOf rest
  | [p, q, r] => [UInt8.ofNat (p * 4 + q / 16), UInt8.ofNat (q % 16 * 16 + r / 4)]
  | [p, q] => [UInt8.ofNat (p * 4 + q / 16)]
  | _ => []

def encode (bytes : List UInt8) : String := String.ofList (encodeChars bytes)

/-- What comes after the first padding is not read. -/
def decode (text : String) : List UInt8 := bytesOf (readDigits text.toList)

/-- The bytes of a text of the given width, unless it is not their encoding. -/
def decodeCanonical (text : String) (width : Nat) : Option (List UInt8) :=
  if (decode text).length ≠ width ∨ encode (decode text) ≠ text then none else some (decode text)

theorem alphabet_eq : alphabet =
    ['A', 'B', 'C', 'D', 'E', 'F', 'G', 'H', 'I', 'J', 'K', 'L', 'M', 'N', 'O', 'P', 'Q', 'R', 'S',
      'T', 'U', 'V', 'W', 'X', 'Y', 'Z', 'a', 'b', 'c', 'd', 'e', 'f', 'g', 'h', 'i', 'j', 'k', 'l',
      'm', 'n', 'o', 'p', 'q', 'r', 's', 't', 'u', 'v', 'w', 'x', 'y', 'z', '0', '1', '2', '3', '4',
      '5', '6', '7', '8', '9', '+', '/'] :=
  rfl

theorem nodup_alphabet : alphabet.Nodup := by
  have codes : (alphabet.map Char.toNat).Nodup := by
    rw [alphabet_eq]
    decide +kernel
  exact codes.of_map _

theorem letter_eq_getElem {digit : Nat} (small : digit < alphabet.length) :
    letter digit = alphabet[digit] := by
  rw [letter, List.getD_eq_getElem?_getD, List.getElem?_eq_getElem small, Option.getD_some]

theorem digit?_letter {digit : Nat} (small : digit < 64) : digit? (letter digit) = some digit := by
  have bound : digit < alphabet.length := by
    rw [alphabet_eq]
    exact small
  rw [letter_eq_getElem bound, digit?, List.findIdx?_eq_some_iff_getElem]
  refine ⟨bound, beq_self_eq_true _, fun earlier before same => ?_⟩
  have equal := (List.Nodup.getElem_inj_iff nodup_alphabet).mp (eq_of_beq same)
  omega

theorem digit?_padding : digit? '=' = none := by
  rw [digit?, alphabet_eq]
  rfl

/-- What has been checked of the letters holds of each of them. -/
theorem forall_alphabet {P : Char → Prop} [DecidablePred P]
    (all : alphabet.all (fun c => decide (P c)) = true) : ∀ c ∈ alphabet, P c :=
  fun c mem => of_decide_eq_true (List.all_eq_true.mp all c mem)

/-- The letters of the standard alphabet are in normal form. -/
theorem normalize_letter (digit : Nat) : normalize (letter digit) = letter digit := by
  by_cases small : digit < alphabet.length
  · have all : ∀ c ∈ alphabet, normalize c = c :=
      forall_alphabet (by rw [alphabet_eq]; decide)
    rw [letter_eq_getElem small]
    exact all _ (List.getElem_mem small)
  · have padding : letter digit = '=' := by
      rw [letter, List.getD_eq_getElem?_getD, List.getElem?_eq_none (by omega), Option.getD_none]
    rw [padding]
    decide

theorem urlDigit?_letter {digit : Nat} (small : digit < 64) :
    urlDigit? (letter digit) = some digit := by
  rw [urlDigit?, normalize_letter, digit?_letter small]

theorem urlDigit?_padding : urlDigit? '=' = none := digit?_padding

theorem digitsOf_cons {c : Char} {digit : Nat} (found : urlDigit? c = some digit)
    (text : List Char) : digitsOf (c :: text) = digit :: digitsOf text :=
  List.filterMap_cons_some found

/-- What is a letter is not padding. -/
theorem ne_padding_of_digit {c : Char} {digit : Nat} (found : urlDigit? c = some digit) :
    c ≠ '=' := by
  rintro rfl
  rw [urlDigit?_padding] at found
  cases found

/-- A letter is read, and the rest after it. -/
theorem readDigits_letter {digit : Nat} (small : digit < 64) (text : List Char) :
    readDigits (letter digit :: text) = digit :: readDigits text := by
  have found := urlDigit?_letter small
  rw [readDigits, List.takeWhile_cons_of_pos (by simpa using ne_padding_of_digit found),
    digitsOf_cons found, readDigits]

/-- Padding ends the reading. -/
theorem readDigits_padding (text : List Char) : readDigits ('=' :: text) = [] := by
  rw [readDigits, List.takeWhile_cons_of_neg (by simp), digitsOf, List.filterMap_nil]

/-- A byte put together from its quotient and remainder. -/
theorem ofNat_of_eq {n : Nat} {byte : UInt8} (same : n = byte.toNat) : UInt8.ofNat n = byte := by
  rw [same, UInt8.ofNat_toNat]

theorem decode_encode (bytes : List UInt8) : decode (encode bytes) = bytes := by
  rw [decode, encode, String.toList_ofList]
  induction bytes using encodeChars.induct with
  | case1 a b c rest ih =>
    have ha := a.toNat_lt
    have hb := b.toNat_lt
    have hc := c.toNat_lt
    rw [encodeChars, readDigits_letter (by omega), readDigits_letter (by omega),
      readDigits_letter (by omega), readDigits_letter (by omega), bytesOf, ih,
      ofNat_of_eq (show _ = a.toNat by omega), ofNat_of_eq (show _ = b.toNat by omega),
      ofNat_of_eq (show _ = c.toNat by omega)]
  | case2 a b =>
    have ha := a.toNat_lt
    have hb := b.toNat_lt
    rw [encodeChars, readDigits_letter (by omega), readDigits_letter (by omega),
      readDigits_letter (by omega), readDigits_padding, bytesOf,
      ofNat_of_eq (show _ = a.toNat by omega), ofNat_of_eq (show _ = b.toNat by omega)]
  | case3 a =>
    have ha := a.toNat_lt
    rw [encodeChars, readDigits_letter (by omega), readDigits_letter (by omega),
      readDigits_padding, bytesOf, ofNat_of_eq (show _ = a.toNat by omega)]
  | case4 => rfl

/-- Exactly the encodings of the given width are accepted. -/
theorem decodeCanonical_iff {text : String} {width : Nat} {bytes : List UInt8} :
    decodeCanonical text width = some bytes ↔ bytes.length = width ∧ encode bytes = text := by
  rw [decodeCanonical]
  constructor
  · intro accepted
    split at accepted
    · cases accepted
    · next canonical =>
      cases accepted
      exact ⟨not_not.mp (not_or.mp canonical).1, not_not.mp (not_or.mp canonical).2⟩
  · rintro ⟨rfl, rfl⟩
    rw [decode_encode, if_neg (by simp)]

end OutpostPi.Lib.Base64
