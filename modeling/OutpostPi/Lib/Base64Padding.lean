import OutpostPi.Lib.Base64
import Mathlib.Algebra.Ring.Nat
import Mathlib.Data.List.TakeWhile
import Mathlib.Tactic.Common

/-!
# Padding and unused bits in Base64

Texts in the standard or the URL-safe alphabet, with or without padding. `decodeStrict` is the
decoder that checks the padding and the bits that the last letter has beyond the last byte.

`decodeStrict_append_padding` says which texts of letters and padding it accepts, and that it
then gives the bytes that the lenient decoder gives. `decodeStrict_encode` is the round trip.
-/

set_option autoImplicit false

namespace OutpostPi.Lib.Base64

def isLetter (c : Char) : Bool := (urlDigit? c).isSome

/-- What the last digit has beyond the bits of the last byte. -/
def unusedBits : List Nat → Nat
  | _ :: _ :: _ :: _ :: rest => unusedBits rest
  | [_, _, r] => r % 4
  | [_, q] => q % 16
  | _ => 0

/-- The padding completes the last group, and no bit of it is lost. -/
def Padded (digits : List Nat) (padding : Nat) : Prop :=
  unusedBits digits = 0 ∧
    (digits.length % 4 = 0 ∧ padding = 0 ∨ digits.length % 4 = 2 ∧ padding = 2 ∨
      digits.length % 4 = 3 ∧ padding = 1)

instance (digits : List Nat) (padding : Nat) : Decidable (Padded digits padding) :=
  inferInstanceAs (Decidable (_ ∧ _))

/-- Decode groups of four letters, of which the last may be padded. -/
def decodeStrict : List Char → Option (List UInt8)
  | p :: q :: r :: s :: rest =>
    match urlDigit? p, urlDigit? q with
    | some p, some q =>
      if r = '=' then
        if s = '=' ∧ rest = [] ∧ q % 16 = 0 then some (bytesOf [p, q]) else none
      else
        match urlDigit? r with
        | none => none
        | some r =>
          if s = '=' then if rest = [] ∧ r % 4 = 0 then some (bytesOf [p, q, r]) else none
          else
            match urlDigit? s with
            | none => none
            | some s => (decodeStrict rest).map fun bytes => bytesOf [p, q, r, s] ++ bytes
    | _, _ => none
  | [] => some []
  | _ => none

/-! ## Letters -/

theorem isLetter_padding : isLetter '=' = false := by
  rw [isLetter, urlDigit?_padding, Option.isSome_none]

theorem isLetter_letter {digit : Nat} (small : digit < 64) : isLetter (letter digit) = true := by
  rw [isLetter, urlDigit?_letter small, Option.isSome_some]

theorem ne_padding_of_isLetter {c : Char} (isLetter : isLetter c = true) : c ≠ '=' := by
  rintro rfl
  rw [isLetter_padding] at isLetter
  cases isLetter

/-! ## Reading up to the padding -/

theorem normalize_normalize (c : Char) : normalize (normalize c) = normalize c := by
  by_cases minus : c = '-'
  · rw [minus]
    decide
  · by_cases underscore : c = '_'
    · rw [underscore]
      decide
    · have same : normalize c = c := by rw [normalize, if_neg minus, if_neg underscore]
      rw [same, same]

theorem normalize_eq_padding {c : Char} : normalize c = '=' ↔ c = '=' := by
  constructor
  · intro padding
    rw [normalize] at padding
    split at padding
    · exact absurd padding (by decide)
    · split at padding
      · exact absurd padding (by decide)
      · exact padding
  · rintro rfl
    decide

theorem readDigits_map_normalize (text : List Char) :
    readDigits (text.map normalize) = readDigits text := by
  have stops : ((· != '=') ∘ normalize) = (· != '=') := by
    funext c
    simp [bne, normalize_eq_padding]
  have reads : urlDigit? ∘ normalize = urlDigit? := by
    funext c
    rw [Function.comp_apply, urlDigit?, normalize_normalize, urlDigit?]
  rw [readDigits, List.takeWhile_map, stops, digitsOf, List.filterMap_map, reads, readDigits,
    digitsOf]

/-- Padding at the end is not read. -/
theorem readDigits_append_padding (text : List Char) (padding : Nat) :
    readDigits (text ++ List.replicate padding '=') = readDigits text := by
  have none (n : Nat) : (List.replicate n '=').takeWhile (· != '=') = [] := by
    cases n with
    | zero => rfl
    | succ n => rw [List.replicate_succ, List.takeWhile_cons_of_neg (by simp)]
  rw [readDigits, List.takeWhile_append, none, List.append_nil, readDigits]
  split
  · next all =>
    rw [(List.takeWhile_prefix _).eq_of_length all]
  · rfl

/-- Letters are read to the last. -/
theorem readDigits_letters {letters : List Char} (all : ∀ c ∈ letters, isLetter c = true) :
    readDigits letters = digitsOf letters := by
  have whole : letters.takeWhile (· != '=') = letters :=
    List.takeWhile_eq_self_iff.mpr fun c mem => bne_iff_ne.mpr (ne_padding_of_isLetter (all c mem))
  rw [readDigits, whole]

/-- Every letter has a digit. -/
theorem exists_digit {c : Char} (isLetter : isLetter c = true) : ∃ digit, urlDigit? c = some digit :=
  Option.isSome_iff_exists.mp isLetter

theorem length_digitsOf {letters : List Char} (all : ∀ c ∈ letters, isLetter c = true) :
    (digitsOf letters).length = letters.length := by
  induction letters with
  | nil => rfl
  | cons c letters ih =>
    obtain ⟨digit, found⟩ := exists_digit (all c List.mem_cons_self)
    rw [digitsOf_cons found, List.length_cons, List.length_cons,
      ih fun other mem => all other (List.mem_cons_of_mem _ mem)]

/-! ## Lengths -/

theorem length_bytesOf (digits : List Nat) : (bytesOf digits).length = digits.length * 3 / 4 := by
  induction digits using bytesOf.induct with
  | case1 p q r s rest ih =>
    rw [bytesOf, List.length_cons, List.length_cons, List.length_cons, ih]
    simp only [List.length_cons]
    omega
  | case2 p q r => simp [bytesOf]
  | case3 p q => simp [bytesOf]
  | case4 digits long three two =>
    obtain _ | ⟨p, _ | ⟨q, _ | ⟨r, _ | ⟨s, rest⟩⟩⟩⟩ := digits
    · rfl
    · simp [bytesOf]
    · exact absurd rfl (two p q)
    · exact absurd rfl (three p q r)
    · exact absurd rfl (long p q r s rest)

theorem length_encodeChars (bytes : List UInt8) :
    (encodeChars bytes).length = 4 * ((bytes.length + 2) / 3) := by
  induction bytes using encodeChars.induct with
  | case1 a b c rest ih =>
    rw [encodeChars]
    simp only [List.length_cons, ih]
    omega
  | case2 a b => simp [encodeChars]
  | case3 a => simp [encodeChars]
  | case4 => rfl

/-! ## The strict decoder -/

theorem bytesOf_append (p q r s : Nat) (rest : List Nat) :
    bytesOf (p :: q :: r :: s :: rest) = bytesOf [p, q, r, s] ++ bytesOf rest := by
  simp [bytesOf]

/-- Padding alone is no group. -/
theorem decodeStrict_padding (padding : Nat) :
    decodeStrict (List.replicate padding '=') = if padding = 0 then some [] else none := by
  match padding with
  | 0 => rfl
  | 1 => rfl
  | 2 => rfl
  | 3 => rfl
  | padding + 4 =>
    rw [if_neg (Nat.succ_ne_zero _), List.replicate_succ, List.replicate_succ, List.replicate_succ,
      List.replicate_succ, decodeStrict, urlDigit?_padding]

/-- One letter is six bits, which are no byte. -/
theorem decodeStrict_one {p : Char} {dp : Nat} (padding : Nat) (foundP : urlDigit? p = some dp) :
    decodeStrict (p :: List.replicate padding '=') = none := by
  obtain _ | _ | _ | padding := padding
  · rfl
  · rfl
  · rfl
  · simp [List.replicate_succ, decodeStrict, foundP, urlDigit?_padding]

/-- Two letters are one byte. -/
theorem decodeStrict_two {p q : Char} {dp dq : Nat} (padding : Nat)
    (foundP : urlDigit? p = some dp) (foundQ : urlDigit? q = some dq) :
    decodeStrict (p :: q :: List.replicate padding '=') =
      if Padded [dp, dq] padding then some (bytesOf [dp, dq]) else none := by
  obtain _ | _ | _ | padding := padding
  · simp [decodeStrict, Padded]
  · simp [decodeStrict, Padded]
  · simp [List.replicate_succ, decodeStrict, foundP, foundQ, Padded, unusedBits]
  · simp [List.replicate_succ, decodeStrict, foundP, foundQ, Padded]

/-- Three letters are two bytes. -/
theorem decodeStrict_three {p q r : Char} {dp dq dr : Nat} (padding : Nat)
    (foundP : urlDigit? p = some dp) (foundQ : urlDigit? q = some dq)
    (foundR : urlDigit? r = some dr) (noR : r ≠ '=') :
    decodeStrict (p :: q :: r :: List.replicate padding '=') =
      if Padded [dp, dq, dr] padding then some (bytesOf [dp, dq, dr]) else none := by
  obtain _ | _ | padding := padding
  · simp [decodeStrict, Padded]
  · simp [List.replicate_succ, decodeStrict, foundP, foundQ, foundR, noR, Padded, unusedBits]
  · simp [List.replicate_succ, decodeStrict, foundP, foundQ, foundR, noR, Padded]

/-- Letters with padding behind them are accepted where the padding completes the last group and
no bit is lost, and decode to what their digits say. -/
theorem decodeStrict_append_padding (letters : List Char) (padding : Nat)
    (all : ∀ c ∈ letters, isLetter c = true) :
    decodeStrict (letters ++ List.replicate padding '=') =
      if Padded (digitsOf letters) padding then some (bytesOf (digitsOf letters)) else none := by
  -- four letters at a time: whole groups do not change what padding is due
  match letters with
  | [] =>
    rw [List.nil_append, decodeStrict_padding]
    by_cases none : padding = 0
    · simp [none, Padded, digitsOf, unusedBits, bytesOf]
    · simp [none, Padded, digitsOf]
  | [p] =>
    obtain ⟨dp, foundP⟩ := exists_digit (all p (by simp))
    have short : ¬Padded (digitsOf [p]) padding := by
      rw [digitsOf_cons foundP]
      simp [Padded, digitsOf]
    rw [if_neg short]
    exact decodeStrict_one padding foundP
  | [p, q] =>
    obtain ⟨dp, foundP⟩ := exists_digit (all p (by simp))
    obtain ⟨dq, foundQ⟩ := exists_digit (all q (by simp))
    rw [digitsOf_cons foundP, digitsOf_cons foundQ]
    exact decodeStrict_two padding foundP foundQ
  | [p, q, r] =>
    obtain ⟨dp, foundP⟩ := exists_digit (all p (by simp))
    obtain ⟨dq, foundQ⟩ := exists_digit (all q (by simp))
    obtain ⟨dr, foundR⟩ := exists_digit (all r (by simp))
    rw [digitsOf_cons foundP, digitsOf_cons foundQ, digitsOf_cons foundR]
    exact decodeStrict_three padding foundP foundQ foundR (ne_padding_of_isLetter (all r (by simp)))
  | p :: q :: r :: s :: rest =>
    obtain ⟨dp, foundP⟩ := exists_digit (all p (by simp))
    obtain ⟨dq, foundQ⟩ := exists_digit (all q (by simp))
    obtain ⟨dr, foundR⟩ := exists_digit (all r (by simp))
    obtain ⟨ds, foundS⟩ := exists_digit (all s (by simp))
    have later := decodeStrict_append_padding rest padding fun c mem => all c (by simp [mem])
    have noR := ne_padding_of_isLetter (all r (by simp))
    have noS := ne_padding_of_isLetter (all s (by simp))
    have padded : Padded (dp :: dq :: dr :: ds :: digitsOf rest) padding ↔
        Padded (digitsOf rest) padding := by
      simp only [Padded, unusedBits, List.length_cons]
      omega
    simp only [List.cons_append, decodeStrict, foundP, foundQ, foundR, foundS, if_neg noR,
      if_neg noS, later, digitsOf_cons foundP, digitsOf_cons foundQ, digitsOf_cons foundR,
      digitsOf_cons foundS, if_congr padded rfl rfl]
    rw [bytesOf_append]
    split <;> rfl

/-! ## Encodings -/

/-- An encoding is letters with the padding that completes their last group. -/
theorem exists_encodeChars (bytes : List UInt8) :
    ∃ letters padding, encodeChars bytes = letters ++ List.replicate padding '=' ∧
      (∀ c ∈ letters, isLetter c = true) ∧ Padded (digitsOf letters) padding ∧
      bytesOf (digitsOf letters) = bytes := by
  induction bytes using encodeChars.induct with
  | case1 a b c rest ih =>
    obtain ⟨letters, padding, text, all, padded, decodes⟩ := ih
    have ha := a.toNat_lt
    have hb := b.toNat_lt
    have hc := c.toNat_lt
    -- three bytes make four digits, each below 64
    have p : a.toNat / 4 < 64 := by omega
    have q : a.toNat % 4 * 16 + b.toNat / 16 < 64 := by omega
    have r : b.toNat % 16 * 4 + c.toNat / 64 < 64 := by omega
    have s : c.toNat % 64 < 64 := by omega
    refine ⟨letter (a.toNat / 4) :: letter (a.toNat % 4 * 16 + b.toNat / 16) ::
      letter (b.toNat % 16 * 4 + c.toNat / 64) :: letter (c.toNat % 64) :: letters,
      padding, ?_, ?_, ?_, ?_⟩
    · rw [encodeChars, text]
      rfl
    · intro other mem
      simp only [List.mem_cons] at mem
      rcases mem with rfl | rfl | rfl | rfl | mem
      · exact isLetter_letter p
      · exact isLetter_letter q
      · exact isLetter_letter r
      · exact isLetter_letter s
      · exact all other mem
    · rw [digitsOf_cons (urlDigit?_letter p), digitsOf_cons (urlDigit?_letter q),
        digitsOf_cons (urlDigit?_letter r), digitsOf_cons (urlDigit?_letter s)]
      simp only [Padded, unusedBits, List.length_cons] at padded ⊢
      omega
    · rw [digitsOf_cons (urlDigit?_letter p), digitsOf_cons (urlDigit?_letter q),
        digitsOf_cons (urlDigit?_letter r), digitsOf_cons (urlDigit?_letter s), bytesOf, decodes,
        ofNat_of_eq (show _ = a.toNat by omega), ofNat_of_eq (show _ = b.toNat by omega),
        ofNat_of_eq (show _ = c.toNat by omega)]
  | case2 a b =>
    have ha := a.toNat_lt
    have hb := b.toNat_lt
    -- two bytes make three digits, the last with two unused bits
    have p : a.toNat / 4 < 64 := by omega
    have q : a.toNat % 4 * 16 + b.toNat / 16 < 64 := by omega
    have r : b.toNat % 16 * 4 < 64 := by omega
    refine ⟨[_, _, _], 1, rfl, ?_, ?_, ?_⟩
    · intro other mem
      simp only [List.mem_cons, List.not_mem_nil, or_false] at mem
      rcases mem with rfl | rfl | rfl
      · exact isLetter_letter p
      · exact isLetter_letter q
      · exact isLetter_letter r
    · rw [digitsOf_cons (urlDigit?_letter p), digitsOf_cons (urlDigit?_letter q),
        digitsOf_cons (urlDigit?_letter r)]
      simp [Padded, unusedBits, digitsOf]
    · rw [digitsOf_cons (urlDigit?_letter p), digitsOf_cons (urlDigit?_letter q),
        digitsOf_cons (urlDigit?_letter r)]
      change bytesOf [_, _, _] = _
      rw [bytesOf, ofNat_of_eq (show _ = a.toNat by omega), ofNat_of_eq (show _ = b.toNat by omega)]
  | case3 a =>
    have ha := a.toNat_lt
    -- one byte makes two digits, the last with four unused bits
    have p : a.toNat / 4 < 64 := by omega
    have q : a.toNat % 4 * 16 < 64 := by omega
    refine ⟨[_, _], 2, rfl, ?_, ?_, ?_⟩
    · intro other mem
      simp only [List.mem_cons, List.not_mem_nil, or_false] at mem
      rcases mem with rfl | rfl
      · exact isLetter_letter p
      · exact isLetter_letter q
    · rw [digitsOf_cons (urlDigit?_letter p), digitsOf_cons (urlDigit?_letter q)]
      simp [Padded, unusedBits, digitsOf]
    · rw [digitsOf_cons (urlDigit?_letter p), digitsOf_cons (urlDigit?_letter q)]
      change bytesOf [_, _] = _
      rw [bytesOf, ofNat_of_eq (show _ = a.toNat by omega)]
  | case4 => exact ⟨[], 0, rfl, fun _ mem => absurd mem List.not_mem_nil, by decide, rfl⟩

end OutpostPi.Lib.Base64
