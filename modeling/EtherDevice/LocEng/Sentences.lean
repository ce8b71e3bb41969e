import Mathlib.Data.Nat.Digits.Lemmas
import Mathlib.Tactic.Common

/-!
# NMEA sentences

A sentence is put together by calls of `snprintf` that go on where the last one stopped. A text
that leaves room for the checksum is sent whole.
-/

namespace EtherDevice.LocEng.Nmea

/-- The characters of a C string, without its NUL. -/
abbrev Text := List Char

def NMEA_SENTENCE_MAX_LENGTH : Nat := 200

def snprintf (size : Nat) (text : Text) : Text :=
  text.take (size - 1)

def decimal (width : Nat) (n : Int) : Text :=
  let digits := ((Nat.digits 10 n.natAbs).reverse.map Nat.digitChar)
  if n < 0 then '-' :: digits.leftpad (width - 1) '0' else digits.leftpad width '0'

structure Sentence where
  text : Text := []
  lengthRemaining : Nat := NMEA_SENTENCE_MAX_LENGTH
deriving DecidableEq

/-- A call of `snprintf` whose result is checked. -/
def Sentence.put (s : Sentence) (piece : Text) : Option Sentence :=
  if s.lengthRemaining ≤ piece.length then none
  else some { text := s.text ++ snprintf s.lengthRemaining piece
              lengthRemaining := s.lengthRemaining - piece.length }

def checksum (body : Text) : UInt8 :=
  body.foldl (fun sum c => sum ^^^ c.toNat.toUInt8) 0

def hex (byte : UInt8) : Text :=
  [Nat.digitChar (byte.toNat / 16), Nat.digitChar (byte.toNat % 16)].map Char.toUpper

def trailer (body : Text) : Text :=
  '*' :: hex (checksum body) ++ ['\r', '\n']

structure Sent where
  pNmea : Text
  length : Nat
deriving DecidableEq

def putChecksum (maxSize : Nat) (text : Text) : Sent :=
  let body := text.tail
  { pNmea := text ++ snprintf (maxSize - body.length - 1) (trailer body)
    length := body.length + (trailer body).length + 1 }

/-- A string that lies inside its buffer, has the length that is handed over, and is the whole of
the text that was meant, from its `$` on, with its checksum. -/
def WellFormed (text : Text) (sent : Sent) : Prop :=
  ∃ body, text = '$' :: body ∧ sent.pNmea = '$' :: body ++ trailer body ∧
    sent.length = sent.pNmea.length ∧ sent.pNmea.length < NMEA_SENTENCE_MAX_LENGTH

theorem decimal_length_le {n : Int} {width k : Nat} (h : n.natAbs < 10 ^ k) (hwidth : width ≤ k) :
    (decimal width n).length ≤ k + 1 := by
  have hdigits : (Nat.digits 10 n.natAbs).length ≤ k :=
    (Nat.digits_length_le_iff (by omega) _).mpr h
  unfold decimal
  split
  · simp
    omega
  · simp
    omega

theorem decimal_natCast_length_le {n width k : Nat} (h : n < 10 ^ k) (hwidth : width ≤ k) :
    (decimal width (n : Int)).length ≤ k := by
  have hdigits : (Nat.digits 10 n).length ≤ k :=
    (Nat.digits_length_le_iff (by omega) _).mpr h
  have hn : ¬(n : Int) < 0 := by omega
  simp [decimal, if_neg hn]
  omega

theorem flatten_length_le {texts : List Text} {n : Nat} (h : ∀ text ∈ texts, text.length ≤ n) :
    texts.flatten.length ≤ n * texts.length := by
  induction texts with
  | nil => simp
  | cons text texts ih =>
    have hfirst := h text (by simp)
    have hrest := ih fun other hother => h other (by simp [hother])
    simp only [List.flatten_cons, List.length_append, List.length_cons, Nat.mul_succ]
    omega

@[simp]
theorem trailer_length (body : Text) : (trailer body).length = 5 := rfl

namespace Sentence

variable {s : Sentence} {piece : Text}

theorem put_eq (h : piece.length < s.lengthRemaining) :
    s.put piece = some ⟨s.text ++ piece, s.lengthRemaining - piece.length⟩ := by
  have htake : snprintf s.lengthRemaining piece = piece := List.take_of_length_le (by omega)
  rw [put, if_neg (by omega), htake]

theorem foldlM_put {pieces : List Text} (h : pieces.flatten.length < s.lengthRemaining) :
    pieces.foldlM Sentence.put s =
      some ⟨s.text ++ pieces.flatten, s.lengthRemaining - pieces.flatten.length⟩ := by
  induction pieces generalizing s with
  | nil => simp
  | cons piece pieces ih =>
    rw [List.flatten_cons, List.length_append] at h
    rw [List.foldlM_cons, put_eq (by omega)]
    refine (ih (by dsimp only; omega)).trans ?_
    simp [Nat.sub_sub]

end Sentence

theorem putChecksum_eq {text : Text} (htext : text ≠ [])
    (h : text.length + 5 < NMEA_SENTENCE_MAX_LENGTH) :
    putChecksum NMEA_SENTENCE_MAX_LENGTH text =
      ⟨text ++ trailer text.tail, text.length + 5⟩ := by
  have hlength : text.tail.length + 1 = text.length := by
    have := List.length_pos_iff.mpr htext
    simp
    omega
  have htake : snprintf (NMEA_SENTENCE_MAX_LENGTH - text.tail.length - 1) (trailer text.tail) =
      trailer text.tail := List.take_of_length_le (by rw [trailer_length]; omega)
  simp only [putChecksum, htake, trailer_length]
  exact congrArg _ (by omega)

theorem wellFormed_putChecksum {body : Text} (h : body.length < 194) :
    WellFormed ('$' :: body) (putChecksum NMEA_SENTENCE_MAX_LENGTH ('$' :: body)) := by
  have hfits : ('$' :: body).length + 5 < NMEA_SENTENCE_MAX_LENGTH := by
    simp [NMEA_SENTENCE_MAX_LENGTH]
    omega
  rw [putChecksum_eq (by simp) hfits]
  refine ⟨body, rfl, rfl, ?_, ?_⟩
  · simp
  · simpa using hfits

theorem not_wellFormed_putChecksum {text stored : Text} (h : 195 ≤ stored.length) :
    ¬WellFormed text (putChecksum NMEA_SENTENCE_MAX_LENGTH stored) := by
  rintro ⟨body, -, -, hlength, hfits⟩
  rw [← hlength] at hfits
  simp [putChecksum, NMEA_SENTENCE_MAX_LENGTH] at hfits
  omega

end EtherDevice.LocEng.Nmea
