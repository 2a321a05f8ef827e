import EnvAudit.Text.Hex
/-!
# Reading UTF-8

Bytes are read as UTF-8 one character at a time. A character's first byte says how many
continuation bytes follow and the range that the first of them must lie in (RFC 3629 §4); every
later one lies in `0x80–0xBF`. When a character cannot be read the reader reports a `Fault` over
a span of bytes:

* a byte that cannot start a character is an `invalidStart` of one byte;
* a continuation byte out of range is an `invalidContinuation` whose span is the first byte and
  the continuation bytes before it that were in range;
* bytes that end before the character is complete are an `unexpectedEnd` whose span runs to the
  end of the input.

`decode` stops at the first fault; `decodeLossy` drops the span of every fault and goes on after
it. `normalizeNewlines` then turns every carriage return, alone or before a line feed, into one
line feed, as text files are read.
-/

namespace EnvAudit.Text

/-- Why a span of bytes is no character. -/
inductive Fault where
  /-- The byte cannot start a character. -/
  | invalidStart
  /-- A continuation byte lies outside its range. -/
  | invalidContinuation
  /-- The input ends inside a character. -/
  | unexpectedEnd
  deriving DecidableEq, Repr

/-- The first fault of a byte sequence, with the span it covers. -/
structure DecodeError where
  /-- Position of the first byte of the span. -/
  start : Nat
  /-- Position just after the span. -/
  stop : Nat
  /-- The byte at `start`. -/
  byte : UInt8
  /-- What is wrong with the span. -/
  fault : Fault
  deriving DecidableEq, Repr

/-- What a first byte asks of the bytes after it. -/
structure Lead where
  /-- Continuation bytes that follow. -/
  tails : Nat
  /-- Least value of the first continuation byte. -/
  low : Nat
  /-- Greatest value of the first continuation byte. -/
  high : Nat
  /-- The bits that the first byte gives to the code point. -/
  bits : Nat

/-- The demand of a first byte above `0x7F`, or none when the byte starts no character. -/
def Lead.ofByte? (b : Nat) : Option Lead :=
  if 0xC2 ≤ b ∧ b ≤ 0xDF then some ⟨1, 0x80, 0xBF, b - 0xC0⟩
  else if b = 0xE0 then some ⟨2, 0xA0, 0xBF, 0⟩
  else if b = 0xED then some ⟨2, 0x80, 0x9F, 0xD⟩
  else if 0xE1 ≤ b ∧ b ≤ 0xEF then some ⟨2, 0x80, 0xBF, b - 0xE0⟩
  else if b = 0xF0 then some ⟨3, 0x90, 0xBF, 0⟩
  else if b = 0xF4 then some ⟨3, 0x80, 0x8F, 4⟩
  else if 0xF1 ≤ b ∧ b ≤ 0xF3 then some ⟨3, 0x80, 0xBF, b - 0xF0⟩
  else none

/-- What the reader finds at the head of the input: a character or a fault, and how many bytes
after the first one it covers. -/
inductive Piece where
  | char (c : Char) (extra : Nat)
  | fault (f : Fault) (extra : Nat)

/-- Reads up to `n` continuation bytes, the first within `low–high`: the number read in range,
and the code point bits gathered from them. -/
def readTails : Nat → Nat → Nat → Nat → List UInt8 → Nat × Nat
  | 0, _, _, acc, _ => (0, acc)
  | _ + 1, _, _, acc, [] => (0, acc)
  | n + 1, low, high, acc, b :: rest =>
    if low ≤ b.toNat ∧ b.toNat ≤ high then
      let r := readTails n 0x80 0xBF (acc * 64 + (b.toNat - 0x80)) rest
      (r.1 + 1, r.2)
    else (0, acc)

/-- The piece at the head of `b :: rest`. -/
def Piece.read (b : UInt8) (rest : List UInt8) : Piece :=
  if b.toNat < 0x80 then .char (Char.ofNat b.toNat) 0
  else match Lead.ofByte? b.toNat with
    | none => .fault .invalidStart 0
    | some l =>
      let r := readTails l.tails l.low l.high l.bits rest
      if r.1 = l.tails then .char (Char.ofNat r.2) l.tails
      else if r.1 = rest.length then .fault .unexpectedEnd rest.length
      else .fault .invalidContinuation r.1

theorem readTails_le (n low high acc : Nat) (bs : List UInt8) :
    (readTails n low high acc bs).1 ≤ bs.length := by
  induction n generalizing low high acc bs with
  | zero => simp [readTails]
  | succ n ih =>
    cases bs with
    | nil => simp [readTails]
    | cons b rest =>
      simp only [readTails]
      split
      · have := ih 0x80 0xBF (acc * 64 + (b.toNat - 0x80)) rest
        simp only [List.length_cons]
        omega
      · simp

/-- How many bytes a piece covers after its first one. -/
def Piece.extra : Piece → Nat
  | .char _ e => e
  | .fault _ e => e

/-- The bytes a piece covers after its first one never exceed the input. -/
theorem Piece.extra_read_le (b : UInt8) (rest : List UInt8) :
    (Piece.read b rest).extra ≤ rest.length := by
  unfold Piece.read
  by_cases h : b.toNat < 0x80
  · simp [h, Piece.extra]
  · simp only [h, if_false]
    cases Lead.ofByte? b.toNat with
    | none => simp [Piece.extra]
    | some l =>
      have := readTails_le l.tails l.low l.high l.bits rest
      dsimp only
      by_cases h1 : (readTails l.tails l.low l.high l.bits rest).1 = l.tails
      · rw [if_pos h1]; simp only [Piece.extra]; omega
      · by_cases h2 : (readTails l.tails l.low l.high l.bits rest).1 = rest.length
        · rw [if_neg h1, if_pos h2]; simp only [Piece.extra]; omega
        · rw [if_neg h1, if_neg h2]; simp only [Piece.extra]; omega

/-- Reads characters until the input ends or a fault appears; `pos` is the position of the
input's first byte. -/
def decodeFrom (pos : Nat) : List UInt8 → Except DecodeError (List Char)
  | [] => .ok []
  | b :: rest =>
    match h : Piece.read b rest with
    | .char c e =>
      have : e ≤ rest.length := by simpa [h, Piece.extra] using Piece.extra_read_le b rest
      (decodeFrom (pos + e + 1) (rest.drop e)).map (c :: ·)
    | .fault f e => .error ⟨pos, pos + e + 1, b, f⟩
termination_by bs => bs.length
decreasing_by
  simp only [List.length_cons, List.length_drop]
  omega

/-- Reads a whole byte sequence as UTF-8, or reports its first fault. -/
def decode (bytes : List UInt8) : Except DecodeError (List Char) := decodeFrom 0 bytes

/-- Reads a byte sequence as UTF-8, dropping the span of every fault. -/
def decodeLossy : List UInt8 → List Char
  | [] => []
  | b :: rest =>
    match h : Piece.read b rest with
    | .char c e =>
      have : e ≤ rest.length := by simpa [h, Piece.extra] using Piece.extra_read_le b rest
      c :: decodeLossy (rest.drop e)
    | .fault _ e =>
      have : e ≤ rest.length := by simpa [h, Piece.extra] using Piece.extra_read_le b rest
      decodeLossy (rest.drop e)
termination_by bs => bs.length
decreasing_by all_goals (simp only [List.length_cons, List.length_drop]; omega)

/-- Turns each carriage return, alone or before a line feed, into a line feed. -/
def normalizeNewlines : List Char → List Char
  | [] => []
  | '\r' :: '\n' :: rest => '\n' :: normalizeNewlines rest
  | '\r' :: rest => '\n' :: normalizeNewlines rest
  | c :: rest => c :: normalizeNewlines rest

/-- The name of a fault in reports. -/
def Fault.reason : Fault → String
  | .invalidStart => "invalid start byte"
  | .invalidContinuation => "invalid continuation byte"
  | .unexpectedEnd => "unexpected end of data"

/-- Two lower-case hexadecimal digits. -/
def hexByte (b : UInt8) : String := String.ofList (hexDigits 2 b.toNat)

/-- The report of a decoding fault: one byte by its value, a longer span by its first and last
positions. -/
def DecodeError.message (e : DecodeError) : String :=
  if e.stop = e.start + 1 then
    "'utf-8' codec can't decode byte 0x" ++ hexByte e.byte ++ " in position " ++
      toString e.start ++ ": " ++ e.fault.reason
  else
    "'utf-8' codec can't decode bytes in position " ++ toString e.start ++ "-" ++
      toString (e.stop - 1) ++ ": " ++ e.fault.reason

end EnvAudit.Text
