/-!
Texts from bytes.

`pieces` cuts a row of bytes into the characters that it encodes and the stretches that encode
none. A stretch without a meaning is a beginning of a character that the bytes after it do not go
on with, or one byte that begins no character. `decode` puts the replacement character for each of
them. `decodeStart?` accepts no such stretch, but a character at the end that is not complete.
-/

namespace RouterAgent.Text.Utf8

/-- What a first byte promises: the bits that it gives, and the range of each byte that follows. -/
def lead (b : Nat) : Option (Nat × List (Nat × Nat)) :=
  let more : Nat × Nat := (0x80, 0xBF)
  if b < 0x80 then some (b, [])
  else if b < 0xC2 then none
  else if b < 0xE0 then some (b - 0xC0, [more])
  else if b = 0xE0 then some (0, [(0xA0, 0xBF), more])
  else if b = 0xED then some (0xD, [(0x80, 0x9F), more])
  else if b < 0xF0 then some (b - 0xE0, [more, more])
  else if b = 0xF0 then some (0, [(0x90, 0xBF), more, more])
  else if b < 0xF4 then some (b - 0xF0, [more, more, more])
  else if b = 0xF4 then some (4, [(0x80, 0x8F), more, more])
  else none

/-- Reads the bytes that a first byte promised. A byte out of its range is left standing. -/
def follow (bits : Nat) : List (Nat × Nat) → List UInt8 → Option Nat × List UInt8
  | [], bs => (some bits, bs)
  | _ :: _, [] => (none, [])
  | (lo, hi) :: ranges, b :: bs =>
    if lo ≤ b.toNat ∧ b.toNat ≤ hi then follow (64 * bits + (b.toNat - 0x80)) ranges bs
    else (none, b :: bs)

theorem length_follow_le (bits : Nat) (ranges : List (Nat × Nat)) (bs : List UInt8) :
    (follow bits ranges bs).2.length ≤ bs.length := by
  induction ranges generalizing bits bs with
  | nil => simp [follow]
  | cons r ranges ih =>
    cases bs with
    | nil => simp [follow]
    | cons b bs =>
      simp only [follow]
      split
      · exact Nat.le_succ_of_le (ih _ _)
      · simp

/-- The characters of a row of bytes, with `none` for a stretch that encodes no character. -/
def pieces : List UInt8 → List (Option Char)
  | [] => []
  | b :: bs =>
    match lead b.toNat with
    | none => none :: pieces bs
    | some (bits, ranges) =>
      ((follow bits ranges bs).1.map Char.ofNat) :: pieces (follow bits ranges bs).2
termination_by bs => bs.length
decreasing_by
  · simp
  · exact Nat.lt_succ_of_le (length_follow_le ..)

/-- The text of a row of bytes, with U+FFFD for each stretch that encodes no character. -/
def decode (bs : List UInt8) : List Char := (pieces bs).map (·.getD '\uFFFD')

/-- The characters of a row of bytes up to a last one that more bytes may complete, and the bytes of
that one. A row with a stretch that encodes no character gives nothing. -/
def decodeStart? : List UInt8 → Option (List Char × List UInt8)
  | [] => some ([], [])
  | b :: bs =>
    match lead b.toNat with
    | none => none
    | some (bits, ranges) =>
      match (follow bits ranges bs).1 with
      | some n =>
        (decodeStart? (follow bits ranges bs).2).map fun (cs, tail) => (Char.ofNat n :: cs, tail)
      | none => if (follow bits ranges bs).2.isEmpty then some ([], b :: bs) else none
termination_by bs => bs.length
decreasing_by exact Nat.lt_succ_of_le (length_follow_le ..)

/-- A carriage return, alone or before a line feed, is read as a line feed. -/
def unifyBreaks : List Char → List Char
  | '\r' :: '\n' :: cs => '\n' :: unifyBreaks cs
  | '\r' :: cs => '\n' :: unifyBreaks cs
  | c :: cs => c :: unifyBreaks cs
  | [] => []

end RouterAgent.Text.Utf8
