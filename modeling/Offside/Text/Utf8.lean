import Offside.Text.Quoted

/-!
# UTF-8

Decoding a sequence of bytes. A character takes one to four bytes; the first byte
says how many follow and bounds the second one, so that no character has two
encodings and no surrogate has any. What cannot be decoded is reported with its
offset: the bytes at fault are the longest start of a well-formed character found
there, and at least one byte.
-/

namespace Offside.Text

/-- What a first byte announces: how many bytes follow, the bounds of the one that
follows directly, and the part of the code point that the first byte holds. -/
structure Lead where
  following : Nat
  low : Nat := 0x80
  high : Nat := 0xBF
  bits : Nat
deriving DecidableEq, Repr

/-- The announcement of a byte, if a character can start with it. -/
def Lead.of? (b : UInt8) : Option Lead :=
  let n := b.toNat
  if n < 0x80 then some { following := 0, bits := n }
  else if n < 0xC2 then none
  else if n < 0xE0 then some { following := 1, bits := n - 0xC0 }
  else if n = 0xE0 then some { following := 2, low := 0xA0, bits := 0 }
  else if n = 0xED then some { following := 2, high := 0x9F, bits := 0xD }
  else if n < 0xF0 then some { following := 2, bits := n - 0xE0 }
  else if n = 0xF0 then some { following := 3, low := 0x90, bits := 0 }
  else if n < 0xF4 then some { following := 3, bits := n - 0xF0 }
  else if n = 0xF4 then some { following := 3, high := 0x8F, bits := 4 }
  else none

/-- `continuation n low high bs` are the first bytes of `bs` that can continue a
character: at most `n`, the first of them between `low` and `high`, the others
between 0x80 and 0xBF. -/
def continuation : Nat → Nat → Nat → List UInt8 → List UInt8
  | n + 1, low, high, b :: bs =>
    if low ≤ b.toNat ∧ b.toNat ≤ high then b :: continuation n 0x80 0xBF bs else []
  | _, _, _, _ => []

/-- Why bytes are not the encoding of a character. -/
inductive Malformation where
  /-- No character starts with this byte. -/
  | invalidStart
  /-- The next byte does not continue the character. -/
  | invalidContinuation
  /-- The bytes end inside the character. -/
  | unexpectedEnd
deriving DecidableEq, Repr

/-- Bytes that could not be decoded, and where they stand. -/
structure DecodeError where
  offset : Nat
  bytes : List UInt8
  reason : Malformation
deriving DecidableEq, Repr

/-- The wording of a malformation. -/
def Malformation.message : Malformation → String
  | .invalidStart => "invalid start byte"
  | .invalidContinuation => "invalid continuation byte"
  | .unexpectedEnd => "unexpected end of data"

/-- The error as it is reported: one byte by its value, several by their span. -/
def DecodeError.message (e : DecodeError) : String :=
  let place := match e.bytes with
    | [b] => "byte 0x" ++ String.ofList (hex 2 b.toNat) ++ " in position " ++ toString e.offset
    | bs => "bytes in position " ++ toString e.offset ++ "-"
        ++ toString (e.offset + bs.length - 1)
  "'utf-8' codec can't decode " ++ place ++ ": " ++ e.reason.message

/-- Decode bytes that start at `offset`. -/
def decodeFrom (offset : Nat) : List UInt8 → Except DecodeError (List Char)
  | [] => .ok []
  | b :: bs =>
    match Lead.of? b with
    | none => .error ⟨offset, [b], .invalidStart⟩
    | some lead =>
      let more := continuation lead.following lead.low lead.high bs
      if more.length = lead.following then
        match decodeFrom (offset + 1 + lead.following) (bs.drop lead.following) with
        | .ok cs =>
          .ok (Char.ofNat (more.foldl (fun n c => 64 * n + (c.toNat - 0x80)) lead.bits) :: cs)
        | .error e => .error e
      else if more.length = bs.length then .error ⟨offset, b :: more, .unexpectedEnd⟩
      else .error ⟨offset, b :: more, .invalidContinuation⟩
termination_by bs => bs.length
decreasing_by simp only [List.length_drop, List.length_cons]; omega

/-- Decode a sequence of bytes. -/
def decodeUtf8 (bytes : ByteArray) : Except DecodeError (List Char) :=
  decodeFrom 0 bytes.data.toList

end Offside.Text
