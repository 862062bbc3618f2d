import Offside.Text.Quoted

/-!
# Consoles

What a command prints goes to a console, which encodes it. An encoding has a place for
some characters and not for others. Nothing of a text is printed if one of its
characters has none.
-/

namespace Offside.Command

/-- A console, by its encoding. -/
structure Console where
  /-- The name of the encoding. -/
  codec : String
  /-- Whether the encoding has a character. -/
  encodes : Char → Bool
  /-- Why it has not the others. -/
  reason : String

/-- A console that shows every text. -/
def Console.utf8 : Console := ⟨"utf-8", fun _ => true, ""⟩

/-- Characters that could not be encoded, and where the first of them stands. -/
structure EncodeError where
  codec : String
  offset : Nat
  chars : List Char
  reason : String
deriving DecidableEq, Repr

/-- The error as it is reported: one character by its code point, several by their
span. -/
def EncodeError.message (e : EncodeError) : String :=
  let place := match e.chars with
    | [c] => "character '" ++ String.ofList (Text.codePoint c) ++ "' in position "
        ++ toString e.offset
    | cs => "characters in position " ++ toString e.offset ++ "-"
        ++ toString (e.offset + cs.length - 1)
  "'" ++ e.codec ++ "' codec can't encode " ++ place ++ ": " ++ e.reason

namespace Console

/-- Why a text cannot be printed: the first characters of it that cannot be encoded. -/
def fault? (console : Console) (text : String) : Option EncodeError :=
  match text.toList.dropWhile console.encodes with
  | [] => none
  | c :: cs =>
    some ⟨console.codec, (text.toList.takeWhile console.encodes).length,
      (c :: cs).takeWhile (!console.encodes ·), console.reason⟩

/-- Print lines one after the other: what was printed, and why no more if not all
were. -/
def printLines (console : Console) : List String → String × Option EncodeError
  | [] => ("", none)
  | line :: lines =>
    match console.fault? line with
    | some e => ("", some e)
    | none =>
      let (printed, e) := console.printLines lines
      (line ++ "\n" ++ printed, e)

end Console

end Offside.Command
