import Parley.Text.Half
import Parley.Text.Hex

/-! Texts as bytes.

The bytes of a text are the UTF-8 forms of its characters. A lone half has no such form, so a text with one
cannot be written. In names the halves from U+DC80 to U+DCFF stand for the bytes 80 to FF, each for one that
is not part of the form of a character. -/
namespace Parley.Text

/-- Lone halves in a row that have no bytes, and the position of the first. -/
structure Unwritable where
  position : Nat
  halves : List Nat
  deriving DecidableEq, Repr

def Unwritable.message (fault : Unwritable) : String :=
  let place :=
    match fault.halves with
    | [half] => "character '\\u" ++ String.ofList (hex 4 half) ++ s!"' in position {fault.position}"
    | halves => s!"characters in position {fault.position}-{fault.position + halves.length - 1}"
  s!"'utf-8' codec can't encode {place}: surrogates not allowed"

/-- The first code point of those from a position on that has no bytes, with the halves right after it. -/
def unwritable? (hasBytes : Nat → Bool) (position : Nat) : List Nat → Option Unwritable
  | [] => none
  | code :: rest =>
    if hasBytes code then unwritable? hasBytes (position + 1) rest
    else some ⟨position, code :: rest.takeWhile isHalf⟩

/-- The bytes of a text. -/
def toBytes (s : String) : Except Unwritable ByteArray :=
  let codes := codes s.toList
  match unwritable? (!isHalf ·) 0 codes with
  | some fault => .error fault
  | none => .ok (String.ofList (codes.map Char.ofNat)).toUTF8

/-- The text that bytes are, if they are the forms of characters. -/
def ofBytes? (bytes : ByteArray) : Option String := (String.fromUTF8? bytes).map ofChars

/-! ### Names -/

/-- Whether a code point is a half that stands for a byte. -/
def isByteHalf (code : Nat) : Bool := 0xDC80 ≤ code && code ≤ 0xDCFF

/-- What keeps a name from having bytes. -/
def nameFault? (name : String) : Option Unwritable :=
  unwritable? (fun code => !isHalf code || isByteHalf code) 0 (codes name.toList)

/-- The bytes of a name that has bytes. -/
def nameOctets (name : String) : List UInt8 :=
  (codes name.toList).flatMap fun code =>
    if isByteHalf code then [UInt8.ofNat code] else String.utf8EncodeChar (Char.ofNat code)

/-- The code points that the bytes of a name stand for. -/
def ofOctets : List UInt8 → List Nat
  | [] => []
  | octet :: rest =>
    match (ByteArray.mk (octet :: rest.take 3).toArray).utf8DecodeChar? 0 with
    | some c => c.toNat :: ofOctets (rest.drop (c.utf8Size - 1))
    | none => (0xDC00 + octet.toNat) :: ofOctets rest
termination_by octets => octets.length
decreasing_by
  · exact Nat.lt_succ_of_le (List.drop_sublist _ _).length_le
  · exact Nat.lt_succ_self _

/-- The one text of all that stand for the bytes of a name in which no byte of a character stands alone. -/
def settled (name : String) : String := String.ofList ((ofOctets (nameOctets name)).flatMap spell)

end Parley.Text
