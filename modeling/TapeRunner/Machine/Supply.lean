import TapeRunner.Machine.Basic

/-!
The two ends of a machine: the supply of input bytes, filled by texts and read byte by byte, and
the output, which keeps every byte until it is cleared. A text counts as the code points of its
characters modulo 256, and bytes are shown as the characters with their code.
-/

set_option autoImplicit false
set_option relaxedAutoImplicit false

namespace TapeRunner

/-- Bytes as text, one character a byte. -/
def textOfBytes (bytes : List UInt8) : String :=
  String.ofList (bytes.map fun byte ↦ Char.ofNat byte.toNat)

/-- The input that has been fed and not yet read. -/
structure Supply where
  pending : List UInt8
deriving DecidableEq

namespace Supply

/-- The bytes of a text. -/
def bytesOf (text : String) : List UInt8 :=
  text.toList.map fun character ↦ byteOf character.toNat

/-- Puts a text behind what is pending. -/
def feed (supply : Supply) (text : String) : Supply :=
  ⟨supply.pending ++ bytesOf text⟩

/-- A supply that holds one text. -/
def ofText (text : String) : Supply := feed ⟨[]⟩ text

@[simp] theorem pending_feed (supply : Supply) (text : String) :
    (supply.feed text).pending = supply.pending ++ bytesOf text := rfl

/-- The number that a machine is offered. -/
def offer (supply : Supply) : Option Int :=
  supply.pending.head?.map fun byte ↦ (byte.toNat : Int)

/-- The supply after its first byte was taken. -/
def rest (supply : Supply) : Supply := ⟨supply.pending.tail⟩

/-- Takes one byte. -/
def take (supply : Supply) : Except Fault (UInt8 × Supply) :=
  match supply.pending with
  | [] => .error .noInput
  | byte :: later => .ok (byte, ⟨later⟩)

/-- Something is offered exactly while something is pending. -/
theorem offer_eq_none_iff (supply : Supply) : supply.offer = none ↔ supply.pending = [] := by
  simp [offer]

/-- A byte that is taken was the first of those pending. -/
theorem take_eq_ok_iff (supply later : Supply) (byte : UInt8) :
    supply.take = .ok (byte, later) ↔ supply.pending = byte :: later.pending := by
  rcases supply with ⟨_ | ⟨first, rest⟩⟩ <;> rcases later with ⟨pending⟩ <;> simp [take]

/-- The pending bytes as text. -/
def text (supply : Supply) : String := textOfBytes supply.pending

end Supply

/-- The bytes written so far. -/
structure Output where
  bytes : Array UInt8
deriving DecidableEq

namespace Output

/-- Nothing has been written. -/
def empty : Output := ⟨#[]⟩

/-- Appends a number as a byte. -/
def put (output : Output) (number : Int) : Output := ⟨output.bytes.push (byteOf number)⟩

/-- The bytes as text. -/
def text (output : Output) : String := textOfBytes output.bytes.toList

end Output

end TapeRunner
