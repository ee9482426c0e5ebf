/-!
# Numbers, texts and lists in bytes

A number below 251 is one byte; larger ones are a mark, which tells the width, and that many
bytes, the lowest first.  A text or a list is its length followed by its content, with nothing
between the parts.  Writers fail on numbers of more than 64 bits; readers return the rest of
the input and accept a number in a wider form than it needs.
-/

namespace Dataflow.Bytes

/-- The bytes of a number, the lowest first. -/
def littleEndian : Nat → Nat → List UInt8
  | 0, _ => []
  | width + 1, n => UInt8.ofNat (n % 256) :: littleEndian width (n / 256)

/-- The number with the given bytes. -/
def ofLittleEndian : List UInt8 → Nat
  | [] => 0
  | b :: rest => b.toNat + 256 * ofLittleEndian rest

/-! ## Writing -/

/-- A number. -/
def ofNat? (n : Nat) : Option (List UInt8) :=
  if n < 251 then some [UInt8.ofNat n]
  else if n < 0x10000 then some (251 :: littleEndian 2 n)
  else if n < 0x100000000 then some (252 :: littleEndian 4 n)
  else if n < 0x10000000000000000 then some (253 :: littleEndian 8 n)
  else none

/-- One part after the other. -/
def concat? : List (Option (List UInt8)) → Option (List UInt8)
  | [] => some []
  | part :: rest => do return (← part) ++ (← concat? rest)

/-- A text. -/
def ofText? (s : String) : Option (List UInt8) :=
  concat? [ofNat? s.utf8ByteSize, some s.toUTF8.data.toList]

/-- A list. -/
def ofList? {α : Type} (write : α → Option (List UInt8)) (l : List α) : Option (List UInt8) :=
  concat? (ofNat? l.length :: l.map write)

/-! ## Reading -/

/-- Reads something at the start of the input. -/
abbrev Reader (α : Type) : Type := List UInt8 → Option (α × List UInt8)

/-- The given number of bytes. -/
def take? (n : Nat) : Reader (List UInt8) := fun bytes =>
  if n ≤ bytes.length then some (bytes.take n, bytes.drop n) else none

/-- A number in the given width. -/
def wide? (width : Nat) : Reader Nat := fun bytes => do
  let (digits, rest) ← take? width bytes
  return (ofLittleEndian digits, rest)

/-- A number of up to 64 bits. -/
def nat? : Reader Nat
  | [] => none
  | b :: rest =>
    if b < 251 then some (b.toNat, rest)
    else if b = 251 then wide? 2 rest
    else if b = 252 then wide? 4 rest
    else if b = 253 then wide? 8 rest
    else none

/-- The index of a form, of up to 32 bits. -/
def index? : Reader Nat
  | [] => none
  | b :: rest => if b = 253 then none else nat? (b :: rest)

/-- A text. -/
def text? : Reader String := fun bytes => do
  let (n, rest) ← nat? bytes
  let (content, rest) ← take? n rest
  return (← String.fromUTF8? ⟨content.toArray⟩, rest)

/-- So many things in a row. -/
def many? {α : Type} (read : Reader α) : Nat → Reader (List α)
  | 0, bytes => some ([], bytes)
  | n + 1, bytes => do
    let (a, rest) ← read bytes
    let (l, rest) ← many? read n rest
    return (a :: l, rest)

/-- A list. -/
def list? {α : Type} (read : Reader α) : Reader (List α) := fun bytes => do
  let (n, rest) ← nat? bytes
  many? read n rest

/-! ## Bytes as text -/

/-- Two lower-case hexadecimal digits for each byte. -/
def hexText (bytes : List UInt8) : String :=
  String.ofList (bytes.flatMap fun b =>
    [Nat.digitChar (b.toNat / 16), Nat.digitChar (b.toNat % 16)])

end Dataflow.Bytes
