import Acceptor.Text.Utf8

/-!
# Decoding

Bytes as a text, read as a whole in one of the encodings.
-/

namespace Acceptor

/-- The first byte above the range of ASCII makes the bytes unreadable. -/
def Ascii.decode (bytes : Bytes) : Except DecodeError Text :=
  match bytes.zipIdx.find? fun (b, _) ↦ b.toNat ≥ 0x80 with
  | some (b, i) => .error ⟨.ascii, b, i, 1, .notAscii⟩
  | none => .ok (bytes.map fun b ↦ Char.ofNat b.toNat)

/-- In Latin-1 every byte is the character with its number. -/
def Encoding.decode : Encoding → Bytes → Except DecodeError Text
  | .utf8, bytes => Utf8.decode bytes
  | .latin1, bytes => .ok (bytes.map fun b ↦ Char.ofNat b.toNat)
  | .ascii, bytes => Ascii.decode bytes

end Acceptor
