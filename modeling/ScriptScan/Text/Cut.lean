/-!
# Cutting a source

A source is kept in UTF-8 and its places are told by byte offsets. A byte is shown as the character
of its value: below 128 that is the character which it encodes, and from 128 on one with which
nothing is written that a program is made of. A source can be cut between characters only.
-/

namespace ScriptScan.Text

/-- Byte `i` of a source. -/
@[inline]
def byte? (source : String) (i : Nat) : Option Char :=
  if h : i < source.utf8ByteSize then some (Char.ofUInt8 (source.getUTF8Byte ⟨i⟩ h)) else none

/-- The text from byte `i` up to byte `j`, if the source can be cut at both. -/
def cut? (source : String) (i j : Nat) : Option String :=
  if h : i ≤ j ∧ (String.Pos.Raw.mk i).IsValid source ∧ (String.Pos.Raw.mk j).IsValid source then
    some (source.extract (.mk ⟨i⟩ h.2.1) (.mk ⟨j⟩ h.2.2))
  else none

/-- The first character from byte `i` on, if the source can be cut there; a null character at the
end of the source. -/
def first? (source : String) (i : Nat) : Option Char :=
  if h : (String.Pos.Raw.mk i).IsValid source then
    let p := String.Pos.mk ⟨i⟩ h
    some (if hp : p = source.endPos then '\x00' else p.get hp)
  else none

end ScriptScan.Text
