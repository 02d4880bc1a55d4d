import Mathlib.Data.List.Basic

/-!
# UUIDs

Process execution ids and local-queue dedup ids are UUIDs. The engine mints them with
`uuid.MustNewUUID()` and reads worker-supplied dedup ids with `uuid.ParseUUID`, which
returns nil on text that is not a UUID.

A minted UUID is random, so it collides with no other id in any run that matters. The
model makes that exact: minted ids are `minted n` for a counter `n` that the minting side
never reuses, and parsed ids are the thirty-two hex digit values read from the text, so the
two can never meet.

`parse` follows the parser the helper package wraps (`google/uuid.Parse`), over the
UTF-8 bytes of the text as Go indexes a string: the 36-byte dashed form, the same with a
`urn:uuid:` prefix (any case) or with one byte on each side, and 32 bare hex digits. Hex
digits are read in either case, so texts that differ only in case parse to the same UUID.

`InsertLocalQueue` stores a dedup id as the text `UUID.String` writes, which `encodeHex`
lays out: the dashed form, hex digits in lower case.

## Main definitions

* `Uuid`: A UUID, minted or parsed.
* `Uuid.parse`: `uuid.ParseUUID`.
* `Uuid.encodeHex`: The text `UUID.String` writes for a UUID's digits.
-/

namespace Xdb

/-- A UUID: minted by the engine, or the hex digit values read from a worker's text. -/
inductive Uuid
  | minted (n : Nat)
  | parsed (digits : List Nat)
  deriving DecidableEq, Repr

namespace Uuid

/-- The value of one hex digit byte, in either case (Go's `xvalues` table). -/
def hexValue (b : UInt8) : Option Nat :=
  if 48 ≤ b ∧ b ≤ 57 then some (b.toNat - 48)
  else if 97 ≤ b ∧ b ≤ 102 then some (b.toNat - 87)
  else if 65 ≤ b ∧ b ≤ 70 then some (b.toNat - 55)
  else none

/-- Every byte a hex digit: their values, in order. -/
def hexDigits (bs : List UInt8) : Option (List Nat) :=
  bs.mapM hexValue

/-- The 36-byte dashed form: dashes (byte 45) at 8, 13, 18 and 23, hex digits elsewhere. -/
def parseDashed (bs : List UInt8) : Option (List Nat) :=
  if bs.get? 8 = some 45 ∧ bs.get? 13 = some 45 ∧ bs.get? 18 = some 45 ∧
      bs.get? 23 = some 45 then
    hexDigits (bs.take 8 ++ (bs.drop 9).take 4 ++ (bs.drop 14).take 4 ++
      (bs.drop 19).take 4 ++ (bs.drop 24).take 12)
  else none

/-- ASCII lower-casing of one byte, as `strings.EqualFold` compares the prefix. -/
def lowerByte (b : UInt8) : UInt8 :=
  if 65 ≤ b ∧ b ≤ 90 then b + 32 else b

/-- `uuid.ParseUUID`: `none` where the Go helper returns nil. -/
def parse (s : String) : Option Uuid :=
  let bs := s.data.flatMap String.utf8EncodeChar
  let digits : Option (List Nat) :=
    if bs.length = 36 then parseDashed bs
    else if bs.length = 45 then
      if (bs.take 9).map lowerByte = "urn:uuid:".data.flatMap String.utf8EncodeChar then
        parseDashed (bs.drop 9)
      else none
    else if bs.length = 38 then parseDashed (bs.drop 1)
    else if bs.length = 32 then hexDigits bs
    else none
  digits.map parsed

/-- One hex digit as `hex.Encode` writes it: `0`-`9`, then `a`-`f` in lower case. -/
def hexChar (n : Nat) : Char :=
  Char.ofNat (if n < 10 then 48 + n else 87 + n)

/-- `encodeHex`, behind `UUID.String`: groups of 8, 4, 4, 4 and 12 hex digits, joined by
    dashes. -/
def encodeHex (d : List Nat) : String :=
  ⟨(d.take 8).map hexChar ++ '-' :: ((d.drop 8).take 4).map hexChar ++
    '-' :: ((d.drop 12).take 4).map hexChar ++ '-' :: ((d.drop 16).take 4).map hexChar ++
    '-' :: (d.drop 20).map hexChar⟩

theorem parse_ne_minted (s : String) (n : Nat) : parse s ≠ some (minted n) := by
  simp only [parse]
  intro h
  obtain ⟨d, -, hd⟩ := Option.map_eq_some'.1 h
  cases hd

end Uuid

end Xdb
