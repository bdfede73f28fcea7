import Mathlib.Data.List.Basic

/-!
# Dinero.HexText

Bytes as hexadecimal text, and the text forms of a UUID.

`decode_encode` and `parseUuid_formatUuid` are the round trips.
-/

namespace HexText

/-- The value of a digit, in either case. -/
def value? (c : Char) : Option Nat :=
  if '0' ≤ c ∧ c ≤ '9' then some (c.toNat - 48)
  else if 'a' ≤ c ∧ c ≤ 'f' then some (c.toNat - 87)
  else if 'A' ≤ c ∧ c ≤ 'F' then some (c.toNat - 55)
  else none

/-- Two lower-case digits for each byte. -/
def encode (bytes : List UInt8) : List Char :=
  bytes.flatMap fun b => [Nat.digitChar (b.toNat / 16), Nat.digitChar (b.toNat % 16)]

def decode : List Char → Option (List UInt8)
  | [] => some []
  | [_] => none
  | a :: b :: rest => do
    let high ← value? a
    let low ← value? b
    let bytes ← decode rest
    return UInt8.ofNat (16 * high + low) :: bytes

theorem value?_digitChar : ∀ n < 16, value? (Nat.digitChar n) = some n := by decide

theorem length_encode (bytes : List UInt8) : (encode bytes).length = 2 * bytes.length := by
  induction bytes with
  | nil => rfl
  | cons b bytes ih =>
    rw [encode, List.flatMap_cons, List.length_append]
    show 2 + (encode bytes).length = 2 * (bytes.length + 1)
    omega

/-- **What was written is read back.** -/
theorem decode_encode (bytes : List UInt8) : decode (encode bytes) = some bytes := by
  induction bytes with
  | nil => rfl
  | cons b bytes ih =>
    have hlt : b.toNat < 256 := b.toNat_lt
    have hhigh := value?_digitChar (b.toNat / 16) (by omega)
    have hlow := value?_digitChar (b.toNat % 16) (by omega)
    have hbyte : UInt8.ofNat (16 * (b.toNat / 16) + b.toNat % 16) = b := by
      rw [Nat.div_add_mod, UInt8.ofNat_toNat]
    show decode (_ :: _ :: encode bytes) = _
    simp only [decode, hhigh, hlow, ih, Option.bind_eq_bind, Option.bind_some, hbyte]
    rfl

/-! ## UUIDs -/

/-- Groups of eight, four, four, four and twelve digits. -/
def formatUuid (bytes : List UInt8) : List Char :=
  let digits := encode bytes
  digits.take 8 ++ '-' :: ((digits.drop 8).take 4 ++ '-' :: ((digits.drop 12).take 4 ++
    '-' :: ((digits.drop 16).take 4 ++ '-' :: digits.drop 20)))

def parseHyphenated (text : List Char) : Option (List UInt8) :=
  if text.length = 36 ∧ text[8]? = some '-' ∧ text[13]? = some '-' ∧ text[18]? = some '-' ∧
      text[23]? = some '-' then
    decode (text.take 8 ++ ((text.drop 9).take 4 ++ ((text.drop 14).take 4 ++
      ((text.drop 19).take 4 ++ text.drop 24))))
  else none

/-- The simple form, the hyphenated one, the one in braces and the one of a URN. -/
def parseUuid (text : List Char) : Option (List UInt8) :=
  if text.length = 32 then decode text
  else if text.length = 36 then parseHyphenated text
  else if text.length = 38 ∧ text.head? = some '\x7b' ∧ text.getLast? = some '\x7d' then
    parseHyphenated ((text.drop 1).take 36)
  else if text.length = 45 ∧ text.take 9 = "urn:uuid:".toList then parseHyphenated (text.drop 9)
  else none

theorem exists_append {α : Type} {l : List α} {n : Nat} (h : n ≤ l.length) :
    ∃ a rest, l = a ++ rest ∧ a.length = n ∧ rest.length = l.length - n :=
  ⟨l.take n, l.drop n, by simp, by simp [h], by simp⟩

/-- The groups of a text of 32 digits. -/
theorem groups_of_length {digits : List Char} (h : digits.length = 32) :
    ∃ a b c d e : List Char, digits = a ++ (b ++ (c ++ (d ++ e))) ∧ a.length = 8 ∧ b.length = 4 ∧
      c.length = 4 ∧ d.length = 4 ∧ e.length = 12 := by
  obtain ⟨a, rest, rfl, ha, hrest⟩ := exists_append (l := digits) (n := 8) (by omega)
  obtain ⟨b, rest, rfl, hb, hrest⟩ := exists_append (l := rest) (n := 4) (by omega)
  obtain ⟨c, rest, rfl, hc, hrest⟩ := exists_append (l := rest) (n := 4) (by omega)
  obtain ⟨d, e, rfl, hd, he⟩ := exists_append (l := rest) (n := 4) (by omega)
  exact ⟨a, b, c, d, e, rfl, ha, hb, hc, hd, by omega⟩

/-- **A UUID is read back** from its hyphenated form. -/
theorem parseUuid_formatUuid {bytes : List UInt8} (h : bytes.length = 16) :
    parseUuid (formatUuid bytes) = some bytes := by
  have hlength : (encode bytes).length = 32 := by rw [length_encode, h]
  obtain ⟨a, b, c, d, e, hdigits, ha, hb, hc, hd, he⟩ := groups_of_length hlength
  have hformat : formatUuid bytes = a ++ '-' :: (b ++ '-' :: (c ++ '-' :: (d ++ '-' :: e))) := by
    simp (disch := omega) [formatUuid, hdigits, List.drop_append, ha, hb, hc,
      List.drop_of_length_le]
  have hread : decode (a ++ (b ++ (c ++ (d ++ e)))) = some bytes := by
    rw [← hdigits, decode_encode]
  rw [hformat]
  simp (disch := omega) [parseUuid, parseHyphenated, List.getElem?_append, List.drop_append, ha,
    hb, hc, hd, he, hread, List.drop_of_length_le, List.getElem?_cons_zero]

/-- A text of 64 digits is no UUID. -/
theorem parseUuid_eq_none {text : List Char} (h : text.length = 64) : parseUuid text = none := by
  simp [parseUuid, h]

end HexText
