/-!
# Numerals in names and messages

File names carry decimal numbers of a least width, padded with zeros on the left; messages show
32-bit words in hexadecimal.  Padding never cuts a number short, so a numeral can always be read
back (`readDigits_padded`).
-/

namespace Overland.Text

/-- The decimal digits of a number, padded with zeros to at least `width` of them. -/
def padded (width n : Nat) : List Char := (Nat.toDigits 10 n).leftpad width '0'

/-- A word as eight hexadecimal digits after the usual mark. -/
def hexWord (w : UInt32) : String :=
  "0x" ++ String.ofList ((Nat.toDigits 16 w.toNat).leftpad 8 '0')

/-- The number that a row of decimal digits stands for. -/
def readDigits (digits : List Char) : Nat := Nat.ofDigitChars 10 digits 0

theorem readDigits_zeros (count : Nat) (digits : List Char) :
    readDigits (List.replicate count '0' ++ digits) = readDigits digits := by
  induction count with
  | zero => rfl
  | succ count ih =>
    rw [List.replicate_succ, List.cons_append, readDigits, Nat.ofDigitChars_cons]
    exact ih

/-- A padded numeral reads back as its number. -/
theorem readDigits_padded (width n : Nat) : readDigits (padded width n) = n := by
  rw [padded, List.leftpad, readDigits_zeros, readDigits, Nat.ofDigitChars_ten_toDigits]

end Overland.Text
