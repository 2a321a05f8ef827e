/-!
# Hexadecimal digits

Byte values and code points are shown in lower-case hexadecimal, padded with zeros to a fixed
width.
-/

namespace EnvAudit.Text

/-- A lower-case hexadecimal digit. -/
def hexDigit (d : Nat) : Char := if d < 10 then Char.ofNat (48 + d) else Char.ofNat (87 + d)

/-- The last `width` lower-case hexadecimal digits of `n`, padded with zeros. -/
def hexDigits : Nat → Nat → List Char
  | 0, _ => []
  | w + 1, n => hexDigits w (n / 16) ++ [hexDigit (n % 16)]

theorem length_hexDigits (w n : Nat) : (hexDigits w n).length = w := by
  induction w generalizing n with
  | zero => rfl
  | succ w ih => rw [hexDigits, List.length_append, ih]; rfl

end EnvAudit.Text
