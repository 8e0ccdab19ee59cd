/-!
# Base 64

Bytes as characters of six bits each, filled up to groups of four with `=`.
-/

namespace AdmissionWatch.Text

/-- The characters for the numbers below 64, in their order. -/
def base64Digits : List Char :=
  "ABCDEFGHIJKLMNOPQRSTUVWXYZabcdefghijklmnopqrstuvwxyz0123456789+/".toList

/-- The character for six bits. -/
def base64Digit (n : Nat) : Char :=
  base64Digits.getD (n % 64) 'A'

/-- The characters for bytes. -/
def base64Chars : List UInt8 → List Char
  | a :: b :: c :: rest =>
    let n := a.toNat * 65536 + b.toNat * 256 + c.toNat
    base64Digit (n / 262144) :: base64Digit (n / 4096) :: base64Digit (n / 64) :: base64Digit n :: base64Chars rest
  | [a, b] =>
    let n := a.toNat * 1024 + b.toNat * 4
    [base64Digit (n / 4096), base64Digit (n / 64), base64Digit n, '=']
  | [a] =>
    let n := a.toNat * 16
    [base64Digit (n / 64), base64Digit n, '=', '=']
  | [] => []

/-- The text for bytes. -/
def base64 (bytes : List UInt8) : String :=
  String.ofList (base64Chars bytes)

/-- The number of a character. -/
def base64Value? (c : Char) : Option Nat :=
  let n := base64Digits.findIdx (· = c)
  if n < 64 then some n else none

/-- The bytes for characters. -/
def base64Bytes? : List Char → Option (List UInt8)
  | [] => some []
  | [a, b, '=', '='] => do
    let n := (← base64Value? a) * 64 + (← base64Value? b)
    return [UInt8.ofNat (n / 16)]
  | [a, b, c, '='] => do
    let n := ((← base64Value? a) * 64 + (← base64Value? b)) * 64 + (← base64Value? c)
    return [UInt8.ofNat (n / 1024), UInt8.ofNat (n / 4)]
  | a :: b :: c :: d :: rest => do
    let n :=
      (((← base64Value? a) * 64 + (← base64Value? b)) * 64 + (← base64Value? c)) * 64 + (← base64Value? d)
    return UInt8.ofNat (n / 65536) :: UInt8.ofNat (n / 256) :: UInt8.ofNat n :: (← base64Bytes? rest)
  | _ => none

end AdmissionWatch.Text
