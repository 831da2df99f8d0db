import IbrDtn.Library.InStream
import Mathlib

/-!
# Base64

Three bytes are four digits of six bits, in an alphabet of letters, decimal digits and two signs;
the last digits of a text whose bytes are no multiple of three are filled up with a pad.  The reader
is told how many bytes there are.

## Main definitions

* `Base64.encode` : the digits of a byte string, in one line.
* `Base64.decode` : reading a given number of bytes.

## Main results

* `Base64.reads_decode` : what was encoded is read back, whatever follows.
-/

namespace Base64

/-- The digit for a number below 64. -/
def digit (n : ℕ) : UInt8 :=
  UInt8.ofNat (if n < 26 then 0x41 + n else if n < 52 then 0x61 + (n - 26)
    else if n < 62 then 0x30 + (n - 52) else if n = 62 then 0x2b else 0x2f)

/-- The number of a digit; other bytes, as the pad is, count as zero. -/
def value (b : UInt8) : ℕ :=
  let n := b.toNat
  if 0x41 ≤ n ∧ n ≤ 0x5a then n - 0x41
  else if 0x61 ≤ n ∧ n ≤ 0x7a then n - 0x61 + 26
  else if 0x30 ≤ n ∧ n ≤ 0x39 then n - 0x30 + 52
  else if n = 0x2b then 62 else if n = 0x2f then 63 else 0

/-- The pad. -/
def pad : UInt8 := 0x3d

/-- The digits of three bytes. -/
def digits (a b c : UInt8) : List UInt8 :=
  [digit (a.toNat / 4), digit (a.toNat % 4 * 16 + b.toNat / 16),
    digit (b.toNat % 16 * 4 + c.toNat / 64), digit (c.toNat % 64)]

/-- The digits of a byte string. -/
def encode : List UInt8 → List UInt8
  | [] => []
  | [a] => (digits a 0 0).take 2 ++ [pad, pad]
  | [a, b] => (digits a b 0).take 3 ++ [pad]
  | a :: b :: c :: bs => digits a b c ++ encode bs

/-- The three bytes of four digits. -/
def bytes (ds : List UInt8) : List UInt8 :=
  match ds.map value with
  | [p, q, r, s] => [UInt8.ofNat (p * 4 + q / 16), UInt8.ofNat (q % 16 * 16 + r / 4),
      UInt8.ofNat (r % 4 * 64 + s)]
  | _ => []

/-- Read the digits of the given number of bytes. -/
def decode {ε : Type} : ℕ → Parser ε (List UInt8)
  | 0 => pure []
  | 1 => do return (bytes (← Parser.readBytes 4)).take 1
  | 2 => do return (bytes (← Parser.readBytes 4)).take 2
  | n + 3 => do
      let ds ← Parser.readBytes 4
      let bs ← decode n
      pure (bytes ds ++ bs)

theorem value_digit {n : ℕ} (h : n < 64) : value (digit n) = n := by
  revert n
  decide

/-- **Three bytes are read off their digits.** -/
theorem bytes_digits (a b c : UInt8) : bytes (digits a b c) = [a, b, c] := by
  have ha := a.toNat_lt
  have hb := b.toNat_lt
  have hc := c.toNat_lt
  have h₁ : value (digit (a.toNat / 4)) = a.toNat / 4 := value_digit (by omega)
  have h₂ : value (digit (a.toNat % 4 * 16 + b.toNat / 16)) = a.toNat % 4 * 16 + b.toNat / 16 :=
    value_digit (by omega)
  have h₃ : value (digit (b.toNat % 16 * 4 + c.toNat / 64)) = b.toNat % 16 * 4 + c.toNat / 64 :=
    value_digit (by omega)
  have h₄ : value (digit (c.toNat % 64)) = c.toNat % 64 := value_digit (by omega)
  have hfirst : a.toNat / 4 * 4 + (a.toNat % 4 * 16 + b.toNat / 16) / 16 = a.toNat := by omega
  have hsecond : (a.toNat % 4 * 16 + b.toNat / 16) % 16 * 16 +
      (b.toNat % 16 * 4 + c.toNat / 64) / 4 = b.toNat := by omega
  have hthird : (b.toNat % 16 * 4 + c.toNat / 64) % 4 * 64 + c.toNat % 64 = c.toNat := by omega
  simp only [bytes, digits, List.map_cons, List.map_nil, h₁, h₂, h₃, h₄, hfirst, hsecond, hthird,
    UInt8.ofNat_toNat]

/-- **What was encoded is read back**, whatever follows. -/
theorem reads_decode {ε : Type} (bs : List UInt8) :
    (decode bs.length : Parser ε (List UInt8)).Reads (encode bs) bs := by
  induction bs using encode.induct with
  | case1 => exact Parser.reads_pure []
  | case2 a =>
      -- The pads are read as the digits of zeros are.
      have hbytes : bytes (encode [a]) = [a, 0, 0] := bytes_digits a 0 0
      have hread : (decode 1 : Parser ε (List UInt8)).Reads (encode [a])
          ((bytes (encode [a])).take 1) := (Parser.reads_readBytes (encode [a])).bind_pure
      rwa [hbytes] at hread
  | case3 a b =>
      have hbytes : bytes (encode [a, b]) = [a, b, 0] := bytes_digits a b 0
      have hread : (decode 2 : Parser ε (List UInt8)).Reads (encode [a, b])
          ((bytes (encode [a, b])).take 2) := (Parser.reads_readBytes (encode [a, b])).bind_pure
      rwa [hbytes] at hread
  | case4 a b c bs ih =>
      have hrest : (do let bs ← decode bs.length; pure (bytes (digits a b c) ++ bs) :
          Parser ε (List UInt8)).Reads (encode bs) (a :: b :: c :: bs) := by
        rw [bytes_digits]
        exact ih.bind_pure
      exact (Parser.reads_readBytes (digits a b c)).bind hrest

end Base64
