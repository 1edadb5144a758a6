import Mathlib

/-! SHA-1 over lists of bytes, with 32-bit words kept as naturals below `2 ^ 32`. -/

namespace Sha1

def word (n : ℕ) : ℕ := n % 2 ^ 32

def add (a b : ℕ) : ℕ := word (a + b)

def rotl (n a : ℕ) : ℕ := word (a <<< n) ||| (a >>> (32 - n))

def complement (a : ℕ) : ℕ := 2 ^ 32 - 1 - a

structure State where
  a : ℕ
  b : ℕ
  c : ℕ
  d : ℕ
  e : ℕ

def initial : State := ⟨0x67452301, 0xEFCDAB89, 0x98BADCFE, 0x10325476, 0xC3D2E1F0⟩

/-- The round function and constant of round `t`. -/
def roundValue (t : ℕ) (s : State) : ℕ × ℕ :=
  if t < 20 then ((s.b &&& s.c) ||| (complement s.b &&& s.d), 0x5A827999)
  else if t < 40 then (s.b ^^^ s.c ^^^ s.d, 0x6ED9EBA1)
  else if t < 60 then ((s.b &&& s.c) ||| (s.b &&& s.d) ||| (s.c &&& s.d), 0x8F1BBCDC)
  else (s.b ^^^ s.c ^^^ s.d, 0xCA62C1D6)

def round (t w : ℕ) (s : State) : State :=
  let f := roundValue t s
  ⟨word (rotl 5 s.a + f.1 + s.e + f.2 + w), s.a, rotl 30 s.b, s.c, s.d⟩

/-- The message schedule, newest word first, extended by `n` words. -/
def schedule : ℕ → List ℕ → List ℕ
  | 0, ws => ws
  | n + 1, ws =>
    schedule n (rotl 1 (ws.getD 2 0 ^^^ ws.getD 7 0 ^^^ ws.getD 13 0 ^^^ ws.getD 15 0) :: ws)

def rounds : ℕ → List ℕ → State → State
  | _, [], s => s
  | t, w :: ws, s => rounds (t + 1) ws (round t w s)

def compress (h : State) (block : List ℕ) : State :=
  let s := rounds 0 (schedule 64 block.reverse).reverse h
  ⟨add h.a s.a, add h.b s.b, add h.c s.c, add h.d s.d, add h.e s.e⟩

def bytesToWords : List ℕ → List ℕ
  | b0 :: b1 :: b2 :: b3 :: rest =>
    (b0 * 2 ^ 24 + b1 * 2 ^ 16 + b2 * 2 ^ 8 + b3) :: bytesToWords rest
  | _ => []

/-- The message, a one bit, zeros, and the bit length in eight bytes. -/
def pad (message : List ℕ) : List ℕ :=
  let n := message.length
  let bits := 8 * n
  message ++ 0x80 :: List.replicate ((119 - n % 64) % 64) 0 ++
    (List.range 8).map fun i => bits / 256 ^ (7 - i) % 256

def blocks : ℕ → State → List ℕ → State
  | 0, h, _ => h
  | n + 1, h, ws => blocks n (compress h (ws.take 16)) (ws.drop 16)

def digest (message : List ℕ) : State :=
  let ws := bytesToWords (pad message)
  blocks (ws.length / 16) initial ws

def hexDigits (n : ℕ) : List Char :=
  (List.range 8).map fun i => Nat.digitChar (n / 16 ^ (7 - i) % 16)

/-- The digest in forty lower-case hexadecimal digits. -/
def hexdigest (message : List ℕ) : String :=
  let h := digest message
  String.ofList
    (hexDigits h.a ++ hexDigits h.b ++ hexDigits h.c ++ hexDigits h.d ++ hexDigits h.e)

/-- The UTF-8 bytes of a character. -/
def utf8Char (c : Char) : List ℕ :=
  let n := c.toNat
  if n < 0x80 then [n]
  else if n < 0x800 then [0xC0 + n / 64, 0x80 + n % 64]
  else if n < 0x10000 then [0xE0 + n / 4096, 0x80 + n / 64 % 64, 0x80 + n % 64]
  else [0xF0 + n / 262144, 0x80 + n / 4096 % 64, 0x80 + n / 64 % 64, 0x80 + n % 64]

/-- `s.encode("utf-8")`. -/
def utf8 (s : String) : List ℕ := s.toList.flatMap utf8Char

example : hexdigest (utf8 "abc") = "a9993e364706816aba3e25717850c26c9cd0d89d" := by
  decide +kernel

end Sha1
