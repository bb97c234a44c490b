import Narwhal.Lib.Hex

namespace pylib

/-! SHA-256 over octet strings, with 32-bit words held as natural numbers. -/

def word (n : Nat) : Nat := n % 4294967296

/-- A word written twice in a row: its shifts hold the rotations of the word. -/
def twice (x : Nat) : Nat := x * 4294967297

def bigSigma0 (x : Nat) : Nat :=
  (fun y => word ((y >>> 2) ^^^ (y >>> 13) ^^^ (y >>> 22))) (twice x)

def bigSigma1 (x : Nat) : Nat :=
  (fun y => word ((y >>> 6) ^^^ (y >>> 11) ^^^ (y >>> 25))) (twice x)

def smallSigma0 (x : Nat) : Nat :=
  (fun y => word ((y >>> 7) ^^^ (y >>> 18)) ^^^ (x >>> 3)) (twice x)

def smallSigma1 (x : Nat) : Nat :=
  (fun y => word ((y >>> 17) ^^^ (y >>> 19)) ^^^ (x >>> 10)) (twice x)

def choose (x y z : Nat) : Nat := (x &&& y) ^^^ ((4294967295 - x) &&& z)

def majority (x y z : Nat) : Nat := (x &&& y) ^^^ (x &&& z) ^^^ (y &&& z)

/-- The round constants. -/
def roundConstants : List Nat :=
  [0x428a2f98, 0x71374491, 0xb5c0fbcf, 0xe9b5dba5, 0x3956c25b, 0x59f111f1, 0x923f82a4, 0xab1c5ed5,
    0xd807aa98, 0x12835b01, 0x243185be, 0x550c7dc3, 0x72be5d74, 0x80deb1fe, 0x9bdc06a7, 0xc19bf174,
    0xe49b69c1, 0xefbe4786, 0x0fc19dc6, 0x240ca1cc, 0x2de92c6f, 0x4a7484aa, 0x5cb0a9dc, 0x76f988da,
    0x983e5152, 0xa831c66d, 0xb00327c8, 0xbf597fc7, 0xc6e00bf3, 0xd5a79147, 0x06ca6351, 0x14292967,
    0x27b70a85, 0x2e1b2138, 0x4d2c6dfc, 0x53380d13, 0x650a7354, 0x766a0abb, 0x81c2c92e, 0x92722c85,
    0xa2bfe8a1, 0xa81a664b, 0xc24b8b70, 0xc76c51a3, 0xd192e819, 0xd6990624, 0xf40e3585, 0x106aa070,
    0x19a4c116, 0x1e376c08, 0x2748774c, 0x34b0bcb5, 0x391c0cb3, 0x4ed8aa4a, 0x5b9cca4f, 0x682e6ff3,
    0x748f82ee, 0x78a5636f, 0x84c87814, 0x8cc70208, 0x90befffa, 0xa4506ceb, 0xbef9a3f7, 0xc67178f2]

/-- The eight working variables. -/
structure ShaState where
  (a b c d e f g h : Nat)

def initialState : ShaState :=
  ⟨0x6a09e667, 0xbb67ae85, 0x3c6ef372, 0xa54ff53a, 0x510e527f, 0x9b05688c, 0x1f83d9ab, 0x5be0cd19⟩

def ShaState.round (s : ShaState) (k w : Nat) : ShaState :=
  let t1 := s.h + bigSigma1 s.e + choose s.e s.f s.g + k + w
  let t2 := bigSigma0 s.a + majority s.a s.b s.c
  ⟨word (t1 + t2), s.a, s.b, s.c, word (s.d + t1), s.e, s.f, s.g⟩

/-- Sixteen consecutive words of the message schedule. -/
structure Window where
  (w0 w1 w2 w3 w4 w5 w6 w7 w8 w9 w10 w11 w12 w13 w14 w15 : Nat)

/-- The window one word later. -/
def Window.next (w : Window) : Window :=
  ⟨w.w1, w.w2, w.w3, w.w4, w.w5, w.w6, w.w7, w.w8, w.w9, w.w10, w.w11, w.w12, w.w13, w.w14, w.w15,
    word (smallSigma1 w.w14 + w.w9 + smallSigma0 w.w1 + w.w0)⟩

def ShaState.block (s : ShaState) (w : Window) : ShaState :=
  let t := (roundConstants.foldl (fun t k => (t.1.round k t.2.w0, t.2.next)) (s, w)).1
  ⟨word (s.a + t.a), word (s.b + t.b), word (s.c + t.c), word (s.d + t.d), word (s.e + t.e),
    word (s.f + t.f), word (s.g + t.g), word (s.h + t.h)⟩

def ShaState.blocks (s : ShaState) : List Nat → ShaState
  | w0 :: w1 :: w2 :: w3 :: w4 :: w5 :: w6 :: w7 :: w8 :: w9 :: w10 :: w11 :: w12 :: w13 :: w14 :: w15 :: rest =>
    (s.block ⟨w0, w1, w2, w3, w4, w5, w6, w7, w8, w9, w10, w11, w12, w13, w14, w15⟩).blocks rest
  | _ => s

/-- The `len` octets of a number, the most significant first. -/
def bigEndian : Nat → Nat → Bytes
  | 0, _ => []
  | len + 1, n => UInt8.ofNat (n >>> (8 * len)) :: bigEndian len n

def shaPad (msg : Bytes) : Bytes :=
  msg ++ 0x80 :: (List.replicate ((119 - msg.length % 64) % 64) 0 ++ bigEndian 8 (8 * msg.length))

def wordsOf : Bytes → List Nat
  | a :: b :: c :: d :: rest => (((a.toNat * 256 + b.toNat) * 256 + c.toNat) * 256 + d.toNat) :: wordsOf rest
  | _ => []

def ShaState.digest (s : ShaState) : Bytes :=
  [s.a, s.b, s.c, s.d, s.e, s.f, s.g, s.h].flatMap (bigEndian 4)

@[irreducible] def sha256 (msg : Bytes) : Bytes :=
  (initialState.blocks (wordsOf (shaPad msg))).digest

/-- `hashlib.sha256(msg).hexdigest()`. -/
def sha256_hexdigest (msg : Bytes) : Str := toHex (sha256 msg)

example : sha256_hexdigest (blit "abc") =
    lit "ba7816bf8f01cfea414140de5dae2223b00361a396177a9cb410ff61f20015ad" := by
  decide +kernel

theorem length_bigEndian (len n : Nat) : (bigEndian len n).length = len := by
  induction len with
  | zero => rfl
  | succ len ih => simp [bigEndian, ih]

theorem length_sha256_hexdigest (msg : Bytes) : (sha256_hexdigest msg).length = 64 := by
  have hdigest : (sha256 msg).length = 32 := by
    unfold sha256 ShaState.digest
    simp [length_bigEndian]
  rw [sha256_hexdigest, length_toHex, hdigest]

theorem isLowerHex_sha256_hexdigest {msg : Bytes} {c : Nat} (h : c ∈ sha256_hexdigest msg) :
    isLowerHex c = true :=
  isLowerHex_of_mem_toHex h

end pylib
