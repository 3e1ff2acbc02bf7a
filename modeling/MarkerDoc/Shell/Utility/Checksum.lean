import MarkerDoc.Shell.Utility.Octets

/-!
# Checksums

Short numbers by which texts can be told apart: a cyclic redundancy check, a sum and digests.
-/

namespace MarkerDoc.Shell.Utility

namespace Checksum

/-- One byte of the cyclic redundancy check. -/
def crcStep (crc : UInt32) (b : Nat) : UInt32 :=
  let start := crc ^^^ (UInt32.ofNat b <<< 24)
  (List.range 8).foldl (fun c _ =>
    if c &&& 0x80000000 != 0 then (c <<< 1) ^^^ 0x04C11DB7 else c <<< 1) start

/-- The bytes of a length, the lowest first, without zeros at the end. -/
def lengthBytes : Nat → Nat → List Nat
  | 0, _ => []
  | fuel + 1, n => if n = 0 then [] else n % 256 :: lengthBytes fuel (n / 256)

/-- The cyclic redundancy check of a text and its length. -/
def crc (bytes : List Nat) : Nat :=
  ((bytes ++ lengthBytes 16 bytes.length).foldl crcStep 0 ^^^ 0xFFFFFFFF).toNat

/-- Fills bytes up to whole blocks: a one bit, zeros, and the length in bits in eight bytes. -/
def padded (lowFirst : Bool) (bytes : List Nat) : List Nat :=
  let bits := 8 * bytes.length
  let size := (List.range 8).map fun i => bits / Nat.pow 256 i % 256
  let zeros := (119 - bytes.length % 64) % 64
  bytes ++ 0x80 :: List.replicate zeros 0 ++ (if lowFirst then size else size.reverse)

/-- Bytes as words of 32 bits. -/
def wordsOf (lowFirst : Bool) (bytes : List Nat) : List UInt32 :=
  (groups 4 (bytes.length + 1) bytes).map fun g =>
    UInt32.ofNat ((if lowFirst then g.reverse else g).foldl (fun n b => 256 * n + b) 0)

def rotate (x : UInt32) (n : Nat) : UInt32 :=
  (x <<< UInt32.ofNat n) ||| (x >>> UInt32.ofNat (32 - n))

/-- A word as hexadecimal digits. -/
def hex (lowFirst : Bool) (w : UInt32) : String :=
  let bytes :=
    [w.toNat / Nat.pow 2 24, w.toNat / Nat.pow 2 16 % 256, w.toNat / 256 % 256, w.toNat % 256]
  String.join ((if lowFirst then bytes.reverse else bytes).map fun b =>
    padLeft 2 '0' (String.ofList (Nat.toDigits 16 b)))

/-- The whole part of a number of 32 binary places. -/
def scaled (x : Float) : UInt32 :=
  UInt32.ofNat (Decimal.toInt (x * 4294967296.0)).toNat

def shifts : Array Nat :=
  #[7, 12, 17, 22, 5, 9, 14, 20, 4, 11, 16, 23, 6, 10, 15, 21]

/-- One block of the first digest. -/
def mix5 (state : List UInt32) (block : Array UInt32) : List UInt32 :=
  match state with
  | [a0, b0, c0, d0] =>
    let (a, b, c, d) := (List.range 64).foldl (fun (a, b, c, d) i =>
      let (f, g) :=
        if i < 16 then ((b &&& c) ||| (~~~b &&& d), i)
        else if i < 32 then ((d &&& b) ||| (~~~d &&& c), (5 * i + 1) % 16)
        else if i < 48 then (b ^^^ c ^^^ d, (3 * i + 5) % 16)
        else (c ^^^ (b ||| ~~~d), 7 * i % 16)
      let k := scaled (Float.abs (Float.sin (Decimal.ofInt (i + 1))))
      let sum := a + f + k + block.getD g 0
      (d, b + rotate sum (shifts.getD (4 * (i / 16) + i % 4) 0), b, c)) (a0, b0, c0, d0)
    [a0 + a, b0 + b, c0 + c, d0 + d]
  | _ => state

/-- Extends a block by words that are mixed from earlier ones. -/
def extend (next : Array UInt32 → Nat → UInt32) (size : Nat) (block : Array UInt32) :
    Array UInt32 :=
  (List.range (size - 16)).foldl (fun w i => w.push (next w (i + 16))) block

/-- One block of the second digest. -/
def mix1 (state : List UInt32) (block : Array UInt32) : List UInt32 :=
  match state with
  | [a0, b0, c0, d0, e0] =>
    let w := extend (fun w i =>
      rotate (w.getD (i - 3) 0 ^^^ w.getD (i - 8) 0 ^^^ w.getD (i - 14) 0 ^^^ w.getD (i - 16) 0) 1)
      80 block
    let (a, b, c, d, e) := (List.range 80).foldl (fun (a, b, c, d, e) i =>
      let (f, k) :=
        if i < 20 then ((b &&& c) ||| (~~~b &&& d), (0x5A827999 : UInt32))
        else if i < 40 then (b ^^^ c ^^^ d, 0x6ED9EBA1)
        else if i < 60 then ((b &&& c) ||| (b &&& d) ||| (c &&& d), 0x8F1BBCDC)
        else (b ^^^ c ^^^ d, 0xCA62C1D6)
      (rotate a 5 + f + e + k + w.getD i 0, a, rotate b 30, c, d)) (a0, b0, c0, d0, e0)
    [a0 + a, b0 + b, c0 + c, d0 + d, e0 + e]
  | _ => state

/-- The constants of the third digest. -/
def constants : Array UInt32 := #[
  0x428a2f98, 0x71374491, 0xb5c0fbcf, 0xe9b5dba5, 0x3956c25b, 0x59f111f1, 0x923f82a4, 0xab1c5ed5,
  0xd807aa98, 0x12835b01, 0x243185be, 0x550c7dc3, 0x72be5d74, 0x80deb1fe, 0x9bdc06a7, 0xc19bf174,
  0xe49b69c1, 0xefbe4786, 0x0fc19dc6, 0x240ca1cc, 0x2de92c6f, 0x4a7484aa, 0x5cb0a9dc, 0x76f988da,
  0x983e5152, 0xa831c66d, 0xb00327c8, 0xbf597fc7, 0xc6e00bf3, 0xd5a79147, 0x06ca6351, 0x14292967,
  0x27b70a85, 0x2e1b2138, 0x4d2c6dfc, 0x53380d13, 0x650a7354, 0x766a0abb, 0x81c2c92e, 0x92722c85,
  0xa2bfe8a1, 0xa81a664b, 0xc24b8b70, 0xc76c51a3, 0xd192e819, 0xd6990624, 0xf40e3585, 0x106aa070,
  0x19a4c116, 0x1e376c08, 0x2748774c, 0x34b0bcb5, 0x391c0cb3, 0x4ed8aa4a, 0x5b9cca4f, 0x682e6ff3,
  0x748f82ee, 0x78a5636f, 0x84c87814, 0x8cc70208, 0x90befffa, 0xa4506ceb, 0xbef9a3f7, 0xc67178f2]

/-- One block of the third digest. -/
def mix256 (state : List UInt32) (block : Array UInt32) : List UInt32 :=
  let right (x : UInt32) (n : Nat) : UInt32 := rotate x (32 - n)
  let w := extend (fun w i =>
    let x := w.getD (i - 15) 0
    let y := w.getD (i - 2) 0
    w.getD (i - 16) 0 + (right x 7 ^^^ right x 18 ^^^ (x >>> 3)) + w.getD (i - 7) 0 +
      (right y 17 ^^^ right y 19 ^^^ (y >>> 10))) 64 block
  let final := (List.range 64).foldl (fun s i =>
    match s with
    | [a, b, c, d, e, f, g, h] =>
      let t := h + (right e 6 ^^^ right e 11 ^^^ right e 25) + ((e &&& f) ^^^ (~~~e &&& g)) +
        constants.getD i 0 + w.getD i 0
      let u := (right a 2 ^^^ right a 13 ^^^ right a 22) + ((a &&& b) ^^^ (a &&& c) ^^^ (b &&& c))
      [t + u, a, b, c, d + t, e, f, g]
    | s => s) state
  List.zipWith (· + ·) state final

/-- The shifting checksum of sixteen bits. -/
def shifting (bytes : List Nat) : Nat :=
  bytes.foldl (fun sum b => (sum / 2 + sum % 2 * 0x8000 + b) % 0x10000) 0

/-! ### The digests with words of 64 bits -/

/-- The constants of the digests with long words. -/
def longConstants : Array UInt64 := #[
  0x428a2f98d728ae22, 0x7137449123ef65cd, 0xb5c0fbcfec4d3b2f, 0xe9b5dba58189dbbc,
  0x3956c25bf348b538, 0x59f111f1b605d019, 0x923f82a4af194f9b, 0xab1c5ed5da6d8118,
  0xd807aa98a3030242, 0x12835b0145706fbe, 0x243185be4ee4b28c, 0x550c7dc3d5ffb4e2,
  0x72be5d74f27b896f, 0x80deb1fe3b1696b1, 0x9bdc06a725c71235, 0xc19bf174cf692694,
  0xe49b69c19ef14ad2, 0xefbe4786384f25e3, 0x0fc19dc68b8cd5b5, 0x240ca1cc77ac9c65,
  0x2de92c6f592b0275, 0x4a7484aa6ea6e483, 0x5cb0a9dcbd41fbd4, 0x76f988da831153b5,
  0x983e5152ee66dfab, 0xa831c66d2db43210, 0xb00327c898fb213f, 0xbf597fc7beef0ee4,
  0xc6e00bf33da88fc2, 0xd5a79147930aa725, 0x06ca6351e003826f, 0x142929670a0e6e70,
  0x27b70a8546d22ffc, 0x2e1b21385c26c926, 0x4d2c6dfc5ac42aed, 0x53380d139d95b3df,
  0x650a73548baf63de, 0x766a0abb3c77b2a8, 0x81c2c92e47edaee6, 0x92722c851482353b,
  0xa2bfe8a14cf10364, 0xa81a664bbc423001, 0xc24b8b70d0f89791, 0xc76c51a30654be30,
  0xd192e819d6ef5218, 0xd69906245565a910, 0xf40e35855771202a, 0x106aa07032bbd1b8,
  0x19a4c116b8d2d0c8, 0x1e376c085141ab53, 0x2748774cdf8eeb99, 0x34b0bcb5e19b48a8,
  0x391c0cb3c5c95a63, 0x4ed8aa4ae3418acb, 0x5b9cca4f7763e373, 0x682e6ff3d6b2b8a3,
  0x748f82ee5defb2fc, 0x78a5636f43172f60, 0x84c87814a1f0ab72, 0x8cc702081a6439ec,
  0x90befffa23631e28, 0xa4506cebde82bde9, 0xbef9a3f7b2c67915, 0xc67178f2e372532b,
  0xca273eceea26619c, 0xd186b8c721c0c207, 0xeada7dd6cde0eb1e, 0xf57d4f7fee6ed178,
  0x06f067aa72176fba, 0x0a637dc5a2c898a6, 0x113f9804bef90dae, 0x1b710b35131c471b,
  0x28db77f523047d84, 0x32caab7b40c72493, 0x3c9ebe0a15c9bebc, 0x431d67c49c100d4c,
  0x4cc5d4becb3e42b6, 0x597f299cfc657e2a, 0x5fcb6fab3ad6faec, 0x6c44198c4a475817]

def rotateLong (x : UInt64) (n : Nat) : UInt64 :=
  (x >>> UInt64.ofNat n) ||| (x <<< UInt64.ofNat (64 - n))

/-- One block of a digest with long words. -/
def mixLong (state : List UInt64) (block : Array UInt64) : List UInt64 :=
  let w := (List.range 64).foldl (fun w i =>
    let x := w.getD (i + 1) 0
    let y := w.getD (i + 14) 0
    w.push (w.getD i 0 + (rotateLong x 1 ^^^ rotateLong x 8 ^^^ (x >>> 7)) + w.getD (i + 9) 0 +
      (rotateLong y 19 ^^^ rotateLong y 61 ^^^ (y >>> 6)))) block
  let final := (List.range 80).foldl (fun s i =>
    match s with
    | [a, b, c, d, e, f, g, h] =>
      let t := h + (rotateLong e 14 ^^^ rotateLong e 18 ^^^ rotateLong e 41) +
        ((e &&& f) ^^^ (~~~e &&& g)) + longConstants.getD i 0 + w.getD i 0
      let u := (rotateLong a 28 ^^^ rotateLong a 34 ^^^ rotateLong a 39) +
        ((a &&& b) ^^^ (a &&& c) ^^^ (b &&& c))
      [t + u, a, b, c, d + t, e, f, g]
    | s => s) state
  List.zipWith (· + ·) state final

/-- Mixes all blocks into a state of long words and writes some of it down. -/
def longDigest (start : List UInt64) (size : Nat) (bytes : List Nat) : String :=
  let bits := 8 * bytes.length
  let zeros := (239 - bytes.length % 128) % 128
  let all := bytes ++ 0x80 :: List.replicate zeros 0 ++
    (List.range 16).map fun i => bits / Nat.pow 256 (15 - i) % 256
  let words := (groups 8 (all.length + 1) all).map fun g =>
    UInt64.ofNat (g.foldl (fun n b => 256 * n + b) 0)
  let final := (groups 16 (words.length + 1) words).foldl (fun s g => mixLong s g.toArray) start
  String.ofList ((String.join (final.map fun w =>
    padLeft 16 '0' (String.ofList (Nat.toDigits 16 w.toNat)))).toList.take size)

def sha512 : List Nat → String :=
  longDigest [0x6a09e667f3bcc908, 0xbb67ae8584caa73b, 0x3c6ef372fe94f82b, 0xa54ff53a5f1d36f1,
    0x510e527fade682d1, 0x9b05688c2b3e6c1f, 0x1f83d9abfb41bd6b, 0x5be0cd19137e2179] 128

def sha384 : List Nat → String :=
  longDigest [0xcbbb9d5dc1059ed8, 0x629a292a367cd507, 0x9159015a3070dd17, 0x152fecd8f70e5939,
    0x67332667ffc00b31, 0x8eb44a8768581511, 0xdb0c2e0d64f98fa7, 0x47b5481dbefa4fa4] 96

/-- Mixes all blocks into a state and writes it down. -/
def digest (lowFirst : Bool) (start : List UInt32)
    (mix : List UInt32 → Array UInt32 → List UInt32) (bytes : List Nat) : String :=
  let all := wordsOf lowFirst (padded lowFirst bytes)
  let final := (groups 16 (all.length + 1) all).foldl (fun s g => mix s g.toArray) start
  String.join (final.map (hex lowFirst))

def md5 : List Nat → String :=
  digest true [0x67452301, 0xefcdab89, 0x98badcfe, 0x10325476] mix5

def sha1 : List Nat → String :=
  digest false [0x67452301, 0xEFCDAB89, 0x98BADCFE, 0x10325476, 0xC3D2E1F0] mix1

def sha256 : List Nat → String :=
  digest false [0x6a09e667, 0xbb67ae85, 0x3c6ef372, 0xa54ff53a, 0x510e527f, 0x9b05688c,
    0x1f83d9ab, 0x5be0cd19] mix256

def sha224 (bytes : List Nat) : String :=
  String.ofList ((digest false [0xc1059ed8, 0x367cd507, 0x3070dd17, 0xf70e5939, 0xffc00b31,
    0x68581511, 0x64f98fa7, 0xbefa4fa4] mix256 bytes).toList.take 56)

end Checksum

def bytesOf (text : String) : List Nat :=
  text.toList.map Char.toNat

/-- Shows the cyclic redundancy checks of files. -/
def cksum (args : List String) : Act Nat := do
  let (found, ok) ← contentsOf (plainComplaint "cksum") args
  for (name, text) in found do
    say (toString (Checksum.crc (bytesOf text)) ++ " " ++ toString text.length ++
      (if args.isEmpty then "" else " " ++ name) ++ "\n")
  return if ok then 0 else 1

/-- Shows the shifting checksums of files and their numbers of blocks. -/
def sum (args : List String) : Act Nat :=
  withOptions "sum" "rs" [("sysv", 's')] 1 args fun o => do
    let (found, ok) ← contentsOf (plainComplaint "sum") o.operands
    for (name, text) in found do
      let bytes := bytesOf text
      let total := bytes.foldl (· + ·) 0
      let folded := total % 65536 + total % 4294967296 / 65536
      let shown := if o.has 's' then
          toString (folded % 65536 + folded / 65536) ++ " " ++ toString ((bytes.length + 511) / 512)
        else padLeft 5 '0' (toString (Checksum.shifting bytes)) ++ " " ++
          padLeft 5 ' ' (toString ((bytes.length + 1023) / 1024))
      say (shown ++ (if o.operands.isEmpty then "" else " " ++ name) ++ "\n")
    return if ok then 0 else 1

/-- Checks digests that were noted down before. -/
def checkDigests (program : String) (digest : List Nat → String) (notes : List String) :
    Act Nat := do
  let mut bad := 0
  for note in notes do
    let sum := String.ofList (note.toList.takeWhile (· != ' '))
    let name := String.ofList (note.toList.drop (sum.length + 2))
    match ← contentOf name with
    | .ok text =>
      if digest (bytesOf text) == sum then say (name ++ ": OK\n")
      else
        say (name ++ ": FAILED\n")
        bad := bad + 1
    | .error e =>
      complain (plainComplaint program name e)
      say (name ++ ": FAILED open or read\n")
      bad := bad + 1
  if bad != 0 then
    complain (program ++ ": WARNING: " ++ toString bad ++
      (if bad = 1 then " computed checksum did NOT match" else " computed checksums did NOT match"))
  return if bad = 0 then 0 else 1

/-- Shows the digests of files. -/
def digests (program : String) (digest : List Nat → String) (args : List String) : Act Nat :=
  withOptions program "cbtq" [("check", 'c'), ("binary", 'b'), ("text", 't')] 1 args fun o => do
    let (found, ok) ← contentsOf (plainComplaint program) o.operands
    if o.has 'c' then checkDigests program digest (found.flatMap fun (_, text) => textLines text)
    else
      for (name, text) in found do
        say (digest (bytesOf text) ++ (if o.has 'b' then " *" else "  ") ++ name ++ "\n")
      return if ok then 0 else 1

end MarkerDoc.Shell.Utility
