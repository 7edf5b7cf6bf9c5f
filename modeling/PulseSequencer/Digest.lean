-- A 160-bit digest of a byte string, as SHA-1 defines it: the message is padded
-- to whole blocks of 64 bytes, and each block is mixed into five words.

namespace PulseSequencer

/-- Five words, most significant first. -/
structure Digest where
  a : UInt32
  b : UInt32
  c : UInt32
  d : UInt32
  e : UInt32
deriving DecidableEq

namespace Digest

/-! ## The view of a digest -/

def words (h : Digest) : List UInt32 := [h.a, h.b, h.c, h.d, h.e]

/-- The four bytes of a word, most significant first. -/
def wordBytes (w : UInt32) : List UInt8 :=
  [(w >>> 24).toUInt8, (w >>> 16).toUInt8, (w >>> 8).toUInt8, w.toUInt8]

def bytes (h : Digest) : List UInt8 := h.words.flatMap wordBytes

def hexDigit (n : UInt8) : Char :=
  if n < 10 then Char.ofNat (48 + n.toNat) else Char.ofNat (87 + n.toNat)

/-- The forty lower-case hexadecimal digits. -/
def hex (h : Digest) : String :=
  String.ofList (h.bytes.flatMap fun (byte : UInt8) =>
    [hexDigit (byte >>> 4), hexDigit (byte &&& 15)])

/-- The first seven digits, enough to tell digests apart in a listing. -/
def abbreviated (h : Digest) : String := (h.hex.take 7).toString

/-- Digests are ordered as byte strings. -/
instance : Ord Digest where
  compare g h :=
    (compare g.a h.a).then <| (compare g.b h.b).then <| (compare g.c h.c).then <|
      (compare g.d h.d).then (compare g.e h.e)

/-! ## Mixing one block -/

def rotateLeft (w : UInt32) (n : UInt32) : UInt32 := (w <<< n) ||| (w >>> (32 - n))

/-- The words that round `t` mixes in, given the three middle words. -/
def roundTerm (t : Nat) (b c d : UInt32) : UInt32 :=
  if t < 20 then ((b &&& c) ||| (~~~b &&& d)) + 0x5a827999
  else if t < 40 then (b ^^^ c ^^^ d) + 0x6ed9eba1
  else if t < 60 then ((b &&& c) ||| (b &&& d) ||| (c &&& d)) + 0x8f1bbcdc
  else (b ^^^ c ^^^ d) + 0xca62c1d6

/-- Word `i` of a block, its first byte most significant. -/
def blockWord (block : Array UInt8) (i : Nat) : UInt32 :=
  let byte (j : Nat) : UInt32 := (block.getD (4 * i + j) 0).toUInt32
  (byte 0 <<< 24) ||| (byte 1 <<< 16) ||| (byte 2 <<< 8) ||| byte 3

/-- The eighty words of a block: its own sixteen, then each from four earlier ones. -/
def schedule (block : Array UInt8) : Array UInt32 :=
  (List.range 64).foldl
    (fun w i => w.push <| rotateLeft
      (w.getD (i + 13) 0 ^^^ w.getD (i + 8) 0 ^^^ w.getD (i + 2) 0 ^^^ w.getD i 0) 1)
    ((Array.range 16).map (blockWord block))

def round (w : Array UInt32) (h : Digest) (t : Nat) : Digest where
  a := rotateLeft h.a 5 + roundTerm t h.b h.c h.d + h.e + w.getD t 0
  b := h.a
  c := rotateLeft h.b 30
  d := h.c
  e := h.d

def mixBlock (h : Digest) (block : Array UInt8) : Digest :=
  let m := (List.range 80).foldl (round (schedule block)) h
  ⟨h.a + m.a, h.b + m.b, h.c + m.c, h.d + m.d, h.e + m.e⟩

/-! ## The whole message -/

def start : Digest := ⟨0x67452301, 0xefcdab89, 0x98badcfe, 0x10325476, 0xc3d2e1f0⟩

/-- A digest under way: the blocks so far, and the bytes of the block being filled. -/
structure Unfinished where
  mixed : Digest
  pending : Array UInt8

def Unfinished.push (p : Unfinished) (byte : UInt8) : Unfinished :=
  let pending := p.pending.push byte
  if pending.size = 64 then ⟨mixBlock p.mixed pending, #[]⟩ else ⟨p.mixed, pending⟩

/-- The eight bytes of the message's length in bits. -/
def lengthBytes (byteCount : Nat) : List UInt8 :=
  let bits := UInt64.ofNat (8 * byteCount)
  [56, 48, 40, 32, 24, 16, 8, 0].map fun (shift : UInt64) => (bits >>> shift).toUInt8

/-- What follows the message: a one bit, zeros up to eight bytes short of a block, the
length. -/
def padding (byteCount : Nat) : List UInt8 :=
  0x80 :: List.replicate ((119 - byteCount % 64) % 64) 0 ++ lengthBytes byteCount

def ofBytes (message : List UInt8) : Digest :=
  ((message ++ padding message.length).foldl Unfinished.push ⟨start, #[]⟩).mixed

end Digest

end PulseSequencer
