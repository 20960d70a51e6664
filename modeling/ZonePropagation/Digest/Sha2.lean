import ZonePropagation.Octets
/-!
The SHA-2 digests with 256, 384 and 512 bits.

A message is padded to whole blocks and folded block by block over eight words.  The word size
decides the block length, the round constants and the rotations; everything else is shared.
-/

namespace ZonePropagation.Digest

structure WordSize (Word : Type) where
  octets : Nat
  ofOctets : List UInt8 → Word
  toOctets : Word → List UInt8
  add : Word → Word → Word
  xor : Word → Word → Word
  and : Word → Word → Word
  not : Word → Word
  bigSigma0 : Word → Word
  bigSigma1 : Word → Word
  smallSigma0 : Word → Word
  smallSigma1 : Word → Word
  constants : List Word

/-- The eight words a digest carries from block to block. -/
structure State (Word : Type) where
  a : Word
  b : Word
  c : Word
  d : Word
  e : Word
  f : Word
  g : Word
  h : Word

namespace State

def words {Word : Type} (state : State Word) : List Word :=
  [state.a, state.b, state.c, state.d, state.e, state.f, state.g, state.h]

def add {Word : Type} (size : WordSize Word) (left right : State Word) : State Word where
  a := size.add left.a right.a
  b := size.add left.b right.b
  c := size.add left.c right.c
  d := size.add left.d right.d
  e := size.add left.e right.e
  f := size.add left.f right.f
  g := size.add left.g right.g
  h := size.add left.h right.h

end State

def groups (size : Nat) (octets : List UInt8) : List (List UInt8) :=
  match octets with
  | [] => []
  | first :: rest => (first :: rest.take (size - 1)) :: groups size (rest.drop (size - 1))
termination_by octets.length
decreasing_by simp only [List.length_cons, List.length_drop]; omega

/-- The octets that fill a message of `length` octets up to whole blocks. -/
def padding (block lengthOctets length : Nat) : List UInt8 :=
  let used := (length + 1 + lengthOctets) % block
  let zeros := if used = 0 then 0 else block - used
  let high := List.replicate (lengthOctets - 8) (0 : UInt8)
  (0x80 : UInt8) :: List.replicate zeros 0 ++ high ++ Octets.ofUInt64 (8 * length).toUInt64

def extendSchedule {Word : Type} (size : WordSize Word) : Nat → List Word → List Word
  | 0, schedule => schedule
  | count + 1, schedule =>
      match schedule[1]?, schedule[6]?, schedule[14]?, schedule[15]? with
      | some second, some seventh, some fifteenth, some sixteenth =>
          let word := size.add (size.add (size.smallSigma1 second) seventh)
            (size.add (size.smallSigma0 fifteenth) sixteenth)
          extendSchedule size count (word :: schedule)
      | _, _, _, _ => schedule

def round {Word : Type} (size : WordSize Word) (state : State Word) (step : Word × Word) :
    State Word :=
  let choice := size.xor (size.and state.e state.f) (size.and (size.not state.e) state.g)
  let majority := size.xor (size.xor (size.and state.a state.b) (size.and state.a state.c))
    (size.and state.b state.c)
  let first := size.add (size.add (size.add state.h (size.bigSigma1 state.e)) choice)
    (size.add step.1 step.2)
  let second := size.add (size.bigSigma0 state.a) majority
  { a := size.add first second
    b := state.a
    c := state.b
    d := state.c
    e := size.add state.d first
    f := state.e
    g := state.f
    h := state.g }

def compress {Word : Type} (size : WordSize Word) (state : State Word) (block : List UInt8) :
    State Word :=
  let first := ((groups size.octets block).map size.ofOctets).reverse
  let schedule := (extendSchedule size (size.constants.length - 16) first).reverse
  State.add size state ((size.constants.zip schedule).foldl (round size) state)

/-- The words of a message's digest from the given initial state. -/
def digest {Word : Type} (size : WordSize Word) (initial : State Word) (message : List UInt8) :
    List UInt8 :=
  let block := 16 * size.octets
  let padded := message ++ padding block (2 * size.octets) message.length
  ((groups block padded).foldl (compress size) initial).words.flatMap size.toOctets

def rotate32 (word : UInt32) (places : UInt32) : UInt32 :=
  (word >>> places) ||| (word <<< (32 - places))

def rotate64 (word : UInt64) (places : UInt64) : UInt64 :=
  (word >>> places) ||| (word <<< (64 - places))

def constants32 : List UInt32 := [
  0x428A2F98, 0x71374491, 0xB5C0FBCF, 0xE9B5DBA5, 0x3956C25B, 0x59F111F1, 0x923F82A4, 0xAB1C5ED5,
  0xD807AA98, 0x12835B01, 0x243185BE, 0x550C7DC3, 0x72BE5D74, 0x80DEB1FE, 0x9BDC06A7, 0xC19BF174,
  0xE49B69C1, 0xEFBE4786, 0x0FC19DC6, 0x240CA1CC, 0x2DE92C6F, 0x4A7484AA, 0x5CB0A9DC, 0x76F988DA,
  0x983E5152, 0xA831C66D, 0xB00327C8, 0xBF597FC7, 0xC6E00BF3, 0xD5A79147, 0x06CA6351, 0x14292967,
  0x27B70A85, 0x2E1B2138, 0x4D2C6DFC, 0x53380D13, 0x650A7354, 0x766A0ABB, 0x81C2C92E, 0x92722C85,
  0xA2BFE8A1, 0xA81A664B, 0xC24B8B70, 0xC76C51A3, 0xD192E819, 0xD6990624, 0xF40E3585, 0x106AA070,
  0x19A4C116, 0x1E376C08, 0x2748774C, 0x34B0BCB5, 0x391C0CB3, 0x4ED8AA4A, 0x5B9CCA4F, 0x682E6FF3,
  0x748F82EE, 0x78A5636F, 0x84C87814, 0x8CC70208, 0x90BEFFFA, 0xA4506CEB, 0xBEF9A3F7, 0xC67178F2]

def constants64 : List UInt64 := [
  0x428A2F98D728AE22, 0x7137449123EF65CD, 0xB5C0FBCFEC4D3B2F, 0xE9B5DBA58189DBBC,
  0x3956C25BF348B538, 0x59F111F1B605D019, 0x923F82A4AF194F9B, 0xAB1C5ED5DA6D8118,
  0xD807AA98A3030242, 0x12835B0145706FBE, 0x243185BE4EE4B28C, 0x550C7DC3D5FFB4E2,
  0x72BE5D74F27B896F, 0x80DEB1FE3B1696B1, 0x9BDC06A725C71235, 0xC19BF174CF692694,
  0xE49B69C19EF14AD2, 0xEFBE4786384F25E3, 0x0FC19DC68B8CD5B5, 0x240CA1CC77AC9C65,
  0x2DE92C6F592B0275, 0x4A7484AA6EA6E483, 0x5CB0A9DCBD41FBD4, 0x76F988DA831153B5,
  0x983E5152EE66DFAB, 0xA831C66D2DB43210, 0xB00327C898FB213F, 0xBF597FC7BEEF0EE4,
  0xC6E00BF33DA88FC2, 0xD5A79147930AA725, 0x06CA6351E003826F, 0x142929670A0E6E70,
  0x27B70A8546D22FFC, 0x2E1B21385C26C926, 0x4D2C6DFC5AC42AED, 0x53380D139D95B3DF,
  0x650A73548BAF63DE, 0x766A0ABB3C77B2A8, 0x81C2C92E47EDAEE6, 0x92722C851482353B,
  0xA2BFE8A14CF10364, 0xA81A664BBC423001, 0xC24B8B70D0F89791, 0xC76C51A30654BE30,
  0xD192E819D6EF5218, 0xD69906245565A910, 0xF40E35855771202A, 0x106AA07032BBD1B8,
  0x19A4C116B8D2D0C8, 0x1E376C085141AB53, 0x2748774CDF8EEB99, 0x34B0BCB5E19B48A8,
  0x391C0CB3C5C95A63, 0x4ED8AA4AE3418ACB, 0x5B9CCA4F7763E373, 0x682E6FF3D6B2B8A3,
  0x748F82EE5DEFB2FC, 0x78A5636F43172F60, 0x84C87814A1F0AB72, 0x8CC702081A6439EC,
  0x90BEFFFA23631E28, 0xA4506CEBDE82BDE9, 0xBEF9A3F7B2C67915, 0xC67178F2E372532B,
  0xCA273ECEEA26619C, 0xD186B8C721C0C207, 0xEADA7DD6CDE0EB1E, 0xF57D4F7FEE6ED178,
  0x06F067AA72176FBA, 0x0A637DC5A2C898A6, 0x113F9804BEF90DAE, 0x1B710B35131C471B,
  0x28DB77F523047D84, 0x32CAAB7B40C72493, 0x3C9EBE0A15C9BEBC, 0x431D67C49C100D4C,
  0x4CC5D4BECB3E42B6, 0x597F299CFC657E2A, 0x5FCB6FAB3AD6FAEC, 0x6C44198C4A475817]

def words32 : WordSize UInt32 where
  octets := 4
  ofOctets := fun octets => octets.foldl (fun word octet => word <<< 8 ||| octet.toUInt32) 0
  toOctets := Octets.ofUInt32
  add := (· + ·)
  xor := (· ^^^ ·)
  and := (· &&& ·)
  not := fun word => ~~~word
  bigSigma0 := fun word => rotate32 word 2 ^^^ rotate32 word 13 ^^^ rotate32 word 22
  bigSigma1 := fun word => rotate32 word 6 ^^^ rotate32 word 11 ^^^ rotate32 word 25
  smallSigma0 := fun word => rotate32 word 7 ^^^ rotate32 word 18 ^^^ (word >>> 3)
  smallSigma1 := fun word => rotate32 word 17 ^^^ rotate32 word 19 ^^^ (word >>> 10)
  constants := constants32

def words64 : WordSize UInt64 where
  octets := 8
  ofOctets := fun octets => octets.foldl (fun word octet => word <<< 8 ||| octet.toUInt64) 0
  toOctets := Octets.ofUInt64
  add := (· + ·)
  xor := (· ^^^ ·)
  and := (· &&& ·)
  not := fun word => ~~~word
  bigSigma0 := fun word => rotate64 word 28 ^^^ rotate64 word 34 ^^^ rotate64 word 39
  bigSigma1 := fun word => rotate64 word 14 ^^^ rotate64 word 18 ^^^ rotate64 word 41
  smallSigma0 := fun word => rotate64 word 1 ^^^ rotate64 word 8 ^^^ (word >>> 7)
  smallSigma1 := fun word => rotate64 word 19 ^^^ rotate64 word 61 ^^^ (word >>> 6)
  constants := constants64

def sha256 (message : List UInt8) : List UInt8 :=
  digest words32
    ⟨0x6A09E667, 0xBB67AE85, 0x3C6EF372, 0xA54FF53A,
      0x510E527F, 0x9B05688C, 0x1F83D9AB, 0x5BE0CD19⟩
    message

/-- The digest with 384 bits: six words of a 64-bit digest with an initial state of its own. -/
def sha384 (message : List UInt8) : List UInt8 :=
  let octets := digest words64
    ⟨0xCBBB9D5DC1059ED8, 0x629A292A367CD507, 0x9159015A3070DD17, 0x152FECD8F70E5939,
      0x67332667FFC00B31, 0x8EB44A8768581511, 0xDB0C2E0D64F98FA7, 0x47B5481DBEFA4FA4⟩
    message
  octets.take 48

def sha512 (message : List UInt8) : List UInt8 :=
  digest words64
    ⟨0x6A09E667F3BCC908, 0xBB67AE8584CAA73B, 0x3C6EF372FE94F82B, 0xA54FF53A5F1D36F1,
      0x510E527FADE682D1, 0x9B05688C2B3E6C1F, 0x1F83D9ABFB41BD6B, 0x5BE0CD19137E2179⟩
    message

end ZonePropagation.Digest
