/-!
Punycode (RFC 3492): the spelling of a label with characters outside ASCII.

The ASCII characters of the label come first.  After a hyphen follow the other characters in the
order of their codes, each as the distance from the one before, in variable-length digits.
-/

namespace ZonePropagation.Text.Punycode

def digit (value : Nat) : Char :=
  if value < 26 then Char.ofNat (97 + value) else Char.ofNat (22 + value)

/-- The bias after a distance, from the scaled distance. -/
def scaledBias (scale : Nat) : (fuel : Nat) → (distance : Nat) → Nat
  | 0, _ => scale
  | fuel + 1, distance =>
      if distance > 455 then scaledBias (scale + 36) fuel (distance / 35)
      else scale + 36 * distance / (distance + 38)

def bias (distance count : Nat) (isFirst : Bool) : Nat :=
  let scaled := if isFirst then distance / 700 else distance / 2
  scaledBias 0 64 (scaled + scaled / count)

def distanceDigits (bias : Nat) : (fuel : Nat) → (position rest : Nat) → List Char
  | 0, _, _ => []
  | fuel + 1, position, rest =>
      let threshold := min (max (position - bias) 1) 26
      if rest < threshold then [digit rest]
      else digit (threshold + (rest - threshold) % (36 - threshold)) ::
        distanceDigits bias fuel (position + 36) ((rest - threshold) / (36 - threshold))

structure Progress where
  written : List Char
  distance : Nat := 0
  bias : Nat := 72
  handled : Nat

def writeCode (code basic : Nat) (progress : Progress) (character : Char) : Progress :=
  if character.toNat < code then { progress with distance := progress.distance + 1 }
  else if character.toNat = code then
    { written := progress.written ++ distanceDigits progress.bias 64 36 progress.distance
      distance := 0
      bias := Punycode.bias progress.distance (progress.handled + 1) (progress.handled == basic)
      handled := progress.handled + 1 }
  else progress

/-- Writes all codes from `code` on, of which the least in the label comes next. -/
def writeCodes (label : List Char) (basic : Nat) :
    (fuel : Nat) → (code : Nat) → Progress → List Char
  | 0, _, progress => progress.written
  | fuel + 1, code, progress =>
      match ((label.map Char.toNat).filter (code ≤ ·)).min? with
      | none => progress.written
      | some next =>
          let reached :=
            { progress with distance := progress.distance + (next - code) * (progress.handled + 1) }
          let after := label.foldl (writeCode next basic) reached
          writeCodes label basic fuel (next + 1) { after with distance := after.distance + 1 }

def encode (label : List Char) : List Char :=
  let ascii := label.filter fun character => character.toNat < 128
  let start := if ascii.isEmpty then [] else ascii ++ ['-']
  writeCodes label ascii.length (label.length + 1) 128 { written := start, handled := ascii.length }

end ZonePropagation.Text.Punycode
