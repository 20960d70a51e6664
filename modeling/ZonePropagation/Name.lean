import ZonePropagation.Octets
import ZonePropagation.Text.Blank
/-!
Domain names as text and as label lists.

A label list leaves the root label out.  Text ends each label with a dot; reading text back drops
empty labels.  Two texts name the same domain when they agree up to ASCII case and dots at the
end, and label lists have a canonical octet spelling that folds ASCII case.
-/

namespace ZonePropagation.Name

def splitDots : List Char → List (List Char)
  | [] => [[]]
  | '.' :: rest => [] :: splitDots rest
  | character :: rest =>
      match splitDots rest with
      | piece :: pieces => (character :: piece) :: pieces
      | [] => [[character]]

def labels (text : String) : List String :=
  ((splitDots text.toList).filter fun piece => !piece.isEmpty).map String.ofList

/-- The text of a label list: every label followed by a dot, and one dot for the root. -/
def text : List String → String
  | [] => "."
  | names => names.foldr (fun label rest => label ++ "." ++ rest) ""

def folded (text : String) : String :=
  (Text.trimDots text).toLower

def sameName (left right : String) : Bool :=
  folded left == folded right

/-- The canonical octets of one label: its length modulo 256, then its folded spelling. -/
def canonicalLabel (label : String) : List UInt8 :=
  label.utf8ByteSize.toUInt8 :: Octets.ofText label.toLower

def canonicalOctets (labels : List String) : List UInt8 :=
  (labels.filter fun label => !label.isEmpty).flatMap canonicalLabel ++ [0]

end ZonePropagation.Name
