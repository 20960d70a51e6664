/-!
Splitting a text at one occurrence of a character.
-/

namespace ZonePropagation.Text

def splitFirst? (mark : Char) : List Char → Option (List Char × List Char)
  | [] => none
  | character :: rest =>
      if character == mark then some ([], rest)
      else (splitFirst? mark rest).map fun split => (character :: split.1, split.2)

def splitLast? (mark : Char) (text : List Char) : Option (List Char × List Char) :=
  (splitFirst? mark text.reverse).map fun split => (split.2.reverse, split.1.reverse)

end ZonePropagation.Text
