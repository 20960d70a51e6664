/-!
Blank characters and trimming.  A character is blank when it has the Unicode property
`White_Space`.
-/

namespace ZonePropagation.Text

def isBlank (character : Char) : Bool :=
  let code := character.toNat
  (0x9 ≤ code && code ≤ 0xD) || code == 0x20 || code == 0x85 || code == 0xA0 ||
    code == 0x1680 || (0x2000 ≤ code && code ≤ 0x200A) || code == 0x2028 || code == 0x2029 ||
    code == 0x202F || code == 0x205F || code == 0x3000

/-- The list without its last elements that satisfy `drops`. -/
def dropEndWhile {α : Type} (drops : α → Bool) (items : List α) : List α :=
  (items.reverse.dropWhile drops).reverse

def trim (text : String) : String :=
  String.ofList (dropEndWhile isBlank (text.toList.dropWhile isBlank))

def trimDots (text : String) : String :=
  String.ofList (dropEndWhile (· == '.') text.toList)

end ZonePropagation.Text
