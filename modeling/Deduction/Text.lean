/-! # Text

Blanks, trimming and splitting of texts given as lists of characters. -/

namespace Deduction.Text

/-- Holds of the characters that Unicode counts as white space. -/
def isBlank (c : Char) : Bool :=
  let code := c.toNat
  (9 ≤ code && code ≤ 13) || code == 0x20 || code == 0x85 || code == 0xA0 || code == 0x1680 ||
    (0x2000 ≤ code && code ≤ 0x200A) || code == 0x2028 || code == 0x2029 || code == 0x202F ||
    code == 0x205F || code == 0x3000

/-- The text without the blanks at its ends. -/
def trimmed (text : List Char) : List Char :=
  ((text.dropWhile isBlank).reverse.dropWhile isBlank).reverse

/-- The parts of a text between the occurrences of a character. -/
def split (separator : Char) : List Char → List (List Char)
  | [] => [[]]
  | c :: rest =>
      match split separator rest with
      | [] => [[c]]
      | part :: parts =>
          if c = separator then [] :: part :: parts else (c :: part) :: parts

end Deduction.Text
