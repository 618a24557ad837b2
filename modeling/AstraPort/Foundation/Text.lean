import Mathlib.Data.String.Basic

/- String functions of ECMAScript on lists of characters. -/
namespace AstraPort

/-- What String.prototype.trim takes away: white space and line terminators. -/
def isBlank (c : Char) : Bool :=
  let n := c.toNat
  (9 ≤ n ∧ n ≤ 13) ∨ n = 32 ∨ n = 160 ∨ n = 0x1680 ∨ (0x2000 ≤ n ∧ n ≤ 0x200A) ∨ n = 0x2028 ∨
    n = 0x2029 ∨ n = 0x202F ∨ n = 0x205F ∨ n = 0x3000 ∨ n = 0xFEFF

def isLineTerminator (c : Char) : Bool := c ∈ ['\n', '\r', Char.ofNat 0x2028, Char.ofNat 0x2029]

def trimChars (cs : List Char) : List Char :=
  ((cs.dropWhile isBlank).reverse.dropWhile isBlank).reverse

def trim (text : String) : String := String.ofList (trimChars text.toList)

/-- The text before the first occurrence of a character, as split(c)[0] has it. -/
def textBefore (c : Char) (text : String) : String :=
  String.ofList (text.toList.takeWhile (· ≠ c))

/-- split(c) for a single character. -/
def splitOnChar (c : Char) (text : String) : List String :=
  (text.toList.splitOn c).map String.ofList

end AstraPort
