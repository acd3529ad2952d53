import Mathlib.Init

namespace AutoTargeting.Cli

/-- `char::is_whitespace`: the characters with the property White_Space. -/
def isWhitespace (c : Char) : Bool :=
  let n := c.toNat
  (9 ≤ n && n ≤ 13) || n = 32 || n = 0x85 || n = 0xA0 || n = 0x1680 || (0x2000 ≤ n && n ≤ 0x200A) ||
    n = 0x2028 || n = 0x2029 || n = 0x202F || n = 0x205F || n = 0x3000

/-- The words from a place on, of the first of which `begun` was passed, in reverse. -/
def wordsFrom (begun : List Char) : List Char → List String
  | [] => if begun = [] then [] else [String.ofList begun.reverse]
  | c :: s =>
    if isWhitespace c then
      if begun = [] then wordsFrom [] s else String.ofList begun.reverse :: wordsFrom [] s
    else wordsFrom (c :: begun) s

/-- `str::split_whitespace`, for which a `trim` before makes no difference. -/
def splitWhitespace (line : String) : List String := wordsFrom [] line.toList

example : splitWhitespace " set-roi\t55.75  37.62 " = ["set-roi", "55.75", "37.62"] := by decide

end AutoTargeting.Cli
