import Machining.Text.Digit
import Machining.Text.Letter
import Machining.Text.Mark

namespace Machining.Text

/-- Numerals that count as letters, such as the Roman ones. -/
def letterNumeralRuns : List (Nat × Nat) := [
  (0x16EE, 0x16F0), (0x2160, 0x2182), (0x2185, 0x2188), (0x3007, 0x3007), (0x3021, 0x3029),
  (0x3038, 0x303A), (0xA6E6, 0xA6EF), (0x10140, 0x10174), (0x10341, 0x10341), (0x1034A, 0x1034A),
  (0x103D1, 0x103D5), (0x12400, 0x1246E)]

/-- Further characters that names may start with. -/
def nameStartRuns : List (Nat × Nat) := [(0x1885, 0x1886), (0x2118, 0x2118), (0x212E, 0x212E)]

/-- Letters that no name starts with, since what they stand for does not start one either. -/
def nonStartRuns : List (Nat × Nat) := [
  (0x37A, 0x37A), (0xE33, 0xE33), (0xEB3, 0xEB3), (0x2E2F, 0x2E2F), (0xFC5E, 0xFC63),
  (0xFDFA, 0xFDFB), (0xFE70, 0xFE70), (0xFE72, 0xFE72), (0xFE74, 0xFE74), (0xFE76, 0xFE76),
  (0xFE78, 0xFE78), (0xFE7A, 0xFE7A), (0xFE7C, 0xFE7C), (0xFE7E, 0xFE7E), (0xFF9E, 0xFF9F)]

/-- Connecting strokes, and further characters that names may go on with. -/
def namePartRuns : List (Nat × Nat) := [
  (0xB7, 0xB7), (0x387, 0x387), (0xE33, 0xE33), (0xEB3, 0xEB3), (0x1369, 0x1371), (0x19DA, 0x19DA),
  (0x203F, 0x2040), (0x2054, 0x2054), (0xFE33, 0xFE34), (0xFE4D, 0xFE4F), (0xFF3F, 0xFF3F),
  (0xFF9E, 0xFF9F)]

def isNameStart (c : Char) : Bool :=
  c = '_' || ((isLetter c || inRuns letterNumeralRuns c.toNat || inRuns nameStartRuns c.toNat)
    && !inRuns nonStartRuns c.toNat)

def isNamePart (c : Char) : Bool :=
  isNameStart c || isDigit c || isMark c || inRuns namePartRuns c.toNat

end Machining.Text
