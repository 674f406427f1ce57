/-
Letter case of texts. Characters are grouped into clusters, a character with the marks that extend
it, and a cluster counts as upper or lower when changing its case one way leaves it and the two ways
differ. A capital sigma at the end of a word has a lower case of its own.
-/
import TypedStore.Text.LetterTable
import TypedStore.Text.MarkTable

set_option autoImplicit false

namespace TypedStore.Text

/-! ## 1. Single characters -/

/-- The image of a code point in the first run that covers it. -/
def caseImage? (runs : List CaseRun) (code : Nat) : Option Nat :=
  runs.findSome? fun run => run.image? code

/-- Upper case of a character, possibly several characters. -/
def upperChars (c : Char) : List Char :=
  match upperSequences.find? fun entry => entry.1 == c.toNat with
  | some (_, codes) => codes.map Char.ofNat
  | none => [((caseImage? upperRuns c.toNat).map Char.ofNat).getD c]

/-- Lower case of a character that stands alone. -/
def lowerChars (c : Char) : List Char :=
  if c.toNat = 0x130 then ['i', Char.ofNat 0x307]
  else [((caseImage? lowerRuns c.toNat).map Char.ofNat).getD c]

/-- A mark that extends the character before it. -/
def isMark (c : Char) : Bool :=
  0x300 ≤ c.toNat && inIntervals markIntervals c.toNat

/-! ## 2. Texts -/

/-- Upper case, character by character. -/
def toUpper (cs : List Char) : List Char :=
  cs.flatMap upperChars

/-- A letter that has two cases. -/
def isCased (c : Char) : Bool :=
  upperChars c != lowerChars c

/-- Characters that case rules look through. -/
def isCaseIgnorable (c : Char) : Bool :=
  isMark c || ['\'', '.', ':', '^', Char.ofNat 96, Char.ofNat 0xa8, Char.ofNat 0xad, Char.ofNat 0xaf,
    Char.ofNat 0xb4, Char.ofNat 0xb7, Char.ofNat 0xb8, Char.ofNat 0x2019].contains c

/-- Whether the nearest character that counts is a letter with two cases. -/
def meetsCased (cs : List Char) : Bool :=
  ((cs.dropWhile isCaseIgnorable).head?.map isCased).getD false

/-- Lower case of the rest of a text, `before` holding what precedes it, nearest first. -/
def toLowerAfter : List Char → List Char → List Char
  | _, [] => []
  | before, c :: rest =>
    let image :=
      if c.toNat = 0x3a3 then
        [Char.ofNat (if meetsCased before && !meetsCased rest then 0x3c2 else 0x3c3)]
      else lowerChars c
    image ++ toLowerAfter (c :: before) rest

/-- Lower case, where a capital sigma at the end of a word becomes the final form. -/
def toLower (cs : List Char) : List Char :=
  toLowerAfter [] cs

/-! ## 3. Clusters -/

/-- Characters with the marks that extend them. -/
def clusters (cs : List Char) : List (List Char) :=
  cs.foldr
    (fun c groups =>
      match groups with
      | (m :: ms) :: rest => if isMark m then (c :: m :: ms) :: rest else [c] :: groups
      | _ => [c] :: groups)
    []

/-- A cluster that upper case leaves alone and lower case does not. -/
def isUpperCluster (cluster : List Char) : Bool :=
  toUpper cluster != toLower cluster && cluster == toUpper cluster

/-- A cluster that lower case leaves alone and upper case does not. -/
def isLowerCluster (cluster : List Char) : Bool :=
  toUpper cluster != toLower cluster && cluster == toLower cluster

/-- A cluster of decimal digits. -/
def isDigitCluster (cluster : List Char) : Bool :=
  cluster.all Char.isDigit

end TypedStore.Text
