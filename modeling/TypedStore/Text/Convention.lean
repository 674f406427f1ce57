/-
Naming conventions. A name is cut into words, at spaces, hyphens and underscores, which disappear,
and between characters that differ in kind; the words are then written in one of five ways, or the
name is left as it is.
-/
import TypedStore.Text.Letter

set_option autoImplicit false

namespace TypedStore.Text

/-! ## 1. Words of a name -/

/-- A cut behind the first cluster of `name`: two clusters of different kinds, or the last two of
upper, upper, lower. -/
def cutsAfterFirst : List (List Char) → Bool
  | a :: b :: rest =>
    (isLowerCluster a && isUpperCluster b)
      || (isUpperCluster a && isUpperCluster b && ((rest.head?.map isLowerCluster).getD false))
      || ((isLowerCluster a || isUpperCluster a) && isDigitCluster b)
      || (isDigitCluster a && (isLowerCluster b || isUpperCluster b))
  | _ => false

/-- A cluster that separates words and belongs to none. -/
def isSeparator (cluster : List Char) : Bool :=
  cluster == ['_'] || cluster == ['-'] || cluster == [' ']

/-- The words of a name, empty ones included, where `word` is the one being read, last cluster
first. -/
def wordsFrom : List (List Char) → List (List Char) → List (List (List Char))
  | word, [] => [word.reverse]
  | word, c :: rest =>
    if isSeparator c then word.reverse :: wordsFrom [] rest
    else if cutsAfterFirst (c :: rest) then (c :: word).reverse :: wordsFrom [] rest
    else wordsFrom (c :: word) rest

/-- The words of a name, as clusters. -/
def words (name : String) : List (List (List Char)) :=
  (wordsFrom [] (clusters name.toList)).filter fun word => !word.isEmpty

/-! ## 2. Conventions -/

/-- How a name is written. -/
inductive Convention where
  | upperSnake
  | snake
  | pascal
  | camel
  | kebab
  | verbatim
deriving DecidableEq, Repr

namespace Convention

/-- The convention of types that choose none. -/
instance : Inhabited Convention := ⟨upperSnake⟩

/-- The convention's own name. -/
def name : Convention → String
  | upperSnake => "UpperSnake"
  | snake => "Snake"
  | pascal => "Pascal"
  | camel => "Camel"
  | kebab => "Kebab"
  | verbatim => "Verbatim"

/-- Conventions by the names a declaration may use for them. -/
def parse? (s : String) : Option Convention :=
  match s with
  | "SCREAMING_SNAKE_CASE" | "UPPER_SNAKE_CASE" => some upperSnake
  | "snake_case" => some snake
  | "PascalCase" => some pascal
  | "camelCase" => some camel
  | "kebab-case" => some kebab
  | "verbatim" | "none" => some verbatim
  | _ => none

/-- A word with its first cluster in upper case and the rest in lower case. -/
def capital : List (List Char) → List Char
  | [] => []
  | first :: rest => toUpper first ++ toLower rest.flatten

/-- Words written one way and joined by a separator. -/
def joinWords (separator : List Char) (parts : List (List Char)) : String :=
  String.ofList (separator.intercalate parts)

/-- Writes a name. -/
def apply (convention : Convention) (name : String) : String :=
  let parts := words name
  match convention with
  | upperSnake => joinWords ['_'] (parts.map fun word => toUpper word.flatten)
  | snake => joinWords ['_'] (parts.map fun word => toLower word.flatten)
  | kebab => joinWords ['-'] (parts.map fun word => toLower word.flatten)
  | pascal => joinWords [] (parts.map capital)
  | camel =>
    match parts with
    | [] => ""
    | first :: rest => joinWords [] (toLower first.flatten :: rest.map capital)
  | verbatim => name

end Convention

end TypedStore.Text
