import Tinct.Unicode.Word

/-!
# Words of a text

`splitWords` cuts a text at its white space; no word is empty.
-/

namespace Tinct

/-- The words of `cs`, `word` being what has been read of the first one, last character first. -/
def splitWordsFrom (word : List Char) : List Char → List String
  | [] => if word.isEmpty then [] else [.ofList word.reverse]
  | c :: cs =>
    if Unicode.blank.contains c then
      if word.isEmpty then splitWordsFrom [] cs else .ofList word.reverse :: splitWordsFrom [] cs
    else splitWordsFrom (c :: word) cs

/-- The parts of `s` between white space. -/
def splitWords (s : String) : List String := splitWordsFrom [] s.toList

/-- The parts of `s` between its dots. -/
def splitDots (s : String) : List String := (s.toList.splitOn '.').map .ofList

end Tinct
