import Tinct.Unicode.Age
import Tinct.Unicode.Category
import Tinct.Unicode.Property
import Tinct.Unicode.Script
import Tinct.Unicode.ScriptExtension
import Tinct.Unicode.Segmentation

/-!
# Looking properties up by name

`property?` finds the set that a name such as `Lu`, `Greek` or `White_Space` stands for, and
`propertyValue?` the set of a name and a value such as `gc` and `Letter`. Names are compared
without regard to capitals, spaces, dashes, underscores and a leading `is`.
-/

namespace Tinct.Unicode

/-- A name in the form in which the tables list it. -/
def looseName (name : String) : String :=
  let cs := name.toList
  let (body, hadIs) := match cs with
    | a :: b :: rest =>
      if a.toLower == 'i' && b.toLower == 's' then (rest, true) else (cs, false)
    | _ => (cs, false)
  let counts (c : Char) : Bool := c.toNat < 0x80 && c != ' ' && c != '_' && c != '-'
  let kept := (body.filter counts).map Char.toLower
  if hadIs && kept == ['c'] then "isc" else .ofList kept

def findIn (table : List (List String × CharSet)) (name : String) : Option CharSet :=
  (table.find? (·.1.contains name)).map (·.2)

/-- The set of a general category, a group of them, or one of three names beside them. -/
def category? (name : String) : Option CharSet :=
  if name = "any" then some .all
  else if name = "assigned" then some unassigned.compl
  else if name = "ascii" then some ⟨[⟨0, 0x7F⟩]⟩
  else findIn categories name

/-- The characters of the version `name` and of all before it. -/
def age? (name : String) : Option CharSet :=
  let before := ages.takeWhile (!·.1.contains name)
  match ages.drop before.length with
  | [] => none
  | age :: _ => some (CharSet.unions ((before ++ [age]).map (·.2)))

/-- The set a single name stands for: a property, a general category or a script. -/
def property? (name : String) : Option CharSet :=
  let name := looseName name
  (findIn properties name).or ((category? name).or (findIn scripts name))

/-- The set of the characters whose property `name` has the value `value`. -/
def propertyValue? (name value : String) : Option CharSet :=
  let value := looseName value
  match looseName name with
  | "gc" | "generalcategory" => category? value
  | "sc" | "script" => findIn scripts value
  | "scx" | "scriptextensions" => findIn scriptExtensions value
  | "age" => age? value
  | "gcb" | "graphemeclusterbreak" => findIn graphemeClusterBreaks value
  | "wb" | "wordbreak" => findIn wordBreaks value
  | "sb" | "sentencebreak" => findIn sentenceBreaks value
  | _ => none

end Tinct.Unicode
