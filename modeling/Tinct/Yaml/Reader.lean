import Tinct.Yaml.Scalar

/-!
# Reading YAML

`Yaml.parse?` reads a text that holds one YAML document. An alias stands for another copy of the
value it points to; copies are bounded in number (`copyLimit`) and, like all values, in depth
(`depthLimit`).
-/

namespace Tinct.Yaml

/-- How deep lists and tables may nest. -/
def depthLimit : Nat := 128

/-- How many copies there may be for an event. -/
def copyLimit : Nat := 100

/-- A computation that may fail and counts the copies it makes. -/
abbrev Copying := StateT Nat Option

/-- The items of a list from the event `i` on, of which there are at most `fuel`, and the number of
the event behind them. -/
def items (es : Array Event) (value : Nat → Copying (Document × Nat)) :
    (fuel i : Nat) → Copying (List Document × Nat)
  | 0, _ => failure
  | fuel + 1, i => do
    match es[i]? with
    | some .listEnd => return ([], i + 1)
    | _ =>
      let (d, i) ← value i
      let (ds, i) ← items es value fuel i
      return (d :: ds, i)

/-- The fields of a table from the event `i` on, of which there are at most `fuel`, and the number
of the event behind them. -/
def fields (es : Array Event) (value : Nat → Copying (Document × Nat)) :
    (fuel i : Nat) → Copying (List (Document × Document) × Nat)
  | 0, _ => failure
  | fuel + 1, i => do
    match es[i]? with
    | some .tableEnd => return ([], i + 1)
    | _ =>
      let (k, i) ← value i
      let (v, i) ← value i
      let (fs, i) ← fields es value fuel i
      return ((k, v) :: fs, i)

def tagIf (tag : Option String) (d : Document) : Document := if isLocalTag tag then .tagged d else d

/-- The value at the event `i`, inside of which values may nest `room` deep, and the number of the
event behind it. -/
def value (out : Events) : (room i : Nat) → Copying (Document × Nat)
  | room, i => do
    let start ← match out.events[i]? with
      | some (.alias id) => do
        let copies ← get
        if copies + 1 ≤ out.events.size * copyLimit then
          set (copies + 1)
          match out.targets.lookup id with
          | some start => pure start
          | none => failure
        else failure
      | _ => pure i
    let next (j : Nat) : Nat := if start = i then j else i + 1
    match out.events[start]?, room with
    | some (.scalar tag style text), _ => return (.ofYamlScalar tag style text, next (start + 1))
    | some (.listStart tag), room + 1 =>
      let (ds, j) ← items out.events (value out room) out.events.size (start + 1)
      return (tagIf tag (.list ds false), next j)
    | some (.tableStart tag), room + 1 =>
      let (fs, j) ← fields out.events (value out room) out.events.size (start + 1)
      return (tagIf tag (.table fs), next j)
    | _, _ => failure

/-- The document that a text holds. -/
def parse? (text : String) : Option Document := do
  let out ← (← Token.scan? text) |> Events.ofTokens?
  let ((d, _), _) ← (value out depthLimit 0).run 0
  return d

end Tinct.Yaml
