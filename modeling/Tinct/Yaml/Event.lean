import Tinct.Yaml.Token

/-!
# Events of YAML

`Event.ofTokens?` reads the one document of a text from its tokens, as a list of events: scalars,
and the start and end of each list and table. The list is flat, so that an alias can point back to
where the value it stands for starts, even if it stands inside that value.
-/

namespace Tinct.Yaml

inductive Event where
  /-- The value that starts at the event to which the anchor `id` points. -/
  | alias (id : Nat)
  | scalar (tag : Option String) (style : Style) (text : String)
  | listStart (tag : Option String)
  | listEnd
  | tableStart (tag : Option String)
  | tableEnd
deriving DecidableEq, Repr

/-- A document as its events. -/
structure Events where
  events : Array Event := #[]
  /-- The numbers of the anchors. -/
  anchors : List (String × Nat) := []
  /-- Where the values of the anchors start, last first. -/
  targets : List (Nat × Nat) := []

/-- A reading under way: the tokens that are left, and what has been read. -/
structure Reading where
  tokens : List Token
  /-- What the handles of tags stand for. -/
  prefixes : List (String × String)
  out : Events := {}

/-- What stands in front of a value. -/
structure Properties where
  anchor : Option String := none
  tag : Option TagText := none

namespace Reading

def skip (r : Reading) : Reading := { r with tokens := r.tokens.tail }

def emit (e : Event) (r : Reading) : Reading :=
  { r with out := { r.out with events := r.out.events.push e } }

/-- A value that is not written. -/
def emitEmpty (r : Reading) : Reading := r.emit (.scalar none .plain "")

/-- Whether one of `ts` comes next, or nothing. -/
def at' (ts : List Token) (r : Reading) : Bool := r.tokens.head?.all ts.contains

/-- The anchor of a value, which starts with the next event. Its number counts the names so far. -/
def define (name : Option String) (r : Reading) : Reading :=
  match name with
  | none => r
  | some name =>
    let id := r.out.anchors.length
    { r with
      out := { r.out with
        anchors := (name, id) :: r.out.anchors.filter (·.1 != name)
        targets := (id, r.out.events.size) :: r.out.targets } }

/-- The anchor and the tag at the position, in either order. -/
def properties (r : Reading) : Properties × Reading :=
  match r.tokens with
  | .anchor a :: .tag t :: ts => (⟨some a, some t⟩, { r with tokens := ts })
  | .tag t :: .anchor a :: ts => (⟨some a, some t⟩, { r with tokens := ts })
  | .anchor a :: ts => (⟨some a, none⟩, { r with tokens := ts })
  | .tag t :: ts => (⟨none, some t⟩, { r with tokens := ts })
  | _ => ({}, r)

/-- A tag in full. -/
def tag? (t : TagText) (r : Reading) : Option String :=
  if t.handle.isEmpty then some t.suffix
  else (r.prefixes.lookup t.handle).map (· ++ t.suffix)

mutual

/-- A value. In a flow collection (`block` is false) no block collection may start; as the value of
a key (`keyed`) a list may start without indentation. -/
def value? : Nat → (block keyed : Bool) → Reading → Option Reading
  | 0, _, _, _ => none
  | fuel + 1, block, keyed, r =>
    match r.tokens with
    | .alias name :: _ => do
      let id ← r.out.anchors.lookup name
      return (r.emit (.alias id)).skip
    | _ => do
      let (p, r) := r.properties
      let tag ← match p.tag with
        | none => pure none
        | some t => (r.tag? t).map some
      let r := r.define p.anchor
      match r.tokens, block with
      | .scalar style text :: _, _ => return (r.emit (.scalar tag style text)).skip
      | .flowListStart :: _, _ => flowList? fuel true (r.emit (.listStart tag)).skip
      | .flowTableStart :: _, _ => flowTable? fuel true (r.emit (.tableStart tag)).skip
      | .blockListStart :: _, true => blockList? fuel (r.emit (.listStart tag)).skip
      | .blockTableStart :: _, true => blockTable? fuel (r.emit (.tableStart tag)).skip
      | .blockEntry :: _, _ =>
        if keyed then plainList? fuel (r.emit (.listStart tag))
        else if p.anchor.isSome || p.tag.isSome then return r.emit (.scalar tag .plain "")
        else none
      | _, _ =>
        if p.anchor.isSome || p.tag.isSome then return r.emit (.scalar tag .plain "")
        else none

/-- A value, or nothing in front of one of `ts`. -/
def valueUnless? : Nat → List Token → (block keyed : Bool) → Reading → Option Reading
  | 0, _, _, _, _ => none
  | fuel + 1, ts, block, keyed, r =>
    if r.at' ts then some r.emitEmpty else value? fuel block keyed r

/-- The entries of a block list. -/
def blockList? : Nat → Reading → Option Reading
  | 0, _ => none
  | fuel + 1, r =>
    match r.tokens with
    | .blockEntry :: _ => do
      blockList? fuel (← valueUnless? fuel [.blockEntry, .blockEnd] true false r.skip)
    | .blockEnd :: _ => some (r.emit .listEnd).skip
    | _ => none

/-- The entries of a list that is not indented. -/
def plainList? : Nat → Reading → Option Reading
  | 0, _ => none
  | fuel + 1, r =>
    match r.tokens with
    | .blockEntry :: _ => do
      plainList? fuel
        (← valueUnless? fuel [.blockEntry, .key, .value, .blockEnd] true false r.skip)
    | _ => some (r.emit .listEnd)

/-- The fields of a block table. -/
def blockTable? : Nat → Reading → Option Reading
  | 0, _ => none
  | fuel + 1, r =>
    match r.tokens with
    | .key :: _ => do
      let r ← valueUnless? fuel [.key, .value, .blockEnd] true true r.skip
      match r.tokens with
      | .value :: _ => do
        blockTable? fuel (← valueUnless? fuel [.key, .value, .blockEnd] true true r.skip)
      | _ => blockTable? fuel r.emitEmpty
    | .blockEnd :: _ => some (r.emit .tableEnd).skip
    | _ => none

/-- The entries of a flow list. An entry with a colon is a table of one field. -/
def flowList? : Nat → (first : Bool) → Reading → Option Reading
  | 0, _, _ => none
  | fuel + 1, first, r => do
    match r.tokens with
    | .flowListEnd :: _ => return (r.emit .listEnd).skip
    | _ =>
      let r ← match first, r.tokens with
        | true, _ => pure r
        | false, .flowEntry :: _ => pure r.skip
        | false, _ => none
      match r.tokens with
      | .flowListEnd :: _ => return (r.emit .listEnd).skip
      | .key :: _ =>
        let r := (r.emit (.tableStart none)).skip
        let r ←
          if r.at' [.value, .flowEntry, .flowListEnd] then pure r.skip.emitEmpty
          else value? fuel false false r
        let r ← match r.tokens with
          | .value :: _ => valueUnless? fuel [.flowEntry, .flowListEnd] false false r.skip
          | _ => pure r.emitEmpty
        flowList? fuel false (r.emit .tableEnd)
      | _ => flowList? fuel false (← value? fuel false false r)

/-- The fields of a flow table. -/
def flowTable? : Nat → (first : Bool) → Reading → Option Reading
  | 0, _, _ => none
  | fuel + 1, first, r => do
    match r.tokens with
    | .flowTableEnd :: _ => return (r.emit .tableEnd).skip
    | _ =>
      let r ← match first, r.tokens with
        | true, _ => pure r
        | false, .flowEntry :: _ => pure r.skip
        | false, _ => none
      match r.tokens with
      | .flowTableEnd :: _ => return (r.emit .tableEnd).skip
      | .key :: _ =>
        let r ← valueUnless? fuel [.value, .flowEntry, .flowTableEnd] false false r.skip
        let r ← match r.tokens with
          | .value :: _ => valueUnless? fuel [.flowEntry, .flowTableEnd] false false r.skip
          | _ => pure r.emitEmpty
        flowTable? fuel false r
      | _ =>
        let r ← value? fuel false false r
        flowTable? fuel false r.emitEmpty

end

/-- The handles that need no directive. -/
def standardPrefixes : List (String × String) := [("!", "!"), ("!!", "tag:yaml.org,2002:")]

/-- The directives in front of a document: a version at most once, and no handle twice. -/
def directives? (hasVersion : Bool) (prefixes : List (String × String)) :
    List Token → Option (List (String × String) × List Token)
  | .version major minor :: ts =>
    if hasVersion || major != 1 || (minor != 1 && minor != 2) then none
    else directives? true prefixes ts
  | .tagPrefix t :: ts =>
    if (prefixes.lookup t.handle).isSome then none
    else directives? hasVersion ((t.handle, t.suffix) :: prefixes) ts
  | ts => some (prefixes, ts)

/-- The tokens of a document's content, the prefixes of its tags, and whether it starts with a
mark. -/
def start? (tokens : List Token) : Option (Reading × Bool) :=
  match tokens with
  | .version _ _ :: _ | .tagPrefix _ :: _ | .documentStart :: _ => do
    let (prefixes, ts) ← directives? false [] tokens
    match ts with
    | .documentStart :: ts => return (⟨ts, prefixes ++ standardPrefixes, {}⟩, true)
    | _ => none
  | _ => some (⟨tokens, standardPrefixes, {}⟩, false)

end Reading

/-- The one document of a text. -/
def Events.ofTokens? (tokens : List Token) : Option Events := do
  let (r, marked) ← Reading.start? tokens
  let directiveComes := match r.tokens with
    | [] | .version _ _ :: _ | .tagPrefix _ :: _ | .documentStart :: _ | .documentEnd :: _ => true
    | _ => false
  let r ←
    if marked && directiveComes then pure r.emitEmpty
    else r.value? (4 * tokens.length + 4) true false
  if r.tokens.all (· == .documentEnd) then some r.out else none

end Tinct.Yaml
