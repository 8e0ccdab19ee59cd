import AdmissionWatch.Yaml.Token

/-!
# Documents of YAML

The tree of a document. Tags are resolved against the prefixes that the document declares; anchors
are numbered, and an alias holds the number of the anchor it refers to.
-/

namespace AdmissionWatch.Yaml

/-- A node of a document. -/
inductive Node where
  | alias (target : Nat)
  | scalar (anchor : Option Nat) (tag : Option (List Char)) (text : List Char) (style : Style)
  | sequence (anchor : Option Nat) (tag : Option (List Char)) (items : List Node)
  | mapping (anchor : Option Nat) (tag : Option (List Char)) (entries : List (Node × Node))
  deriving Repr, Inhabited

namespace Node

/-- The prefix of the tags that the core schema defines. -/
def corePrefix : List Char := "tag:yaml.org,2002:".toList

/-- The handles that every document knows, with what they stand for. -/
def knownHandles : List (List Char × List Char) :=
  [(['!'], ['!']), (['!', '!'], corePrefix)]

/-- A scalar that is not written at all. -/
def empty (anchor : Option Nat) (tag : Option (List Char)) : Node :=
  .scalar anchor tag [] .plain

/-- What is left to read of a document: tokens, and the anchors met, in the order of their names'
first use. -/
structure Remaining where
  tokens : List Token
  anchors : List (List Char × Nat) := []
  deriving Repr

namespace Remaining

/-- Without the first token. -/
def tail (r : Remaining) : Remaining :=
  { r with tokens := r.tokens.tail }

/-- The first token. -/
def head? (r : Remaining) : Option Token :=
  r.tokens.head?

/-- Gives an anchor its number, which is the number of different names met before. -/
def define (r : Remaining) (name : List Char) : Nat × Remaining :=
  let id := r.anchors.length
  (id, { r with anchors := (r.anchors.filter fun a => a.1 != name) ++ [(name, id)] })

/-- The number of an anchor. -/
def lookup? (r : Remaining) (name : List Char) : Option Nat :=
  (r.anchors.find? fun a => a.1 == name).map Prod.snd

end Remaining

/-- The anchor and the tag at the start of a node, in either order. -/
structure Properties where
  anchor : Option (List Char) := none
  tag : Option (List Char × List Char) := none

/-- Reads the anchor and the tag. -/
def properties (r : Remaining) : Properties × Remaining :=
  match r.head? with
  | some (.anchor a) =>
    match r.tail.head? with
    | some (.tag h t) => (⟨some a, some (h, t)⟩, r.tail.tail)
    | _ => (⟨some a, none⟩, r.tail)
  | some (.tag h t) =>
    match r.tail.head? with
    | some (.anchor a) => (⟨some a, some (h, t)⟩, r.tail.tail)
    | _ => (⟨none, some (h, t)⟩, r.tail)
  | _ => ({}, r)

/-- A tag in full; none when its handle is not known. -/
def fullTag? (handles : List (List Char × List Char)) : Option (List Char × List Char) → Option (Option (List Char))
  | none => some none
  | some ([], suffix) => some (some suffix)
  | some (handle, suffix) =>
    match handles.find? fun h => h.1 == handle with
    | some (_, start) => some (some (start ++ suffix))
    | none => none

/-- The tag of a scalar; a lone exclamation mark is none. -/
def scalarTag (tag : Option (List Char)) : Option (List Char) :=
  if tag = some ['!'] then none else tag

/-- Numbers the anchor of a node, if it has one. -/
def defineAnchor (r : Remaining) : Option (List Char) → Option Nat × Remaining
  | none => (none, r)
  | some name =>
    let (id, r) := r.define name
    (some id, r)

/-- Whether a part of a block mapping is not written: its key, its value or an item of it. -/
def lacksPart : Option Token → Bool
  | some .key | some .value | some .blockEnd => true
  | _ => false

mutual

/-- Reads a node. `block` tells whether it may be a block collection, `indentless` whether entries
at the column of the mapping around it make a sequence. -/
def node? (handles : List (List Char × List Char)) :
    Nat → (block indentless : Bool) → Remaining → Option (Node × Remaining)
  | 0, _, _, _ => none
  | fuel + 1, block, indentless, r =>
    match r.head? with
    | some (.alias name) => (r.lookup? name).map fun id => (.alias id, r.tail)
    | _ =>
      let (props, r) := properties r
      match fullTag? handles props.tag with
      | none => none
      | some tag =>
        let (anchor, r) := defineAnchor r props.anchor
        match r.head?, block, indentless with
        | some .blockEntry, _, true =>
          (indentlessItems? handles fuel r).map fun (items, r) => (.sequence anchor tag items, r)
        | some (.scalar text style), _, _ => some (.scalar anchor (scalarTag tag) text style, r.tail)
        | some .flowSequenceStart, _, _ =>
          (flowItems? handles fuel true r.tail).map fun (items, r) => (.sequence anchor tag items, r)
        | some .flowMappingStart, _, _ =>
          (flowEntries? handles fuel true r.tail).map fun (entries, r) => (.mapping anchor tag entries, r)
        | some .blockSequenceStart, true, _ =>
          (blockItems? handles fuel r.tail).map fun (items, r) => (.sequence anchor tag items, r)
        | some .blockMappingStart, true, _ =>
          (blockEntries? handles fuel r.tail).map fun (entries, r) => (.mapping anchor tag entries, r)
        | _, _, _ => if props.anchor.isSome || tag.isSome then some (empty anchor tag, r) else none

/-- Reads the items of a block sequence, and its end. -/
def blockItems? (handles : List (List Char × List Char)) : Nat → Remaining → Option (List Node × Remaining)
  | 0, _ => none
  | fuel + 1, r =>
    match r.head? with
    | some .blockEnd => some ([], r.tail)
    | some .blockEntry =>
      let r := r.tail
      let item? :=
        match r.head? with
        | some .blockEntry | some .blockEnd => some (empty none none, r)
        | _ => node? handles fuel true false r
      match item? with
      | none => none
      | some (item, r) => (blockItems? handles fuel r).map fun (items, r) => (item :: items, r)
    | _ => none

/-- Reads the items of a sequence at the column of the mapping around it. -/
def indentlessItems? (handles : List (List Char × List Char)) : Nat → Remaining → Option (List Node × Remaining)
  | 0, _ => none
  | fuel + 1, r =>
    match r.head? with
    | some .blockEntry =>
      let r := r.tail
      let item? :=
        if r.head? = some .blockEntry || lacksPart r.head? then some (empty none none, r)
        else node? handles fuel true false r
      match item? with
      | none => none
      | some (item, r) => (indentlessItems? handles fuel r).map fun (items, r) => (item :: items, r)
    | _ => some ([], r)

/-- Reads the entries of a block mapping, and its end. -/
def blockEntries? (handles : List (List Char × List Char)) :
    Nat → Remaining → Option (List (Node × Node) × Remaining)
  | 0, _ => none
  | fuel + 1, r =>
    match r.head? with
    | some .blockEnd => some ([], r.tail)
    | some .key =>
      let r := r.tail
      let key? := if lacksPart r.head? then some (empty none none, r) else node? handles fuel true true r
      match key? with
      | none => none
      | some (key, r) =>
        let value? :=
          match r.head? with
          | some .value =>
            let r := r.tail
            if lacksPart r.head? then some (empty none none, r) else node? handles fuel true true r
          | _ => some (empty none none, r)
        match value? with
        | none => none
        | some (value, r) => (blockEntries? handles fuel r).map fun (entries, r) => ((key, value) :: entries, r)
    | _ => none

/-- Reads the items of a flow sequence, and its end. An item may be a mapping of one entry. -/
def flowItems? (handles : List (List Char × List Char)) :
    Nat → (first : Bool) → Remaining → Option (List Node × Remaining)
  | 0, _, _ => none
  | fuel + 1, first, r =>
    match r.head?, first with
    | some .flowSequenceEnd, _ => some ([], r.tail)
    | head, first =>
      match (if first then some r else if head = some .flowEntry then some r.tail else none) with
      | none => none
      | some r =>
        match r.head? with
        | some .flowSequenceEnd => some ([], r.tail)
        | some .key =>
          let r := r.tail
          let key? :=
            match r.head? with
            | some .value | some .flowEntry | some .flowSequenceEnd => some (empty none none, r.tail)
            | _ => node? handles fuel false false r
          match key? with
          | none => none
          | some (key, r) =>
            let value? :=
              match r.head? with
              | some .value =>
                match r.tail.head? with
                | some .flowEntry | some .flowSequenceEnd => some (empty none none, r.tail)
                | _ => node? handles fuel false false r.tail
              | _ => some (empty none none, r)
            match value? with
            | none => none
            | some (value, r) =>
              (flowItems? handles fuel false r).map fun (items, r) => (.mapping none none [(key, value)] :: items, r)
        | _ =>
          match node? handles fuel false false r with
          | none => none
          | some (item, r) => (flowItems? handles fuel false r).map fun (items, r) => (item :: items, r)

/-- Reads the entries of a flow mapping, and its end. -/
def flowEntries? (handles : List (List Char × List Char)) :
    Nat → (first : Bool) → Remaining → Option (List (Node × Node) × Remaining)
  | 0, _, _ => none
  | fuel + 1, first, r =>
    match r.head?, first with
    | some .flowMappingEnd, _ => some ([], r.tail)
    | head, first =>
      match (if first then some r else if head = some .flowEntry then some r.tail else none) with
      | none => none
      | some r =>
        match r.head? with
        | some .flowMappingEnd => some ([], r.tail)
        | some .key =>
          let r := r.tail
          let key? :=
            match r.head? with
            | some .value | some .flowEntry | some .flowMappingEnd => some (empty none none, r)
            | _ => node? handles fuel false false r
          match key? with
          | none => none
          | some (key, r) =>
            let value? :=
              match r.head? with
              | some .value =>
                match r.tail.head? with
                | some .flowEntry | some .flowMappingEnd => some (empty none none, r.tail)
                | _ => node? handles fuel false false r.tail
              | _ => some (empty none none, r)
            match value? with
            | none => none
            | some (value, r) =>
              (flowEntries? handles fuel false r).map fun (entries, r) => ((key, value) :: entries, r)
        | _ =>
          match node? handles fuel false false r with
          | none => none
          | some (key, r) =>
            (flowEntries? handles fuel false r).map fun (entries, r) => ((key, empty none none) :: entries, r)

end

/-- The directives of a document: whether a version has been given, and the handles declared. -/
def directives? : (version : Bool) → List (List Char × List Char) → List Token →
    Option (List (List Char × List Char) × List Token)
  | version, handles, .version major minor :: tokens =>
    if version || major ≠ 1 || (minor ≠ 1 && minor ≠ 2) then none else directives? true handles tokens
  | version, handles, .tagPrefix handle start :: tokens =>
    if handles.any fun h => h.1 == handle then none else directives? version (handles ++ [(handle, start)]) tokens
  | _, handles, .documentStart :: tokens => some (handles, tokens)
  | _, _, _ => none

/-- Whether a token opens a document. -/
def opensDocument : Token → Bool
  | .version _ _ | .tagPrefix _ _ | .documentStart => true
  | _ => false

/-- Whether a document has no node. -/
def lacksRoot : List Token → Bool
  | [] => true
  | .documentEnd :: _ => true
  | t :: _ => opensDocument t

/-- Reads the only document of a sequence of tokens; it has no node when there are no tokens at
all. -/
def ofTokens? (tokens : List Token) : Option (Option Node) := do
  let fuel := 3 * tokens.length + 3
  let closed (r : List Token) : Bool := (r.dropWhile (· == .documentEnd)).isEmpty
  match tokens with
  | [] => some none
  | t :: _ =>
    if opensDocument t then
      let (handles, tokens) ← directives? false [] tokens
      if lacksRoot tokens then if closed tokens then some (some (empty none none)) else none
      else
        let (root, r) ← node? (handles ++ knownHandles) fuel true false { tokens }
        if closed r.tokens then some (some root) else none
    else
      let (root, r) ← node? knownHandles fuel true false { tokens }
      if closed r.tokens then some (some root) else none

/-- Reads the only document of a text. -/
def read? (text : String) : Option (Option Node) :=
  (tokens? text.toList).bind ofTokens?

mutual

/-- The anchors of a document with their nodes, in the order in which the nodes begin. -/
def targets : Node → List (Nat × Node)
  | .alias _ => []
  | .scalar anchor tag text style => (anchor.map fun a => (a, .scalar anchor tag text style)).toList
  | .sequence anchor tag items =>
    (anchor.map fun a => (a, .sequence anchor tag items)).toList ++ itemTargets items
  | .mapping anchor tag entries =>
    (anchor.map fun a => (a, .mapping anchor tag entries)).toList ++ entryTargets entries

/-- The anchors of the items of a sequence. -/
def itemTargets : List Node → List (Nat × Node)
  | [] => []
  | item :: items => item.targets ++ itemTargets items

/-- The anchors of the entries of a mapping. -/
def entryTargets : List (Node × Node) → List (Nat × Node)
  | [] => []
  | (key, value) :: entries => key.targets ++ value.targets ++ entryTargets entries

end

mutual

/-- The number of scalars, aliases and ends of collections in a node. -/
def size : Node → Nat
  | .alias _ => 1
  | .scalar .. => 1
  | .sequence _ _ items => 2 + itemsSize items
  | .mapping _ _ entries => 2 + entriesSize entries

/-- The same for the items of a sequence. -/
def itemsSize : List Node → Nat
  | [] => 0
  | item :: items => item.size + itemsSize items

/-- The same for the entries of a mapping. -/
def entriesSize : List (Node × Node) → Nat
  | [] => 0
  | (key, value) :: entries => key.size + value.size + entriesSize entries

end

/-- The node with the number of an anchor: the one that began last. -/
def find? (targets : List (Nat × Node)) (id : Nat) : Option Node :=
  (targets.reverse.find? fun t => t.1 == id).map Prod.snd

end Node

end AdmissionWatch.Yaml
