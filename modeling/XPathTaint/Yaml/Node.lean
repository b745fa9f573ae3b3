import XPathTaint.Yaml.Token

-- The nodes of a YAML document, read from its tokens: scalars, sequences and mappings with
-- their tags and anchors, and references to anchors.

namespace XPathTaint.Yaml

/-- What stands before a node: the name by which it can be referred to, and its tag. -/
structure Properties where
  anchor : Option String
  tag : Option String
  deriving Repr, DecidableEq, Inhabited

inductive Node where
  | reference (name : String)
  | scalar (props : Properties) (text : String) (isPlain : Bool)
  | sequence (props : Properties) (items : List Node)
  | mapping (props : Properties) (members : List (Node × Node))
  deriving Repr, Inhabited

namespace Node

def bare : Properties := ⟨none, none⟩

/-- The node that stands where there is none. -/
def empty : Node := .scalar bare "" true

/-! ## Properties -/

/-- What handles stand for. -/
abbrev Handles := List (String × String)

def defaultHandles : Handles := [("!", "!"), ("!!", "tag:yaml.org,2002:")]

/-- The whole tag of a handle and what stands behind it. -/
def wholeTag? (handles : Handles) (handle suffix : String) : Option String :=
  if handle.isEmpty then some suffix
  else (handles.find? fun h => h.1 == handle).map fun h => h.2 ++ suffix

/-- An anchor and a tag in either order. -/
def readProperties? (handles : Handles) : List Token → Option (Properties × List Token)
  | .anchor a :: .tag h s :: rest => (wholeTag? handles h s).map fun t => (⟨some a, some t⟩, rest)
  | .tag h s :: .anchor a :: rest => (wholeTag? handles h s).map fun t => (⟨some a, some t⟩, rest)
  | .anchor a :: rest => some (⟨some a, none⟩, rest)
  | .tag h s :: rest => (wholeTag? handles h s).map fun t => (⟨none, some t⟩, rest)
  | rest => some (bare, rest)

/-- A lone mark says nothing about a scalar. -/
def scalarProperties (p : Properties) : Properties :=
  if p.tag == some "!" then { p with tag := none } else p

/-! ## Nodes -/

/-- Whether the next token is one of a few. -/
def startsWith (few : List Token) (tokens : List Token) : Bool := tokens.head?.any few.contains

/-- Reads a node, unless one of the tokens follows that may stand where no node is. -/
def readUnless (few : List Token) (read : List Token → Option (Node × List Token))
    (tokens : List Token) : Option (Node × List Token) :=
  if startsWith few tokens then some (empty, tokens) else read tokens

mutual

/-- A node. Collections by indentation are read where `block` is set, and entries without
indentation of their own where `indentless` is. -/
def readNode (handles : Handles) (block indentless : Bool) :
    (fuel : Nat) → List Token → Option (Node × List Token)
  | 0, _ => none
  | _ + 1, .reference name :: rest => some (.reference name, rest)
  | fuel + 1, tokens => do
    let (props, tokens) ← readProperties? handles tokens
    let sequence (found : Option (List Node × List Token)) : Option (Node × List Token) :=
      found.map fun (items, rest) => (.sequence props items, rest)
    let mapping (found : Option (List (Node × Node) × List Token)) : Option (Node × List Token) :=
      found.map fun (members, rest) => (.mapping props members, rest)
    let nothing : Option (Node × List Token) :=
      if props == bare then none else some (.scalar props "" true, tokens)
    match tokens with
    | .scalar text isPlain :: rest => some (.scalar (scalarProperties props) text isPlain, rest)
    | .flowSequenceStart :: rest => sequence (readFlowItems handles true fuel rest)
    | .flowMappingStart :: rest => mapping (readFlowMembers handles true fuel rest)
    | .blockSequenceStart :: rest =>
      if block then sequence (readBlockItems handles fuel rest) else nothing
    | .blockMappingStart :: rest =>
      if block then mapping (readBlockMembers handles fuel rest) else nothing
    | .blockEntry :: _ =>
      if indentless then sequence (readEntries handles fuel tokens) else nothing
    | _ => nothing

/-- The items of a sequence by indentation, up to its end. -/
def readBlockItems (handles : Handles) : (fuel : Nat) → List Token → Option (List Node × List Token)
  | 0, _ => none
  | fuel + 1, .blockEntry :: rest => do
    let (item, rest) ← readUnless [.blockEntry, .blockEnd] (readNode handles true false fuel) rest
    let (items, rest) ← readBlockItems handles fuel rest
    some (item :: items, rest)
  | _ + 1, .blockEnd :: rest => some ([], rest)
  | _ + 1, _ => none

/-- Entries that stand at the column of the mapping around them. -/
def readEntries (handles : Handles) : (fuel : Nat) → List Token → Option (List Node × List Token)
  | 0, _ => none
  | fuel + 1, .blockEntry :: rest => do
    let (item, rest) ← readUnless [.blockEntry, .key, .value, .blockEnd]
      (readNode handles true false fuel) rest
    let (items, rest) ← readEntries handles fuel rest
    some (item :: items, rest)
  | _ + 1, tokens => some ([], tokens)

/-- The members of a mapping by indentation, up to its end. -/
def readBlockMembers (handles : Handles) :
    (fuel : Nat) → List Token → Option (List (Node × Node) × List Token)
  | 0, _ => none
  | fuel + 1, .key :: rest => do
    let read := readUnless [.key, .value, .blockEnd] (readNode handles true true fuel)
    let (key, rest) ← read rest
    let (value, rest) ← match rest with
      | .value :: rest => read rest
      | rest => some (empty, rest)
    let (members, rest) ← readBlockMembers handles fuel rest
    some ((key, value) :: members, rest)
  | _ + 1, .blockEnd :: rest => some ([], rest)
  | _ + 1, _ => none

/-- The items between square brackets, up to the closing one. A key makes a mapping of one
member; where its node is missing, the token in its place is passed over. -/
def readFlowItems (handles : Handles) (first : Bool) :
    (fuel : Nat) → List Token → Option (List Node × List Token)
  | 0, _ => none
  | _ + 1, .flowSequenceEnd :: rest => some ([], rest)
  | fuel + 1, tokens => do
    let tokens ← match first, tokens with
      | true, tokens => some tokens
      | false, .flowEntry :: rest => some rest
      | false, _ => none
    match tokens with
    | .flowSequenceEnd :: rest => some ([], rest)
    | .key :: rest => do
      let (key, rest) ←
        if startsWith [.value, .flowEntry, .flowSequenceEnd] rest then some (empty, rest.tail)
        else readNode handles false false fuel rest
      let (value, rest) ← match rest with
        | .value :: rest =>
          readUnless [.flowEntry, .flowSequenceEnd] (readNode handles false false fuel) rest
        | rest => some (empty, rest)
      let (items, rest) ← readFlowItems handles false fuel rest
      some (.mapping bare [(key, value)] :: items, rest)
    | tokens => do
      let (item, rest) ← readNode handles false false fuel tokens
      let (items, rest) ← readFlowItems handles false fuel rest
      some (item :: items, rest)

/-- The members between braces, up to the closing one. A node without a key before it is a
key without a value. -/
def readFlowMembers (handles : Handles) (first : Bool) :
    (fuel : Nat) → List Token → Option (List (Node × Node) × List Token)
  | 0, _ => none
  | _ + 1, .flowMappingEnd :: rest => some ([], rest)
  | fuel + 1, tokens => do
    let tokens ← match first, tokens with
      | true, tokens => some tokens
      | false, .flowEntry :: rest => some rest
      | false, _ => none
    match tokens with
    | .flowMappingEnd :: rest => some ([], rest)
    | .key :: rest => do
      let (key, rest) ← readUnless [.value, .flowEntry, .flowMappingEnd]
        (readNode handles false false fuel) rest
      let (value, rest) ← match rest with
        | .value :: rest =>
          readUnless [.flowEntry, .flowMappingEnd] (readNode handles false false fuel) rest
        | rest => some (empty, rest)
      let (members, rest) ← readFlowMembers handles false fuel rest
      some ((key, value) :: members, rest)
    | tokens => do
      let (key, rest) ← readNode handles false false fuel tokens
      let (members, rest) ← readFlowMembers handles false fuel rest
      some ((key, empty) :: members, rest)

end

/-! ## Documents -/

/-- Reads the directives before a document: at most one version, which must be known, and
each handle at most once. -/
def readDirectives? (versioned : Bool) (handles : Handles) :
    List Token → Option (Handles × List Token)
  | .version major minor :: rest =>
    if versioned || major != 1 || (minor != 1 && minor != 2) then none
    else readDirectives? true handles rest
  | .handle h meaning :: rest =>
    if handles.any fun known => known.1 == h then none
    else readDirectives? versioned ((h, meaning) :: handles) rest
  | tokens => some (handles, tokens)

def startsDirective : List Token → Bool
  | .version _ _ :: _ => true
  | .handle _ _ :: _ => true
  | _ => false

/-- The node of a text that holds one document; a text without a document has the empty
node. Each nested node spends a token, so their number bounds the steps. -/
def ofTokens? (tokens : List Token) : Option Node := do
  let read (handles : Handles) (tokens : List Token) : Option (Node × List Token) :=
    readNode (handles ++ defaultHandles) true false (2 * tokens.length + 2) tokens
  let (node, rest) ←
    if tokens.isEmpty then some (empty, [])
    else if startsDirective tokens || startsWith [.documentStart] tokens then do
      let (handles, tokens) ← readDirectives? false [] tokens
      match tokens with
      | .documentStart :: rest =>
        if rest.isEmpty || startsDirective rest || startsWith [.documentStart, .documentEnd] rest then
          some (empty, rest)
        else read handles rest
      | _ => none
    else read [] tokens
  if rest.all (· == .documentEnd) then some node else none

end Node

end XPathTaint.Yaml
