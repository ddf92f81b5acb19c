import ServiceBroker.Yaml.Token

/-!
The nodes of a YAML text, from its tokens.
-/

namespace ServiceBroker.Yaml

/-- What may stand before a node: the anchor that names it, and its tag. -/
structure Properties where
  anchor : Option String := none
  tag : Option String := none
deriving DecidableEq

/-- A node. -/
inductive Node where
  | alias (name : String)
  | scalar (properties : Properties) (style : Style) (text : String)
  | sequence (properties : Properties) (items : List Node)
  | mapping (properties : Properties) (entries : List (Node × Node))

instance : Inhabited Node := ⟨.alias ""⟩

namespace Node

/-- A node that is not written. -/
def missing (properties : Properties := {}) : Node :=
  .scalar properties .plain ""

/-- The handles of tags and what they stand for. -/
abbrev Handles := List (List Char × List Char)

/-- The handles that need no directive. -/
def standardHandles : Handles :=
  [(['!'], ['!']), (['!', '!'], "tag:yaml.org,2002:".toList)]

def resolveTag (handles : Handles) (handle suffix : List Char) : Except SyntaxError String :=
  if handle.isEmpty then pure (String.ofList suffix)
  else match handles.lookup handle with
    | some expansion => pure (String.ofList (expansion ++ suffix))
    | none => throw .badTag

/-- Anchor and tag before a node, in either order, each at most once. -/
def parseProperties (handles : Handles) :
    List Token → Except SyntaxError (Properties × List Token)
  | .anchor name :: .tag handle suffix :: rest => do
    return ({ anchor := some (String.ofList name),
              tag := some (← resolveTag handles handle suffix) }, rest)
  | .tag handle suffix :: .anchor name :: rest => do
    return ({ anchor := some (String.ofList name),
              tag := some (← resolveTag handles handle suffix) }, rest)
  | .anchor name :: rest => pure ({ anchor := some (String.ofList name) }, rest)
  | .tag handle suffix :: rest => do
    return ({ tag := some (← resolveTag handles handle suffix) }, rest)
  | rest => pure ({}, rest)

def atAny (stops : List Token) : List Token → Bool
  | t :: _ => stops.contains t
  | [] => stops.isEmpty

mutual

/-- A node. In a block, blocks may begin; as the value of a mapping, a sequence may begin without
being indented. -/
def parse (handles : Handles) (inBlock unindented : Bool) :
    Nat → List Token → Except SyntaxError (Node × List Token)
  | 0, _ => throw .nodeExpected
  | _ + 1, .alias name :: rest => pure (.alias (String.ofList name), rest)
  | fuel + 1, tokens => do
    let (properties, tokens) ← parseProperties handles tokens
    match tokens with
    | .scalar style text :: rest => return (.scalar properties style (String.ofList text), rest)
    | .flowSequenceStart :: rest =>
      let (items, rest) ← parseFlowItems handles true fuel rest
      return (.sequence properties items, rest)
    | .flowMappingStart :: rest =>
      let (entries, rest) ← parseFlowEntries handles true fuel rest
      return (.mapping properties entries, rest)
    | .blockEntry :: rest =>
      if unindented then
        let (items, rest) ← parseUnindentedItems handles fuel (.blockEntry :: rest)
        return (.sequence properties items, rest)
      else if properties = {} then throw .nodeExpected
      else return (missing properties, .blockEntry :: rest)
    | .blockSequenceStart :: rest =>
      if inBlock then
        let (items, rest) ← parseBlockItems handles fuel rest
        return (.sequence properties items, rest)
      else if properties = {} then throw .nodeExpected
      else return (missing properties, .blockSequenceStart :: rest)
    | .blockMappingStart :: rest =>
      if inBlock then
        let (entries, rest) ← parseBlockEntries handles fuel rest
        return (.mapping properties entries, rest)
      else if properties = {} then throw .nodeExpected
      else return (missing properties, .blockMappingStart :: rest)
    | tokens => if properties = {} then throw .nodeExpected else return (missing properties, tokens)

/-- A node, unless one of some tokens follows at once: then it is not written. -/
def parseUnless (stops : List Token) (handles : Handles) (inBlock unindented : Bool) :
    Nat → List Token → Except SyntaxError (Node × List Token)
  | 0, _ => throw .nodeExpected
  | fuel + 1, tokens =>
    if atAny stops tokens then pure (missing, tokens)
    else parse handles inBlock unindented fuel tokens

/-- The entries of an indented sequence. -/
def parseBlockItems (handles : Handles) :
    Nat → List Token → Except SyntaxError (List Node × List Token)
  | 0, _ => throw .nodeExpected
  | fuel + 1, .blockEntry :: rest => do
    let (item, rest) ← parseUnless [.blockEntry, .blockEnd] handles true false fuel rest
    let (items, rest) ← parseBlockItems handles fuel rest
    return (item :: items, rest)
  | _ + 1, .blockEnd :: rest => pure ([], rest)
  | _ + 1, _ => throw .separatorExpected

/-- The entries of a sequence that is not indented. -/
def parseUnindentedItems (handles : Handles) :
    Nat → List Token → Except SyntaxError (List Node × List Token)
  | 0, _ => throw .nodeExpected
  | fuel + 1, .blockEntry :: rest => do
    let (item, rest) ←
      parseUnless [.blockEntry, .key, .value, .blockEnd] handles true false fuel rest
    let (items, rest) ← parseUnindentedItems handles fuel rest
    return (item :: items, rest)
  | _ + 1, rest => pure ([], rest)

/-- The entries of an indented mapping. -/
def parseBlockEntries (handles : Handles) :
    Nat → List Token → Except SyntaxError (List (Node × Node) × List Token)
  | 0, _ => throw .nodeExpected
  | fuel + 1, .key :: rest => do
    let (key, rest) ← parseUnless [.key, .value, .blockEnd] handles true true fuel rest
    let (value, rest) ← match rest with
      | .value :: rest => parseUnless [.key, .value, .blockEnd] handles true true fuel rest
      | rest => pure (missing, rest)
    let (entries, rest) ← parseBlockEntries handles fuel rest
    return ((key, value) :: entries, rest)
  | _ + 1, .blockEnd :: rest => pure ([], rest)
  | _ + 1, _ => throw .separatorExpected

/-- The entries of a sequence in brackets; an entry with a key is a mapping of its own. -/
def parseFlowItems (handles : Handles) (first : Bool) :
    Nat → List Token → Except SyntaxError (List Node × List Token)
  | 0, _ => throw .nodeExpected
  | _ + 1, .flowSequenceEnd :: rest => pure ([], rest)
  | fuel + 1, tokens => do
    let tokens ← match first, tokens with
      | true, tokens => pure tokens
      | false, .flowEntry :: rest => pure rest
      | false, _ => throw .separatorExpected
    match tokens with
    | .flowSequenceEnd :: rest => return ([], rest)
    | .key :: rest =>
      let (key, rest) ←
        parseUnless [.value, .flowEntry, .flowSequenceEnd] handles false false fuel rest
      let (value, rest) ← match rest with
        | .value :: rest =>
          parseUnless [.flowEntry, .flowSequenceEnd] handles false false fuel rest
        | rest => pure (missing, rest)
      let (items, rest) ← parseFlowItems handles false fuel rest
      return (.mapping {} [(key, value)] :: items, rest)
    | tokens =>
      let (item, rest) ← parse handles false false fuel tokens
      let (items, rest) ← parseFlowItems handles false fuel rest
      return (item :: items, rest)

/-- The entries of a mapping in braces; an entry without a colon is a key without a value. -/
def parseFlowEntries (handles : Handles) (first : Bool) :
    Nat → List Token → Except SyntaxError (List (Node × Node) × List Token)
  | 0, _ => throw .nodeExpected
  | _ + 1, .flowMappingEnd :: rest => pure ([], rest)
  | fuel + 1, tokens => do
    let tokens ← match first, tokens with
      | true, tokens => pure tokens
      | false, .flowEntry :: rest => pure rest
      | false, _ => throw .separatorExpected
    match tokens with
    | .flowMappingEnd :: rest => return ([], rest)
    | .key :: rest =>
      let (key, rest) ←
        parseUnless [.value, .flowEntry, .flowMappingEnd] handles false false fuel rest
      let (value, rest) ← match rest with
        | .value :: rest =>
          parseUnless [.flowEntry, .flowMappingEnd] handles false false fuel rest
        | rest => pure (missing, rest)
      let (entries, rest) ← parseFlowEntries handles false fuel rest
      return ((key, value) :: entries, rest)
    | tokens =>
      let (key, rest) ← parse handles false false fuel tokens
      let (entries, rest) ← parseFlowEntries handles false fuel rest
      return ((key, missing) :: entries, rest)

end

/-- The directives before a document: at most one version, which has to be one that is known, and
handles for tags, none of them twice. -/
def parseDirectives : List Token → Bool → Handles → Except SyntaxError (Handles × List Token)
  | .versionDirective major minor :: rest, seen, handles =>
    if seen || major ≠ 1 || (minor ≠ 1 && minor ≠ 2) then throw .badDirective
    else parseDirectives rest true handles
  | .tagDirective handle expansion :: rest, seen, handles =>
    if (handles.lookup handle).isSome then throw .badDirective
    else parseDirectives rest seen (handles ++ [(handle, expansion)])
  | rest, _, handles => pure (handles ++ standardHandles, rest)

/-- Nothing is written between the mark of a document and what follows it. -/
def atContentEnd : List Token → Bool
  | [] | .documentStart :: _ | .documentEnd :: _ => true
  | .versionDirective .. :: _ | .tagDirective .. :: _ => true
  | _ => false

/-- The one document of a text; `none` if there is none. -/
def ofTokens? (tokens : List Token) : Except SyntaxError (Option Node) := do
  if tokens.isEmpty then return none
  let fuel := 2 * tokens.length + 2
  let (handles, content) ← parseDirectives tokens false []
  let (node, rest) ← match content with
    | .documentStart :: content =>
      if atContentEnd content then pure (missing, content)
      else parse handles true false fuel content
    | content =>
      if content.length ≠ tokens.length then throw .documentStartExpected
      parse handles true false fuel content
  if (rest.dropWhile (· == .documentEnd)).isEmpty then return some node
  else throw .severalDocuments

end Node

end ServiceBroker.Yaml
