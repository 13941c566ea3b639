import Respell.Yaml.Token

/-!
Documents of a YAML text as trees of scalars and mappings. Aliases are replaced by the nodes they
stand for.
-/

set_option autoImplicit false

namespace Respell.Yaml

/-- A node of a document. -/
inductive Node
  | scalar (text : String) (plain : Bool)
  | mapping (entries : List (Node × Node))

/-- The node that stands where nothing is written. -/
def Node.absent : Node := .scalar "" true

/-- Tokens ahead, and what names mean. -/
structure Composer where
  /-- Tokens ahead. -/
  tokens : List Token
  /-- Nodes of anchors, the newest first; none while a node is not complete. -/
  anchors : List (String × Option Node)
  /-- Handles of tags. -/
  handles : List String

namespace Composer

/-- Passes a token. -/
def skip (composer : Composer) : Composer := { composer with tokens := composer.tokens.drop 1 }

/-- The node of an anchor. -/
def anchored? (composer : Composer) (name : String) : Option Node :=
  (composer.anchors.find? fun anchor => anchor.1 == name).bind Prod.snd

/-- Gives a meaning to an anchor. -/
def define (composer : Composer) (anchor : Option String) (node : Option Node) : Composer :=
  match anchor with
  | some name => { composer with anchors := (name, node) :: composer.anchors }
  | none => composer

/-- Whether a tag may have a handle. -/
def knows (composer : Composer) (handle : String) : Bool :=
  handle == "" || composer.handles.contains handle

/-- The anchor before a node, whether anything stands before it, and what follows. -/
def properties? (composer : Composer) : Option (Option String × Bool × Composer) :=
  match composer.tokens with
  | .anchor name :: .tag handle :: _ =>
    if composer.knows handle then some (some name, true, composer.skip.skip) else none
  | .tag handle :: .anchor name :: _ =>
    if composer.knows handle then some (some name, true, composer.skip.skip) else none
  | .anchor name :: _ => some (some name, true, composer.skip)
  | .tag handle :: _ => if composer.knows handle then some (none, true, composer.skip) else none
  | _ => some (none, false, composer)

/-- Whether a part of a block mapping is left out here. -/
def blockPartAbsent (composer : Composer) : Bool :=
  match composer.tokens with
  | .key :: _ | .value :: _ | .blockEnd :: _ | [] => true
  | _ => false

/-- Whether a value between braces is left out here. -/
def flowValueAbsent (composer : Composer) : Bool :=
  match composer.tokens with
  | .flowEntry :: _ | .flowEnd :: _ => true
  | _ => false

/-- Whether a key between braces is left out here. -/
def flowKeyAbsent (composer : Composer) : Bool :=
  match composer.tokens with
  | .value :: _ => true
  | _ => composer.flowValueAbsent

mutual

/-- A node. Block mappings are admitted only if `block` is set. -/
def node? : Nat → (block : Bool) → Composer → Option (Node × Composer)
  | 0, _, _ => none
  | fuel + 1, block, composer =>
    match composer.tokens with
    | .reference name :: _ => (composer.anchored? name).map fun node => (node, composer.skip)
    | _ => do
      let (anchor, marked, composer) ← composer.properties?
      let composer := composer.define anchor none
      match composer.tokens with
      | .scalar text plain :: _ =>
        let node := .scalar text plain
        some (node, composer.skip.define anchor (some node))
      | .flowStart :: _ =>
        let (entries, composer) ← flowEntries? fuel true composer.skip
        let node := .mapping entries
        some (node, composer.define anchor (some node))
      | .blockStart :: _ =>
        if block then
          let (entries, composer) ← blockEntries? fuel composer.skip
          let node := .mapping entries
          some (node, composer.define anchor (some node))
        else if marked then some (.absent, composer.define anchor (some .absent))
        else none
      | _ => if marked then some (.absent, composer.define anchor (some .absent)) else none

/-- Entries of a block mapping, up to its end. -/
def blockEntries? : Nat → Composer → Option (List (Node × Node) × Composer)
  | 0, _ => none
  | fuel + 1, composer =>
    match composer.tokens with
    | .blockEnd :: _ => some ([], composer.skip)
    | .key :: _ => do
      let composer := composer.skip
      let (key, composer) ←
        if composer.blockPartAbsent then some (.absent, composer) else node? fuel true composer
      let (value, composer) ←
        match composer.tokens with
        | .value :: _ =>
          if composer.skip.blockPartAbsent then some (.absent, composer.skip)
          else node? fuel true composer.skip
        | _ => some (.absent, composer)
      let (more, composer) ← blockEntries? fuel composer
      some ((key, value) :: more, composer)
    | _ => none

/-- Entries between braces, up to the closing one. -/
def flowEntries? : Nat → (first : Bool) → Composer → Option (List (Node × Node) × Composer)
  | 0, _, _ => none
  | fuel + 1, first, composer =>
    match composer.tokens with
    | .flowEnd :: _ => some ([], composer.skip)
    | tokens => do
      let composer ←
        if first then some composer
        else if tokens.head? == some .flowEntry then some composer.skip
        else none
      match composer.tokens with
      | .flowEnd :: _ => some ([], composer.skip)
      | .key :: _ =>
        let composer := composer.skip
        let (key, composer) ←
          if composer.flowKeyAbsent then some (.absent, composer) else node? fuel false composer
        let (value, composer) ←
          match composer.tokens with
          | .value :: _ =>
            if composer.skip.flowValueAbsent then some (.absent, composer.skip)
            else node? fuel false composer.skip
          | _ => some (.absent, composer)
        let (more, composer) ← flowEntries? fuel false composer
        some ((key, value) :: more, composer)
      | _ =>
        let (key, composer) ← node? fuel false composer
        let (more, composer) ← flowEntries? fuel false composer
        some ((key, .absent) :: more, composer)

end

/-- Handles of the directives before a document, and what follows them. -/
def directives? : Nat → (versions : Nat) → List String → List Token →
    Option (Nat × List String × List Token)
  | fuel + 1, versions, handles, .version :: rest =>
    if versions == 0 then directives? fuel 1 handles rest else none
  | fuel + 1, versions, handles, .handle name :: rest =>
    if handles.contains name then none else directives? fuel versions (handles ++ [name]) rest
  | _, versions, handles, tokens => some (versions, handles, tokens)

end Composer

/-- Whether nothing but ends of documents is left. -/
def onlyEnds (tokens : List Token) : Bool := tokens.all (· == .documentEnd)

/-- The node of a document that a mark begins. -/
def explicitDocument? (handles : List String) (tokens : List Token) : Option Node :=
  match tokens with
  | [] => some .absent
  | .documentEnd :: rest => if onlyEnds rest then some .absent else none
  | _ => do
    let (node, composer) ← Composer.node? (2 * tokens.length + 1) true
      ⟨tokens, [], handles ++ ["!", "!!"]⟩
    if onlyEnds composer.tokens then some node else none

/-- The only document of a text; the absent node if there is none. -/
def parse? (text : String) : Option Node := do
  let tokens ← tokens? text
  let (versions, handles, rest) ← Composer.directives? tokens.length 0 [] tokens
  match rest with
  | .documentStart :: rest => explicitDocument? handles rest
  | [] => if versions == 0 && handles.isEmpty then some .absent else none
  | .documentEnd :: _ => none
  | _ => if versions == 0 && handles.isEmpty then explicitDocument? [] rest else none

end Respell.Yaml
