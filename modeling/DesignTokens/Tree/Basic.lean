import DesignTokens.Json.Equality
import DesignTokens.Json.Identity
import DesignTokens.Naming

/-!
# Token trees

A node is a token, a group of named nodes in order, or a raw value that is kept and never emitted.
The tree of a document is the group at its root. Dotted paths look nodes up, and `flatten` lists
every token under its dotted path.
-/

namespace DesignTokens

/-- A design value with a type tag. In a token of a document both are texts, while a token that is
put into a tree may hold any values. -/
structure Token where
  value : Json
  type : Json
  /-- Null when there is none. -/
  description : Json := .null
  extra : Fields Json := []
  deriving DecidableEq

/-- A node of a token tree. -/
inductive Node where
  | token (t : Token)
  | group (children : List (String × Node))
  | raw (value : Json)

/-- The children of a group, in order. -/
abbrev Group := List (String × Node)

/-- The key of a wrapper around theme variants. -/
def themeKey : String := "theme"

/-- The key of a group of colors. -/
def colorKey : String := "color"

namespace Node

/-- The children of a group. -/
def children? : Node → Option Group
  | .group children => some children
  | _ => none

/-- The token at a leaf. -/
def token? : Node → Option Token
  | .token t => some t
  | _ => none

/-- The node that a list of keys leads to, through groups only. -/
def at? : Node → List String → Option Node
  | node, [] => some node
  | .group children, key :: keys => (Fields.get? children key).bind fun child => child.at? keys
  | _, _ :: _ => none
  termination_by structural _ keys => keys

/-- The node with a child put under a key of the group that a list of keys leads to, and nothing
when they lead to no group. -/
def addAt? : Node → List String → String → Node → Option Node
  | .group children, [], key, child => some (.group (Fields.insert children key child))
  | .group children, step :: keys, key, child => do
    let below ← Fields.get? children step
    let changed ← below.addAt? keys key child
    some (.group (Fields.insert children step changed))
  | _, _, _, _ => none
  termination_by structural _ keys => keys

end Node

namespace Group

/-- The child under a key. -/
def child? (g : Group) (key : String) : Option Node :=
  Fields.get? g key

/-- The child under a key, when it is a group. -/
def group? (g : Group) (key : String) : Option Group :=
  (g.child? key).bind Node.children?

/-- The node that a list of keys leads to. -/
def at? (g : Group) (keys : List String) : Option Node :=
  (Node.group g).at? keys

/-- The keys that a dotted path names. -/
def dottedKeys (path : String) : List String :=
  (path.toList.splitOn '.').map String.ofList

/-- The node at a dotted path. -/
def get? (g : Group) (path : String) : Option Node :=
  g.at? (dottedKeys path)

/-- The group with a node put under a key. -/
def add (g : Group) (key : String) (node : Node) : Group :=
  Fields.insert g key node

end Group

mutual

/-- The tokens at and below a node that stands at a dotted path. -/
def Node.tokensFrom (path : String) : Node → List (String × Token)
  | .token t => [(path, t)]
  | .group children => Group.tokensBelow path children
  | .raw _ => []

/-- The tokens below a dotted path, depth first in key order. -/
def Group.tokensBelow (path : String) : List (String × Node) → List (String × Token)
  | [] => []
  | (key, node) :: rest => node.tokensFrom (joinDotted path key) ++ Group.tokensBelow path rest

end

/-- The tokens of a group by dotted path. -/
def Group.flatten (g : Group) (path : String) : Fields Token :=
  Fields.ofPairs (Group.tokensBelow path g)

end DesignTokens
