import DesignTokens.Tree.Document

/-!
# Walking a tree

A walk reaches the tokens of a tree and derives their paths, which join ancestor keys with
hyphens. Two keys are special. The first variant of a theme wrapper is entered through its color
group, and the wrapper adds one segment to the path: `theme-<variant>-color` in qualified naming,
`color` in collapsed naming. The group under the color key comes before the other children.

`Node.visits` lists what a walk meets in order: tokens, and wrappers with variants that are not
entered. `walk` goes through that list, reports the wrappers, and stops at the first token whose
path occurred before.
-/

namespace DesignTokens

/-- How the paths of theme tokens are named. -/
inductive PathStyle where
  | qualified
  | collapsed
  deriving DecidableEq

/-- The path segment for the color group of a theme variant. -/
def PathStyle.themeSegment : PathStyle → String → String
  | .qualified, variant => "theme-" ++ variant ++ "-color"
  | .collapsed, _ => colorKey

/-- A token reached by a walk, with its derived path and its own key. -/
structure Entry where
  path : String
  key : String
  token : Token

/-- The path of an entry as a capitalized-word identifier. -/
def Entry.propertyName (e : Entry) : String :=
  pascalCase e.path

/-- What a walk meets. -/
inductive Visit where
  | entry (e : Entry)
  /-- A theme wrapper with these variants, of which only the first is entered. -/
  | skipped (variants : List String)

namespace Node

/-- The visit of a token that stands under a key. -/
def ownVisit (path key : String) : Node → List Visit
  | .token t => [.entry ⟨joinPath path key, key, t⟩]
  | _ => []

end Node

/-- The visit of a wrapper: nothing to report when it has at most one variant. -/
def Group.variantVisit (variants : Group) : List Visit :=
  if 1 < variants.length then [.skipped (Fields.names variants)] else []

mutual

/-- The visits inside a group that is reached under a path. -/
def Node.visits (style : PathStyle) (path : String) : Node → List Visit
  | .group children =>
    Group.themeVisits style path children ++
      (Group.colorVisits style (joinPath path colorKey) children ++
        Group.restVisits style path children)
  | _ => []

/-- The visits inside the theme wrapper among these children. -/
def Group.themeVisits (style : PathStyle) (path : String) : List (String × Node) → List Visit
  | [] => []
  | (key, node) :: rest =>
    if key = themeKey then node.wrapperVisits style path else Group.themeVisits style path rest

/-- The visits inside a theme wrapper. -/
def Node.wrapperVisits (style : PathStyle) (path : String) : Node → List Visit
  | .group variants => Group.variantVisit variants ++ Group.firstVisits style path variants
  | _ => []

/-- The visits inside the first variant of a theme wrapper. -/
def Group.firstVisits (style : PathStyle) (path : String) : List (String × Node) → List Visit
  | [] => []
  | (variant, body) :: _ =>
    body.bodyVisits style (joinPath path (style.themeSegment variant))

/-- The visits inside the color group of a variant, which is reached under a path. -/
def Node.bodyVisits (style : PathStyle) (path : String) : Node → List Visit
  | .group children => Group.colorVisits style path children
  | _ => []

/-- The visits inside the color group among these children, which is reached under a path. -/
def Group.colorVisits (style : PathStyle) (path : String) : List (String × Node) → List Visit
  | [] => []
  | (key, node) :: rest =>
    if key = colorKey then node.visits style path else Group.colorVisits style path rest

/-- The visits of the children other than a theme wrapper and a color group. -/
def Group.restVisits (style : PathStyle) (path : String) : List (String × Node) → List Visit
  | [] => []
  | (key, node) :: rest =>
    (if key = themeKey then []
      else node.ownVisit path key ++
        if key = colorKey then [] else node.visits style (joinPath path key)) ++
      Group.restVisits style path rest

end

/-- What a walk of a group meets, in order. -/
def Group.visits (style : PathStyle) (path : String) (g : Group) : List Visit :=
  (Node.group g).visits style path

namespace Visit

/-- The entries of the visits, up to the first whose path is among those seen before. Wrappers
are reported as they are met. -/
def collect : List String → List Visit → Outcome (List Entry)
  | _, [] => .done []
  | seen, .entry e :: rest =>
    if seen.contains e.path then .fail (.duplicatePath e.path)
    else (collect (e.path :: seen) rest).andThen fun entries => .done (e :: entries)
  | seen, .skipped variants :: rest =>
    (Outcome.note (.variantsSkipped variants)).andThen fun _ => collect seen rest

/-- The entry of a visit to a token. -/
def entry? : Visit → Option Entry
  | .entry e => some e
  | .skipped _ => none

end Visit

namespace Group

/-- The entries that the walk of a group derives, whether or not their paths are distinct. -/
def entries (style : PathStyle) (path : String) (g : Group) : List Entry :=
  (g.visits style path).filterMap Visit.entry?

/-- Every reachable token with its derived path, in the order of the walk. -/
def walk (style : PathStyle) (path : String) (g : Group) : Outcome (List Entry) :=
  Visit.collect [] (g.visits style path)

/-- The derived paths of the tokens, in the order of the walk. -/
def paths (style : PathStyle) (g : Group) : Outcome (List String) := do
  let entries ← g.walk style ""
  return entries.map Entry.path

/-- The first variant of a theme wrapper, and its color group. -/
def unwrapTheme (wrapper : Group) : Outcome (Option String × Option Group) :=
  match wrapper with
  | [] => .done (none, none)
  | (variant, body) :: _ => do
    if 1 < wrapper.length then Outcome.note (.variantsSkipped (Fields.names wrapper))
    return (some variant, body.children?.bind fun children => group? children colorKey)

/-- The name of the theme variant that a tree carries. -/
def themeVariant (g : Group) : Outcome (Option String) :=
  match g.group? themeKey with
  | none => .done none
  | some wrapper => do
    let (variant, _) ← wrapper.unwrapTheme
    return variant

end Group

end DesignTokens
