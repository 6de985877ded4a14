import DesignTokens.Json.Printer
import DesignTokens.Target.Stylesheet

/-!
# Utility themes

A utility theme gives the categories of a tree the keys of a utility-class framework. Every token
becomes a reference to the custom property that stylesheets declare for it, so values stand in
stylesheets only. A tree with a theme wrapper and no colors of its own takes the colors of the
wrapper's first variant. Groups without tokens are left out.
-/

namespace DesignTokens

/-- The expression that reads a custom property. -/
def variableReference (name : String) : String :=
  "var(--" ++ name ++ ")"

mutual

/-- What stands for a node at a path: a reference for a token, an object for a group with tokens
below it. -/
def Node.variableTree? (path : String) : Node → Option Json
  | .token _ => some (.str (variableReference path))
  | .group children =>
    match Group.variableTree path children with
    | [] => none
    | field :: fields => some (.obj (field :: fields))
  | .raw _ => none

/-- The references to the tokens below a path, nested as the tokens are. -/
def Group.variableTree (path : String) : List (String × Node) → Fields Json
  | [] => []
  | (key, node) :: rest =>
    let others := Group.variableTree path rest
    if key = themeKey then others
    else
      match node.variableTree? (joinPath path key) with
      | some x => (key, x) :: others
      | none => others

end

namespace UtilityTheme

/-- The groups that are categories, as lists of keys, and the theme keys that they are given, in
the order of the output. -/
def categories : List (List String × String) :=
  [(["color"], "colors"),
   (["typography", "fontFamily"], "fontFamily"),
   (["typography", "fontSize"], "fontSize"),
   (["typography", "lineHeight"], "lineHeight"),
   (["typography", "letterSpacing"], "letterSpacing"),
   (["typography", "tracking"], "letterSpacing"),
   (["spacing"], "spacing"),
   (["radius"], "borderRadius"),
   (["shadow"], "boxShadow"),
   (["breakpoint"], "screens"),
   (["animation", "duration"], "transitionDuration"),
   (["animation", "easing"], "transitionTimingFunction")]

/-- The references that a category gives. -/
def categoryVariables (root : Group) (keys : List String) : Fields Json :=
  match (root.at? keys).bind Node.children? with
  | some children => Group.variableTree ("-".intercalate keys) children
  | none => []

/-- A theme with the references of one category put under its theme key, beside those that other
categories put there. -/
def addCategory (root : Group) (theme : Fields Json) (category : List String × String) :
    Fields Json :=
  let references := categoryVariables root category.1
  if references.isEmpty then theme
  else
    let present := ((theme.get? category.2).bind Json.fields?).getD []
    theme.insert category.2 (.obj (present.insertAll references))

/-- The theme of a tree whose categories stand at its root. -/
def ofRoot (root : Group) : Fields Json :=
  categories.foldl (addCategory root) []

/-- The group in which categories are looked up. -/
def categoryRoot (g : Group) : Outcome Group :=
  match g.group? themeKey, g.group? colorKey with
  | some wrapper, none =>
    wrapper.unwrapTheme.andThen fun unwrapped =>
      match unwrapped.2 with
      | some colors => .done (g.add colorKey (.group colors))
      | none => .done g
  | _, _ => .done g

/-- The module that exports a theme as an extension of the framework's own. -/
def render (theme : Fields Json) : String :=
  let config := Json.obj [("theme", .obj [("extend", .obj theme)])]
  "export default " ++ config.pretty .unicode ++ ";\n"

end UtilityTheme

/-- The utility theme of a tree. -/
def Group.utilityTheme (g : Group) : Outcome (Fields Json) :=
  (UtilityTheme.categoryRoot g).andThen fun root => .done (UtilityTheme.ofRoot root)

end DesignTokens
