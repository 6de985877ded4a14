import DesignTokens.Reference

/-!
# Stylesheets

A stylesheet declares one custom property per token in a block of the base layer. Properties are
named by the derived paths in collapsed naming, and references are resolved against a scope.
-/

namespace DesignTokens

/-- The elements that a stylesheet applies to. -/
inductive Selector where
  | root
  | dark
  deriving DecidableEq

namespace Selector

/-- The selector of dark or other stylesheets. -/
def ofDark (isDark : Bool) : Selector :=
  if isDark then .dark else .root

/-- The text of a selector. -/
def text : Selector → String
  | .root => ":root"
  | .dark => ".dark"

end Selector

/-- A custom property and its value, as it stands in the stylesheet. -/
structure Declaration where
  name : String
  value : String
  deriving DecidableEq

namespace Declaration

/-- The line that declares a custom property. -/
def render (d : Declaration) : String :=
  "  --" ++ d.name ++ ": " ++ d.value ++ ";\n"

/-- The lines that declare custom properties. -/
def renderAll (declarations : List Declaration) : String :=
  String.join (declarations.map render)

/-- The declaration of a token by its path. -/
def ofEntry (resolved : Entry × Json) : Declaration :=
  ⟨resolved.1.path, resolved.2.display⟩

end Declaration

/-- The block of the base layer that applies declarations to a selector. -/
def layerBlock (selector declarations : String) : String :=
  "@layer base \x7b\n  " ++ selector ++ " \x7b\n" ++ declarations ++ "  \x7d\n\x7d\n"

/-- Declarations for the elements of a selector. -/
structure Stylesheet where
  selector : Selector
  declarations : List Declaration
  deriving DecidableEq

/-- The text of a stylesheet. -/
def Stylesheet.render (s : Stylesheet) : String :=
  layerBlock s.selector.text (Declaration.renderAll s.declarations)

namespace Group

/-- The declarations of a tree, in the order of its walk. -/
def declarations (scope : Option Scope) (g : Group) : Outcome (List Declaration) :=
  (g.resolved .collapsed scope).andThen fun resolved =>
    .done (resolved.map Declaration.ofEntry)

/-- The stylesheet of a tree. -/
def stylesheet (selector : Selector) (scope : Option Scope) (g : Group) : Outcome Stylesheet :=
  (g.declarations scope).andThen fun declarations => .done ⟨selector, declarations⟩

end Group

end DesignTokens
