import DesignTokens.Target.Stylesheet

/-!
# Flat stylesheets

A flat stylesheet names its properties through an alias table, which maps derived paths in
qualified naming to variable names. A token without an alias is left out by a strict table and
keeps its own key with a permissive one.
-/

namespace DesignTokens

/-- Variable names by derived path. -/
structure AliasTable where
  names : Fields String
  strict : Bool := false

namespace AliasTable

/-- The table that leaves out tokens without an alias. -/
def asStrict (table : AliasTable) : AliasTable :=
  { table with strict := true }

/-- The table that keeps tokens without an alias. -/
def asPermissive (table : AliasTable) : AliasTable :=
  { table with strict := false }

/-- The variable name of a token, and nothing when the token is left out. -/
def flatName (table : AliasTable) (e : Entry) : Outcome (Option String) :=
  match table.names.get? e.path with
  | some name => .done (some name)
  | none =>
    if table.strict then
      (Outcome.note (.aliasMissing e.path)).andThen fun _ => .done none
    else
      .done (some e.key)

/-- The variable names that both themes share. -/
def sharedNames : List String :=
  ["primary", "primary-foreground", "secondary", "secondary-foreground", "destructive",
   "destructive-foreground", "success", "success-foreground", "warning", "warning-foreground",
   "info", "info-foreground", "background", "foreground", "border", "input", "ring", "muted",
   "muted-foreground", "accent", "accent-foreground", "card", "card-foreground", "popover",
   "popover-foreground"]

/-- The permissive table that maps every shared name below a path to itself. -/
def below (path : String) : AliasTable :=
  { names := sharedNames.map fun name => (joinPath path name, name) }

/-- The table of the base theme. -/
def root : AliasTable :=
  below "color"

/-- The table of the dark theme. -/
def dark : AliasTable :=
  below "theme-dark-color"

/-- The table for the elements of a selector. -/
def ofSelector : Selector → AliasTable
  | .root => root
  | .dark => dark

/-- The declarations under variable names of tokens and their values. -/
def declare (table : AliasTable) : List (Entry × Json) → Outcome (List Declaration)
  | [] => .done []
  | (e, value) :: rest =>
    (table.flatName e).andThen fun name? =>
      (declare table rest).andThen fun declarations =>
        match name? with
        | some name => .done (⟨name, value.display⟩ :: declarations)
        | none => .done declarations

/-- The variable names of tokens, with nothing for those that are left out. -/
def flatNames (table : AliasTable) : List Entry → Outcome (List (Option String))
  | [] => .done []
  | e :: rest =>
    (table.flatName e).andThen fun name? =>
      (flatNames table rest).andThen fun names => .done (name? :: names)

end AliasTable

namespace Group

/-- The declarations of a tree under variable names, in the order of its walk. -/
def flatDeclarations (scope : Option Scope) (table : AliasTable) (g : Group) :
    Outcome (List Declaration) :=
  (g.resolved .qualified scope).andThen fun resolved => table.declare resolved

/-- The flat stylesheet of a tree. Without a table the one of the selector is used. -/
def flatStylesheet (selector : Selector) (scope : Option Scope) (table : Option AliasTable)
    (g : Group) : Outcome Stylesheet :=
  (g.flatDeclarations scope (table.getD (.ofSelector selector))).andThen fun declarations =>
    .done ⟨selector, declarations⟩

end Group

end DesignTokens
