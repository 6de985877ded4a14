import DesignTokens.Target.ConstantUnit

/-!
# The text of a unit of constants

A unit is written as a source file of fixed shape. Constants, table rows and names are each
written on a line of their own, in the order in which the unit holds them.
-/

namespace DesignTokens

namespace Constant

/-- The lines that declare a constant. -/
def lines (k : Constant) : List String :=
  ["            /// <summary>" ++ k.path ++ "</summary>",
   "            public static readonly string " ++ k.name ++ " = " ++
     quoteLiteral k.value.display ++ ";"]

end Constant

namespace ConstantClass

/-- The lines that declare constants, with an empty line between neighbours. -/
def memberLines : List Constant → List String
  | [] => []
  | [k] => k.lines
  | k :: rest => k.lines ++ "" :: memberLines rest

/-- The lines that declare a class. -/
def lines (c : ConstantClass) : List String :=
  ["",
   "        /// <summary>",
   "        /// Design tokens for " ++ c.category,
   "        /// </summary>",
   "        public static class " ++ c.name,
   "        \x7b"] ++
  memberLines c.constants ++
  ["        \x7d"]

end ConstantClass

namespace ConstantUnit

/-- The line of a table row. -/
def Row.line (r : Row) : String :=
  "                \x7b " ++ quoteLiteral r.path ++ ", " ++ r.className ++ "." ++ r.name ++ " \x7d,"

/-- The lines of the names, with a comma after all but the last. -/
def nameLines : List String → List String
  | [] => []
  | [name] => ["                " ++ quoteLiteral name]
  | name :: rest => ("                " ++ quoteLiteral name ++ ",") :: nameLines rest

/-- The lines before the classes. -/
def header (u : ConstantUnit) : List String :=
  ["//------------------------------------------------------------------------------",
   "// <auto-generated>",
   "//     This code was generated by Ivy Design System build script.",
   "//     Changes to this file may cause incorrect behavior and will be lost if",
   "//     the code is regenerated.",
   "// </auto-generated>",
   "//------------------------------------------------------------------------------",
   "",
   "#nullable enable",
   "",
   "using System.Linq;",
   "",
   "namespace " ++ u.namespaceName,
   "\x7b",
   "    /// <summary>",
   "    /// Design System tokens generated from Ivy Design System",
   "    /// Provides compile-time access to all design tokens",
   "    /// </summary>",
   "    /// <remarks>",
   "    /// Generated on: " ++ u.timestamp,
   "    /// Total tokens: " ++ toString u.constants.length,
   "    /// </remarks>",
   "    public static class " ++ u.className,
   "    \x7b"]

/-- The lines from the classes to the names. -/
def accessors : List String :=
  ["",
   "        /// <summary>",
   "        /// Generates CSS custom properties for all design tokens",
   "        /// </summary>",
   "        /// <param name=\"selector\">CSS selector (default: \":root\")</param>",
   "        /// <returns>CSS string with all custom properties</returns>",
   "        public static string GenerateCSS(string selector = \":root\")",
   "        \x7b",
   "            var css = new System.Text.StringBuilder();",
   "            css.AppendLine($\"\x7bselector\x7d \x7b\x7b\");",
   "            foreach (var token in GetAllTokens())",
   "            \x7b",
   "                css.AppendLine($\"  --\x7btoken.Key\x7d: \x7btoken.Value\x7d;\");",
   "            \x7d",
   "            css.AppendLine(\"\x7d\");",
   "            return css.ToString();",
   "        \x7d",
   "",
   "        /// <summary>",
   "        /// Gets a token value by its CSS variable name",
   "        /// </summary>",
   "        /// <param name=\"tokenName\">" ++
     "Token name in kebab-case (e.g., \"color-primary\")</param>",
   "        /// <returns>Token value or null if not found</returns>",
   "        public static string? GetToken(string tokenName)",
   "        \x7b",
   "            if (string.IsNullOrEmpty(tokenName)) return null;",
   "            return GetAllTokens().TryGetValue(tokenName, out var value) ? value : null;",
   "        \x7d",
   "",
   "        /// <summary>",
   "        /// Gets all token names",
   "        /// </summary>",
   "        /// <returns>Array of all token names in kebab-case</returns>",
   "        public static string[] GetAllTokenNames()",
   "        \x7b",
   "            return new string[]",
   "            \x7b"]

/-- The lines from the names to the table. -/
def tableOpening : List String :=
  ["            \x7d;",
   "        \x7d",
   "",
   "        /// <summary>",
   "        /// Gets all token values as a dictionary",
   "        /// </summary>",
   "        /// <returns>Dictionary of token name -> value</returns>",
   "        public static System.Collections.Generic.Dictionary<string, string> GetAllTokens()",
   "        \x7b",
   "            return new System.Collections.Generic.Dictionary<string, string>",
   "            \x7b"]

/-- The lines after the table. -/
def footer : List String :=
  ["            \x7d;",
   "        \x7d",
   "    \x7d",
   "\x7d"]

/-- The lines of the source file. -/
def lines (u : ConstantUnit) : List String :=
  u.header ++ u.classes.flatMap ConstantClass.lines ++ accessors ++ nameLines u.names ++
    tableOpening ++ u.rows.map Row.line ++ footer

/-- The text of the source file. -/
def render (u : ConstantUnit) : String :=
  String.join (u.lines.map (· ++ "\n"))

end ConstantUnit

end DesignTokens
