import DesignTokens.Proofs.ConstantUnit.Identifiers
import DesignTokens.Proofs.Lines
import DesignTokens.Proofs.Target.Agreement
import DesignTokens.Proofs.Target.Literal

/-!
# Line breaks in literals

Escaping marks backslashes and quotes, and leaves line breaks as they are. So a literal is on one
line exactly when its text is, and a path or a value with a line break gives a literal that the
target does not allow: `literals_oneLine_iff` says which trees have no such literal, and that these
are the trees of which every constant, table row, listed name and member of the union is one line of
its file.
-/

namespace DesignTokens

open Text (OneLine)

/-! ## Quoted texts -/

/-- Escaping neither adds line breaks nor removes them. -/
theorem Literal.forall_mem_escape_iff {quote : Char} (cs : List Char) :
    (∀ c ∈ cs.flatMap (escape quote), Text.isLineBreak c = false) ↔
      ∀ c ∈ cs, Text.isLineBreak c = false := by
  rw [List.forall_mem_flatMap]
  refine forall₂_congr fun c _ => ?_
  have hslash : Text.isLineBreak '\\' = false := by decide
  unfold escape
  split <;> simp [hslash]

/-- A literal is on one line exactly when its text is. -/
theorem oneLine_quoteLiteral {text : String} : OneLine (quoteLiteral text) ↔ OneLine text := by
  have hquote : OneLine "\"" := by decide
  have hescape : OneLine (escapeLiteral text) ↔ OneLine text := by
    rw [OneLine, escapeLiteral, String.toList_ofList, Literal.escapeLiteralChar_eq]
    exact Literal.forall_mem_escape_iff _
  rw [quoteLiteral, Text.oneLine_append, Text.oneLine_append, hescape]
  exact ⟨fun h => h.1.2, fun h => ⟨⟨hquote, h⟩, hquote⟩⟩

/-- A quoted name is on one line exactly when the name is. -/
theorem NameModule.oneLine_quote {name : String} : OneLine (quote name) ↔ OneLine name := by
  have hquote : Text.isLineBreak '\'' = false := by decide
  have hescape : escapeQuoted = Literal.escape '\'' := rfl
  rw [OneLine, quote, String.toList_ofList, List.forall_mem_cons, List.forall_mem_append, hescape,
    Literal.forall_mem_escape_iff, List.forall_mem_singleton]
  exact ⟨fun h => h.2.1, fun h => ⟨hquote, h, hquote⟩⟩

/-- An identifier has no line break. -/
theorem oneLine_identifier (name : String) : OneLine (identifier name) := by
  have hbreaks : ∀ c, Text.isLineBreak c → Identifier.isIdentifierChar c = false := by
    intro c hc
    rw [Text.isLineBreak, Bool.or_eq_true, beq_iff_eq, beq_iff_eq] at hc
    rcases hc with rfl | rfl <;> decide
  intro c hc
  refine Bool.eq_false_iff.2 fun hbreak => ?_
  exact Bool.eq_false_iff.1 (hbreaks c hbreak) (isIdentifierChar_of_mem_identifier hc)

/-! ## Units of constants -/

namespace ConstantUnit

/-- The literals of a unit: those of its members, its names, and the keys of its table. -/
def literals (u : ConstantUnit) : List String :=
  u.members.map Member.literal ++ u.names.map quoteLiteral ++
    u.rows.map fun r => quoteLiteral r.path

/-- What a unit writes for its tokens: its members, its names, and the rows of its table. -/
def tokenLines (u : ConstantUnit) : List String :=
  u.members.map Member.line ++ nameLines u.names ++ u.rows.map Row.line

variable {u : ConstantUnit} {owner : String}

/-- The lines of the members are among those of the classes, in this order. -/
theorem members_sublist (u : ConstantUnit) :
    (u.members.map Member.line).Sublist (u.classes.flatMap ConstantClass.lines) := by
  rw [members, List.map_flatMap]
  refine List.Sublist.flatMap_right _ fun c _ => ?_
  rw [List.map_map, ConstantClass.lines]
  refine List.Sublist.trans ?_ (List.sublist_append_left _ _)
  exact (ConstantClass.sublist_memberLines c.name c.constants).trans
    (List.sublist_append_right _ _)

/-- What a unit writes for its tokens is in its source file, in this order. -/
theorem tokenLines_sublist (u : ConstantUnit) : u.tokenLines.Sublist u.lines := by
  rw [tokenLines, lines]
  -- The parts of the file are taken off from its end.
  refine List.Sublist.trans ?_ (List.sublist_append_left _ _)
  refine List.Sublist.append (List.Sublist.trans ?_ (List.sublist_append_left _ _)) (.refl _)
  refine List.Sublist.append (List.Sublist.trans ?_ (List.sublist_append_left _ _)) (.refl _)
  exact u.members_sublist.trans (List.sublist_append_right _ _)

/-- What is written for names is on one line each exactly when their literals are. -/
theorem forall_oneLine_nameLines {names : List String} :
    (∀ line ∈ nameLines names, OneLine line) ↔ ∀ name ∈ names, OneLine (quoteLiteral name) := by
  have hmargin : OneLine "                " := by decide
  have hcomma : OneLine "," := by decide
  fun_induction nameLines names with
  | case1 => simp
  | case2 name => simp [hmargin]
  | case3 name rest _ ih => simp only [List.forall_mem_cons, ih, Text.oneLine_append, hmargin,
      hcomma, true_and, and_true]

theorem oneLine_memberLine {m : Member} (hname : OneLine m.name) :
    OneLine m.line ↔ OneLine m.literal := by
  have hopening : OneLine "            public static readonly string " := by decide
  have hequals : OneLine " = " := by decide
  have hend : OneLine ";" := by decide
  unfold Member.line
  simp only [Text.oneLine_append, hname, hopening, hequals, hend, and_true, true_and]

theorem oneLine_rowLine {r : Row} (hclass : OneLine r.className) (hname : OneLine r.name) :
    OneLine r.line ↔ OneLine (quoteLiteral r.path) := by
  have hopening : OneLine "                \x7b " := by decide
  have hcomma : OneLine ", " := by decide
  have hdot : OneLine "." := by decide
  have hend : OneLine " \x7d," := by decide
  unfold Row.line
  simp only [Text.oneLine_append, hclass, hname, hopening, hcomma, hdot, hend, and_true, true_and]

/-- What the constants of all classes meet, the constants of the unit meet. -/
theorem forall_classes_iff (h : ConstantClass.group owner u.constants = .ok u.classes)
    {p : Constant → Prop} :
    (∀ c ∈ u.classes, ∀ k ∈ c.constants, p k) ↔ ∀ k ∈ u.constants, p k := by
  rw [← List.forall_mem_flatMap]
  exact forall_congr' fun k => by rw [(ConstantClass.flatMap_constants_perm h).mem_iff]

/-- The literals of a unit are on one line each exactly when the paths and the shown values of its
constants are. -/
theorem forall_oneLine_literals (h : ConstantClass.group owner u.constants = .ok u.classes) :
    (∀ literal ∈ u.literals, OneLine literal) ↔
      ∀ k ∈ u.constants, OneLine k.path ∧ OneLine k.value.display := by
  have hmembers : (∀ m ∈ u.members, OneLine m.literal) ↔
      ∀ k ∈ u.constants, OneLine k.value.display := by
    rw [← forall_classes_iff h, members, List.forall_mem_flatMap]
    refine forall₂_congr fun c _ => ?_
    rw [List.forall_mem_map]
    exact forall₂_congr fun k _ => oneLine_quoteLiteral
  have hnames : (∀ name ∈ u.names, OneLine (quoteLiteral name)) ↔
      ∀ k ∈ u.constants, OneLine k.path := by
    rw [names, List.forall_mem_map]
    exact forall₂_congr fun k _ => oneLine_quoteLiteral
  have hrows : (∀ r ∈ u.rows, OneLine (quoteLiteral r.path)) ↔
      ∀ name ∈ u.names, OneLine (quoteLiteral name) := by
    rw [← List.forall_mem_map (f := Row.path) (P := fun name => OneLine (quoteLiteral name))]
    exact forall_congr' fun name => by rw [(rows_paths_perm h).mem_iff]
  rw [literals, List.forall_mem_append, List.forall_mem_append, List.forall_mem_map,
    List.forall_mem_map, List.forall_mem_map, hmembers, hrows, hnames, forall₂_and]
  exact ⟨fun hall => ⟨hall.2, hall.1.1⟩, fun hall => ⟨⟨hall.2, hall.1⟩, hall.1⟩⟩

/-- What a unit writes for its tokens is on one line each exactly when its literals are. -/
theorem forall_oneLine_tokenLines (h : ConstantClass.group owner u.constants = .ok u.classes)
    (hnames : ∀ k ∈ u.constants, OneLine k.name) :
    (∀ line ∈ u.tokenLines, OneLine line) ↔ ∀ literal ∈ u.literals, OneLine literal := by
  have hname := (forall_classes_iff h).2 hnames
  have hmembers : (∀ m ∈ u.members, OneLine m.line) ↔ ∀ m ∈ u.members, OneLine m.literal := by
    refine forall₂_congr fun m hm => oneLine_memberLine ?_
    obtain ⟨c, hc, hm⟩ := List.mem_flatMap.1 hm
    obtain ⟨k, hk, rfl⟩ := List.mem_map.1 hm
    exact hname c hc k hk
  have hrows : (∀ r ∈ u.rows, OneLine r.line) ↔ ∀ r ∈ u.rows, OneLine (quoteLiteral r.path) := by
    refine forall₂_congr fun r hr => ?_
    obtain ⟨c, hc, hr⟩ := List.mem_flatMap.1 hr
    obtain ⟨k, hk, rfl⟩ := List.mem_map.1 hr
    exact oneLine_rowLine (oneLine_identifier c.category) (hname c hc k hk)
  rw [tokenLines, literals]
  simp only [List.forall_mem_append, List.forall_mem_map, hmembers, hrows, forall_oneLine_nameLines]

/-- The source file has the lines of what a unit writes for its tokens, in this order. -/
theorem lines_tokenLines_sublist (u : ConstantUnit) :
    (u.tokenLines.flatMap Text.lines).Sublist (Text.lines u.render) := by
  rw [render, Text.lines_join]
  exact (u.tokenLines_sublist.flatMap Text.lines).trans (List.sublist_append_left _ _)

end ConstantUnit

/-! ## Declarations -/

namespace NameModule

variable {m : NameModule} {names : List String}

/-- What is written for the members of a union of names, with the end of the declaration. -/
def unionLines : List String → List String
  | [] => []
  | [name] => ["  | " ++ quote name ++ ";"]
  | name :: rest => ("  | " ++ quote name) :: unionLines rest

/-- The members of a union stand on lines behind the one that begins the declaration. -/
theorem lines_union (before : String) (hnames : names ≠ []) :
    Text.lines (before ++ String.join (names.map fun name => "\n  | " ++ quote name) ++ ";") =
      Text.lines before ++ (unionLines names).flatMap Text.lines := by
  have hmember (before name after : String) :
      before ++ ("\n  | " ++ quote name ++ after) ++ ";" =
        before ++ "\n" ++ ("  | " ++ quote name ++ after ++ ";") := by
    have hmargin : "\n  | " = "\n" ++ "  | " := by decide
    rw [hmargin]
    simp only [String.append_assoc]
  fun_induction unionLines names generalizing before with
  | case1 => exact absurd rfl hnames
  | case2 name =>
      rw [List.map_singleton, String.join_cons, hmember, Text.lines_append_lineFeed]
      simp
  | case3 name rest hrest ih =>
      have hmore : rest ≠ [] := fun hnil => hrest hnil
      rw [List.map_cons, String.join_cons, hmember, Text.lines_append_lineFeed, ih _ hmore,
        List.flatMap_cons]

/-- The declarations have the lines of what is written for the union, in this order. -/
theorem lines_unionLines_sublist (m : NameModule) :
    ((unionLines m.names).flatMap Text.lines).Sublist (Text.lines m.declarations) := by
  by_cases hnames : m.names = []
  · rw [hnames]
    exact List.nil_sublist _
  · have hunion : union m.names =
        String.join (m.names.map fun name => "\n  | " ++ quote name) :=
      if_neg fun hempty => hnames (List.isEmpty_iff.1 hempty)
    have hwritten : ((unionLines m.names).flatMap Text.lines).Sublist
        (Text.lines ("export type TokenName =" ++ union m.names ++ ";")) := by
      rw [hunion, lines_union _ hnames]
      exact List.sublist_append_right _ _
    refine hwritten.trans ?_
    rw [declarations, unlines, Text.lines_join]
    refine List.Sublist.trans ?_ (List.sublist_append_left _ _)
    -- The declaration is the fifth of the texts that are written.
    exact Text.lines_sublist_of_mem (.tail _ (.tail _ (.tail _ (.tail _ (.head _)))))

/-- What is written for the members of a union is on one line each exactly when the quoted names
are. -/
theorem forall_oneLine_unionLines :
    (∀ line ∈ unionLines names, OneLine line) ↔ ∀ name ∈ names, OneLine (quote name) := by
  have hmargin : OneLine "  | " := by decide
  have hend : OneLine ";" := by decide
  fun_induction unionLines names with
  | case1 => simp
  | case2 name => simp [hmargin, hend]
  | case3 name rest _ ih => simp only [List.forall_mem_cons, ih, Text.oneLine_append, hmargin,
      true_and]

end NameModule

/-! ## Trees -/

namespace Group

variable {g : Group} {config : UnitConfig} {generated : Moment} {u : ConstantUnit}

/-- The literals of the unit of a tree are on one line each exactly when its paths and its resolved
values, as they are shown, are. -/
theorem forall_oneLine_literals (h : (g.constantUnit config generated).result = .ok u) :
    (∀ literal ∈ u.literals, OneLine literal) ↔
      ∀ e ∈ g.entries .collapsed "",
        OneLine e.path ∧ OneLine (denoted config.scope e.token.value).display := by
  obtain ⟨⟨rs, hrs, hconstants⟩, hclasses⟩ := constantUnit_eq_ok h
  obtain ⟨-, rfl⟩ := resolved_eq_ok hrs
  rw [ConstantUnit.forall_oneLine_literals hclasses, hconstants, List.forall_mem_map,
    List.forall_mem_map]
  rfl

/-- Whatever is written for the tokens of a tree is a line of the source file of its unit exactly
when its literals are on one line each. -/
theorem tokenLines_sublist_iff (h : (g.constantUnit config generated).result = .ok u) :
    u.tokenLines.Sublist (Text.lines u.render) ↔ ∀ literal ∈ u.literals, OneLine literal := by
  obtain ⟨⟨rs, -, hconstants⟩, hclasses⟩ := constantUnit_eq_ok h
  have hnames : ∀ k ∈ u.constants, OneLine k.name := by
    rw [hconstants, List.forall_mem_map]
    exact fun r _ => oneLine_identifier _
  exact (Text.sublist_lines_iff u.lines_tokenLines_sublist).trans
    (ConstantUnit.forall_oneLine_tokenLines hclasses hnames)

end Group

/-- Literals have no line breaks exactly where the texts that they stand for have none: those of a
unit when neither a path nor a resolved value has one, the quoted names of a module of declarations
when no path has one. Exactly then the members, the listed names and the rows of the unit, and the
members of the union, are each one line of their file. -/
theorem literals_oneLine_iff (g : Group) :
    (∀ config generated u, (g.constantUnit config generated).result = .ok u →
      ((∀ literal ∈ u.literals, OneLine literal) ↔
        ∀ e ∈ g.entries .collapsed "",
          OneLine e.path ∧ OneLine (denoted config.scope e.token.value).display) ∧
        (u.tokenLines.Sublist (Text.lines u.render) ↔ ∀ literal ∈ u.literals, OneLine literal)) ∧
      ∀ m : NameModule, g.tokenNames.result = .ok m.names →
        ((∀ name ∈ m.names, OneLine (NameModule.quote name)) ↔
          ∀ e ∈ g.entries .collapsed "", OneLine e.path) ∧
          ((NameModule.unionLines m.names).Sublist (Text.lines m.declarations) ↔
            ∀ name ∈ m.names, OneLine (NameModule.quote name)) := by
  refine ⟨fun config generated u hunit => ?_, fun m hnames => ⟨?_, ?_⟩⟩
  · exact ⟨Group.forall_oneLine_literals hunit, Group.tokenLines_sublist_iff hunit⟩
  · obtain ⟨es, hwalk, heq⟩ := Outcome.andThen_done_eq_ok_iff.1 hnames
    obtain ⟨rfl, -⟩ := Group.walk_eq_ok_iff.1 hwalk
    rw [← heq, List.forall_mem_map]
    exact forall₂_congr fun e _ => NameModule.oneLine_quote
  · exact (Text.sublist_lines_iff m.lines_unionLines_sublist).trans
      NameModule.forall_oneLine_unionLines

/-- Quotes and backslashes in a document leave everything on lines of its own. -/
theorem quoted_font_on_lines :
    let g : Group := Group.ofFields
      [("font", .obj [("it's", .obj [("value", .str "\"Inter\", sans\\serif"),
        ("type", .str "fontFamily")])])]
    let m : NameModule := { names := ["font-it's"] }
    (∃ u : ConstantUnit,
      (g.constantUnit {} ⟨⟨2024, 1, 2⟩, 3, 4, 5, 678901, some 0⟩).result = .ok u ∧
        u.literals =
          ["\"\\\"Inter\\\", sans\\\\serif\"", "\"font-it's\"", "\"font-it's\""] ∧
        u.tokenLines.Sublist (Text.lines u.render)) ∧
      g.tokenNames.result = .ok m.names ∧
        NameModule.unionLines m.names = ["  | 'font-it\\'s';"] ∧
        (NameModule.unionLines m.names).Sublist (Text.lines m.declarations) := by
  intro g m
  let k : Constant := ⟨"font-it's", .str "\"Inter\", sans\\serif", "It_s"⟩
  have hunit : (g.constantUnit {} ⟨⟨2024, 1, 2⟩, 3, 4, 5, 678901, some 0⟩).result =
      .ok ⟨"Ivy.Themes", "DesignSystemTokens", "2024-01-02T03:04:05.678Z", [k],
        [⟨"font", [k]⟩]⟩ := by
    decide +kernel
  have hnames : g.tokenNames.result = .ok m.names := by decide +kernel
  obtain ⟨-, hlines⟩ := (literals_oneLine_iff g).1 _ _ _ hunit
  obtain ⟨-, hunion⟩ := (literals_oneLine_iff g).2 m hnames
  exact ⟨⟨_, hunit, by decide, hlines.2 (by decide)⟩, hnames, by decide, hunion.2 (by decide)⟩

/-- A line feed in a value of a document, and one in a key, end lines inside of a constant, of a
listed name, of a table row and of a member of the union. -/
theorem line_feed_in_literals :
    let document : Fields Json :=
      [("color", .obj [("a", .obj [("value", .str "x\ny"), ("type", .str "string")]),
        ("b\nc", .obj [("value", .str "z"), ("type", .str "string")])])]
    ∃ g u, Group.ofJson (.obj document) = .ok g ∧
      (g.constantUnit {} ⟨⟨2024, 1, 2⟩, 3, 4, 5, 678901, some 0⟩).result = .ok u ∧
      u.literals =
        ["\"x\ny\"", "\"z\"", "\"color-a\"", "\"color-b\nc\"", "\"color-a\"", "\"color-b\nc\""] ∧
      ["            public static readonly string A = \"x", "y\";", "                \"color-b",
        "c\"", "                \x7b \"color-b", "c\", Color.B_c \x7d,"].Sublist
          (Text.lines u.render) ∧
      ¬ u.tokenLines.Sublist (Text.lines u.render) ∧
      g.tokenNames.result = .ok ["color-a", "color-b\nc"] ∧
      NameModule.quote "color-b\nc" = "'color-b\nc'" ∧
      ["  | 'color-b", "c';"].Sublist
        (Text.lines (NameModule.declarations { names := ["color-a", "color-b\nc"] })) := by
  intro document
  let a : Constant := ⟨"color-a", .str "x\ny", "A"⟩
  let b : Constant := ⟨"color-b\nc", .str "z", "B_c"⟩
  let u : ConstantUnit := ⟨"Ivy.Themes", "DesignSystemTokens", "2024-01-02T03:04:05.678Z", [a, b],
    [⟨"color", [a, b]⟩]⟩
  let m : NameModule := { names := ["color-a", "color-b\nc"] }
  refine ⟨Group.ofFields document, u, rfl, ?_, ?_, ?_, ?_, ?_, ?_, ?_⟩
  · decide +kernel
  · decide
  · exact List.Sublist.trans (by decide +kernel) u.lines_tokenLines_sublist
  · rw [Text.sublist_lines_iff u.lines_tokenLines_sublist]
    decide
  · decide +kernel
  · decide
  · exact List.Sublist.trans (by decide +kernel) m.lines_unionLines_sublist

end DesignTokens
