import DesignTokens.Reference

/-!
# Where a scope looks names up

A scope looks names up in the colors of its tree when it has any, and else in the tree itself. A
group of colors without children counts as none. So a lookup reads the group of colors, and nothing
outside it matters, exactly when that group has a child: `lookup_reads_colors_iff`.
-/

namespace DesignTokens

/-- The color that a group stores directly under a name: the value of the token there, unless it is
null, or the raw text. -/
inductive Group.StoresColor (g : Group) (name : String) : Json → Prop where
  | token {t : Token} (hchild : g.child? name = some (.token t)) (hvalue : t.value ≠ .null) :
      StoresColor g name t.value
  | text {text : String} (hchild : g.child? name = some (.raw (.str text))) :
      StoresColor g name (.str text)

variable {scope : Scope} {g colors : Group} {name : String} {color : Json}

/-- A token gives its value as a color unless it is null. -/
theorem Scope.color?_token_eq_some_iff {t : Token} :
    color? (.token t) = some color ↔ t.value = color ∧ color ≠ .null := by
  unfold color?
  dsimp only
  split
  · rename_i hnull
    rw [hnull]
    exact iff_of_false (Option.some_ne_none color).symm fun h => h.2 h.1.symm
  · rename_i hvalue
    constructor
    · intro h
      cases h
      exact ⟨rfl, hvalue⟩
    · intro h
      exact congrArg some h.1

/-- A group stores a color under a name exactly when its child there gives this color. -/
theorem Group.storesColor_iff :
    g.StoresColor name color ↔ (g.child? name).bind Scope.color? = some color := by
  constructor
  · intro h
    cases h with
    | token hchild hvalue =>
        rw [hchild]
        exact Scope.color?_token_eq_some_iff.2 ⟨rfl, hvalue⟩
    | text hchild =>
        rw [hchild]
        rfl
  · intro h
    obtain ⟨node, hchild, hcolor⟩ := Option.bind_eq_some_iff.1 h
    cases node with
    | token t =>
        obtain ⟨rfl, hvalue⟩ := Scope.color?_token_eq_some_iff.1 hcolor
        exact .token hchild hvalue
    | group children => cases hcolor
    | raw x =>
        cases x with
        | str text =>
            cases hcolor
            exact .text hchild
        | _ => cases hcolor

/-- A group without children stores no color. -/
theorem Group.not_storesColor_nil : ¬ StoresColor [] name color := by
  rw [storesColor_iff]
  exact nofun

namespace Scope

/-- A scope gives a name the color that the group in which it looks stores under it. -/
theorem lookup_eq_some_iff_storesColor :
    scope.lookup name = some color ↔ scope.colors.StoresColor name color :=
  Group.storesColor_iff.symm

/-- A scope looks names up in its group of colors when this has a child. -/
theorem lookup_of_colors (h : scope.tokens.group? colorKey = some colors) (hne : colors ≠ []) :
    scope.lookup name = some color ↔ colors.StoresColor name color := by
  obtain ⟨child, rest, rfl⟩ := List.exists_cons_of_ne_nil hne
  rw [lookup_eq_some_iff_storesColor, Scope.colors, h]

/-- A scope whose group of colors has no child looks names up in its tree. -/
theorem lookup_of_no_colors (h : scope.tokens.group? colorKey = some []) :
    scope.lookup name = some color ↔ scope.tokens.StoresColor name color := by
  rw [lookup_eq_some_iff_storesColor, Scope.colors, h]

/-- Some scope with an empty group of colors gives a name something else than a given scope does. -/
theorem exists_lookup_ne (scope : Scope) :
    ∃ other : Scope, other.tokens.group? colorKey = some [] ∧
      ∃ name, other.lookup name ≠ scope.lookup name := by
  -- Two such scopes differ under a name, so one of them differs from the given one there.
  let bare : Scope := ⟨scope.id, [(colorKey, .group [])]⟩
  let inked : Scope := ⟨scope.id, [(colorKey, .group []), ("ink", .raw (.str "#000000"))]⟩
  have hbare : bare.lookup "ink" = none := rfl
  have hinked : inked.lookup "ink" = some (.str "#000000") := rfl
  by_cases hlookup : scope.lookup "ink" = none
  · exact ⟨inked, rfl, "ink", by rw [hinked, hlookup]; exact nofun⟩
  · exact ⟨bare, rfl, "ink", by rw [hbare]; exact Ne.symm hlookup⟩

end Scope

/-- In a scope whose tree has a group of colors, every name is given the color that this group
stores directly under it, if any, exactly when the group has a child or the tree stores no color
directly. Nothing but the group matters exactly when it has a child. When it has none, every name is
given the color that the tree stores directly under it. -/
theorem lookup_reads_colors_iff (hcolors : scope.tokens.group? colorKey = some colors) :
    ((∀ name color, scope.lookup name = some color ↔ colors.StoresColor name color) ↔
        colors ≠ [] ∨ ∀ name color, ¬ scope.tokens.StoresColor name color) ∧
      ((∀ other : Scope, other.tokens.group? colorKey = some colors →
          ∀ name, other.lookup name = scope.lookup name) ↔ colors ≠ []) ∧
      (colors = [] →
        ∀ name color, scope.lookup name = some color ↔ scope.tokens.StoresColor name color) := by
  by_cases hne : colors = []
  · subst hne
    have htree (name : String) (color : Json) :
        scope.lookup name = some color ↔ scope.tokens.StoresColor name color :=
      Scope.lookup_of_no_colors hcolors
    refine ⟨?_, ?_, fun _ => htree⟩
    · simp only [htree, Group.not_storesColor_nil, iff_false, ne_eq, not_true_eq_false, false_or]
    · refine iff_of_false (fun hsame => ?_) (fun h => h rfl)
      obtain ⟨other, hother, name, hdiffers⟩ := Scope.exists_lookup_ne scope
      exact hdiffers (hsame other hother name)
  · have hgroup {other : Scope} (hother : other.tokens.group? colorKey = some colors)
        (name : String) (color : Json) :
        other.lookup name = some color ↔ colors.StoresColor name color :=
      Scope.lookup_of_colors hother hne
    refine ⟨iff_of_true (hgroup hcolors) (Or.inl hne), iff_of_true ?_ hne, fun h => absurd h hne⟩
    intro other hother name
    exact Option.ext fun color => (hgroup hother name color).trans (hgroup hcolors name color).symm

namespace Scope

/-- A color as a token. -/
def hue (value : String) : Node :=
  .token { value := .str value, type := .str "color" }

/-- A group with a child of every kind. -/
def palette : Group :=
  [("primary", hue "#00cc92"), ("accent", .raw (.str "#ff0000")),
   ("scale", .group [("ring", hue "#cccccc")]), ("count", .raw (.int 3)), ("last", .raw .null)]

/-- A scope with these colors, and with others beside them. -/
def besidePalette : Scope :=
  ⟨"core.p", [("primary", hue "#000000"), (colorKey, .group palette), ("ring", hue "#111111")]⟩

/-- A scope with a color beside an empty group of colors. -/
def besideNoColors : Scope :=
  ⟨"core.p", [(colorKey, .group []), ("primary", hue "#000000")]⟩

end Scope

open Scope in
/-- The scope with the palette reads the palette only. -/
theorem palette_read :
    besidePalette.tokens.group? colorKey = some palette ∧
      besidePalette.lookup "primary" = some (.str "#00cc92") ∧
      besidePalette.lookup "accent" = some (.str "#ff0000") ∧
      (∀ color, besidePalette.lookup "ring" ≠ some color) ∧
      ∀ other : Scope, other.tokens.group? colorKey = some palette →
        ∀ name, other.lookup name = besidePalette.lookup name := by
  have hcolors : besidePalette.tokens.group? colorKey = some palette := rfl
  have hne : palette ≠ [] := List.cons_ne_nil _ _
  obtain ⟨hreads, hframe, -⟩ := lookup_reads_colors_iff hcolors
  have hpalette := hreads.2 (Or.inl hne)
  refine ⟨hcolors, ?_, ?_, fun color hring => ?_, hframe.2 hne⟩
  · exact (hpalette _ _).2 (Group.storesColor_iff.2 rfl)
  · exact (hpalette _ _).2 (Group.storesColor_iff.2 rfl)
  · cases Group.storesColor_iff.1 ((hpalette "ring" color).1 hring)

open Scope in
/-- Not every lookup in a scope that has a group of colors reads that group: beside an empty one, a
color of the tree itself is found. -/
theorem empty_colors_passed_over :
    ¬ ∀ (scope : Scope) (colors : Group), scope.tokens.group? colorKey = some colors →
      ∀ name color, scope.lookup name = some color → colors.StoresColor name color := by
  intro h
  exact Group.not_storesColor_nil (h besideNoColors [] rfl "primary" (.str "#000000") rfl)

end DesignTokens
