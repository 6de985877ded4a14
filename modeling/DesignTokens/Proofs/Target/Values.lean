import DesignTokens.Proofs.Target.Agreement
import DesignTokens.Proofs.Target.Literal

/-!
# The values that targets give to names

A stylesheet gives a name the value that it declares for it, and a unit of constants gives it the
literal that its table leads to. When both are made from one tree, they give the same values exactly
when the token values denote the same in the scopes of the two (`sameValues_iff`). Without a scope a
value denotes itself, so a reference that the other scope gives another color tells the two apart.
-/

namespace DesignTokens

/-- The value that a stylesheet declares for a name. -/
def Stylesheet.value? (s : Stylesheet) (name : String) : Option String :=
  Fields.get? (s.declarations.map fun d => (d.name, d.value)) name

/-- The literal of the member to which the table of a unit leads from a name. -/
def ConstantUnit.literal? (u : ConstantUnit) (name : String) : Option String :=
  (u.rows.find? fun r => r.path = name).bind fun row =>
    (u.members.find? fun m => m.address = row.address).map Member.literal

/-- A stylesheet and a unit give every name the same value. -/
def SameValues (s : Stylesheet) (u : ConstantUnit) : Prop :=
  ∀ name, u.literal? name = (s.value? name).map quoteLiteral

/-- The scope gives another color for the reference that a value is. -/
def Scope.Redirects (scope : Scope) (value : Json) : Prop :=
  ∃ reference color, value.str?.bind Reference.parse? = some reference ∧
    scope.lookup reference.name = some color ∧ color.display ≠ value.display

/-- A value is shown as what it denotes in a scope unless the scope gives it another color. -/
theorem display_denoted_iff {scope : Scope} {value : Json} :
    (denoted (some scope) value).display = value.display ↔ ¬ scope.Redirects value := by
  unfold denoted Scope.Redirects
  cases hreference : value.str?.bind Reference.parse? with
  | none => simp
  | some reference =>
      cases hcolor : scope.lookup reference.name with
      | none => simp [hcolor]
      | some color => simp [hcolor]

/-- An element that is the only one to meet a condition is the first to meet it. -/
theorem find?_eq_some_of_filter {α : Type} {p : α → Bool} {l : List α} {a : α}
    (h : l.filter p = [a]) : l.find? p = some a := by
  rw [← List.head?_filter, h]
  rfl

namespace ConstantUnit

variable {u : ConstantUnit} {owner : String}

/-- The table leads from the path of a constant to the literal of its value. -/
theorem literal?_eq (h : ConstantClass.group owner u.constants = .ok u.classes)
    (hpaths : u.names.Nodup) (name : String) :
    u.literal? name =
      (Fields.get? (u.constants.map fun k => (k.path, k.value.display)) name).map quoteLiteral := by
  have hnames : Fields.names (u.constants.map fun k => (k.path, k.value.display)) = u.names := by
    rw [Fields.names, List.map_map]
    rfl
  unfold literal?
  cases hvalue : Fields.get? (u.constants.map fun k => (k.path, k.value.display)) name with
  | some value =>
      obtain ⟨k, hk, hpair⟩ := List.mem_map.1 (Fields.mem_of_get? hvalue)
      obtain ⟨rfl, rfl⟩ := Prod.mk.inj hpair
      obtain ⟨row, hrow, m, hm, hliteral⟩ := row_resolves h hpaths hk
      rw [find?_eq_some_of_filter hrow, Option.bind_some, find?_eq_some_of_filter hm,
        Option.map_some, Option.map_some, hliteral]
  | none =>
      -- The rows list the names of the unit, so none of them has this one.
      have hname : name ∉ u.names := hnames ▸ Fields.get?_eq_none_iff.1 hvalue
      have hrow : u.rows.find? (fun r => r.path = name) = none := by
        refine List.find?_eq_none.2 fun r hr hpath => hname ?_
        rw [← (rows_paths_perm h).mem_iff, ← of_decide_eq_true hpath]
        exact List.mem_map_of_mem hr
      rw [hrow]
      rfl

end ConstantUnit

/-- Two maps from distinct paths to values are the same exactly when they agree on every entry. -/
theorem forall_get?_eq_iff {es : List Entry} (hes : (es.map Entry.path).Nodup)
    {f f' : Entry → String} :
    (∀ name, Fields.get? (es.map fun e => (e.path, f e)) name =
        Fields.get? (es.map fun e => (e.path, f' e)) name) ↔ ∀ e ∈ es, f e = f' e := by
  have hwf (value : Entry → String) : (Fields.WellFormed (es.map fun e => (e.path, value e))) := by
    rw [Fields.wellFormed_iff, Fields.names, List.map_map]
    exact hes
  have hget (value : Entry → String) {e : Entry} (he : e ∈ es) :
      Fields.get? (es.map fun e => (e.path, value e)) e.path = some (value e) :=
    (hwf value).get?_eq_some_iff.2 (List.mem_map.2 ⟨e, he, rfl⟩)
  constructor
  · intro h e he
    have hsame := h e.path
    rw [hget f he, hget f' he] at hsame
    exact Option.some.inj hsame
  · intro h name
    rw [List.map_congr_left fun e he => by rw [h e he]]

namespace Group

variable {g : Group} {scope : Option Scope}

/-- The stylesheet of a tree gives the paths of its walk what their values denote. -/
theorem value?_stylesheet {selector : Selector} {s : Stylesheet}
    (h : (g.stylesheet selector scope).result = .ok s) (name : String) :
    s.value? name = Fields.get? ((g.entries .collapsed "").map fun e =>
      (e.path, (denoted scope e.token.value).display)) name := by
  obtain ⟨rs, hrs, rfl⟩ := stylesheet_eq_ok_iff.1 h
  obtain ⟨-, rfl⟩ := resolved_eq_ok hrs
  rw [Stylesheet.value?, List.map_map, List.map_map]
  rfl

/-- The unit of a tree gives the paths of its walk the literals of what their values denote. -/
theorem literal?_constantUnit {config : UnitConfig} {generated : Moment} {u : ConstantUnit}
    (h : (g.constantUnit config generated).result = .ok u) (name : String) :
    u.literal? name = (Fields.get? ((g.entries .collapsed "").map fun e =>
      (e.path, (denoted config.scope e.token.value).display)) name).map quoteLiteral := by
  obtain ⟨⟨rs, hrs, hconstants⟩, hclasses⟩ := constantUnit_eq_ok h
  have hpaths : u.names.Nodup := by
    rw [ConstantUnit.names, hconstants, List.map_map]
    exact (nodup_resolved_paths hrs).1
  obtain ⟨-, rfl⟩ := resolved_eq_ok hrs
  rw [ConstantUnit.literal?_eq hclasses hpaths, hconstants, List.map_map, List.map_map]
  rfl

/-- A stylesheet and a unit of one tree give every name the same value exactly when every value
denotes the same in the scopes of the two. -/
theorem sameValues_iff {selector : Selector} {config : UnitConfig} {generated : Moment}
    {s : Stylesheet} {u : ConstantUnit} (hs : (g.stylesheet selector scope).result = .ok s)
    (hu : (g.constantUnit config generated).result = .ok u) :
    SameValues s u ↔ ∀ e ∈ g.entries .collapsed "",
      (denoted config.scope e.token.value).display = (denoted scope e.token.value).display := by
  obtain ⟨rs, hrs, -⟩ := stylesheet_eq_ok_iff.1 hs
  have hpaths := (walk_eq_ok_iff.1 (resolved_eq_ok hrs).1).2
  unfold SameValues
  rw [← forall_get?_eq_iff hpaths]
  refine forall_congr' fun name => ?_
  rw [literal?_constantUnit hu, value?_stylesheet hs]
  exact ⟨fun h => Option.map_injective (fun _ _ => quoteLiteral_injective) h, fun h => by rw [h]⟩

end Group

end DesignTokens
