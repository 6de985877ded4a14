import DesignTokens.Proofs.Target.Failures

/-!
# Strict and permissive tables

A strict table declares a part of what the permissive table with the same names declares: the tokens
whose paths it has a name for, in the same order and under the same names. Both fail alike, since
neither can refuse a token. When a table gives no two paths the same name, as the tables of the two
themes do (`injective_below`), its strict form declares no name twice: `strict_aliases_only_drop`.
-/

namespace DesignTokens

namespace AliasTable

variable {table : AliasTable} {e : Entry}

/-- The name of a token that is not left out: its alias, or its own key when it has none. -/
def keptName (table : AliasTable) (e : Entry) : String :=
  (table.names.get? e.path).getD e.key

/-- The declaration of a token that is not left out. -/
def keptDeclaration (table : AliasTable) (resolved : Entry × Json) : Declaration :=
  ⟨table.keptName resolved.1, resolved.2.display⟩

/-- A permissive table leaves out no token. -/
theorem name?_asPermissive (table : AliasTable) (e : Entry) :
    table.asPermissive.name? e = some (table.keptName e) := by
  unfold name? keptName asPermissive
  cases table.names.get? e.path <;> rfl

/-- A strict table leaves out the tokens whose paths have no alias. -/
theorem name?_asStrict (table : AliasTable) (e : Entry) :
    table.asStrict.name? e =
      if table.names.has e.path then some (table.keptName e) else none := by
  unfold name? keptName asStrict Fields.has
  cases table.names.get? e.path <;> rfl

/-- A permissive table declares every token. -/
theorem declared_asPermissive (table : AliasTable) (rs : List (Entry × Json)) :
    rs.filterMap (fun r => (table.asPermissive.name? r.1).map fun name => ⟨name, r.2.display⟩) =
      rs.map table.keptDeclaration := by
  simp only [name?_asPermissive, Option.map_some]
  exact congrFun List.filterMap_eq_map rs

/-- A strict table declares the tokens whose paths have an alias. -/
theorem declared_asStrict (table : AliasTable) (rs : List (Entry × Json)) :
    rs.filterMap (fun r => (table.asStrict.name? r.1).map fun name => ⟨name, r.2.display⟩) =
      (rs.filter fun r => table.names.has r.1.path).map table.keptDeclaration := by
  induction rs with
  | nil => rfl
  | cons r rest ih =>
      rw [List.filterMap_cons, name?_asStrict, List.filter_cons]
      by_cases hnamed : table.names.has r.1.path = true
      · rw [if_pos hnamed, if_pos hnamed, List.map_cons, ← ih]
        rfl
      · rw [if_neg hnamed, if_neg hnamed, ← ih]
        rfl

/-! ## Tables that give no two paths the same name -/

/-- No two paths have the same name. -/
def Injective (table : AliasTable) : Prop :=
  ∀ path other name, table.names.get? path = some name → table.names.get? other = some name →
    path = other

/-- The shared names below a path are told by their paths. -/
theorem injective_below (base : String) : (below base).Injective := by
  have hpath {path name : String} (h : (below base).names.get? path = some name) :
      joinPath base name = path := by
    obtain ⟨_, -, hpair⟩ := List.mem_map.1 (Fields.mem_of_get? h)
    obtain ⟨hpath, rfl⟩ := Prod.mk.inj hpair
    exact hpath
  intro path other name h hother
  rw [← hpath h, ← hpath hother]

/-- A token whose path has an alias is kept under it. -/
theorem get?_of_has (h : table.names.has e.path = true) :
    table.names.get? e.path = some (table.keptName e) := by
  obtain ⟨name, hname⟩ := Fields.exists_get?_of_mem_names (Fields.has_iff.1 h)
  rw [keptName, hname, Option.getD_some]

/-- Tokens with distinct paths that have aliases are kept under distinct names. -/
theorem Injective.nodup_keptNames (htable : table.Injective) {rs : List (Entry × Json)}
    (hpaths : (rs.map fun r => r.1.path).Nodup) :
    (((rs.filter fun r => table.names.has r.1.path).map table.keptDeclaration).map
      Declaration.name).Nodup := by
  rw [List.map_map]
  refine List.Nodup.map_on (fun r hr other hother hname => ?_) (hpaths.of_map.filter _)
  obtain ⟨hr, hnamed⟩ := List.mem_filter.1 hr
  obtain ⟨hother, hotherNamed⟩ := List.mem_filter.1 hother
  have hsame : table.keptName r.1 = table.keptName other.1 := hname
  have hget := get?_of_has hnamed
  rw [hsame] at hget
  exact List.inj_on_of_nodup_map hpaths hr hother (htable _ _ _ hget (get?_of_has hotherNamed))

end AliasTable

namespace Group

variable {g : Group} {scope : Option Scope} {selector : Selector} {table : AliasTable}

/-- A flat stylesheet declares the resolved tokens that its table has a name for. -/
theorem flatStylesheet_eq_ok_iff {s : Stylesheet} :
    (g.flatStylesheet selector scope (some table)).result = .ok s ↔
      ∃ rs, (g.resolved .qualified scope).result = .ok rs ∧
        s = ⟨selector, rs.filterMap fun r =>
          (table.name? r.1).map fun name => ⟨name, r.2.display⟩⟩ := by
  rw [flatStylesheet, Outcome.andThen_done_eq_ok_iff]
  simp only [flatDeclarations, Option.getD_some, Outcome.andThen_eq_ok_iff,
    AliasTable.declare_result, Except.ok.injEq]
  constructor
  · rintro ⟨_, ⟨rs, hrs, rfl⟩, rfl⟩
    exact ⟨rs, hrs, rfl⟩
  · rintro ⟨rs, hrs, rfl⟩
    exact ⟨_, ⟨rs, hrs, rfl⟩, rfl⟩

/-- A flat stylesheet fails exactly when its tokens cannot be resolved. -/
theorem flatStylesheet_eq_error_iff {e : Error} :
    (g.flatStylesheet selector scope (some table)).result = .error e ↔
      (g.resolved .qualified scope).result = .error e :=
  ⟨resolved_of_flatStylesheet_error, flatStylesheet_of_resolved_error⟩

/-- The resolved tokens of a tree are the entries of its walk with their resolved values. -/
theorem walk_of_resolved {style : PathStyle} {rs : List (Entry × Json)}
    (h : (g.resolved style scope).result = .ok rs) :
    (g.walk style "").result = .ok (rs.map Prod.fst) ∧
      ∀ r ∈ rs, (resolve scope r.1.token.value).result = .ok r.2 := by
  obtain ⟨hpaths, hnone, rfl⟩ := resolved_eq_ok_iff.1 h
  constructor
  · rw [List.map_map]
    exact walk_eq_ok_iff.2 ⟨List.map_id _, (List.map_id (g.entries style "")).symm ▸ hpaths⟩
  · refine List.forall_mem_map.2 fun e he => ?_
    rw [resolve_result, hnone e he]
    rfl

end Group

/-- Strict and permissive tables with the same names fail on the same trees with the same error.
Where they succeed, the permissive table declares every token of the walk with its resolved value,
and the strict one those of these declarations whose tokens have paths with an alias. When no two
paths have the same alias, as in the tables of the two themes, the strict table declares no name
twice. -/
theorem strict_aliases_only_drop (g : Group) (scope : Option Scope) (selector : Selector)
    (table : AliasTable) :
    let permissive := (g.flatStylesheet selector scope (some table.asPermissive)).result
    let strict := (g.flatStylesheet selector scope (some table.asStrict)).result
    (∀ e, permissive = .error e ↔ strict = .error e) ∧
      (∀ s, permissive = .ok s →
        ∃ (rs : List (Entry × Json)) (t : Stylesheet),
          (g.walk .qualified "").result = .ok (rs.map Prod.fst) ∧
          (∀ r ∈ rs, (resolve scope r.1.token.value).result = .ok r.2) ∧
          s = ⟨selector, rs.map table.keptDeclaration⟩ ∧ strict = .ok t ∧
          t = ⟨selector,
            (rs.filter fun r => table.names.has r.1.path).map table.keptDeclaration⟩ ∧
          t.declarations.Sublist s.declarations ∧
          (table.Injective → (t.declarations.map Declaration.name).Nodup)) ∧
      AliasTable.root.Injective ∧ AliasTable.dark.Injective := by
  intro permissive strict
  refine ⟨fun e => ?_, fun s hs => ?_, AliasTable.injective_below _, AliasTable.injective_below _⟩
  · exact Group.flatStylesheet_eq_error_iff.trans Group.flatStylesheet_eq_error_iff.symm
  · obtain ⟨rs, hrs, rfl⟩ := Group.flatStylesheet_eq_ok_iff.1 hs
    have hstrict : strict = .ok ⟨selector, _⟩ := Group.flatStylesheet_eq_ok_iff.2 ⟨rs, hrs, rfl⟩
    rw [AliasTable.declared_asStrict] at hstrict
    obtain ⟨hwalk, hvalues⟩ := Group.walk_of_resolved hrs
    refine ⟨rs, _, hwalk, hvalues, ?_, hstrict, rfl, ?_, fun htable => ?_⟩
    · rw [AliasTable.declared_asPermissive]
    · rw [AliasTable.declared_asPermissive]
      exact List.filter_sublist.map _
    · exact htable.nodup_keptNames (Group.nodup_resolved_paths hrs).1

/-- Of two colors, the strict table of the base theme keeps the one that it has a name for. -/
theorem brand_dropped_by_strict_root :
    let g : Group := [("color", .group
      [("primary", .token ⟨.str "#00cc92", .str "color", .null, []⟩),
       ("brand", .token ⟨.str "#111111", .str "color", .null, []⟩)])]
    (g.flatStylesheet .root none (some AliasTable.root.asPermissive)).result =
        .ok ⟨.root, [⟨"primary", "#00cc92"⟩, ⟨"brand", "#111111"⟩]⟩ ∧
      ∃ t, (g.flatStylesheet .root none (some AliasTable.root.asStrict)).result = .ok t ∧
        t.declarations = [⟨"primary", "#00cc92"⟩] ∧
        (t.declarations.map Declaration.name).Nodup := by
  intro g
  have hpermissive : (g.flatStylesheet .root none (some AliasTable.root.asPermissive)).result =
      .ok ⟨.root, [⟨"primary", "#00cc92"⟩, ⟨"brand", "#111111"⟩]⟩ := by
    decide +kernel
  have hstrict : (g.flatStylesheet .root none (some AliasTable.root.asStrict)).result =
      .ok ⟨.root, [⟨"primary", "#00cc92"⟩]⟩ := by
    decide +kernel
  obtain ⟨-, hdrops, hroot, -⟩ := strict_aliases_only_drop g none .root .root
  obtain ⟨_, t, -, -, -, ht, -, -, hnodup⟩ := hdrops _ hpermissive
  obtain rfl := Except.ok.inj (hstrict.symm.trans ht)
  exact ⟨hpermissive, _, hstrict, rfl, hnodup hroot⟩

end DesignTokens
