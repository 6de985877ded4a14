import DesignTokens.Proofs.Reference
import DesignTokens.Proofs.Validation.Contract

/-!
# What validation says of theme references

A document that is accepted for a product has the layered layout, and each color of its light and
dark themes has a text as its value. When that text is a reference, its scope is the path of the
product: `scope_of_valid`.
-/

namespace DesignTokens

/-- A reference stands in braces. -/
theorem Reference.isPlaceholder_of_parse? {value : String} {reference : Reference}
    (h : parse? value = some reference) : Color.isPlaceholder value = true := by
  obtain ⟨-, hvalue, -⟩ := parse?_eq_some_iff.1 h
  rw [Color.isPlaceholder, hvalue, toList_format, ← List.cons_append, List.getLast?_concat]
  rfl

namespace Validation

variable {document : Fields Json} {product : String}

/-- A document that is valid for a product has the layered layout. -/
theorem layered_of_valid (h : (validate document product).valid = true) :
    ∃ tokens, ProductTokens.layered? document product = some tokens := by
  obtain ⟨colors, hkeeps⟩ := valid_iff_keeps.1 h
  obtain ⟨tokens, htokens, -⟩ := Section.at?_keys_iff.1 (hkeeps.present .source)
  exact ⟨tokens, htokens⟩

/-- In a document that is valid for a product, a color of a theme has a text as its value. When the
text is a reference, it points at the product. -/
theorem scope_of_valid (h : (validate document product).valid = true) {variant : Variant}
    {colors : Fields Json}
    (hcolors : ProductTokens.themeColors? document product variant.key = some colors)
    {entry : String × Json} (hentry : entry ∈ colors) :
    ∃ value, entry.2.field? "value" = some (.str value) ∧
      ∀ reference, Reference.parse? value = some reference →
        reference.scope = productPath product := by
  obtain ⟨found, hkeeps⟩ := valid_iff_keeps.1 h
  cases (hkeeps.present (.theme variant)).symm.trans (Json.bind_fields?_eq_some_iff.1 hcolors)
  obtain ⟨-, value, hvalue, hscope⟩ : ConformingTheme product entry.2 :=
    hkeeps.conforming (.theme variant) entry hentry
  refine ⟨value, hvalue, fun reference hreference => ?_⟩
  obtain ⟨parsed, hparsed, hhome⟩ := hscope (Reference.isPlaceholder_of_parse? hreference)
  cases hreference.symm.trans hparsed
  exact hhome

/-- Every color of the light and dark themes has a text as its type. -/
def TypedThemes (document : Fields Json) (product : String) : Prop :=
  ∀ variant ∈ ["light", "dark"], ∀ colors ∈ ProductTokens.themeColors? document product variant,
    ∀ entry ∈ colors, ((entry.2.field? "type").bind Json.str?).isSome = true

instance (document : Fields Json) (product : String) : Decidable (TypedThemes document product) :=
  inferInstanceAs (Decidable (∀ variant ∈ _, _))

/-- A value with texts as its value and type is read as a token with that value. -/
theorem exists_token_of_texts {x : Json} {value : String}
    (hvalue : x.field? "value" = some (.str value))
    (htype : ((x.field? "type").bind Json.str?).isSome = true) :
    ∃ t, Node.ofJson x = .token t ∧ t.value = .str value := by
  obtain ⟨type, htype⟩ := Option.isSome_iff_exists.1 htype
  obtain ⟨fields, hfields, hget⟩ := Option.bind_eq_some_iff.1 hvalue
  obtain rfl := Json.fields?_eq_some_iff.1 hfields
  refine ⟨⟨.str value, .str type, Token.descriptionIn fields, fields.without Token.ownFields⟩,
    Node.ofJson_obj_of_token (Token.ofFields?_eq_some_iff.2 ⟨value, type, ?_, htype, rfl⟩), rfl⟩
  rw [hget]
  rfl

/-- In a document that is valid for a product and whose theme colors all have texts as their types,
every reference in a theme tree points at the product. -/
theorem scope_of_themeSite (h : (validate document product).valid = true)
    (htyped : TypedThemes document product) {tokens : Fields Json}
    (htokens : ProductTokens.layered? document product = some tokens) {variant : String}
    (hvariant : variant = "light" ∨ variant = "dark") {s : Site}
    (hs : s ∈ Group.sites
      (ProductTokens.themeTree variant (ProductTokens.fieldOrEmpty tokens themeKey)))
    {reference : Reference}
    (hreference : s.token.value.str?.bind Reference.parse? = some reference) :
    reference.scope = productPath product := by
  obtain ⟨v, rfl⟩ : ∃ v : Variant, v.key = variant := by
    rcases hvariant with rfl | rfl
    exacts [⟨.light, rfl⟩, ⟨.dark, rfl⟩]
  obtain ⟨colors, hcolors, r, hr, hsame⟩ := ProductTokens.exists_themeColors_of_site htokens hs
  have hentries {entry : String × Json} (hentry : entry ∈ colors) :
      ∃ t value, Node.ofJson entry.2 = .token t ∧ t.value = .str value ∧
        ∀ found, Reference.parse? value = some found → found.scope = productPath product := by
    obtain ⟨value, hvalue, hscope⟩ := scope_of_valid h hcolors hentry
    have htype := htyped v.key (by simpa using hvariant) colors hcolors entry hentry
    obtain ⟨t, ht, htvalue⟩ := exists_token_of_texts hvalue htype
    exact ⟨t, value, ht, htvalue, hscope⟩
  -- All children of the group of colors are tokens, so the walk reaches nothing else.
  rw [← hsame] at hreference
  have hmem : (r.key, Node.token r.token) ∈ Group.ofFields colors := by
    refine Group.mem_of_site_of_tokens (fun field hfield => ?_) hr
    rw [Group.ofFields_eq_map] at hfield
    obtain ⟨entry, hentry, rfl⟩ := List.mem_map.1 hfield
    obtain ⟨t, -, ht, -⟩ := hentries hentry
    exact ⟨t, ht⟩
  rw [Group.ofFields_eq_map] at hmem
  obtain ⟨entry, hentry, heq⟩ := List.mem_map.1 hmem
  obtain ⟨t, value, ht, hvalue, hscope⟩ := hentries hentry
  obtain rfl : t = r.token := Node.token.inj (ht.symm.trans (Prod.mk.inj heq).2)
  rw [hvalue] at hreference
  exact hscope reference hreference

end Validation

end DesignTokens
