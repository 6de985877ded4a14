import DesignTokens.Proofs.Build.Failures
import DesignTokens.Proofs.Build.StageErrors
import DesignTokens.Proofs.Validation.ThemeReferences

/-!
# References to other scopes in a build

Validation looks at the references in themes, and leaves those in the source alone. So when a build
of a valid document meets a reference to another scope, it is that of a source token:
`scopeMismatch_from_source`. Themes whose colors have no texts as their types are left out here,
since what stands below such a color is not validated.
-/

namespace DesignTokens

variable {reference expected actual : String}

/-- A stage of a build that meets a reference to another scope meets it when it resolves the tokens
of one of the three trees against the scope of the product, or against none. -/
theorem BuildConfig.exists_tree_of_stage_mismatch {config : BuildConfig} {document : Fields Json}
    {now : Moment} {stage : Stage} (hstage : stage ∈ config.stages document now)
    (h : stage.result = .error (.scopeMismatch reference expected actual)) :
    let tokens := ProductTokens.extract document config.product config.scopeId
    ∃ g ∈ [tokens.source, tokens.light, tokens.dark], ∃ scope ∈ [none, some tokens.scope],
      ∃ style, (Group.resolved style scope g).result =
        .error (.scopeMismatch reference expected actual) := by
  refine (exists_tree_of_stage_error hstage h).resolve_right ?_
  rintro (⟨_, _, _, _, hname⟩ | ⟨_, hmoment⟩)
  · cases hname
  · cases hmoment

/-- A build that meets a reference to another scope meets it in a token of one of its three trees.
The scope that it expects is that of the product, and the reference points elsewhere. -/
theorem exists_site_of_build_mismatch {config : BuildConfig} {now : Moment} {before : Disk}
    {document : Fields Json}
    (hload : Job.Ends (Disk.files.loadTokens config) before document before)
    (hfails : Job.Fails (Disk.files.build config now) before
      (.scopeMismatch reference expected actual)) :
    let tokens := ProductTokens.extract document config.product config.scopeId
    expected = tokens.scope.id ∧ actual ≠ expected ∧
      ∃ g ∈ [tokens.source, tokens.light, tokens.dark], ∃ s ∈ Group.sites g,
        s.token.value = .str reference ∧
          ∃ name, Reference.parse? reference = some ⟨reference, actual, name⟩ := by
  intro tokens
  rcases Files.build_fails hfails with hfiles | ⟨loaded, hloaded, hcases⟩
  · cases hfiles
  obtain rfl : document = loaded := Except.ok.inj (hload.1.symm.trans hloaded.1)
  rcases hcases with ⟨-, hrefused⟩ | hwalk | ⟨stage, hstage, hresult⟩
  · cases hrefused
  · obtain ⟨path, hpath⟩ := Group.walk_eq_error hwalk
    cases hpath
  obtain ⟨g, hg, scope, hscope, style, hresolved⟩ :=
    BuildConfig.exists_tree_of_stage_mismatch hstage hresult
  obtain ⟨path, hpath⟩ | ⟨s, rfl, entry, hentry, found, hforeign, heq⟩ :=
    Group.resolved_eq_error hresolved
  · cases hpath
  -- Without a scope there is no mismatch, so the tokens were resolved against that of the product.
  obtain rfl : s = tokens.scope := by simpa using hscope
  obtain ⟨text, htext, hparse⟩ := Option.bind_eq_some_iff.1 hforeign.parsed
  obtain ⟨rfl, -⟩ := Reference.parse?_eq_some_iff.1 hparse
  cases heq
  rw [Group.entries_eq_map_sites] at hentry
  obtain ⟨site, hsite, rfl⟩ := List.mem_map.1 hentry
  exact ⟨rfl, hforeign.elsewhere, g, hg, site, hsite,
    Json.str?_eq_some_iff.1 htext, found.name, hparse⟩

/-! ## Builds of valid documents -/

/-- A build of a valid document whose theme colors have texts as their types, without an identifier
of its own for the scope, meets a reference to another scope only in a source token. The scope that
it expects is the place of the product in the document, and the reference points elsewhere. -/
theorem scopeMismatch_from_source {config : BuildConfig} {now : Moment} {before : Disk}
    {document : Fields Json}
    (hload : Job.Ends (Disk.files.loadTokens config) before document before)
    (hvalid : (validate document config.product).valid = true)
    (htyped : Validation.TypedThemes document config.product)
    (hid : config.scopeId.getD "" = "")
    (hfails : Job.Fails (Disk.files.build config now) before
      (.scopeMismatch reference expected actual)) :
    expected = Validation.productPath config.product ∧ actual ≠ expected ∧
      ∃ e ∈ (ProductTokens.extract document config.product config.scopeId).source.entries
        .collapsed "", e.token.value = .str reference ∧
          ∃ name, Reference.parse? reference = some ⟨reference, actual, name⟩ := by
  obtain ⟨fields, hfields⟩ := Validation.layered_of_valid hvalid
  obtain ⟨hlight, hdark, hscope⟩ := ProductTokens.extract_of_layered hfields hid
  replace hscope : _ = Validation.productPath config.product := hscope
  obtain ⟨hexpected, haway, g, hg, s, hs, hvalue, name, hparse⟩ :=
    exists_site_of_build_mismatch hload hfails
  rw [hscope] at hexpected
  refine ⟨hexpected, haway, ?_⟩
  -- Validation has every reference in a theme point at the product, so the token is no theme token.
  have htheme {variant : String} (hvariant : variant = "light" ∨ variant = "dark")
      (htree : g = ProductTokens.themeTree variant (ProductTokens.fieldOrEmpty fields themeKey)) :
      False := by
    subst htree
    have hreference : s.token.value.str?.bind Reference.parse? =
        some ⟨reference, actual, name⟩ := by
      rw [hvalue]
      exact hparse
    have hhome : actual = Validation.productPath config.product :=
      Validation.scope_of_themeSite hvalid htyped hfields hvariant hs hreference
    exact haway (hhome.trans hexpected.symm)
  simp only [List.mem_cons, List.not_mem_nil, or_false] at hg
  rcases hg with rfl | rfl | rfl
  · refine ⟨s.entry .collapsed "", ?_, hvalue, name, hparse⟩
    rw [Group.entries_eq_map_sites]
    exact List.mem_map_of_mem hs
  · exact (htheme (Or.inl rfl) hlight).elim
  · exact (htheme (Or.inr rfl) hdark).elim

/-! ## A source color that refers to another scope -/

namespace ForeignSource

/-- A valid document in which the source color `a` refers to a color of another product. -/
def document : Fields Json :=
  [("core", .obj [("p", .obj
    [("source", .obj [("color", .obj
      [("a", .obj [("value", .str "\x7bcore.q.source.color.a\x7d"), ("type", .str "color")]),
       ("b", .obj [("value", .str "#ffffff"), ("type", .str "color")])])]),
     ("theme", .obj
      [("light", .obj [("color", .obj
        [("c", .obj [("value", .str "\x7bcore.p.source.color.b\x7d"), ("type", .str "color")])])]),
       ("dark", .obj [("color", .obj
        [("c", .obj [("value", .str "#000000"), ("type", .str "color")])])])])])])]

/-- The text of that document. -/
def text : String :=
  "\x7b\"core\":\x7b\"p\":\x7b" ++
    "\"source\":\x7b\"color\":\x7b" ++
    "\"a\":\x7b\"value\":\"\x7bcore.q.source.color.a\x7d\",\"type\":\"color\"\x7d," ++
    "\"b\":\x7b\"value\":\"#ffffff\",\"type\":\"color\"\x7d\x7d\x7d," ++
    "\"theme\":\x7b\"light\":\x7b\"color\":\x7b\"c\":\x7b" ++
    "\"value\":\"\x7bcore.p.source.color.b\x7d\",\"type\":\"color\"\x7d\x7d\x7d," ++
    "\"dark\":\x7b\"color\":\x7b\"c\":\x7b" ++
    "\"value\":\"#000000\",\"type\":\"color\"\x7d\x7d\x7d\x7d\x7d\x7d\x7d"

/-- A disk with that text. -/
def disk : Disk :=
  { entries := [(["t"], .file text.toUTF8)] }

/-- The build of that document, which validates it. -/
def config : BuildConfig :=
  { tokensPath := ⟨"", ["t"]⟩, product := "p", outputFolder := ⟨"", ["o"]⟩, validate := true,
    checkVersions := false }

/-- The moment of the build. -/
def now : Moment :=
  ⟨⟨2024, 1, 2⟩, 3, 4, 5, 678901, some 0⟩

/-- The text is read as the document. -/
theorem reads : Disk.files.readObject config.tokensPath disk = (.ok document, disk) := by
  -- The characters are taken piece by piece, since those of a long text are slow to evaluate.
  refine Disk.readObject_of_text rfl ?_ ?_
  · unfold text
    simp only [String.toList_append]
    decide +kernel
  · unfold text
    simp only [String.toList_append]
    decide +kernel

/-- The build loads the document. -/
theorem loads : Job.Ends (Disk.files.loadTokens config) disk document disk :=
  Files.loadTokens_ends rfl reads

/-- The document is valid, and its theme colors have texts as their types. -/
theorem valid :
    (validate document config.product).valid = true ∧
      Validation.TypedThemes document config.product := by
  decide +kernel

/-- The build meets the reference of the source color. -/
theorem fails : Job.Fails (Disk.files.build config now) disk
    (.scopeMismatch "\x7bcore.q.source.color.a\x7d" "core.p" "core.q") := by
  unfold Job.Fails
  rw [(Files.build_result_of_stages rfl loads fun _ => valid.1).1]
  decide +kernel

end ForeignSource

open ForeignSource in
/-- The reference that the build of the document meets stands in its source. -/
theorem foreign_source_mismatch :
    Job.Ends (Disk.files.loadTokens config) disk document disk ∧
      (validate document config.product).valid = true ∧
      Validation.TypedThemes document config.product ∧ config.scopeId.getD "" = "" ∧
      Job.Fails (Disk.files.build config now) disk
        (.scopeMismatch "\x7bcore.q.source.color.a\x7d" "core.p" "core.q") ∧
      "core.p" = Validation.productPath config.product ∧ "core.q" ≠ "core.p" ∧
        ∃ e ∈ (ProductTokens.extract document config.product config.scopeId).source.entries
          .collapsed "", e.token.value = .str "\x7bcore.q.source.color.a\x7d" ∧
            ∃ name, Reference.parse? "\x7bcore.q.source.color.a\x7d" =
              some ⟨"\x7bcore.q.source.color.a\x7d", "core.q", name⟩ :=
  ⟨loads, valid.1, valid.2, rfl, fails, scopeMismatch_from_source loads valid.1 valid.2 rfl fails⟩

open ForeignSource in
/-- Not every build of a valid document is free of references to other scopes: validation accepts
them in the source, where units of constants resolve them. -/
theorem valid_build_meets_mismatch :
    ¬ ∀ (config : BuildConfig) (now : Moment) (before : Disk) (document : Fields Json),
      Job.Ends (Disk.files.loadTokens config) before document before →
        (validate document config.product).valid = true → config.validate = true →
        config.scopeId = none →
        ∀ reference expected actual, ¬ Job.Fails (Disk.files.build config now) before
          (.scopeMismatch reference expected actual) := by
  intro h
  exact h config now disk document loads valid.1 rfl rfl _ _ _ fails

end DesignTokens
