import DesignTokens.Proofs.Naming
import DesignTokens.Reference

/-!
# What reads as a reference

The texts that read as references are those that `Reference.format` writes for a scope of dotted
segments and a name: `parse?_eq_some_iff`. A name has no dot, so the last two keys of the text are
the fixed ones whatever segments the scope has. `Reference.Spells` is the grammar of these texts,
and `parse?_exact` says that reading accepts it, all of it and nothing else.
-/

namespace DesignTokens

namespace Reference

variable {value : String} {inside name : List Char} {segments : List (List Char)}

/-- A name has no dot. -/
theorem dot_not_mem_name (h : isName name = true) : '.' ∉ name := by
  intro hmem
  obtain ⟨-, hchars⟩ := Bool.and_eq_true_iff.1 h
  exact absurd (List.all_eq_true.1 hchars _ hmem) (by decide)

/-- A segment has no dot. -/
theorem dot_not_mem_segment {segment : List Char} (h : isSegment segment = true) :
    '.' ∉ segment := by
  intro hmem
  obtain ⟨-, hchars⟩ := Bool.and_eq_true_iff.1 h
  exact absurd (List.all_eq_true.1 hchars _ hmem) (by decide)

/-- The segments of a scope are read back from the text that joins them with dots. -/
theorem splitOn_intercalate_of_isScope (h : isScope segments = true) :
    (['.'].intercalate segments).splitOn '.' = segments := by
  obtain ⟨hne, hsegments⟩ := Bool.and_eq_true_iff.1 h
  refine List.splitOn_intercalate '.' (fun segment hsegment => ?_) (by simpa using hne)
  exact dot_not_mem_segment (List.all_eq_true.1 hsegments segment hsegment)

/-- Dotted segments have no slash. -/
theorem slash_not_mem_of_isScope {cs : List Char} (h : isScope (cs.splitOn '.') = true) :
    '/' ∉ cs := by
  intro hslash
  have hdot : '/' ≠ '.' := by decide
  obtain ⟨segment, hsegment, hmem⟩ := (mem_iff_exists_mem_splitOn hdot cs).1 hslash
  obtain ⟨-, hsegments⟩ := Bool.and_eq_true_iff.1 h
  obtain ⟨-, hchars⟩ := Bool.and_eq_true_iff.1 (List.all_eq_true.1 hsegments segment hsegment)
  exact absurd (List.all_eq_true.1 hchars _ hmem) (by decide)

/-- What stands between braces. -/
theorem unbrace?_eq_some_iff {cs : List Char} :
    unbrace? cs = some inside ↔ cs = '\x7b' :: (inside ++ ['\x7d']) := by
  unfold unbrace?
  split
  · rename_i rest
    rw [List.cons.injEq, and_iff_right rfl]
    constructor
    · intro h
      split at h
      · rename_i hlast
        obtain ⟨front, rfl⟩ := List.getLast?_eq_some_iff.1 hlast
        rw [List.dropLast_concat, Option.some.injEq] at h
        rw [h]
      · cases h
    · rintro rfl
      rw [List.getLast?_concat, if_pos rfl, List.dropLast_concat]
  · rename_i hopen
    exact iff_of_false nofun fun h => hopen _ h

/-- The last segment between the braces is the name, the two before it are fixed, and the others are
the scope. -/
theorem parts?_eq_some_iff :
    parts? inside = some (segments, name) ↔
      inside.splitOn '.' = segments ++ ["source".toList, "color".toList, name] ∧
        isName name = true ∧ isScope segments = true := by
  unfold parts?
  constructor
  · intro h
    split at h
    · rename_i last color source scope hsplit
      split at h
      · rename_i hparts
        obtain ⟨rfl, rfl, hname, hscope⟩ := hparts
        obtain ⟨rfl, rfl⟩ := Prod.mk.inj (Option.some.inj h)
        refine ⟨?_, hname, hscope⟩
        rw [← List.reverse_reverse (inside.splitOn '.'), hsplit]
        simp
      · cases h
    · cases h
  · rintro ⟨hsplit, hname, hscope⟩
    rw [hsplit]
    simp [hname, hscope]

/-- The characters between the braces of a reference. -/
def inner (scope name : List Char) : List Char :=
  scope ++ '.' :: ("source".toList ++ '.' :: ("color".toList ++ '.' :: name))

theorem toList_format (scope name : String) :
    (format scope name).toList = '\x7b' :: (inner scope.toList name.toList ++ ['\x7d']) := by
  simp [format, inner]

/-- References to one scope differ in their names. -/
theorem format_injective (scope : String) : Function.Injective (format scope) := by
  intro name other h
  have hchars := congrArg String.toList h
  simpa [toList_format, inner, String.toList_inj] using hchars

/-- The segments between the braces of a reference are those of its scope, the two fixed ones and
its name. -/
theorem splitOn_inner (scope : List Char) (h : isName name = true) :
    (inner scope name).splitOn '.' =
      scope.splitOn '.' ++ ["source".toList, "color".toList, name] := by
  have hfixed {key : List Char} (hkey : '.' ∉ key) : key.splitOn '.' = [key] :=
    List.splitOn_eq_singleton hkey
  have hsource := hfixed (show '.' ∉ "source".toList by decide)
  have hcolor := hfixed (show '.' ∉ "color".toList by decide)
  rw [inner, splitOn_append_cons, splitOn_append_cons, splitOn_append_cons, hsource, hcolor,
    hfixed (dot_not_mem_name h)]
  rfl

/-- A text reads as a reference exactly when it is what is written for the scope and the name of the
reference, these being well formed. -/
theorem parse?_eq_some_iff {reference : Reference} :
    parse? value = some reference ↔
      reference.raw = value ∧ value = format reference.scope reference.name ∧
        isScope (reference.scope.toList.splitOn '.') = true ∧
        isName reference.name.toList = true := by
  constructor
  · intro h
    obtain ⟨inside, hinside, hbelow⟩ := Option.bind_eq_some_iff.1 h
    obtain ⟨⟨segments, name⟩, hparts, heq⟩ := Option.bind_eq_some_iff.1 hbelow
    cases heq
    obtain ⟨hsplit, hname, hscope⟩ := parts?_eq_some_iff.1 hparts
    have hsegments := splitOn_intercalate_of_isScope hscope
    have hinner : inside = inner (['.'].intercalate segments) name := by
      -- Both have the same segments.
      have hread (cs : List Char) : ['.'].intercalate (cs.splitOn '.') = cs :=
        List.intercalate_splitOn '.'
      rw [← hread inside, hsplit, ← hread (inner _ name), splitOn_inner _ hname, hsegments]
    refine ⟨rfl, String.toList_inj.1 ?_, ?_, ?_⟩
    · rw [unbrace?_eq_some_iff.1 hinside, toList_format, String.toList_ofList,
        String.toList_ofList, hinner]
    · rw [String.toList_ofList, hsegments]
      exact hscope
    · rw [String.toList_ofList]
      exact hname
  · rintro ⟨rfl, hvalue, hscope, hname⟩
    have hinside : unbrace? reference.raw.toList =
        some (inner reference.scope.toList reference.name.toList) := by
      rw [unbrace?_eq_some_iff, hvalue, toList_format]
    have hparts := parts?_eq_some_iff.2 ⟨splitOn_inner reference.scope.toList hname, hname, hscope⟩
    rw [parse?, hinside, Option.bind_eq_bind, Option.bind_some, hparts, Option.bind_eq_bind,
      Option.bind_some]
    dsimp only
    rw [List.intercalate_splitOn, String.ofList_toList, String.ofList_toList]

/-- What is written for a scope and a name reads as the reference to them. -/
theorem parse?_format {scope name : String} (hscope : isScope (scope.toList.splitOn '.') = true)
    (hname : isName name.toList = true) :
    parse? (format scope name) = some ⟨format scope name, scope, name⟩ :=
  parse?_eq_some_iff.2 ⟨rfl, rfl, hscope, hname⟩

/-! ## The grammar of references -/

/-- The text has one or more characters, all of one kind. -/
structure MadeOf (kind : Char → Prop) (text : String) : Prop where
  ne_empty : text ≠ ""
  chars : ∀ c ∈ text.toList, kind c

/-- The text is a segment of a scope: ASCII letters, digits and hyphens. -/
def Segment : String → Prop :=
  MadeOf fun c => c.isAlphanum = true ∨ c = '-'

/-- The text is the identifier of a scope: one or more segments with dots between them. -/
def ScopeId (id : String) : Prop :=
  ∃ segments : List String, segments ≠ [] ∧ (∀ segment ∈ segments, Segment segment) ∧
    id = ".".intercalate segments

/-- The text is the name of a color: word characters and hyphens. -/
def ColorName : String → Prop :=
  MadeOf fun c => Text.isWordChar c = true ∨ c = '-'

/-- The value is written for a scope and a name. -/
structure Spells (value scope name : String) : Prop where
  scopeId : ScopeId scope
  colorName : ColorName name
  written : value = format scope name

theorem madeOf_iff {kind : Char → Prop} {test : Char → Bool} {text : String}
    (h : ∀ c, test c = true ↔ kind c) :
    (!text.toList.isEmpty && text.toList.all test) = true ↔ MadeOf kind text := by
  simp only [Bool.and_eq_true, Bool.not_eq_true', List.isEmpty_eq_false_iff, List.all_eq_true,
    ne_eq, String.toList_eq_nil_iff, h]
  exact ⟨fun h => ⟨h.1, h.2⟩, fun h => ⟨h.ne_empty, h.chars⟩⟩

theorem isSegment_toList_iff {text : String} : isSegment text.toList = true ↔ Segment text :=
  madeOf_iff fun c => by simp [isSegmentChar]

theorem isName_toList_iff {text : String} : isName text.toList = true ↔ ColorName text :=
  madeOf_iff fun c => by simp [isNameChar]

/-- Texts are the segments of a scope exactly when there are some and all of them are segments. -/
theorem isScope_map_toList_iff {texts : List String} :
    isScope (texts.map String.toList) = true ↔ texts ≠ [] ∧ ∀ text ∈ texts, Segment text := by
  simp only [isScope, Bool.and_eq_true, Bool.not_eq_true', List.isEmpty_eq_false_iff, ne_eq,
    List.map_eq_nil_iff, List.all_eq_true, List.forall_mem_map, isSegment_toList_iff]

/-- A text is the identifier of a scope exactly when its parts between dots are segments. -/
theorem isScope_splitOn_iff {id : String} :
    isScope (id.toList.splitOn '.') = true ↔ ScopeId id := by
  constructor
  · intro h
    have hparts : ((id.toList.splitOn '.').map String.ofList).map String.toList =
        id.toList.splitOn '.' := by
      simp
    rw [← hparts] at h
    obtain ⟨hne, hsegments⟩ := isScope_map_toList_iff.1 h
    refine ⟨_, hne, hsegments, String.toList_inj.1 ?_⟩
    rw [String.toList_intercalate, hparts]
    exact (List.intercalate_splitOn '.').symm
  · intro h
    obtain ⟨segments, hne, hsegments, rfl⟩ := h
    have hscope := isScope_map_toList_iff.2 ⟨hne, hsegments⟩
    rw [String.toList_intercalate]
    exact (congrArg isScope (splitOn_intercalate_of_isScope hscope)).trans hscope

/-- A value reads as a reference exactly when it is written for the scope and the name of it. -/
theorem parse?_eq_some_iff_spells {reference : Reference} :
    parse? value = some reference ↔
      reference.raw = value ∧ Spells value reference.scope reference.name := by
  rw [parse?_eq_some_iff, isScope_splitOn_iff, isName_toList_iff]
  exact and_congr_right fun _ =>
    ⟨fun h => ⟨h.2.1, h.2.2, h.1⟩, fun h => ⟨h.written, h.scopeId, h.colorName⟩⟩

/-- What is written for a scope and a name reads as the reference to them. -/
theorem Spells.parse?_eq {scope name : String} (h : Spells value scope name) :
    parse? value = some ⟨value, scope, name⟩ :=
  parse?_eq_some_iff_spells.2 ⟨rfl, h⟩

end Reference

open Reference in
/-- A value reads as a reference exactly when it is written for some scope and name. It is written
for one scope and one name only, and these are what is read. So whatever scope and name a value is
written for, they are read back from it. -/
theorem parse?_exact :
    (∀ value, parse? value ≠ none ↔ ∃ scope name, Spells value scope name) ∧
      (∀ value reference, parse? value = some reference → reference.raw = value ∧
        ∀ scope name, Spells value scope name ↔ scope = reference.scope ∧ name = reference.name) ∧
      ∀ scope name, ScopeId scope → ColorName name →
        parse? (format scope name) = some ⟨format scope name, scope, name⟩ := by
  refine ⟨fun value => ⟨fun hread => ?_, ?_⟩, fun value reference hread => ?_, ?_⟩
  · obtain ⟨reference, hreference⟩ := Option.ne_none_iff_exists'.1 hread
    exact ⟨_, _, (parse?_eq_some_iff_spells.1 hreference).2⟩
  · rintro ⟨scope, name, hspells⟩
    rw [hspells.parse?_eq]
    exact Option.some_ne_none _
  · obtain ⟨hraw, hspells⟩ := parse?_eq_some_iff_spells.1 hread
    refine ⟨hraw, fun scope name => ⟨fun hother => ?_, ?_⟩⟩
    · cases hread.symm.trans hother.parse?_eq
      exact ⟨rfl, rfl⟩
    · rintro ⟨rfl, rfl⟩
      exact hspells
  · intro scope name hscope hname
    exact Spells.parse?_eq ⟨hscope, hname, rfl⟩

/-- The keys that are fixed in a reference may be segments of its scope, and a line feed at the end
is not passed over. -/
example :
    (Reference.parse? "\x7ba.source.color.b.source.color.c\x7d").map Reference.scope =
        some "a.source.color.b" ∧
      Reference.parse? "\x7ba.source.color.b\x7d\n" = none := by
  decide +kernel

end DesignTokens
