import DesignTokens.Fields
import Mathlib.Data.List.Nodup
import Mathlib.Data.List.Perm.Subperm

/-!
# Fields as finite maps

What every operation on fields does to the value under a name and to the list of names. When no
name occurs twice, the value under a name is the value of the one field that has it:
`WellFormed.get?_eq_some_iff`.
-/

namespace DesignTokens

namespace Fields

variable {α β : Type} {fields : Fields α} {name : String} {value : α}

/-! ## Reading -/

@[simp] theorem get?_nil (name : String) : get? ([] : Fields α) name = none := rfl

theorem get?_cons (key : String) (value : α) (rest : Fields α) (name : String) :
    get? ((key, value) :: rest) name = if key = name then some value else get? rest name := rfl

@[simp] theorem get?_cons_self (key : String) (value : α) (rest : Fields α) :
    get? ((key, value) :: rest) key = some value := by
  simp [get?_cons]

theorem get?_cons_of_ne {key name : String} (h : key ≠ name) (value : α) (rest : Fields α) :
    get? ((key, value) :: rest) name = get? rest name := by
  simp [get?_cons, h]

@[simp] theorem names_nil : names ([] : Fields α) = [] := rfl

@[simp] theorem names_cons (key : String) (value : α) (rest : Fields α) :
    names ((key, value) :: rest) = key :: names rest := rfl

@[simp] theorem names_append (fields others : Fields α) :
    names (fields ++ others) = names fields ++ names others :=
  List.map_append

theorem wellFormed_iff : fields.WellFormed ↔ fields.names.Nodup := Iff.rfl

theorem wellFormed_cons {key : String} {rest : Fields α} :
    WellFormed ((key, value) :: rest) ↔ key ∉ rest.names ∧ rest.WellFormed :=
  List.nodup_cons

/-- What is found under a name is one of the fields. -/
theorem mem_of_get? (h : fields.get? name = some value) : (name, value) ∈ fields := by
  induction fields with
  | nil => cases h
  | cons field rest ih =>
      obtain ⟨key, first⟩ := field
      by_cases hkey : key = name
      · subst hkey
        rw [get?_cons_self] at h
        cases h
        exact List.mem_cons_self
      · rw [get?_cons_of_ne hkey] at h
        exact List.mem_cons_of_mem _ (ih h)

/-- Nothing is found exactly under the names that do not occur. -/
theorem get?_eq_none_iff : fields.get? name = none ↔ name ∉ fields.names := by
  induction fields with
  | nil => simp
  | cons field rest ih =>
      obtain ⟨key, first⟩ := field
      by_cases hkey : key = name
      · simp [hkey]
      · rw [get?_cons_of_ne hkey, ih]
        simp [Ne.symm hkey]

/-- A name occurs exactly when something is found under it. -/
theorem has_iff : fields.has name = true ↔ name ∈ fields.names := by
  rw [has, ← Option.ne_none_iff_isSome, ne_eq, get?_eq_none_iff, not_not]

/-- A name that occurs has a value. -/
theorem exists_get?_of_mem_names (h : name ∈ fields.names) :
    ∃ value, fields.get? name = some value := by
  cases hget : fields.get? name with
  | none => exact absurd h (get?_eq_none_iff.1 hget)
  | some value => exact ⟨value, rfl⟩

/-- A name with a value occurs. -/
theorem mem_names_of_get? (h : fields.get? name = some value) : name ∈ fields.names :=
  List.mem_map_of_mem (mem_of_get? h)

/-- When no name occurs twice, a value is found under a name exactly when the two are a field. -/
theorem WellFormed.get?_eq_some_iff (hfields : fields.WellFormed) :
    fields.get? name = some value ↔ (name, value) ∈ fields := by
  refine ⟨mem_of_get?, fun hmem => ?_⟩
  induction fields with
  | nil => cases hmem
  | cons field rest ih =>
      obtain ⟨key, first⟩ := field
      obtain ⟨hkey, hrest⟩ := wellFormed_cons.1 hfields
      rcases List.mem_cons.1 hmem with heq | hmem
      · cases heq
        exact get?_cons_self _ _ _
      · have hne : key ≠ name := by
          rintro rfl
          exact hkey (List.mem_map_of_mem (f := Prod.fst) hmem)
        rw [get?_cons_of_ne hne]
        exact ih hrest hmem

/-- Changing the values changes what is found in the same way. -/
theorem get?_map (f : α → β) (fields : Fields α) (name : String) :
    get? (fields.map fun field => (field.1, f field.2)) name = (fields.get? name).map f := by
  induction fields with
  | nil => rfl
  | cons field rest ih =>
      obtain ⟨key, first⟩ := field
      by_cases hkey : key = name
      · simp [hkey]
      · simpa [get?_cons_of_ne hkey] using ih

/-- Of two parts the first one is looked at first. -/
theorem get?_append (fields others : Fields α) (name : String) :
    get? (fields ++ others) name = (fields.get? name).or (others.get? name) := by
  induction fields with
  | nil => rfl
  | cons field rest ih =>
      obtain ⟨key, value⟩ := field
      rw [List.cons_append, get?_cons, get?_cons, ih]
      split <;> rfl

/-- Fields that repeat no name are told by their names, in order, and the values under them. -/
theorem WellFormed.eq_of_get? {others : Fields α} (hfields : fields.WellFormed)
    (hnames : fields.names = others.names)
    (hget : ∀ name, fields.get? name = others.get? name) : fields = others := by
  induction fields generalizing others with
  | nil =>
      rw [names_nil, eq_comm] at hnames
      exact (List.map_eq_nil_iff.1 hnames).symm
  | cons field rest ih =>
      obtain ⟨key, value⟩ := field
      obtain _ | ⟨⟨name, other⟩, more⟩ := others
      · cases hnames
      · rw [names_cons, names_cons, List.cons.injEq] at hnames
        obtain ⟨rfl, hmore⟩ := hnames
        obtain ⟨hkey, hrest⟩ := wellFormed_cons.1 hfields
        have hvalue := hget key
        rw [get?_cons_self, get?_cons_self] at hvalue
        obtain rfl := Option.some.inj hvalue
        refine congrArg _ (ih hrest hmore fun name => ?_)
        by_cases hname : key = name
        · -- Neither of the rests has the first name again.
          subst hname
          rw [get?_eq_none_iff.2 hkey, get?_eq_none_iff.2 (hmore ▸ hkey)]
        · have hsame := hget name
          rwa [get?_cons_of_ne hname, get?_cons_of_ne hname] at hsame

/-- Fields in which every name has the same value have the same names, in some order. -/
theorem names_perm_of_get?_eq {others : Fields α} (hfields : fields.WellFormed)
    (hothers : others.WellFormed) (h : ∀ name, fields.get? name = others.get? name) :
    fields.names.Perm others.names := by
  refine (List.perm_ext_iff_of_nodup hfields hothers).2 fun name => ?_
  rw [← not_iff_not]
  exact get?_eq_none_iff.symm.trans (h name ▸ get?_eq_none_iff)

/-- Fields whose names all occur among equally many others have the same names, in some order. -/
theorem WellFormed.names_perm_of_subset {others : Fields β} (hfields : fields.WellFormed)
    (hlength : fields.length = others.length) (hsubset : fields.names ⊆ others.names) :
    fields.names.Perm others.names := by
  refine (List.Nodup.subperm hfields hsubset).perm_of_length_le ?_
  simp only [names, List.length_map, hlength]
  exact Nat.le_refl _

/-! ## Leaving out -/

/-- Fields that are left out are not found, and others are found as before. -/
theorem get?_without (fields : Fields α) (omitted : List String) (name : String) :
    (fields.without omitted).get? name = if name ∈ omitted then none else fields.get? name := by
  induction fields with
  | nil => simp [without]
  | cons field rest ih =>
      obtain ⟨key, value⟩ := field
      rw [without] at ih ⊢
      by_cases hkey : key ∈ omitted
      · rw [List.filter_cons_of_neg (by simpa using hkey), ih]
        by_cases hname : name ∈ omitted
        · rw [if_pos hname, if_pos hname]
        · rw [if_neg hname, if_neg hname, get?_cons_of_ne]
          rintro rfl
          exact hname hkey
      · rw [List.filter_cons_of_pos (by simpa using hkey), get?_cons, ih, get?_cons]
        by_cases hname : key = name
        · subst hname
          rw [if_pos rfl, if_neg hkey, if_pos rfl]
        · rw [if_neg hname, if_neg hname]

/-- Fields that are the same without one name have the same value under any other one. -/
theorem get?_eq_of_without {others : Fields α} {key : String}
    (h : fields.without [key] = others.without [key]) (hname : name ≠ key) :
    fields.get? name = others.get? name := by
  have hget := congrArg (fun rest : Fields α => rest.get? name) h
  simpa only [get?_without, List.mem_singleton, if_neg hname] using hget

/-- Leaving fields out repeats no name. -/
theorem WellFormed.without (hfields : fields.WellFormed) (omitted : List String) :
    (fields.without omitted).WellFormed :=
  (List.filter_sublist.map Prod.fst).nodup hfields

/-- A name that is left out does not occur. -/
theorem not_mem_names_without {name : String} (h : name ∈ (fields.without omitted).names) :
    name ∉ omitted := by
  obtain ⟨value, hget⟩ := exists_get?_of_mem_names h
  rw [get?_without] at hget
  exact fun hname => by rw [if_pos hname] at hget; cases hget

/-! ## Inserting -/

/-- Inserting under a name changes what is found there and nowhere else. -/
theorem get?_insert (fields : Fields α) (name : String) (value : α) (other : String) :
    (fields.insert name value).get? other =
      if name = other then some value else fields.get? other := by
  induction fields with
  | nil => rfl
  | cons field rest ih =>
      obtain ⟨key, first⟩ := field
      by_cases hkey : key = name
      · subst hkey
        by_cases hother : key = other <;> simp [insert, get?_cons, hother]
      · rw [insert, if_neg hkey, get?_cons, ih, get?_cons]
        by_cases hother : key = other
        · have hne : name ≠ other := fun hname => hkey (hother.trans hname.symm)
          simp [hother, hne]
        · simp [hother]

/-- A new name comes last. -/
theorem insert_of_not_mem (h : name ∉ fields.names) (value : α) :
    fields.insert name value = fields ++ [(name, value)] := by
  induction fields with
  | nil => rfl
  | cons field rest ih =>
      obtain ⟨key, first⟩ := field
      rw [names_cons, List.mem_cons, not_or] at h
      rw [insert, if_neg (Ne.symm h.1), ih h.2]
      rfl

/-- A present name keeps its place. -/
theorem names_insert_of_mem (h : name ∈ fields.names) (value : α) :
    (fields.insert name value).names = fields.names := by
  induction fields with
  | nil => cases h
  | cons field rest ih =>
      obtain ⟨key, first⟩ := field
      by_cases hkey : key = name
      · simp [insert, hkey]
      · rw [names_cons, List.mem_cons] at h
        rw [insert, if_neg hkey, names_cons, names_cons, ih (h.resolve_left (Ne.symm hkey))]

/-- What putting a value under a name makes of fields: the value takes the place of the first one
under the name, or it comes last when there is none. All other fields stay, in their order. -/
inductive Put (name : String) (value : α) : Fields α → Fields α → Prop
  | replaced (before after : Fields α) (old : α) (hname : name ∉ before.names) :
      Put name value (before ++ (name, old) :: after) (before ++ (name, value) :: after)
  | appended (fields : Fields α) (hname : name ∉ fields.names) :
      Put name value fields (fields ++ [(name, value)])

/-- A field in front under another name stays there. -/
theorem Put.cons {others : Fields α} {key : String} (hkey : name ≠ key) (first : α)
    (h : Put name value fields others) :
    Put name value ((key, first) :: fields) ((key, first) :: others) := by
  cases h with
  | replaced before after old hname =>
      exact .replaced ((key, first) :: before) after old (by simp [hkey, hname])
  | appended _ hname => exact .appended ((key, first) :: fields) (by simp [hkey, hname])

/-- Inserting puts the value under the name. -/
theorem put_insert (fields : Fields α) (name : String) (value : α) :
    Put name value fields (fields.insert name value) := by
  induction fields with
  | nil => exact .appended [] List.not_mem_nil
  | cons field rest ih =>
      obtain ⟨key, first⟩ := field
      by_cases hkey : key = name
      · subst hkey
        rw [insert, if_pos rfl]
        exact .replaced [] rest first List.not_mem_nil
      · rw [insert, if_neg hkey]
        exact ih.cons (Ne.symm hkey) first

/-- Inserting a value that is there under the name changes nothing. -/
theorem insert_of_get? (h : fields.get? name = some value) : fields.insert name value = fields := by
  induction fields with
  | nil => cases h
  | cons field rest ih =>
      obtain ⟨key, first⟩ := field
      rw [get?_cons] at h
      by_cases hkey : key = name
      · rw [if_pos hkey] at h
        rw [insert, if_pos hkey, Option.some.inj h]
      · rw [if_neg hkey] at h
        rw [insert, if_neg hkey, ih h]

/-- Inserting repeats no name. -/
theorem WellFormed.insert (hfields : fields.WellFormed) (name : String) (value : α) :
    (fields.insert name value).WellFormed := by
  by_cases h : name ∈ fields.names
  · rw [wellFormed_iff, names_insert_of_mem h value]
    exact hfields
  · rw [insert_of_not_mem h, wellFormed_iff, names_append]
    exact List.Nodup.append hfields (List.nodup_singleton name)
      (List.disjoint_singleton.2 h)

/-- Something is there after an insertion. -/
theorem insert_ne_nil (fields : Fields α) (name : String) (value : α) :
    fields.insert name value ≠ [] := by
  cases fields with
  | nil => exact List.cons_ne_nil _ _
  | cons field rest =>
      obtain ⟨key, first⟩ := field
      rw [Fields.insert]
      split <;> exact List.cons_ne_nil _ _

/-- Something is there after insertions when something was there or has been inserted. -/
theorem insertAll_ne_nil {others : Fields α} (h : fields ≠ [] ∨ others ≠ []) :
    fields.insertAll others ≠ [] := by
  induction others generalizing fields with
  | nil => exact h.resolve_right fun hne => hne rfl
  | cons field rest ih => exact ih (Or.inl (insert_ne_nil fields field.1 field.2))

/-- A field after an insertion is the inserted one or an old one. -/
theorem mem_insert {field : String × α} (h : field ∈ fields.insert name value) :
    field = (name, value) ∨ field ∈ fields := by
  induction fields with
  | nil => exact Or.inl (List.mem_singleton.1 h)
  | cons first rest ih =>
      obtain ⟨key, old⟩ := first
      by_cases hkey : key = name
      · rw [Fields.insert, if_pos hkey, hkey] at h
        rcases List.mem_cons.1 h with h | h
        · exact Or.inl h
        · exact Or.inr (List.mem_cons_of_mem _ h)
      · rw [Fields.insert, if_neg hkey] at h
        rcases List.mem_cons.1 h with h | h
        · exact Or.inr (h ▸ List.mem_cons_self)
        · exact (ih h).imp_right (List.mem_cons_of_mem _)

/-- A field after insertions is an inserted one or an old one. -/
theorem mem_insertAll {others : Fields α} {field : String × α}
    (h : field ∈ fields.insertAll others) : field ∈ fields ∨ field ∈ others := by
  induction others generalizing fields with
  | nil => exact Or.inl h
  | cons first rest ih =>
      rcases ih h with hfield | hrest
      · rcases mem_insert hfield with rfl | hold
        · exact Or.inr List.mem_cons_self
        · exact Or.inl hold
      · exact Or.inr (List.mem_cons_of_mem _ hrest)

/-- Pairs that repeat no name are inserted as they are. -/
theorem insertAll_eq_append {fields others : Fields α} (h : (fields ++ others).WellFormed) :
    insertAll fields others = fields ++ others := by
  induction others generalizing fields with
  | nil => simp [insertAll]
  | cons field rest ih =>
      obtain ⟨key, first⟩ := field
      have hnew : key ∉ fields.names := by
        intro hmem
        rw [wellFormed_iff, names_append] at h
        exact (List.nodup_append.1 h).2.2 key hmem key List.mem_cons_self rfl
      have hnext : ((fields ++ [(key, first)]) ++ rest).WellFormed := by simpa using h
      show insertAll (fields.insert key first) rest = fields ++ (key, first) :: rest
      rw [insert_of_not_mem hnew, ih hnext]
      simp

/-- Pairs that repeat no name denote themselves. -/
theorem ofPairs_eq_self {pairs : Fields α} (h : pairs.WellFormed) : ofPairs pairs = pairs :=
  insertAll_eq_append h

end Fields

end DesignTokens
