import DesignTokens.Proofs.Overlay.Precedence

/-!
# Layers of one shape

When two layers hold the same kind of node wherever both hold one, and no two groups of theirs
complete each other to a token, every node of the merged tree comes from the node of one layer or
from two nodes of the same kind: `superposed_mergeTrees`.
-/

namespace DesignTokens

/-- What a merged tree holds at a key path, given what the earlier and the later layer hold there. A
token over a token takes its value and type. -/
inductive Superposed : Option Node → Option Node → Option Node → Prop where
  | nothing : Superposed none none none
  | lower (n : Node) : Superposed (some n) none (some n)
  | upper (n : Node) : Superposed none (some n) (some n)
  | token {t u merged : Token} : merged.value = u.value → merged.type = u.type →
      Superposed (some (.token t)) (some (.token u)) (some (.token merged))
  | group (g h merged : Group) :
      Superposed (some (.group g)) (some (.group h)) (some (.group merged))
  | raw (x y : Json) : Superposed (some (.raw x)) (some (.raw y)) (some (.raw y))

namespace Superposed

variable {lower upper merged : Option Node}

/-- Without the later layer the merged tree holds what the earlier one does. -/
theorem without_upper (n : Option Node) : Superposed n none n := by
  cases n with
  | none => exact nothing
  | some n => exact .lower n

/-- Without the earlier layer the merged tree holds what the later one does. -/
theorem without_lower (n : Option Node) : Superposed none n n := by
  cases n with
  | none => exact nothing
  | some n => exact .upper n

/-- The merged tree holds a node where a layer does. -/
theorem isSome_eq (h : Superposed lower upper merged) :
    merged.isSome = (lower.isSome || upper.isSome) := by
  cases h <;> rfl

/-- The merged tree holds a group where the earlier layer does. -/
theorem group_of_lower {g : Group} (h : Superposed (some (.group g)) upper merged) :
    ∃ k, merged = some (.group k) := by
  cases h with
  | lower => exact ⟨g, rfl⟩
  | group => exact ⟨_, rfl⟩

/-- The merged tree holds a group where the later layer does. -/
theorem group_of_upper {h : Group} (hsup : Superposed lower (some (.group h)) merged) :
    ∃ k, merged = some (.group k) := by
  cases hsup with
  | upper => exact ⟨h, rfl⟩
  | group => exact ⟨_, rfl⟩

/-- The merged tree holds a token where the earlier layer does. -/
theorem token_of_lower {t : Token} (h : Superposed (some (.token t)) upper merged) :
    ∃ u, merged = some (.token u) := by
  cases h with
  | lower => exact ⟨t, rfl⟩
  | token => exact ⟨_, rfl⟩

/-- The merged tree holds a token with the value of the later layer's one where that layer has
one. -/
theorem token_of_upper {t : Token} (h : Superposed lower (some (.token t)) merged) :
    ∃ u, merged = some (.token u) ∧ u.value = t.value := by
  cases h with
  | upper => exact ⟨t, rfl, rfl⟩
  | token hvalue => exact ⟨_, rfl, hvalue⟩

/-- A token of the merged tree has the value of the later layer's token, or is the token of the
earlier layer where the later one holds nothing. -/
theorem token_cases {u : Token} (h : Superposed lower upper (some (.token u))) :
    (∃ t, upper = some (.token t) ∧ t.value = u.value) ∨
      upper = none ∧ lower = some (.token u) := by
  cases h with
  | lower => exact Or.inr ⟨rfl, rfl⟩
  | upper => exact Or.inl ⟨u, rfl, rfl⟩
  | token hvalue => exact Or.inl ⟨_, rfl, hvalue.symm⟩

end Superposed

/-! ## Compatible layers -/

/-- Two nodes hold the same kind of node at every key path at which both hold one. -/
def Node.SameShape (lower upper : Node) : Prop :=
  ∀ keys m n, lower.at? keys = some m → upper.at? keys = some n → m.kind = n.kind

/-- A node holds no token at a key path at which one of two others holds a group. -/
def Node.KeepsGroups (lower upper merged : Node) : Prop :=
  ∀ keys g, lower.at? keys = some (.group g) ∨ upper.at? keys = some (.group g) →
    ∀ t, merged.at? keys ≠ some (.token t)

namespace Node

variable {g h k : Group} {m n r : Node} {key : String}

theorem SameShape.child (hshape : SameShape (.group g) (.group h))
    (hm : Fields.get? g key = some m) (hn : Fields.get? h key = some n) : SameShape m n := by
  intro keys m' n' hm' hn'
  refine hshape (key :: keys) m' n' ?_ ?_
  · rw [at?_group_cons, hm, Option.bind_some, hm']
  · rw [at?_group_cons, hn, Option.bind_some, hn']

theorem KeepsGroups.child (hgroups : KeepsGroups (.group g) (.group h) (.group k))
    (hm : Fields.get? g key = some m) (hn : Fields.get? h key = some n)
    (hr : Fields.get? k key = some r) : KeepsGroups m n r := by
  intro keys inner hinner t ht
  refine hgroups (key :: keys) inner ?_ t ?_
  · rwa [at?_group_cons, at?_group_cons, hm, hn, Option.bind_some, Option.bind_some]
  · rw [at?_group_cons, hr, Option.bind_some, ht]

end Node

/-- Below the key of a child, groups of one shape are superposed when all values of one shape
are. -/
theorem superposed_children {lower upper : Fields Json} {key : String} {keys : List String}
    (hupper : upper.WellFormed)
    (hshape : (Node.group (Group.ofFields lower)).SameShape (.group (Group.ofFields upper)))
    (hgroups : (Node.group (Group.ofFields lower)).KeepsGroups (.group (Group.ofFields upper))
      (.group (Group.ofFields (overlay lower upper))))
    (hchild : ∀ x y, upper.get? key = some y → (Node.ofJson x).SameShape (Node.ofJson y) →
      (Node.ofJson x).KeepsGroups (Node.ofJson y) (Node.ofJson (y.over (some x))) →
        Superposed ((Node.ofJson x).at? keys) ((Node.ofJson y).at? keys)
          ((Node.ofJson (y.over (some x))).at? keys)) :
    Superposed ((Node.group (Group.ofFields lower)).at? (key :: keys))
      ((Node.group (Group.ofFields upper)).at? (key :: keys))
      ((Node.group (Group.ofFields (overlay lower upper))).at? (key :: keys)) := by
  have hread {fields : Fields Json} {x : Json} (h : fields.get? key = some x) :
      Fields.get? (Group.ofFields fields) key = some (Node.ofJson x) := by
    rw [Group.get?_ofFields, h, Option.map_some]
  simp only [Node.at?_group_cons, Group.get?_ofFields]
  cases hy : upper.get? key with
  | none =>
      rw [get?_overlay_of_none hy]
      exact Superposed.without_upper _
  | some y =>
      have hmerged : (overlay lower upper).get? key = some (y.over (lower.get? key)) :=
        get?_overlay_of_some hupper hy
      rw [hmerged]
      cases hx : lower.get? key with
      | none =>
          rw [Json.over_none]
          exact Superposed.without_lower _
      | some x =>
          rw [hx] at hmerged
          exact hchild x y hy (hshape.child (hread hx) (hread hy))
            (hgroups.child (hread hx) (hread hy) (hread hmerged))

/-- Over a value of its shape, a value is read as a node of the same kind as before. -/
theorem Node.ofJson_over_cases {x y : Json} (hy : y.WellFormed)
    (hshape : (ofJson x).SameShape (ofJson y))
    (hgroups : (ofJson x).KeepsGroups (ofJson y) (ofJson (y.over (some x)))) :
    (∃ t u merged, ofJson x = .token t ∧ ofJson y = .token u ∧
        ofJson (y.over (some x)) = .token merged ∧ merged.value = u.value ∧ merged.type = u.type) ∨
      (∃ lower upper, y = .obj upper ∧ ofJson x = .group (Group.ofFields lower) ∧
        ofJson y = .group (Group.ofFields upper) ∧ x = .obj lower ∧
        ofJson (y.over (some x)) = .group (Group.ofFields (overlay lower upper))) ∨
      ∃ z w, ofJson x = .raw z ∧ ofJson y = .raw w ∧ ofJson (y.over (some x)) = .raw w := by
  -- Of the two hypotheses only what they say about the roots is used here.
  have hkind : (ofJson x).kind = (ofJson y).kind := hshape [] _ _ (at?_nil _) (at?_nil _)
  have hgroup (g : Group) (hg : ofJson x = .group g) (t : Token) :
      ofJson (y.over (some x)) ≠ .token t := by
    intro ht
    exact hgroups [] g (Or.inl (by rw [at?_nil, hg])) t (by rw [at?_nil, ht])
  cases hnode : ofJson y with
  | token u =>
      refine Or.inl ?_
      cases hbelow : ofJson x with
      | token t =>
          obtain ⟨merged, hmerged, hvalue, htype⟩ :=
            Token.ofJson?_over hy (ofJson_eq_token_iff.1 hnode) (some x)
          exact ⟨t, u, merged, rfl, rfl, ofJson_eq_token_iff.2 hmerged, hvalue, htype⟩
      | group g => rw [hnode, hbelow] at hkind; cases hkind
      | raw z => rw [hnode, hbelow] at hkind; cases hkind
  | group h =>
      refine Or.inr (Or.inl ?_)
      obtain ⟨upper, rfl, -, rfl⟩ := ofJson_eq_group_iff.1 hnode
      cases hbelow : ofJson x with
      | token t => rw [hnode, hbelow] at hkind; cases hkind
      | group g =>
          obtain ⟨lower, rfl, -, rfl⟩ := ofJson_eq_group_iff.1 hbelow
          rw [Json.over_obj_obj] at hgroup ⊢
          refine ⟨lower, upper, rfl, rfl, rfl, rfl, ofJson_obj_of_none ?_⟩
          by_contra hsome
          obtain ⟨t, ht⟩ := Option.ne_none_iff_exists'.1 hsome
          exact hgroup _ hbelow t (ofJson_obj_of_token ht)
      | raw z => rw [hnode, hbelow] at hkind; cases hkind
  | raw w =>
      refine Or.inr (Or.inr ?_)
      obtain ⟨hfields, -⟩ := fields?_of_ofJson_eq_raw hnode
      rw [Json.over_of_fields?_eq_none hfields, hnode]
      cases hbelow : ofJson x with
      | token t => rw [hnode, hbelow] at hkind; cases hkind
      | group g => rw [hnode, hbelow] at hkind; cases hkind
      | raw z => exact ⟨z, w, rfl, rfl, rfl⟩

/-- The nodes of two values of one shape are superposed in the node of their overlay. -/
theorem superposed_ofJson {x y : Json} (hy : y.WellFormed)
    (hshape : (Node.ofJson x).SameShape (Node.ofJson y))
    (hgroups : (Node.ofJson x).KeepsGroups (Node.ofJson y) (Node.ofJson (y.over (some x))))
    (keys : List String) :
    Superposed ((Node.ofJson x).at? keys) ((Node.ofJson y).at? keys)
      ((Node.ofJson (y.over (some x))).at? keys) := by
  -- Below tokens and raw values there is nothing, so the induction goes on in groups only.
  induction keys generalizing x y with
  | nil =>
      simp only [Node.at?_nil]
      obtain ⟨t, u, merged, hx, hy, hmerged, hvalue, htype⟩ |
        ⟨lower, upper, -, hx, hy, -, hmerged⟩ | ⟨z, w, hx, hy, hmerged⟩ :=
        Node.ofJson_over_cases hy hshape hgroups
      · rw [hx, hy, hmerged]
        exact .token hvalue htype
      · rw [hx, hy, hmerged]
        exact .group _ _ _
      · rw [hx, hy, hmerged]
        exact .raw z w
  | cons key keys ih =>
      obtain ⟨t, u, merged, hx, hy, hmerged, -⟩ |
        ⟨lower, upper, rfl, hlower, hupper, rfl, hmerged⟩ | ⟨z, w, hx, hy, hmerged⟩ :=
        Node.ofJson_over_cases hy hshape hgroups
      · rw [hx, hy, hmerged]
        exact .nothing
      · rw [hlower, hupper, hmerged] at hgroups ⊢
        rw [hlower, hupper] at hshape
        exact superposed_children hy.fields hshape hgroups fun x y hchild => ih (hy.of_get? hchild)
      · rw [hx, hy, hmerged]
        exact .nothing

/-- The trees of two documents of one shape are superposed in their merged tree. -/
theorem superposed_mergeTrees {lower upper : Fields Json} (hlower : (Json.obj lower).WellFormed)
    (hupper : (Json.obj upper).WellFormed)
    (hshape : (Node.group (Group.ofFields lower)).SameShape (.group (Group.ofFields upper)))
    (hgroups : (Node.group (Group.ofFields lower)).KeepsGroups (.group (Group.ofFields upper))
      (.group (mergeTrees [.document lower, .document upper])))
    (keys : List String) :
    Superposed (Group.at? (Group.ofFields lower) keys) (Group.at? (Group.ofFields upper) keys)
      (Group.at? (mergeTrees [.document lower, .document upper]) keys) := by
  rw [mergeTrees_pair hlower.fields] at hgroups ⊢
  cases keys with
  | nil => exact .group _ _ _
  | cons key keys =>
      exact superposed_children hupper.fields hshape hgroups fun x y hy hxy hgroups =>
        superposed_ofJson (hupper.of_get? hy) hxy hgroups keys

end DesignTokens
