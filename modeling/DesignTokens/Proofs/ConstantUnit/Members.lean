import DesignTokens.Proofs.ConstantUnit.Grouping
import DesignTokens.Target.ConstantUnit.Source

/-!
# The members and the table of a unit

A unit declares members, the constants in its classes, and its table refers to them by class and
name. When constants are accepted, no two classes have the same name and no two members the same
class and name (`nodup_members`), so a row refers to one member (`row_resolves`).
-/

namespace DesignTokens

/-- A member that a unit declares: its class, its name there, and the literal that it stands for. -/
structure Member where
  className : String
  name : String
  literal : String
  deriving DecidableEq

namespace Member

/-- The class and the name of a member, by which the table refers to it. -/
def address (m : Member) : String × String :=
  (m.className, m.name)

/-- The line that declares a member. -/
def line (m : Member) : String :=
  "            public static readonly string " ++ m.name ++ " = " ++ m.literal ++ ";"

end Member

/-- The member that a constant becomes in a class. -/
def Constant.member (className : String) (k : Constant) : Member :=
  ⟨className, k.name, quoteLiteral k.value.display⟩

/-- A constant is written as a summary and the line of its member. -/
theorem Constant.lines_eq (className : String) (k : Constant) :
    k.lines = ["            /// <summary>" ++ k.path ++ "</summary>",
      (k.member className).line] := rfl

namespace ConstantUnit

/-- The class and the name that a row refers to. -/
def Row.address (r : Row) : String × String :=
  (r.className, r.name)

/-- The members of a unit, class by class. -/
def members (u : ConstantUnit) : List Member :=
  u.classes.flatMap fun c => c.constants.map (Constant.member c.name)

end ConstantUnit

namespace ConstantClass

variable {owner : String} {ks : List Constant} {classes : List ConstantClass}

/-- The members of a class are among what is written for its constants. -/
theorem sublist_memberLines (className : String) (ks : List Constant) :
    (ks.map fun k => (k.member className).line).Sublist (memberLines ks) := by
  have hone (k : Constant) : [(k.member className).line].Sublist k.lines := by
    rw [k.lines_eq className]
    exact List.sublist_cons_self _ _
  fun_induction memberLines ks with
  | case1 => exact List.Sublist.slnil
  | case2 k => exact hone k
  | case3 k rest _ ih => exact (hone k).append (ih.cons _)

/-- The classes of accepted constants hold these, each as often as it occurs. -/
theorem flatMap_constants_perm (h : group owner ks = .ok classes) :
    (classes.flatMap constants).Perm ks := by
  obtain ⟨-, -, rfl⟩ := group_eq_ok_iff.1 h
  have hperm := flatMap_classify_perm ks
  split
  · rename_i hempty
    rw [List.isEmpty_iff.1 hempty] at hperm
    exact hperm
  · exact hperm

/-- The classes of accepted constants have distinct names. -/
theorem nodup_names (h : group owner ks = .ok classes) :
    (classes.map ConstantClass.name).Nodup := by
  obtain ⟨-, hnames, rfl⟩ := group_eq_ok_iff.1 h
  split
  · exact List.nodup_singleton _
  · exact hnames

/-- In a class of accepted constants the names are distinct. -/
theorem nodup_constant_names (h : group owner ks = .ok classes) {c : ConstantClass}
    (hc : c ∈ classes) : (c.constants.map Constant.name).Nodup := by
  obtain ⟨hkeys, -, rfl⟩ := group_eq_ok_iff.1 h
  split at hc
  · rw [List.mem_singleton.1 hc]
    exact List.nodup_nil
  · obtain ⟨category, -, rfl⟩ := List.mem_map.1 hc
    have hsub : ((ofCategory ks category).constants.map Constant.key).Nodup :=
      (List.filter_sublist.map Constant.key).nodup hkeys
    have hkey : (ofCategory ks category).constants.map Constant.key =
        ((ofCategory ks category).constants.map Constant.name).map
          fun name => (category, name) := by
      rw [List.map_map]
      refine List.map_congr_left fun k hk => ?_
      have hcategory : k.category = category := of_decide_eq_true (List.mem_filter.1 hk).2
      rw [Constant.key, hcategory]
      rfl
    rw [hkey] at hsub
    exact hsub.of_map _

end ConstantClass

namespace ConstantUnit

variable {u : ConstantUnit} {owner : String}

/-- No two members of accepted constants have the same class and name. -/
theorem nodup_members (h : ConstantClass.group owner u.constants = .ok u.classes) :
    (u.members.map Member.address).Nodup := by
  -- Within a class the names of the constants differ, and between two classes those of the classes.
  rw [members, List.map_flatMap, List.nodup_flatMap]
  constructor
  · intro c hc
    have hnames := (ConstantClass.nodup_constant_names h hc).map
      (f := fun name => (c.name, name)) fun _ _ heq => (Prod.mk.inj heq).2
    rw [List.map_map] at hnames ⊢
    exact hnames
  · refine (List.pairwise_map.1 (ConstantClass.nodup_names h)).imp fun hne address hc hd => ?_
    simp only [List.map_map, List.mem_map] at hc hd
    obtain ⟨k, -, rfl⟩ := hc
    obtain ⟨l, -, heq⟩ := hd
    exact hne (Prod.mk.inj heq).1.symm

/-- The rows list the names of accepted constants, each as often as it occurs. -/
theorem rows_paths_perm (h : ConstantClass.group owner u.constants = .ok u.classes) :
    (u.rows.map Row.path).Perm u.names := by
  have hpaths : u.rows.map Row.path =
      (u.classes.flatMap ConstantClass.constants).map Constant.path := by
    rw [rows, List.map_flatMap, List.map_flatMap]
    refine List.flatMap_congr fun c _ => ?_
    rw [List.map_map]
    rfl
  rw [hpaths]
  exact (ConstantClass.flatMap_constants_perm h).map Constant.path

/-- When accepted constants have distinct paths, exactly one row has the path of a constant, and
exactly one member the class and name that it refers to. That member has the value of the
constant. -/
theorem row_resolves (h : ConstantClass.group owner u.constants = .ok u.classes)
    (hpaths : u.names.Nodup) {k : Constant} (hk : k ∈ u.constants) :
    ∃ row, u.rows.filter (fun r => r.path = k.path) = [row] ∧
      ∃ m, u.members.filter (fun m => m.address = row.address) = [m] ∧
        m.literal = quoteLiteral k.value.display := by
  have hclass := (ConstantClass.flatMap_constants_perm h).mem_iff.2 hk
  obtain ⟨c, hc, hkc⟩ := List.mem_flatMap.1 hclass
  have hrow : ⟨k.path, c.name, k.name⟩ ∈ u.rows :=
    List.mem_flatMap.2 ⟨c, hc, List.mem_map.2 ⟨k, hkc, rfl⟩⟩
  have hmember : k.member c.name ∈ u.members :=
    List.mem_flatMap.2 ⟨c, hc, List.mem_map_of_mem hkc⟩
  have haddress : (k.member c.name).address = (⟨k.path, c.name, k.name⟩ : Row).address := rfl
  have honce := filter_eq_singleton (nodup_members h) hmember
  rw [haddress] at honce
  refine ⟨⟨k.path, c.name, k.name⟩, ?_, k.member c.name, honce, ?_⟩
  · exact filter_eq_singleton ((rows_paths_perm h).nodup_iff.2 hpaths) hrow
  · rw [Constant.member]

end ConstantUnit

end DesignTokens
