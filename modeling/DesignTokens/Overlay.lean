import DesignTokens.Tree.Document

/-!
# Overlaying documents

A layer on top of a document wins key by key. Objects on both sides are merged recursively, and
anything else in the upper layer replaces what is below. Keys keep the place that the lower layer
gives them, and new keys come last.
-/

namespace DesignTokens

mutual

/-- A value laid over what is below it, if anything. -/
def Json.over (below : Option Json) : Json → Json
  | .obj fields =>
    match below with
    | some (.obj lower) => .obj (overlay lower fields)
    | _ => .obj fields
  | x => x

/-- The fields of an object laid over those of another. -/
def overlay (lower : Fields Json) : List (String × Json) → Fields Json
  | [] => lower
  | (key, x) :: rest => overlay (lower.insert key (x.over (lower.get? key))) rest

end

/-- The layers merged from left to right, later layers winning. -/
def overlayAll (layers : List (Fields Json)) : Fields Json :=
  layers.foldl overlay []

/-- A layer: a raw document or a parsed tree. -/
inductive Layer where
  | document (fields : Fields Json)
  | tree (g : Group)

/-- The fields of a layer as a raw document. -/
def Layer.fields : Layer → Fields Json
  | .document fields => fields
  | .tree g => Group.toFields g

/-- The document of the merged layers. -/
def mergeDocuments (layers : List Layer) : Fields Json :=
  overlayAll (layers.map Layer.fields)

/-- The tree of the merged layers. -/
def mergeTrees (layers : List Layer) : Group :=
  Group.ofFields (mergeDocuments layers)

end DesignTokens
