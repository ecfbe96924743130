import EntityGraph.Model.Basic
import EntityGraph.Text

namespace EntityGraph

def barePath (path : String) : String :=
  Text.strip (· == '/') path

/-- Models by path. Paths that differ only in slashes around them are one path, and no two models
have the same. -/
structure Registry where
  models : List Model
  distinct : (models.map fun m => barePath m.path).Nodup

namespace Registry

def empty : Registry :=
  ⟨[], by simp⟩

def get? (g : Registry) (path : String) : Option Model :=
  g.models.find? fun m => barePath m.path == barePath path

def register (g : Registry) (m : Model) : Except ConfigError Registry :=
  if h : barePath m.path ∈ g.models.map fun m => barePath m.path then
    .error (.duplicatePath (barePath m.path))
  else
    .ok ⟨g.models ++ [m], by
      rw [List.map_append, List.nodup_append]
      refine ⟨g.distinct, by simp, ?_⟩
      intro a ha b hb hab
      simp only [List.map_cons, List.map_nil, List.mem_singleton] at hb
      exact h (hb ▸ hab ▸ ha)⟩

def registerAll (g : Registry) (models : List Model) : Except ConfigError Registry :=
  models.foldlM register g

def resolve (g : Registry) (path : String) : Except Error Model :=
  match g.get? path with
  | some m => .ok m
  | none => .error (.modelNotFound path)

end Registry

end EntityGraph
