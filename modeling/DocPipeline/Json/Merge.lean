import DocPipeline.Json.Basic

namespace DocPipeline.Json

-- Two objects merge key by key, and anything else is replaced.
mutual

def merge : Json → Json → Json
  | object base, object overlay => object (mergeEntries base overlay)
  | _, overlay => overlay

-- Each entry of the overlay is merged over the base's value at its key, or added.
def mergeEntries : List (String × Json) → List (String × Json) → List (String × Json)
  | base, [] => base
  | base, (key, value) :: rest =>
    let merged := match lookup key base with
      | some existing => merge existing value
      | none => value
    mergeEntries (insert key merged base) rest

end

-- Later values win over earlier ones.
def mergeAll : List Json → Option Json
  | [] => none
  | first :: rest => some (rest.foldl merge first)

end DocPipeline.Json
