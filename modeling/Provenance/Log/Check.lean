import Provenance.Comparison.Comparator
import Provenance.Log.Line
import Provenance.Schema.Validation

/-! What is logged while documents are validated and compared. -/

namespace Provenance.Log

open Schema (Table)

/-- A line for each node up to the first that is not valid. -/
def ofNodeChecks (table : Table) (ids : List String) :
    List (String × List (String × Json)) → List Line
  | [] => []
  | (id, members) :: rest =>
    match Schema.checkNode table ids id members with
    | .error _ => []
    | .ok () => debug s!"Node '{id}' is valid" :: ofNodeChecks table ids rest

def ofValidation (table : Table) (document : Json) : List Line :=
  match Schema.nodesOf document with
  | .error _ => []
  | .ok nodes =>
    let count := nodes.length
    ofNodeChecks table (nodes.map Prod.fst) nodes ++
      match Schema.validate table document with
      | .error _ => []
      | .ok () => [info s!"Validated {count} nodes"]

/-- A line for each list of linked items up to the first failure. -/
def ofFindings : List Finding → List Line
  | [] => []
  | .failed _ :: _ => []
  | .linked count path :: rest =>
    let place := Failure.joinPath path
    debug s!"Comparing {count} linked items at {place}" :: ofFindings rest

def ofComparison (comparator : Comparator) (actual : Json) : List Line :=
  let begun := (Comparator.contextOf actual).agrees comparator.context
  match Comparator.index actual with
  | .error _ => []
  | .ok nodes =>
    let checked := comparator.comparedNodes.length
    let expected := comparator.nodes.size
    (if begun then ofFindings (comparator.findings nodes) else []) ++
      match comparator.compare actual with
      | .error _ => []
      | .ok () => [info s!"Compared {checked} of {expected} expected nodes"]

end Provenance.Log
