import AppAdmission.Admission.Handler

/-!
# Catalogs

An App must take its chart from a catalog that exists, in whatever namespace.
-/

namespace AppAdmission

/-- The verdict on an App when some catalogs of its catalog's name were found. -/
def catalogVerdict (catalog : String) (found : List StoredObject) : Verdict :=
  if found.isEmpty then .deny ("validation error: catalog '" ++ catalog ++ "' not found") else .abstain

/-- The validator that asks for the catalog of an App. -/
def catalogValidator : Validator App where
  name := "catalog"
  validate request := do
    let catalog := request.object.spec.catalog
    return catalogVerdict catalog (← Decision.storeCall "list catalogs" (.list .catalog (.named catalog)))

end AppAdmission
