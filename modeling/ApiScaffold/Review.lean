import ApiScaffold.Failure

namespace ApiScaffold

structure Review where
  valid : Bool
  errors : List String
  warnings : List String
  deriving DecidableEq, Repr

namespace Review

/-- A review in which errors decide, whatever is said of its validity. -/
def of (valid : Bool) (errors warnings : List String) : Review :=
  ⟨valid && errors.isEmpty, errors, warnings⟩

def clean : Review := of true [] []

def addError (r : Review) (e : String) : Review := { r with valid := false, errors := r.errors ++ [e] }

def addWarning (r : Review) (w : String) : Review := { r with warnings := r.warnings ++ [w] }

def merge (r s : Review) : Review :=
  let t := s.errors.foldl addError r
  { t with warnings := t.warnings ++ s.warnings }

theorem foldl_addError (r : Review) (es : List String) :
    es.foldl addError r = ⟨r.valid && es.isEmpty, r.errors ++ es, r.warnings⟩ := by
  induction es generalizing r with
  | nil => simp
  | cons e es ih => simp [ih, addError]

theorem merge_eq (r s : Review) :
    r.merge s = ⟨r.valid && s.errors.isEmpty, r.errors ++ s.errors, r.warnings ++ s.warnings⟩ := by
  simp [merge, foldl_addError]

def report (r : Review) : Report :=
  { Report.usage ("Validation failed: " ++ "; ".intercalate r.errors) with
    context := [("errors", Text.literalList r.errors), ("warnings", Text.literalList r.warnings)] }

def require (r : Review) : Except Failure Unit :=
  if r.valid then .ok () else .error (.reported r.report)

end Review

end ApiScaffold
