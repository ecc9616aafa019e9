import ApiScaffold.Proofs.Settings.Overrides
import ApiScaffold.Proofs.Yaml.Keys

namespace ApiScaffold.Settings

open Run Data

variable {os : List (String × Data)} {es : List (Data × Data)} {c : Content} {d : Data} {p text : String} {w : World}
  {α : Type}

/-- Puts values for text keys among entries, each in place of an entry for its key or at the end. -/
def assign (os : List (String × Data)) (es : List (Data × Data)) : List (Data × Data) :=
  os.foldl (fun t o => putEntry (.str o.1) o.2 t) es

theorem entry?_assign (h : IsKeyed (.mapping es)) (os : List (String × Data)) (key : String) :
    entry? key (.mapping (assign os es)) =
      os.foldl (fun found o => if o.1 = key then some o.2 else found) ( entry? key (.mapping es)) := by
  induction os generalizing es with
  | nil => rfl
  | cons o os ih =>
    have hput : IsKeyed (.mapping (putEntry (.str o.1) o.2 es)) := nodup_putEntry h _ _
    rw [List.foldl_cons, ← entry?_putEntry h]
    exact ih hput

/-- Under overrides, entries are read as if the overrides had been put among them. -/
theorem ofData_overlaid (h : IsKeyed (.mapping es)) (os : List (String × Data)) (file : Option String) :
    ofData (overlaid es os) file = ofData (.mapping (assign os es)) file := by
  have hread : ofData? (overlaid es os) = ofData? (.mapping (assign os es)) := readMapping_congr fun k => by
    rw [entry?_overlaid, entry?_assign h]
  rw [ofData, ofData, hread]

theorem run_ofExcept (r : Except Failure α) (w : World) : ((Run.ofExcept r).run w).run = (r, w) := by
  cases r <;> rfl

theorem load_eq (path : Option String) (overrides : List (String × Data)) :
    load path overrides = entries path >>= fun given => do return (← loadOver path overrides given).shown := by
  rw [load, loadSpelled_eq, bind_assoc]

theorem fst_run_loadOver (path : Option String) (overrides : List (String × Data)) (given : List (Data × Data))
    (w : World) : ((do return (← loadOver path overrides given).shown : Run Settings).run w).run.1 =
      ofData (overlaid given (effective overrides)) (path.filter (· ≠ "")) := by
  have hresult (r : Except Failure Settings) (v : World) :
      ((do return (spelled (overlaid given (effective overrides)) (← Run.ofExcept r)).shown : Run Settings).run
        v).run.1 = r := by
    cases r with
    | ok s => exact congrArg Except.ok (shown_spelled _ s)
    | error e => rfl
  unfold loadOver
  simp only [bind_assoc, pure_bind]
  exact hresult _ _

theorem entriesOf_of_not_mapping (h : ∀ es, d ≠ .mapping es) : Settings.entriesOf p d =
    if d.truthy then
      .error (.reported (.configuration ("Content in config file " ++ p ++ " is not a mapping") (some p)))
    else .ok [] := by
  cases d with
  | mapping es => exact absurd rfl (h es)
  | _ => rfl

theorem exists_run_fileEntries (hfile : w.tree.look w.here (.ofText p) = .ok (some (.file c)))
    (htext : c.readInParts = .ok text) (hd : Yaml.read text = .ok d) :
    ∃ w', ((fileEntries p).run w).run = (Settings.entriesOf p d, w') := by
  have hat : ((Run.at? (.ofText p)).run w).run = (.ok (some (.file c)), w) := by
    have hrun : ((Run.at? (.ofText p)).run w).run = (w.tree.look w.here (.ofText p), w) := run_ofExcept _ w
    rw [hrun, hfile]
  have hfound : ((Run.file? (.ofText p)).run w).run = (.ok (some c), w) := run_bind_of_ok hat
  have hread : readDocument w.complaint p text = .ok d := by rw [readDocument, hd]
  unfold fileEntries
  rw [run_bind_of_ok hfound]
  dsimp only
  have hget : ((get : Run World).run w).run = (.ok w, w) := rfl
  rw [htext, run_bind_of_ok (run_ofExcept _ w), run_bind_of_ok hget, hread, run_bind_of_ok (run_ofExcept _ w)]
  cases hes : Settings.entriesOf p d with
  | error e => exact ⟨w, run_bind_of_error (run_ofExcept _ w)⟩
  | ok es =>
    rw [run_bind_of_ok (run_ofExcept _ w)]
    cases es <;> exact ⟨_, rfl⟩

/-- The settings of a file that is there are those of its document. A mapping is read with each override that names a
setting and has a value in place of its entry; null, and any other value that is empty of its kind, is read as an empty
mapping; every other value is refused. -/
theorem load_document (hp : p ≠ "") (hfile : w.tree.look w.here (.ofText p) = .ok (some (.file c)))
    (htext : c.readInParts = .ok text) (hd : Yaml.read text = .ok d) (overrides : List (String × Data)) :
    ((load (some p) overrides).run w).run.1 =
      match d with
      | .mapping es => ofData (.mapping (assign (effective overrides) es)) (some p)
      | d =>
        if d.truthy then
          .error (.reported (.configuration ("Content in config file " ++ p ++ " is not a mapping") (some p)))
        else ofData (.mapping (assign (effective overrides) [])) (some p) := by
  have hpath : (some p).filter (· ≠ "") = some p := by simp [hp]
  have hentries : entries (some p) = fileEntries p := by rw [entries, hpath]
  obtain ⟨w₁, hgiven⟩ := exists_run_fileEntries hfile htext hd
  have hloaded {es : List (Data × Data)} (hes : Settings.entriesOf p d = .ok es) (hkeyed : IsKeyed (.mapping es)) :
      ((load (some p) overrides).run w).run.1 = ofData (.mapping (assign (effective overrides) es)) (some p) := by
    rw [hes] at hgiven
    rw [load_eq, hentries, run_bind_of_ok hgiven, fst_run_loadOver, hpath, ofData_overlaid hkeyed]
  cases d with
  | mapping es => exact hloaded rfl (Yaml.isKeyed_of_read hd)
  | _ =>
    dsimp only
    split
    next htruthy =>
      rw [entriesOf_of_not_mapping (fun _ h => by cases h), if_pos htruthy] at hgiven
      rw [load_eq, hentries, run_bind_of_error hgiven]
    next htruthy =>
      refine hloaded ?_ List.nodup_nil
      rw [entriesOf_of_not_mapping (fun _ h => by cases h), if_neg htruthy]

/-- A file with two settings, of which the second one is overridden, by a list of values for keys known and unknown. -/
theorem load_document_overridden :
    let w : World := .fresh
      [(["home"], .directory), (["home", "c.yaml"], .file (.text "port: 80\napi_prefix: v1\n"))] ["home"] .bare
    let overrides := [("port", .null), ("api_prefix", .str "v2"), ("colour", .bool true)]
    ∃ es, Yaml.read "port: 80\napi_prefix: v1\n" = .ok (.mapping es) ∧
      ((load (some "c.yaml") overrides).run w).run.1 =
        ofData (.mapping (assign (effective overrides) es)) (some "c.yaml") ∧
      ((load (some "c.yaml") overrides).run w).run.1 = .ok { standard with port := 80, apiPrefix := "/v2" } := by
  intro w overrides
  have hread : (Yaml.read "port: 80\napi_prefix: v1\n").toOption.any (fun d => ( d.entry? "port").isSome &&
      ((Settings.entriesOf "c.yaml" d).toOption.any fun es =>
        decide (ofData (.mapping (assign (effective overrides) es)) (some "c.yaml") =
          .ok { standard with port := 80, apiPrefix := "/v2" }))) = true := by decide +kernel
  cases hdocument : Yaml.read "port: 80\napi_prefix: v1\n" with
  | error e =>
      rw [hdocument] at hread
      cases hread
  | ok d =>
      rw [hdocument] at hread
      cases d with
      | mapping es =>
          have hload := load_document (p := "c.yaml") (w := w) (by decide) rfl rfl hdocument overrides
          exact ⟨es, rfl, hload, hload.trans (of_decide_eq_true (Bool.and_eq_true_iff.1 hread).2)⟩
      | _ => cases hread

/-- An empty list and false are no mappings, but they count as a file that says nothing. -/
theorem empty_list_let_pass :
    let beside (text : String) : World :=
      .fresh [(["home"], .directory), (["home", "c.yaml"], .file (.text text))] ["home"] .bare
    (Yaml.read "[]\n" = .ok (.list []) ∧
      ((load (some "c.yaml") []).run (beside "[]\n")).run.1 = .ok standard) ∧
    Yaml.read "false\n" = .ok (.bool false) ∧
      ((load (some "c.yaml") []).run (beside "false\n")).run.1 = .ok standard := by
  refine ⟨⟨rfl, by decide +kernel⟩, rfl, by decide +kernel⟩

end ApiScaffold.Settings
