import ApiScaffold.Document
import ApiScaffold.Proofs.Feature.Places
import ApiScaffold.Proofs.TypeScript.Reading
import Mathlib.Data.List.Induction

namespace ApiScaffold

namespace TypeScript

def Link.isRelative (l : Link) : Bool :=
  "./".toList.isPrefixOf l.source.toList || "../".toList.isPrefixOf l.source.toList

def climb : List String → List String → Option (List String)
  | ps, [] => some ps
  | ps, q :: qs => if q = ".." then if ps = [] then none else climb ps.dropLast qs else climb (ps ++ [q]) qs

/-- The path of what is linked by the document at `importer`. -/
def Link.target? (l : Link) (importer : String) : Option String :=
  (climb (Path.ofText importer).parent.parts (Path.ofText l.source).parts).map fun ps => "/".intercalate ps ++ ".ts"

def apart : List String → List String → List String × List String
  | p :: ps, q :: qs => if p = q then apart ps qs else (p :: ps, q :: qs)
  | ps, qs => (ps, qs)

def leading (ps qs : List String) : String :=
  match apart ps qs with
  | ([], down) => "./" ++ "/".intercalate down
  | (up, down) => "/".intercalate (List.replicate up.length ".." ++ down)

variable {ps qs up down : List String} {t : String}

theorem apart_eq (ps qs : List String) : ∃ ws, ps = ws ++ (apart ps qs).1 ∧ qs = ws ++ (apart ps qs).2 := by
  induction ps generalizing qs with
  | nil => exact ⟨[], rfl, rfl⟩
  | cons p ps ih =>
      cases qs with
      | nil => exact ⟨[], rfl, rfl⟩
      | cons q qs =>
          rw [apart]
          split
          next h =>
            obtain ⟨ws, hps, hqs⟩ := ih qs
            exact ⟨p :: ws, congrArg (p :: ·) hps, by rw [← h]; exact congrArg (p :: ·) hqs⟩
          next => exact ⟨[], rfl, rfl⟩

theorem climb_up (ps up down : List String) :
    climb (ps ++ up) (List.replicate up.length ".." ++ down) = climb ps down := by
  -- Backwards, since the last folder is left first.
  induction up using List.reverseRecOn with
  | nil => rw [List.append_nil]; rfl
  | append_singleton up p ih =>
      rw [List.length_append, List.length_singleton, List.replicate_succ, List.cons_append, ← List.append_assoc, climb,
        if_pos rfl, if_neg (by simp), List.dropLast_concat, ih]

theorem climb_down (h : ".." ∉ qs) (ps : List String) : climb ps qs = some (ps ++ qs) := by
  induction qs generalizing ps with
  | nil => rw [climb, List.append_nil]
  | cons q qs ih =>
      obtain ⟨hq, hqs⟩ := not_or.1 (List.mem_cons.not.1 h)
      rw [climb, if_neg (Ne.symm hq), ih hqs, List.append_assoc]
      rfl

theorem parts_here (t : String) : (Path.ofText ("./" ++ t)).parts = (Path.ofText t).parts := by
  have hsplit : ("./" ++ t).toList.splitOn '/' = ['.'] :: t.toList.splitOn '/' := by
    rw [String.toList_append]
    exact List.splitOn_append_cons_self_of_not_mem (show '/' ∉ ['.'] by decide) t.toList
  rw [Path.ofText, hsplit, List.map_cons, List.filter_cons_of_neg (by decide)]
  rfl

theorem parts_leading (h : ∀ q ∈ qs, Path.IsPart q) (ps : List String) : (Path.ofText (leading ps qs)).parts =
    List.replicate (apart ps qs).1.length ".." ++ (apart ps qs).2 := by
  obtain ⟨ws, -, hqs⟩ := apart_eq ps qs
  have hdown : ∀ q ∈ (apart ps qs).2, Path.IsPart q := fun q hq => h q (by rw [hqs]; exact List.mem_append_right _ hq)
  have hup : ∀ u ∈ List.replicate (apart ps qs).1.length "..", Path.IsPart u := by
    intro u hu
    rw [List.eq_of_mem_replicate hu]
    decide
  unfold leading
  split
  next down he =>
    rw [he] at hdown ⊢
    rw [parts_here, Path.ofText_intercalate hdown]
    rfl
  next up down _ he =>
    rw [he] at hdown hup ⊢
    rw [Path.ofText_intercalate (List.forall_mem_append.2 ⟨hup, hdown⟩)]

theorem climb_leading (h : ∀ q ∈ qs, Path.IsEntry q) (ps : List String) :
    climb ps (Path.ofText (leading ps qs)).parts = some qs := by
  obtain ⟨ws, hps, hqs⟩ := apart_eq ps qs
  have hdown : ".." ∉ (apart ps qs).2 := fun hm => (h _ (by rw [hqs]; exact List.mem_append_right _ hm)).ne_up rfl
  calc climb ps (Path.ofText (leading ps qs)).parts
    _ = climb (ws ++ (apart ps qs).1) (List.replicate (apart ps qs).1.length ".." ++ (apart ps qs).2) := by
        rw [parts_leading (fun q hq => (h q hq).toIsPart), ← hps]
    _ = climb ws (apart ps qs).2 := climb_up _ _ _
    _ = some qs := by rw [climb_down hdown, ← hqs]

structure Placed where
  folder : List String
  stem : String
  module : Module

namespace Placed

def parts (p : Placed) : List String := p.folder ++ [p.stem]

def path (p : Placed) : String := "/".intercalate (p.folder ++ [p.stem ++ ".ts"])

def document (p : Placed) : Document := ⟨p.path, p.module.text⟩

def IsProper (p : Placed) : Prop := ∀ x ∈ p.parts, Path.IsEntry x

end Placed

/-- The import leads from one module to another, which exports what is imported in braces. -/
structure Import.Reaches (i : Import) (p q : Placed) : Prop where
  source : i.source = leading p.folder q.parts
  names : ∀ n ∈ i.names, n ∈ q.module.exported

instance (x : String) : Decidable (Path.IsEntry x) :=
  decidable_of_iff (Path.IsPart x ∧ x ≠ "..") ⟨fun h => ⟨h.1, h.2⟩, fun h => ⟨h.toIsPart, h.ne_up⟩⟩

theorem isEntry_extended {x : String} (h : Path.IsEntry x) : Path.IsEntry (x ++ ".ts") := by
  have hlength : (x ++ ".ts").length = x.length + 3 := String.length_append _ _
  have hne (s : String) (hs : s.length ≤ 2) : x ++ ".ts" ≠ s := fun e => by rw [e] at hlength; omega
  refine ⟨⟨hne "" (by decide), hne "." (by decide), ?_⟩, hne ".." (by decide)⟩
  rw [String.toList_append]
  exact List.not_mem_append h.noSlash (by decide)

variable {p q : Placed} {i : Import}

theorem Placed.IsProper.ofText_path (h : p.IsProper) : Path.ofText p.path = ⟨false, p.folder ++ [p.stem ++ ".ts"]⟩ := by
  obtain ⟨hfolder, hstem⟩ := List.forall_mem_append.1 h
  refine Path.ofText_intercalate (List.forall_mem_append.2 ⟨fun x hx => (hfolder x hx).toIsPart, ?_⟩)
  exact List.forall_mem_singleton.2 (isEntry_extended (hstem _ (List.mem_singleton_self _))).toIsPart

theorem Placed.path_inj (hp : p.IsProper) (hq : q.IsProper) (h : p.path = q.path) :
    p.folder = q.folder ∧ p.stem = q.stem := by
  have hparts := congrArg (fun t => (Path.ofText t).parts) h
  simp only [hp.ofText_path, hq.ofText_path] at hparts
  obtain ⟨hfolder, hstem⟩ := List.append_inj' hparts rfl
  exact ⟨hfolder, String.append_left_inj ".ts" |>.1 (List.cons.inj hstem).1⟩

theorem Placed.path_eq (p : Placed) : p.path = "/".intercalate p.parts ++ ".ts" := by
  rw [path, parts]
  by_cases hfolder : p.folder = []
  · rw [hfolder, List.nil_append, List.nil_append, String.intercalate_singleton, String.intercalate_singleton]
  · rw [String.intercalate_append_of_ne_nil hfolder (by simp), String.intercalate_append_of_ne_nil hfolder (by simp),
      String.intercalate_singleton, String.intercalate_singleton]
    simp only [String.append_assoc]

theorem Import.Reaches.target?_eq (h : i.Reaches p q) (hp : p.IsProper) (hq : q.IsProper) :
    i.link.target? p.path = some q.path := by
  have hparent : (Path.ofText p.path).parent.parts = p.folder := by
    rw [hp.ofText_path, Path.parent, List.dropLast_concat]
  have hsource : i.link.source = leading p.folder q.parts := h.source
  rw [Link.target?, hparent, hsource, climb_leading hq, Option.map_some, q.path_eq]

end TypeScript

end ApiScaffold
