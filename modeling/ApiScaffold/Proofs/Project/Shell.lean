import ApiScaffold.Proofs.Field.Apostrophe
import ApiScaffold.Proofs.Project.Emission
import ApiScaffold.Proofs.Project.Recovery

namespace ApiScaffold

namespace Shell

open Text

variable {cs r : List Char}

/-- What can follow a word: nothing, a blank, the end of the line, or an operator. -/
def endsWord (r : List Char) : Bool := r.head?.all fun c => " \t\n;&|<>()".toList.contains c

/-- The text that a word denotes when it is quoted from end to end. Up to the next single quote every character stands
for itself. -/
def quoted? : List Char → Option (List Char)
  | '\'' :: cs =>
    match cut '\'' cs with
    | (word, some r) => if endsWord r then some word else none
    | (_, none) => none
  | _ => none

theorem quoted?_eq_some_iff (hr : endsWord r = true) : quoted? ('\'' :: (cs ++ '\'' :: r)) = some cs ↔ '\'' ∉ cs := by
  constructor
  · intro h hmem
    obtain ⟨as, bs, rfl, has⟩ := List.eq_append_cons_of_mem hmem
    rw [List.append_assoc, List.cons_append, quoted?, cut_append has] at h
    dsimp only at h
    split_ifs at h
    have hlength := congrArg List.length (Option.some.inj h)
    rw [List.length_append, List.length_cons] at hlength
    omega
  · intro h
    rw [quoted?, cut_append h]
    exact if_pos hr

end Shell

namespace Mapping

variable {fs : List Field} {ms : List Mapping}

/-- The apostrophes of a sample request are those of the fields' names and of the first literals. -/
theorem apostrophe_mem_iff (h : ofFields fs = .ok ms) : '\'' ∈ (sampleJson ms).toList ↔
    ∃ x ∈ fs, '\'' ∈ x.name.toList ∨
      ∃ l ls, Rule.Spells (Text.strip x.rule.toList) (.oneOf (l :: ls)) ∧ '\'' ∈ l.toList := by
  have hall := Project.mapM_eq_ok_iff.1 h
  clear h
  rw [apostrophe_mem_sampleJson]
  induction hall with
  | nil => simp
  | @cons x m fs ms hm _ ih =>
      have hread := (ofField_ok hm).1
      have hmember : ('\'' ∈ m.name.toList ∨ '\'' ∈ m.sample.json.toList) ↔ '\'' ∈ x.name.toList ∨
          ∃ l ls, Rule.Spells (Text.strip x.rule.toList) (.oneOf (l :: ls)) ∧ '\'' ∈ l.toList := by
        rw [apostrophe_mem_member hm]
        refine or_congr_right (exists_congr fun l => exists_congr fun ls => and_congr_left fun _ => ?_)
        exact Rule.kind_eq_iff hread nofun
      simp only [List.mem_cons, exists_eq_or_imp, hmember, ih]

end Mapping

namespace Readme

open Text

variable {r : Registry} {s : Settings} {doc : Document} {before after : List (String × String)} {name sample : String}

theorem eq_written (h : render r s = .ok doc) : doc = written r s := by
  obtain ⟨phrases, hphrases, -⟩ := Project.exists_of_bind h
  have hnames : ∀ n ∈ r.names, n ≠ "" := by
    rintro n hn rfl
    obtain ⟨phrase, hphrase⟩ := Project.forall_of_mapM hphrases "" hn
    cases hphrase
  rw [render_written hnames] at h
  exact (Except.ok.inj h).symm

def usages (s : Settings) (fs : List (String × String)) : List String :=
  fs.flatMap fun f =>
    usage ("http://localhost:" ++ Number.intText s.port) (WiringSheet.wired s f) (Text.withArticle f.1)

/-- The README up to the payload of a feature's request, where `before` are the features that come before it. -/
def untilPayload (project : String) (s : Settings) (before : List (String × String)) (name : String) : String :=
  linesText (opening project ++ usages s before ++
      ["- Create " ++ Text.withArticle name ++ ":", "  \x60\x60\x60bash"]) ++
    "  curl -X POST " ++ url s name ++ " -H \"Content-Type: application/json\" -d "

theorem usages_append_cons : usages s (before ++ (name, sample) :: after) =
    usages s before ++ (["- Create " ++ Text.withArticle name ++ ":", "  \x60\x60\x60bash"] ++
      request (url s name) sample :: "  \x60\x60\x60" :: usages s after) := by
  rw [usages, List.flatMap_append, List.flatMap_cons]
  rfl

/-- Between the quotes of its request stands the sample as it is, and the line ends there. -/
theorem written_eq (hr : r.features = before ++ (name, sample) :: after) : ∃ rest,
    (written r s).content = untilPayload r.project s before name ++ ("'" ++ sample ++ "'\n" ++ rest) := by
  have hcontent : (written r s).content = linesText (lines (.ofRegistry r s) (r.names.map Text.withArticle)) := by
    simp only [written]
  have hlines : lines (.ofRegistry r s) (r.names.map Text.withArticle) =
      opening r.project ++ usages s r.features ++ closing r.names := by
    have hsome : ¬r.features.isEmpty = true := by simp [hr]
    rw [lines_map, if_neg hsome]
    rfl
  have hcut : opening r.project ++ usages s r.features ++ closing r.names =
      (opening r.project ++ usages s before ++ ["- Create " ++ Text.withArticle name ++ ":", "  \x60\x60\x60bash"]) ++
        request (url s name) sample :: ("  \x60\x60\x60" :: usages s after ++ closing r.names) := by
    rw [hr, usages_append_cons]
    simp only [List.append_assoc, List.cons_append, List.nil_append]
  refine ⟨linesText ("  \x60\x60\x60" :: usages s after ++ closing r.names), ?_⟩
  rw [hcontent, hlines, hcut, linesText_append, linesText_cons, request_eq, untilPayload]
  simp only [String.append_assoc]
  rfl

theorem toList_quoted (sample rest : String) : ("'" ++ sample ++ "'\n" ++ rest).toList =
    '\'' :: (sample.toList ++ '\'' :: '\n' :: rest.toList) := by
  simp only [String.toList_append, List.append_assoc]
  rfl

/-- The shell reads the payload of a request back just when no field of the feature has an apostrophe in its name or in
the first literal of its enumeration. -/
theorem payload_quoted_iff {f : Feature} {ms : List Mapping} (hms : Mapping.ofFields f.fields = .ok ms)
    (hr : r.features = before ++ (f.name, Mapping.sampleJson ms) :: after) (hdoc : render r s = .ok doc) :
    ∃ rest, doc.content = untilPayload r.project s before f.name ++ rest ∧
      (Shell.quoted? rest.toList = some (Mapping.sampleJson ms).toList ↔
        ∀ x ∈ f.fields, '\'' ∉ x.name.toList ∧
          ∀ l ls, Rule.Spells (Text.strip x.rule.toList) (.oneOf (l :: ls)) → '\'' ∉ l.toList) := by
  obtain ⟨rest, hcontent⟩ := written_eq (s := s) hr
  refine ⟨"'" ++ Mapping.sampleJson ms ++ "'\n" ++ rest, by rw [eq_written hdoc, hcontent], ?_⟩
  rw [toList_quoted, Shell.quoted?_eq_some_iff rfl, Mapping.apostrophe_mem_iff hms]
  simp only [not_exists, not_and, not_or]

theorem payload_quoted_iff_user :
    let f : Feature := ⟨"user", [⟨"name", "string", "minlength=3"⟩]⟩
    let before := [("order", "\x7b\x7d")]
    ∃ ms doc, Mapping.ofFields f.fields = .ok ms ∧
      render ⟨"Shop", before ++ [(f.name, Mapping.sampleJson ms)]⟩ .standard = .ok doc ∧
      ∃ rest, doc.content = untilPayload "Shop" .standard before f.name ++ rest ∧
        (Shell.quoted? rest.toList = some (Mapping.sampleJson ms).toList ↔
          ∀ x ∈ f.fields, '\'' ∉ x.name.toList ∧
            ∀ l ls, Rule.Spells (Text.strip x.rule.toList) (.oneOf (l :: ls)) → '\'' ∉ l.toList) := by
  intro f before
  obtain ⟨ms, hms⟩ : ∃ ms, Mapping.ofFields f.fields = .ok ms := ⟨_, rfl⟩
  let r : Registry := ⟨"Shop", before ++ [(f.name, Mapping.sampleJson ms)]⟩
  have hnames : ∀ n ∈ r.names, n ≠ "" := by
    rw [show r.names = ["order", "user"] from rfl]
    decide
  exact ⟨ms, _, hms, render_written hnames, payload_quoted_iff (r := r) hms rfl (render_written hnames)⟩

/-- An apostrophe in the first literal ends the quotation inside the payload, and the word goes on after it. -/
theorem apostrophe_payload_unquoted :
    let f : Feature := ⟨"pet", [⟨"kind", "string", "enum=it's|no"⟩]⟩
    ∃ ms doc rest, Mapping.ofFields f.fields = .ok ms ∧ Mapping.sampleJson ms = "\x7b\"kind\": \"it's\"\x7d" ∧
      render ⟨"Shop", [(f.name, Mapping.sampleJson ms)]⟩ .standard = .ok doc ∧
      doc.content = untilPayload "Shop" .standard [] f.name ++ rest ∧
      Shell.quoted? rest.toList ≠ some (Mapping.sampleJson ms).toList := by
  intro f
  obtain ⟨ms, hms, hsample⟩ : ∃ ms, Mapping.ofFields f.fields = .ok ms ∧
      Mapping.sampleJson ms = "\x7b\"kind\": \"it's\"\x7d" := ⟨_, rfl, by decide +kernel⟩
  let r : Registry := ⟨"Shop", [(f.name, Mapping.sampleJson ms)]⟩
  have hnames : ∀ n ∈ r.names, n ≠ "" := by
    rw [show r.names = ["pet"] from rfl]
    decide
  have hfeatures : r.features = [] ++ [(f.name, Mapping.sampleJson ms)] := rfl
  obtain ⟨rest, hcontent⟩ := written_eq (s := .standard) hfeatures
  refine ⟨ms, _, _, hms, hsample, render_written hnames, hcontent, ?_⟩
  rw [toList_quoted, hsample, Ne, Shell.quoted?_eq_some_iff rfl]
  decide

end Readme

end ApiScaffold
