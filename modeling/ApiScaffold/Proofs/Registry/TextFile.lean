import ApiScaffold.Proofs.Generation.Runs
import ApiScaffold.Proofs.Registry.Reload

namespace ApiScaffold

namespace Content

theorem unifyBreaks_line (cs : List Char) :
    ∃ bs, ∀ ds, '\r' ∉ ds → unifyBreaks (cs ++ '\n' :: ds) = bs ++ '\n' :: ds := by
  fun_induction unifyBreaks cs with
  | case1 cs ih =>
      obtain ⟨bs, hbs⟩ := ih
      exact ⟨'\n' :: bs, fun ds hds => congrArg (List.cons '\n') (hbs ds hds)⟩
  | case2 cs hne ih =>
      cases cs with
      -- a return right before the break is one break together with it
      | nil => exact ⟨[], fun ds hds => congrArg (List.cons '\n') (Generation.unifyBreaks_eq hds)⟩
      | cons c cs =>
          obtain ⟨bs, hbs⟩ := ih
          refine ⟨'\n' :: bs, fun ds hds => ?_⟩
          rw [List.cons_append, List.cons_append, unifyBreaks]
          · exact congrArg (List.cons '\n') (hbs ds hds)
          · rintro es hes
            exact hne cs (congrArg (· :: cs) (List.cons.inj hes).1)
  | case3 c cs _ hne ih =>
      obtain ⟨bs, hbs⟩ := ih
      refine ⟨c :: bs, fun ds hds => ?_⟩
      rw [List.cons_append, unifyBreaks]
      · exact congrArg (List.cons c) (hbs ds hds)
      · exact fun es he _ => hne he
      · exact hne
  | case4 => exact ⟨[], fun ds hds => congrArg (List.cons '\n') (Generation.unifyBreaks_eq hds)⟩

end Content

namespace Registry

open Text

/-- A registry whose documents tell its features apart, whatever its project is called on the one line that it has. -/
structure Legible (r : Registry) : Prop where
  isName : ∀ n ∈ r.names, Feature.IsName n
  nodup : r.names.Nodup
  projectLine : '\n' ∉ r.project.toList
  sampleLine : ∀ f ∈ r.features, '\n' ∉ f.2.toList
  sampleReturn : ∀ f ∈ r.features, '\r' ∉ f.2.toList

variable {r : Registry} {s : Settings} {fs : List Feature} {project : String}

theorem Legible.register (h : r.Legible) {name sample : String} (hn : Feature.IsName name)
    (hs : IsPhrase sample.toList) : (r.register name sample).Legible := by
  have hmem : ∀ f ∈ (r.register name sample).features, f = (name, sample) ∨ f ∈ r.features :=
    fun f hf => Keyed.mem_put hf
  refine ⟨fun n hm => ?_, Keyed.nodup_keys_put h.nodup, h.projectLine, fun f hf => ?_, fun f hf => ?_⟩
  · obtain ⟨f, hf, rfl⟩ := List.mem_map.1 hm
    rcases hmem f hf with rfl | hf
    · exact hn
    · exact h.isName f.1 (List.mem_map_of_mem hf)
  · rcases hmem f hf with rfl | hf
    · exact hs.not_mem rfl (by decide)
    · exact h.sampleLine f hf
  · rcases hmem f hf with rfl | hf
    · exact hs.not_mem rfl (by decide)
    · exact h.sampleReturn f hf

theorem legible_ofFeatures (hproject : '\n' ∉ project.toList) (hn : ∀ f ∈ fs, Feature.IsName f.name) :
    (ofFeatures project fs).Legible := by
  induction fs using List.reverseRecOn with
  | nil =>
      have hnone (f : String × String) : f ∉ (ofFeatures project []).features := List.not_mem_nil
      exact ⟨fun n hm => absurd hm List.not_mem_nil, List.nodup_nil, hproject, fun f hf => absurd hf (hnone f),
        fun f hf => absurd hf (hnone f)⟩
  | append_singleton fs f ih =>
      rw [ofFeatures_concat]
      exact (ih fun g hg => hn g (by simp [hg])).register (hn f (by simp)) (Data.json_isPhrase _)

theorem ofFeatures_eq (project : String) (h : (fs.map Feature.name).Nodup) :
    ofFeatures project fs = ⟨project, fs.map fun f => (f.name, f.sample)⟩ := by
  have hkeys : (Keyed.keys (fs.map fun f => (f.name, f.sample))).Nodup := by
    rw [Keyed.keys, List.map_map]
    exact h
  rw [ofFeatures, registerAll_empty, Keyed.ofPairs_of_nodup hkeys]

end Registry

namespace Readme

open Text

variable {r : Registry} {s : Settings} {n sample : String}

def belowTitle (r : Registry) (s : Settings) : List Char :=
  unlines (((opening "").tail ++ testing r s ++ closing r.names).map String.toList)

theorem toList_document (r : Registry) (s : Settings) :
    (document r s).content.toList = ("# ".toList ++ r.project.toList) ++ '\n' :: belowTitle r s := by
  have hopening : opening r.project = ("# " ++ r.project) :: (opening "").tail := rfl
  have htoList : ("# " ++ r.project).toList = "# ".toList ++ r.project.toList := String.toList_append
  rw [document, toList_linesText, textLines, hopening, List.cons_append, List.cons_append, List.map_cons, unlines_cons,
    htoList]
  rfl

theorem noReturn_belowTitle (h : r.Legible) (hs : IsWord s.apiPrefix.toList) : '\r' ∉ belowTitle r s := by
  have hdocument : '\r' ∉ (document ⟨"", r.features⟩ s).content.toList :=
    noReturn_document (r := ⟨"", r.features⟩) h.isName hs List.not_mem_nil h.sampleReturn
  rw [toList_document, List.mem_append, not_or] at hdocument
  exact fun hm => hdocument.2 (List.mem_cons_of_mem _ hm)

theorem scan_document (h : r.Legible) (hs : IsWord s.apiPrefix.toList) :
    scan request? (document r s).content.toList = r.features :=
  scan_render h.isName hs h.projectLine h.sampleLine

theorem requests_belowTitle (h : r.Legible) (hs : IsWord s.apiPrefix.toList) :
    ((belowTitle r s).splitOn '\n').filterMap lineRequest? = r.features := by
  have htitle : lineRequest? ("# ".toList ++ r.project.toList) = none :=
    lineRequest?_of_lead fun he => absurd (Option.some.inj he) (by decide)
  have hline : '\n' ∉ "# ".toList ++ r.project.toList := List.not_mem_append (by decide) h.projectLine
  have hscan := scan_document h hs
  rwa [toList_document, scan_lines, List.splitOn_append_cons_self_of_not_mem hline, List.filterMap_cons_none htitle]
    at hscan

theorem break_mem_request {u p : String} :
    '\n' ∈ (request u p).toList ↔ '\n' ∈ u.toList ∨ '\n' ∈ p.toList := by
  have hopen : '\n' ∉ "  curl -X POST ".toList := by decide
  have hheader : '\n' ∉ " -H \"Content-Type: application/json\" -d '".toList := by decide
  have hquote : '\n' ∉ "'".toList := by decide
  rw [request_eq]
  simp only [String.toList_append, List.mem_append, hopen, hheader, hquote, false_or, or_false]

theorem lineRequest?_request (hs : IsWord s.apiPrefix.toList) (hn : Feature.IsName n) {p : String}
    (hp : '\n' ∉ p.toList) : lineRequest? (request (url s n) p).toList = some (n, p) := by
  have hstrip : stripStart (request (url s n) p).toList ≠ [] := by
    rw [toList_request]
    exact List.cons_ne_nil _ _
  have hread := request?_request (url_isWord hs hn) (lastPart?_url s hn) hp []
  rw [request?_line hstrip] at hread
  obtain ⟨q, hq, he⟩ := Option.map_eq_some_iff.1 hread
  rw [lineRequest?, hq]
  exact congrArg some (Prod.mk.inj he).1

def Shows (s : Settings) (readme n sample : String) : Prop :=
  ∀ p, (request (url s n) p).toList ∈ readme.toList.splitOn '\n' ↔ p = sample

theorem request_mem_document (h : r.Legible) (hs : IsWord s.apiPrefix.toList) (hn : Feature.IsName n) (p : String) :
    (request (url s n) p).toList ∈ (document r s).content.toList.splitOn '\n' ↔ (n, p) ∈ r.features := by
  constructor
  · intro hm
    have hp : '\n' ∉ p.toList := fun hp => (line_cases hm).1 (break_mem_request.2 (.inr hp))
    rw [← scan_document h hs, scan_lines]
    exact List.mem_filterMap.2 ⟨_, hm, lineRequest?_request hs hn hp⟩
  · intro hf
    have hline : '\n' ∉ (request (url s n) p).toList := fun hm =>
      (break_mem_request.1 hm).elim ((url_isWord hs hn).not_mem rfl) (h.sampleLine _ hf)
    have hmem : request (url s n) p ∈ textLines r s := by
      have htesting : request (url s n) p ∈ testing r s := by
        rw [testing, if_neg (by simpa using List.ne_nil_of_mem hf)]
        exact List.mem_flatMap.2 ⟨(n, p), hf, by simp [usageOf_eq]⟩
      exact List.mem_append_left _ (List.mem_append_right _ htesting)
    rw [document, toList_linesText, splitOn_unlines]
    refine List.mem_append_left _ (List.mem_flatMap.2 ⟨_, List.mem_map_of_mem hmem, ?_⟩)
    rw [List.splitOn_eq_singleton hline]
    exact List.mem_singleton_self _

theorem shows_document (h : r.Legible) (hs : IsWord s.apiPrefix.toList) (hf : (n, sample) ∈ r.features) :
    Shows s (document r s).content n sample := by
  intro p
  rw [request_mem_document h hs (h.isName n (List.mem_map_of_mem hf))]
  refine ⟨fun hp => ?_, fun hp => hp ▸ hf⟩
  have hsample := Keyed.get?_of_mem h.nodup hf
  rw [Keyed.get?_of_mem h.nodup hp] at hsample
  exact Option.some.inj hsample

theorem document_eq_written (hr : ∀ n ∈ r.names, Feature.IsName n) : document r s = written r s :=
  Except.ok.inj ((render_eq hr).symm.trans (render_written fun n hn => (hr n hn).ne_empty))

theorem samples_document_prefix (h : r.Legible) (hs : ¬IsWord s.apiPrefix.toList) (hline : '\n' ∉ s.apiPrefix.toList)
    (hquote : '"' ∉ s.apiPrefix.toList) (hn : ∀ n ∈ r.names, '"' ∉ n.toList) : samples (document r s).content = [] := by
  have hnone : ∀ f ∈ r.features, textRequests (request (url s f.1) f.2) = [] := by
    intro f hf
    have hname : f.1 ∈ r.names := List.mem_map_of_mem hf
    have hurl : '\n' ∉ (url s f.1).toList := by
      have hport : '\n' ∉ ("http://localhost:" ++ Number.intText s.port).toList :=
        (IsWord.concat (by decide) (intText_isWord _)).not_mem rfl
      have hroute : '\n' ∉ (s.apiPrefix ++ "/").toList := not_mem_concat hline (by decide)
      exact not_mem_concat hport (not_mem_concat hroute ((h.isName f.1 hname).isWord.not_mem rfl))
    have hone : '\n' ∉ (request (url s f.1) f.2).toList := fun hm =>
      (break_mem_request.1 hm).elim hurl (h.sampleLine f hf)
    rw [textRequests, List.splitOn_eq_singleton hone,
      List.filterMap_cons_none (lineRequest?_of_prefix_blank hs hquote (hn f.1 hname) f.2), List.filterMap_nil]
  rw [samples, document_eq_written h.isName, scan_written (fun n hn => (h.isName n hn).noSlash) h.projectLine,
    List.flatMap_eq_nil_iff.2 hnone]
  rfl

theorem samples_document_my_api :
    let s : Settings := { Settings.standard with apiPrefix := "/my api" }
    let r : Registry := ⟨"Shop", [("user", "\x7b\"name\": \"sample_name\"\x7d")]⟩
    samples (document r s).content = [] ∧
      Registry.sampleOf (samples (document r s).content) "user" = Registry.emptySample := by
  intro s r
  have hr : r.Legible := ⟨by decide, by decide, by decide, by decide, by decide⟩
  have hnone : samples (document r s).content = [] :=
    samples_document_prefix hr (by decide) (by decide) (by decide) (by decide)
  rw [hnone]
  exact ⟨rfl, rfl⟩

end Readme

namespace Registry

open Text

variable {r : Registry} {s : Settings} {text lines fallback : String}

/-- What is loaded from the files of a registry's documents. Only the project's name may have changed. -/
theorem Legible.load_read (h : r.Legible) (hs : IsWord s.apiPrefix.toList) (hfallback : '\n' ∉ fallback.toList)
    (htext : (Content.text (EntryPoint.render r s).content).read = .ok text)
    (hlines : (Content.text (Readme.document r s).content).read = .ok lines) :
    ∃ project : String, '\n' ∉ project.toList ∧ load text (some lines) fallback = ⟨project, r.features⟩ := by
  have hentry := Generation.read_text (EntryPoint.noReturn_render h.isName hs)
  obtain rfl := Except.ok.inj (hentry.symm.trans htext)
  obtain ⟨bs, hbs⟩ := Content.unifyBreaks_line ("# ".toList ++ r.project.toList)
  have htoList : lines.toList = bs ++ '\n' :: Readme.belowTitle r s := by
    rw [Content.read, Content.readBy, Readme.toList_document, hbs _ (Readme.noReturn_belowTitle h hs)] at hlines
    rw [← Except.ok.inj hlines, String.toList_ofList]
  have hsample : ∀ f ∈ r.features, (f.1, sampleOf (Readme.samples lines) f.1) = f := by
    intro f hf
    have hget : Keyed.get? f.1 (Readme.samples lines) = some f.2 := by
      rw [Readme.samples, Readme.scan_lines, htoList, List.splitOn_append_cons_self, List.filterMap_append,
        Readme.requests_belowTitle h hs, Keyed.ofPairs, List.foldl_append]
      exact Keyed.get?_foldl_put h.nodup hf
    rw [sampleOf, hget]
    rfl
  refine ⟨(Readme.title? lines).getD fallback, ?_, ?_⟩
  · cases ht : Readme.title? lines with
    | none => exact hfallback
    | some t => exact (Readme.title?_isHeading ht).oneLine
  · rw [load_eq, Option.getD_some, EntryPoint.names_render h.isName h.nodup hs, names, Keyed.keys, List.map_map]
    exact congrArg _ ((List.map_congr_left hsample).trans (List.map_id _))

end Registry

end ApiScaffold
