import ApiScaffold.Proofs.Project.Recovery
import ApiScaffold.Proofs.Project.Reprint
import ApiScaffold.Proofs.Registry.RoundTrip

namespace ApiScaffold

namespace EntryPoint

open Text

theorem names_nodup (content : String) : (names content).Nodup := Keyed.nodup_keys_ofPairs _

theorem names_isFolder {content n : String} (h : n ∈ names content) : Feature.IsFolder n := by
  obtain ⟨p, hp, rfl⟩ := List.mem_map.1 h
  obtain ⟨name, hname, rfl⟩ := List.mem_map.1 (Keyed.mem_of_mem_ofPairs hp)
  obtain ⟨ds, r, hr⟩ := mem_scan hname
  obtain ⟨binding, target, hi⟩ := controllerImport?_inv hr
  refine ⟨?_, ?_, ?_⟩
  · simpa using hi.name_ne
  · rw [String.toList_ofList]
    exact hi.noSlash
  · rw [String.toList_ofList]
    exact hi.noQuote

theorem names_import {n entry : String} {w : List Char} (hn : Feature.IsFolder n) (hw : IsWord w) (hne : w ≠ [])
    (hentry : entry.toList = opening w ++ '\'' :: origin n ++ ['\n']) : names entry = [n] := by
  have hfind : Reads controllerImport? [opening w ++ '\'' :: origin n] [n.toList] :=
    .find (m := []) (by simp) (Nat.zero_le _) (controllerImport?_opening hn hw hne)
  have htext : entry.toList = unlines [opening w ++ '\'' :: origin n] := by rw [hentry, unlines_cons, unlines_nil]
  rw [names, htext, hfind.scan_eq rfl, List.map_cons, List.map_nil, String.ofList_toList]
  rfl

end EntryPoint

namespace Registry

open Text

variable {r : Registry} {entry fallback : String} {readme : Option String}

theorem load_eq (entry : String) (readme : Option String) (fallback : String) :
    load entry readme fallback = ⟨(Readme.title? (readme.getD "")).getD fallback,
      (EntryPoint.names entry).map fun n => (n, sampleOf (Readme.samples (readme.getD "")) n)⟩ := by
  have hkeys : (Keyed.keys ((EntryPoint.names entry).map fun n =>
      (n, sampleOf (Readme.samples (readme.getD "")) n))).Nodup := by
    rw [Keyed.keys, List.map_map]
    simpa [Function.comp_def] using EntryPoint.names_nodup entry
  rw [load, registerAll_empty, Keyed.ofPairs_of_nodup hkeys]

structure Loaded (r : Registry) : Prop where
  isFolder : ∀ n ∈ r.names, Feature.IsFolder n
  nodup : r.names.Nodup
  sampleLine : ∀ f ∈ r.features, '\n' ∉ f.2.toList
  sample_of_blank : ∀ f ∈ r.features, ¬IsWord f.1.toList → f.2 = emptySample
  isHeading : Readme.IsHeading r.project

theorem sampleOf_cases (samples : List (String × String)) (n : String) :
    sampleOf samples n = emptySample ∨ (n, sampleOf samples n) ∈ samples := by
  unfold sampleOf
  cases hget : Keyed.get? n samples with
  | none => exact .inl rfl
  | some v => exact .inr (Keyed.mem_of_get? hget)

theorem names_load (entry : String) (readme : Option String) (fallback : String) :
    (load entry readme fallback).names = EntryPoint.names entry := by
  rw [load_eq, names, Keyed.keys, List.map_map]
  simp [Function.comp_def]

theorem loaded_load (h : Readme.IsHeading fallback) : (load entry readme fallback).Loaded := by
  refine ⟨?_, ?_, ?_, ?_, ?_⟩
  · rw [names_load]
    exact fun n hn => EntryPoint.names_isFolder hn
  · rw [names_load]
    exact EntryPoint.names_nodup entry
  · rw [load_eq]
    intro f hf
    obtain ⟨n, -, rfl⟩ := List.mem_map.1 hf
    rcases sampleOf_cases (Readme.samples (readme.getD "")) n with hs | hs
    · dsimp only
      rw [hs]
      decide
    · exact (Readme.mem_samples hs).2
  · rw [load_eq]
    intro f hf hword
    obtain ⟨n, -, rfl⟩ := List.mem_map.1 hf
    exact (sampleOf_cases _ n).resolve_right fun hs => hword (Readme.mem_samples hs).1
  · rw [load_eq]
    cases ht : Readme.title? (readme.getD "") with
    | none => exact h
    | some t => exact Readme.title?_isHeading ht

theorem Loaded.sampleOf_eq (h : r.Loaded) {f : String × String} (hf : f ∈ r.features) :
    sampleOf (r.features.filter fun f => IsWord f.1.toList) f.1 = f.2 := by
  by_cases hword : IsWord f.1.toList
  · have hkeys : (Keyed.keys (r.features.filter fun f => IsWord f.1.toList)).Nodup :=
      (List.filter_sublist.map _).nodup h.nodup
    have hmem : f ∈ r.features.filter fun f => IsWord f.1.toList := List.mem_filter.2 ⟨hf, by simpa using hword⟩
    rw [sampleOf, Keyed.get?_of_mem hkeys hmem]
    rfl
  · refine ((sampleOf_cases _ f.1).resolve_right fun hs => hword ?_).trans (h.sample_of_blank f hf hword).symm
    simpa using (List.mem_filter.1 hs).2

open Classical in
/-- Of a registry that was loaded, what is written gives back the project and the features that are reprinted. -/
theorem Loaded.load_written (h : r.Loaded) (fallback : String) :
    load (EntryPoint.render r .standard).content (some (Readme.written r .standard).content) fallback =
      { r with features := r.features.filter fun f => EntryPoint.Reprints f.1 } := by
  have hprefix : IsWord Settings.standard.apiPrefix.toList := by decide
  have hnames : r.names.filter (fun n => EntryPoint.Reprints n) =
      (r.features.filter fun f => EntryPoint.Reprints f.1).map Prod.fst := by
    rw [names, Keyed.keys, List.filter_map]
    rfl
  rw [load_eq, Option.getD_some, Readme.title?_written h.isHeading, Option.getD_some,
    Readme.samples_written h.isFolder h.nodup hprefix h.isHeading.oneLine h.sampleLine,
    EntryPoint.names_render_folders h.isFolder h.nodup, hnames, List.map_map]
  have hsame : ∀ f ∈ r.features.filter fun f => EntryPoint.Reprints f.1,
      (f.1, sampleOf (r.features.filter fun f => IsWord f.1.toList) f.1) = f := fun f hf => by
    rw [h.sampleOf_eq (List.mem_filter.1 hf).1]
  exact congrArg (Registry.mk r.project) ((List.map_congr_left hsame).trans (List.map_id' _))

open Classical in
/-- Loading again what was written for a loaded registry. The project and the samples are the same, and the
features are those that the entry point reprints: all of them, or the others are lost. -/
theorem load_again (hne : fallback ≠ "") (hline : '\n' ∉ fallback.toList)
    (hend : ∀ c ∈ fallback.toList.getLast?, isBlank c = false) (entry : String) (readme : Option String) :
    let r := load entry readme fallback
    ∃ doc, Readme.render r .standard = .ok doc ∧
      let again := load (EntryPoint.render r .standard).content (some doc.content) fallback
      again = { r with features := r.features.filter fun f => EntryPoint.Reprints f.1 } ∧
        (again = r ↔ ∀ n ∈ r.names, EntryPoint.Reprints n) := by
  intro r
  have hr : r.Loaded := loaded_load ⟨hne, hline, Readme.beforeBlanks_eq (by simpa using hne) hend⟩
  refine ⟨Readme.written r .standard, Readme.render_written fun n hn => (hr.isFolder n hn).ne_empty, ?_⟩
  dsimp only
  rw [hr.load_written]
  refine ⟨rfl, fun h n hn => ?_, fun h => ?_⟩
  · obtain ⟨f, hf, rfl⟩ := List.mem_map.1 hn
    rw [← congrArg Registry.features h] at hf
    simpa using (List.mem_filter.1 hf).2
  · have hall : r.features.filter (fun f => EntryPoint.Reprints f.1) = r.features :=
      List.filter_eq_self.2 fun f hf => by simpa using h f.1 (List.mem_map_of_mem hf)
    rw [hall]

/-- A class that is called another name than its feature is no loss. -/
theorem load_again_user :
    let r := load "import \x7b AdminController \x7d from '../Features/user/delivery/controllers/user.controller';\n"
      none "Shop"
    r.names = ["user"] ∧ ∃ doc, Readme.render r .standard = .ok doc ∧
      load (EntryPoint.render r .standard).content (some doc.content) "Shop" = r := by
  intro r
  have hnames : r.names = ["user"] := (names_load _ none "Shop").trans <|
    EntryPoint.names_import (w := "Admin".toList) ⟨by decide, by decide, by decide⟩ (by decide) (by decide)
      (by decide +kernel)
  have hshop : "Shop" ≠ "" := by decide
  have hend : ∀ c ∈ "Shop".toList.getLast?, isBlank c = false := by
    rintro c ⟨⟩
    rfl
  obtain ⟨doc, hdoc, -, hsame⟩ := load_again hshop (by decide) hend _ none
  refine ⟨hnames, doc, hdoc, hsame.2 fun n hn => .inl ?_⟩
  obtain rfl := List.mem_singleton.1 (hnames ▸ hn)
  decide

/-- The class is made from the folder, and with the folder's blank in it the import is not recognised again. -/
theorem load_written_blank :
    let r := load "import \x7b MyController \x7d from '../Features/my feature/delivery/controllers/my feature.controller';\n"
      none "Shop"
    r = ⟨"Shop", [("my feature", emptySample)]⟩ ∧ ∃ doc, Readme.render r .standard = .ok doc ∧
      load (EntryPoint.render r .standard).content (some doc.content) "Shop" = ⟨"Shop", []⟩ := by
  intro r
  have hfolder : Feature.IsFolder "my feature" := ⟨by decide, by decide, by decide⟩
  have hr : r = ⟨"Shop", [("my feature", emptySample)]⟩ := by
    have htitle : Readme.title? "" = none := rfl
    have hsamples : Readme.samples "" = [] := by
      rw [Readme.samples, String.toList_empty, scan_nil rfl]
      rfl
    have hnames : EntryPoint.names
        "import \x7b MyController \x7d from '../Features/my feature/delivery/controllers/my feature.controller';\n" =
        ["my feature"] :=
      EntryPoint.names_import (w := "My".toList) hfolder (by decide) (by decide) (by decide +kernel)
    refine (load_eq _ none "Shop").trans ?_
    rw [hnames, Option.getD_none, htitle, hsamples]
    rfl
  have hloaded : r.Loaded := loaded_load ⟨by decide, by decide, by decide⟩
  have hlost : ¬EntryPoint.Reprints "my feature" := by
    rintro (hword | ⟨as, w, hbreak, -, -⟩)
    · exact absurd hword (by decide)
    · exact absurd (hbreak ▸ List.mem_append_right as List.mem_cons_self) (by decide)
  refine ⟨hr, Readme.written r .standard, Readme.render_written fun n hn => (hloaded.isFolder n hn).ne_empty, ?_⟩
  rw [hloaded.load_written, hr]
  simp [hlost]

end Registry

end ApiScaffold
