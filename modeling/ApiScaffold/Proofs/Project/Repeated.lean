import ApiScaffold.Proofs.Feature.Imports
import ApiScaffold.Proofs.Keyed.Blocks
import ApiScaffold.Proofs.Project.Recovery

namespace ApiScaffold

/-- The texts that documents written in turn leave at their paths. -/
def Document.files (ds : List Document) : List (String × String) := Keyed.ofPairs (ds.map fun d => (d.path, d.content))

namespace Feature

def pair (f : Feature) : String × List Field := (f.name, f.fields)

/-- Each name once, at its first place, with the fields that were given for it last. -/
def lastOfEach (fs : List Feature) : List Feature :=
  (fs.map Feature.name).eraseDups.filterMap fun n => fs.reverse.find? fun f => f.name = n

variable {s : Settings} {fs : List Feature}

theorem pair_find? (n : String) (fs : List Feature) :
    (fs.find? fun f => f.name = n).map pair = (Keyed.get? n (fs.map pair)).map (n, ·) := by
  induction fs with
  | nil => rfl
  | cons f fs ih =>
      rw [List.find?_cons, List.map_cons, Keyed.get?]
      by_cases hf : f.name = n
      · simp [pair, hf]
      · simp [pair, hf, ih]

theorem keys_pair (fs : List Feature) : Keyed.keys (fs.map pair) = fs.map Feature.name := List.map_map

theorem pair_lastOfEach (fs : List Feature) : (lastOfEach fs).map pair = Keyed.ofPairs (fs.map pair) := by
  have hget (n : String) : (fs.reverse.find? fun f => f.name = n).map pair =
      (Keyed.get? n (Keyed.ofPairs (fs.map pair))).map (n, ·) := by
    rw [pair_find?, Keyed.get?_ofPairs, List.map_reverse]
  rw [← Keyed.filterMap_get? (Keyed.nodup_keys_ofPairs (fs.map pair)), Keyed.keys_ofPairs, keys_pair, lastOfEach,
    List.map_filterMap]
  simp only [hget]

theorem mem_of_mem_lastOfEach {f : Feature} (h : f ∈ lastOfEach fs) : f ∈ fs := by
  obtain ⟨n, -, hn⟩ := List.mem_filterMap.1 h
  exact List.mem_reverse.1 (List.mem_of_find?_eq_some hn)

end Feature

open Feature

theorem Path.intercalate_slash_inj {ps qs : List String} (hps : ∀ p ∈ ps, '/' ∉ p.toList) (hqs : ∀ q ∈ qs, '/' ∉ q.toList)
    (hp : ps ≠ []) (hq : qs ≠ []) (h : "/".intercalate ps = "/".intercalate qs) : ps = qs := by
  have hcut {rs : List String} (hrs : ∀ r ∈ rs, '/' ∉ r.toList) (hr : rs ≠ []) :
      ("/".intercalate rs).toList.splitOn '/' = rs.map String.toList := by
    rw [toList_intercalate_slash]
    exact List.splitOn_intercalate '/' (by simpa using hrs) (by simpa using hr)
  have hlists : ps.map String.toList = qs.map String.toList := by rw [← hcut hps hp, h, hcut hqs hq]
  exact List.map_injective_iff.2 (fun _ _ => String.toList_inj.1) hlists

namespace FeatureDocument

variable {d e : FeatureDocument} {n m : String}

theorem noSlash_place (hn : '/' ∉ n.toList) (d : FeatureDocument) : ∀ x ∈ d.place n, '/' ∉ x.toList := by
  intro x hx hslash
  rcases d.place_around n x hx with rfl | ⟨-, hall⟩
  · exact hn hslash
  · rcases hall '/' hslash with h | h
    · exact hn h
    · exact h.1 rfl

theorem path_inj (hn : '/' ∉ n.toList) (hm : '/' ∉ m.toList) (h : d.path n = e.path m) : d = e ∧ n = m := by
  have hne (d : FeatureDocument) (n : String) : d.place n ≠ [] := by simp [place_eq]
  rw [path_eq, path_eq] at h
  have hplace := Path.intercalate_slash_inj (noSlash_place hn d) (noSlash_place hm e) (hne d n) (hne e m) h
  rw [place_eq, place_eq] at hplace
  obtain ⟨hfolder, hfile⟩ := List.append_inj' hplace rfl
  exact placed_inj hfolder ((String.append_left_inj _).1 (List.singleton_inj.1 hfile))

theorem head?_path (d : FeatureDocument) (n : String) : (d.path n).toList.head? ∈ [some 'F', some '_'] := by
  rw [path_eq]
  cases d <;> simp [place, String.intercalate_cons_cons]

def paths (n : String) : List String := all.map fun d => d.path n

end FeatureDocument

namespace Feature

open FeatureDocument

variable {s : Settings} {fs : List Feature}

def contents (s : Settings) (p : String × List Field) : List (String × String) :=
  (output ⟨p.1, p.2⟩ s).map fun d => (d.path, d.content)

/-- Features with slashless names do not share a path. -/
theorem isBlock_contents (s : Settings) : Keyed.IsBlock (fun n => '/' ∉ n.toList) paths (contents s) where
  keys_eq p := by
    rw [contents, Keyed.keys, List.map_map]
    exact paths_output ⟨p.1, p.2⟩ s
  nodup n hn := by
    have hall : all.Nodup := by decide
    exact hall.map fun d e h => (path_inj hn hn h).1
  apart n m hn hm hne p hp hq := by
    obtain ⟨d, -, rfl⟩ := List.mem_map.1 hp
    obtain ⟨e, -, he⟩ := List.mem_map.1 hq
    exact hne (path_inj hn hm he.symm).2

end Feature

namespace Project

open FeatureDocument

variable {name : String} {fs : List Feature} {s : Settings} {ds : List Document} {r : Registry}

def shown (name : String) (r : Registry) (s : Settings) : List Document :=
  sharedDocuments name s ++ [EntryPoint.render r s, Readme.written r s]

theorem ofFeatures_lastOfEach (name : String) (fs : List Feature) :
    Registry.ofFeatures name (lastOfEach fs) = .ofFeatures name fs := by
  have hsample (gs : List Feature) : gs.map (fun f => (f.name, f.sample)) =
      (gs.map pair).map (Prod.map id fun fields => Feature.sample ⟨"", fields⟩) := by
    rw [List.map_map]
    rfl
  rw [Registry.ofFeatures, Registry.ofFeatures, Registry.registerAll_empty, Registry.registerAll_empty, hsample,
    hsample, Keyed.ofPairs_map, Keyed.ofPairs_map, pair_lastOfEach,
    Keyed.ofPairs_of_nodup (Keyed.nodup_keys_ofPairs (fs.map pair))]

theorem names_ofFeatures (name : String) (fs : List Feature) :
    (Registry.ofFeatures name fs).names = (fs.map Feature.name).eraseDups := by
  rw [Registry.ofFeatures, Registry.registerAll_empty, Registry.names, Keyed.keys_ofPairs, Keyed.keys, List.map_map]
  rfl

theorem documents_ok_iff : documents name fs s = .ok ds ↔ (∀ f ∈ fs, f.Maps ∧ f.name ≠ "") ∧
    ds = shown name (.ofFeatures name fs) s ++ fs.flatMap fun f => f.output s := by
  have hall (h : ∀ f ∈ fs, f.Maps ∧ f.name ≠ "") :
      documents name fs s = .ok (shown name (.ofFeatures name fs) s ++ fs.flatMap fun f => f.output s) := by
    have hown : fs.mapM (fun f : Feature => f.documents s) = .ok (fs.map fun f => f.output s) :=
      mapM_ok fun f hf => Feature.documents_eq_ok.2 ⟨(h f hf).1, (h f hf).2, rfl⟩
    have hnames : ∀ n ∈ (Registry.ofFeatures name fs).names, n ≠ "" := by
      intro n hn
      rw [names_ofFeatures, List.mem_eraseDups] at hn
      obtain ⟨f, hf, rfl⟩ := List.mem_map.1 hn
      exact (h f hf).2
    rw [documents, registryOf_eq name fun f hf => (h f hf).1]
    change (Readme.render _ s).bind _ = _
    rw [Readme.render_written hnames]
    change (fs.mapM fun f : Feature => f.documents s).bind _ = _
    rw [hown, List.flatMap]
    rfl
  constructor
  · intro h
    have hfs := forall_of_documents h
    exact ⟨hfs, Except.ok.inj (h.symm.trans (hall hfs))⟩
  · rintro ⟨h, rfl⟩
    exact hall h

theorem map_path_shown (name : String) (r : Registry) (s : Settings) :
    (shown name r s).map (·.path) = SharedDocument.all.map SharedDocument.path ++ [EntryPoint.path, Readme.path] := by
  rw [shown, sharedDocuments, List.map_append, List.map_map]
  rfl

theorem nodup_shown (name : String) (r : Registry) (s : Settings) : ((shown name r s).map (·.path)).Nodup := by
  rw [map_path_shown]
  decide

theorem disjoint_shown (name : String) (r : Registry) (s : Settings) (fs : List Feature) :
    ((shown name r s).map (·.path)).Disjoint (fs.flatMap fun f => paths f.name) := by
  have hhead : ∀ p ∈ SharedDocument.all.map SharedDocument.path ++ [EntryPoint.path, Readme.path],
      p.toList.head? ∉ [some 'F', some '_'] := by decide
  intro p hp hf
  rw [map_path_shown] at hp
  obtain ⟨f, -, hf⟩ := List.mem_flatMap.1 hf
  obtain ⟨d, -, rfl⟩ := List.mem_map.1 hf
  exact hhead _ hp (head?_path d f.name)

theorem contents_pair (fs : List Feature) (s : Settings) :
    ((fs.flatMap fun f => f.output s).map fun d => (d.path, d.content)) = (fs.map pair).flatMap (contents s) := by
  rw [List.map_flatMap, List.flatMap_map]
  rfl

theorem keys_contents (fs : List Feature) (s : Settings) :
    Keyed.keys ((fs.map pair).flatMap (contents s)) = fs.flatMap fun f => paths f.name := by
  rw [(isBlock_contents s).keys_flatMap, keys_pair, List.flatMap_map]

/-- Each feature leaves the documents for its last fields, in the place of its first ones. -/
theorem files_eq (hslash : ∀ f ∈ fs, '/' ∉ f.name.toList) :
    Document.files (shown name r s ++ fs.flatMap fun f => f.output s) =
      Document.files (shown name r s) ++ (Keyed.ofPairs (fs.map pair)).flatMap (contents s) := by
  have hkeys : ∀ n ∈ Keyed.keys (fs.map pair), '/' ∉ n.toList := by
    rw [keys_pair]
    simpa using hslash
  have hdisjoint : (Keyed.keys ((shown name r s).map fun d => (d.path, d.content))).Disjoint
      (Keyed.keys ((fs.map pair).flatMap (contents s))) := by
    rw [keys_contents, Keyed.keys, List.map_map]
    exact disjoint_shown name r s fs
  rw [Document.files, List.map_append, contents_pair, Keyed.ofPairs_append hdisjoint,
    (isBlock_contents s).ofPairs_flatMap hkeys]
  rfl

theorem nodup_paths_iff (hslash : ∀ f ∈ fs, '/' ∉ f.name.toList) :
    ((shown name r s ++ fs.flatMap fun f => f.output s).map (·.path)).Nodup ↔ (fs.map Feature.name).Nodup := by
  have hkeys : ∀ n ∈ Keyed.keys (fs.map pair), '/' ∉ n.toList := by
    rw [keys_pair]
    simpa using hslash
  have hne (n : String) : paths n ≠ [] := by simp [paths, all]
  have hpaths : (fs.flatMap fun f => f.output s).map (·.path) = fs.flatMap fun f => paths f.name := by
    rw [List.map_flatMap]
    exact congrArg fs.flatMap (funext fun f => paths_output f s)
  have hblocks := (isBlock_contents s).nodup_keys_flatMap hne hkeys
  rw [keys_contents, keys_pair] at hblocks
  rw [List.map_append, hpaths, List.nodup_append', hblocks]
  exact ⟨fun h => h.2.1, fun h => ⟨nodup_shown name r s, h, disjoint_shown name r s fs⟩⟩

/-- A project that is given features more than once is the one for the last of each, and it is written without writing a
path twice just when no feature is given twice. -/
theorem repeated_features_last_wins (hslash : ∀ f ∈ fs, '/' ∉ f.name.toList) (h : documents name fs s = .ok ds) :
    (∃ ds', documents name (lastOfEach fs) s = .ok ds' ∧ Document.files ds' = Document.files ds) ∧
      ((ds.map (·.path)).Nodup ↔ (fs.map Feature.name).Nodup) := by
  obtain ⟨hfs, rfl⟩ := documents_ok_iff.1 h
  refine ⟨⟨_, documents_ok_iff.2 ⟨fun f hf => hfs f (mem_of_mem_lastOfEach hf), rfl⟩, ?_⟩, nodup_paths_iff hslash⟩
  rw [files_eq fun f hf => hslash f (mem_of_mem_lastOfEach hf), files_eq hslash, ofFeatures_lastOfEach, pair_lastOfEach,
    Keyed.ofPairs_of_nodup (Keyed.nodup_keys_ofPairs (fs.map pair))]

/-- A feature that is given twice, with another one between. -/
theorem repeated_features_last_wins_again :
    let fs : List Feature := [⟨"user", [⟨"name", "string", ""⟩]⟩, ⟨"order", []⟩, ⟨"user", [⟨"age", "number", ""⟩]⟩]
    lastOfEach fs = [⟨"user", [⟨"age", "number", ""⟩]⟩, ⟨"order", []⟩] ∧ ∃ ds, documents "Shop" fs .standard = .ok ds ∧
      (∃ ds', documents "Shop" (lastOfEach fs) .standard = .ok ds' ∧ Document.files ds' = Document.files ds) ∧
        ((ds.map (·.path)).Nodup ↔ (fs.map Feature.name).Nodup) := by
  intro fs
  have hfs : ∀ f ∈ fs, f.Maps ∧ f.name ≠ "" := by
    simp only [fs, List.forall_mem_cons]
    exact ⟨⟨⟨_, rfl⟩, by decide⟩, ⟨⟨_, rfl⟩, by decide⟩, ⟨⟨_, rfl⟩, by decide⟩, nofun⟩
  have hdocs := documents_ok_iff.2 ⟨hfs, Eq.refl (shown "Shop" (.ofFeatures "Shop" fs) .standard ++ _)⟩
  exact ⟨by decide, _, hdocs, repeated_features_last_wins (by decide) hdocs⟩

end Project

end ApiScaffold
