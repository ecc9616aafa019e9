import ApiScaffold.Proofs.Feature.Places
import ApiScaffold.Proofs.Path.Descent
import ApiScaffold.Proofs.Project.Emission

namespace ApiScaffold

namespace Path

variable {s t : String} {cs us zs : List Char} {n : Int}

theorem parts_slash (s t : String) : (ofText (s ++ "/" ++ t)).parts = (ofText s).parts ++ (ofText t).parts := by
  have hlist : (s ++ "/" ++ t).toList = s.toList ++ '/' :: t.toList := by simp
  rw [ofText, hlist, List.splitOn_append_cons_self, List.map_append, List.filter_append]
  rfl

theorem parts_of_noSlash (h : '/' ∉ s.toList) : (ofText s).parts = if isPart s then [s] else [] := by
  rw [ofText, List.splitOn_eq_singleton h, List.map_singleton, String.ofList_toList]
  split
  next hs => exact List.filter_cons_of_pos hs
  next hs => exact List.filter_cons_of_neg hs

theorem parts_intercalate {ps : List String} (hps : ps ≠ []) :
    (ofText ("/".intercalate ps)).parts = ps.flatMap fun p => (ofText p).parts := by
  induction ps with
  | nil => exact absurd rfl hps
  | cons p ps ih =>
      by_cases hrest : ps = []
      · rw [hrest, String.intercalate_singleton, List.flatMap_singleton]
      · rw [String.intercalate_cons_of_ne_nil hrest, parts_slash, ih hrest, List.flatMap_cons]

theorem exists_first_slash (h : '/' ∈ s.toList) : ∃ u t, s = u ++ "/" ++ t ∧ '/' ∉ u.toList := by
  obtain ⟨us, ts, hs, hus⟩ := List.eq_append_cons_of_mem h
  refine ⟨.ofList us, .ofList ts, ?_, by rwa [String.toList_ofList]⟩
  rw [← String.toList_inj, hs]
  simp

theorem exists_last_slash (h : '/' ∈ s.toList) : ∃ u t, s = u ++ "/" ++ t ∧ '/' ∉ t.toList := by
  obtain ⟨ts, us, hs, hts⟩ := List.eq_append_cons_of_mem (List.mem_reverse.2 h)
  refine ⟨.ofList us.reverse, .ofList ts.reverse, ?_, by rwa [String.toList_ofList, List.mem_reverse]⟩
  rw [← String.toList_inj, ← List.reverse_reverse s.toList, hs]
  simp

theorem isEntry_of_length (hlength : 2 < s.length) (hslash : '/' ∉ s.toList) : IsEntry s := by
  have hne (t : String) (ht : t.length ≤ 2) : s ≠ t := fun e => by rw [e] at hlength; omega
  exact ⟨⟨hne "" (by decide), hne "." (by decide), hslash⟩, hne ".." (by decide)⟩

theorem IsEntry.parts_eq (h : IsEntry s) : (ofText s).parts = [s] := by
  rw [parts_of_noSlash h.noSlash, if_pos h.isPart_eq]

theorem IsEntry.descent_eq (h : IsEntry s) : descent (ofText s).parts = 1 := by
  rw [h.parts_eq, descent, rise_of_ne h.ne_up, descent, Int.add_zero]

theorem IsEntry.climbsWithin (h : IsEntry s) (hn : 0 ≤ n) : ClimbsWithin n (ofText s).parts := by
  rw [h.parts_eq]
  exact climbsWithin_of_noUp hn (by simpa using Ne.symm h.ne_up)

end Path

open ApiScaffold.Path

namespace Feature

variable {a b n p s x : String} {xs : List String} {k : Int}

theorem Plain.noSlash (h : Plain b) : '/' ∉ b.toList := fun hm => (h.2 '/' hm).1 rfl

theorem Plain.isEntry (h : Plain b) : IsEntry b := isEntry_of_length h.1 h.noSlash

theorem Plain.isEntry_append (h : Plain b) (hs : '/' ∉ s.toList) : IsEntry (s ++ b) := by
  have hlength := h.1
  refine isEntry_of_length (by rw [String.length_append]; omega) ?_
  rw [String.toList_append]
  exact List.not_mem_append hs h.noSlash

theorem Plain.isEntry_prepend (h : Plain a) (hs : '/' ∉ s.toList) : IsEntry (a ++ s) := by
  have hlength := h.1
  refine isEntry_of_length (by rw [String.length_append]; omega) ?_
  rw [String.toList_append]
  exact List.not_mem_append h.noSlash hs

theorem climbsWithin_after (hb : Plain b) (h : ClimbsWithin k (ofText s).parts) :
    ClimbsWithin k (ofText (s ++ b)).parts ∧ 0 < k + descent (ofText (s ++ b)).parts := by
  by_cases hslash : '/' ∈ s.toList
  · obtain ⟨u, t, rfl, ht⟩ := exists_last_slash hslash
    have hlast := hb.isEntry_append ht
    have htext : u ++ "/" ++ t ++ b = u ++ "/" ++ (t ++ b) := by simp only [String.append_assoc]
    rw [parts_slash] at h
    obtain ⟨hu, -⟩ := climbsWithin_append.1 h
    rw [htext, parts_slash, climbsWithin_append, descent_append, hlast.descent_eq]
    have hle := hu.le
    exact ⟨⟨hu, hlast.climbsWithin hle⟩, by omega⟩
  · have hentry := hb.isEntry_append hslash
    have hle := h.nonneg
    rw [hentry.descent_eq]
    exact ⟨hentry.climbsWithin hle, by omega⟩

/-- From a place that the name does not lead above, the part leads below it. -/
def Steady (n x : String) : Prop := ∀ k, ClimbsWithin k (ofText n).parts →
  ClimbsWithin k (ofText x).parts ∧ 0 < k + descent (ofText x).parts

theorem Steady.of_isEntry (h : IsEntry x) : Steady n x := by
  intro k hk
  have hle := hk.nonneg
  rw [h.descent_eq]
  exact ⟨h.climbsWithin hle, by omega⟩

theorem Plain.steady_after (hb : Plain b) : Steady n (n ++ b) := fun _ h => climbsWithin_after hb h

theorem Plain.steady_between (ha : Plain a) (hb : Plain b) : Steady n (a ++ n ++ b) := by
  intro k h
  by_cases hslash : '/' ∈ n.toList
  · obtain ⟨u, t, rfl, hu⟩ := exists_first_slash hslash
    have hfirst := ha.isEntry_prepend hu
    have htext : a ++ (u ++ "/" ++ t) ++ b = a ++ u ++ "/" ++ (t ++ b) := by simp only [String.append_assoc]
    have hdescent : descent (ofText u).parts ≤ 1 := by
      rw [parts_of_noSlash hu]
      split
      · rw [descent, descent, rise]
        split <;> omega
      · exact Int.le_of_lt Int.one_pos
    rw [parts_slash] at h
    obtain ⟨hle, ht⟩ := climbsWithin_append.1 h
    obtain ⟨hrest, hpos⟩ := climbsWithin_after hb (ht.mono (Int.add_le_add_left hdescent k))
    rw [htext, parts_slash, climbsWithin_append, descent_append, hfirst.descent_eq]
    exact ⟨⟨hfirst.climbsWithin hle.nonneg, hrest⟩, by omega⟩
  · have hentry : IsEntry (a ++ n ++ b) := by
      refine hb.isEntry_append ?_
      rw [String.toList_append]
      exact List.not_mem_append ha.noSlash hslash
    exact Steady.of_isEntry hentry k h

theorem climbsWithin_flatMap (hn : ClimbsWithin 1 (ofText n).parts) (hxs : ∀ x ∈ xs, Steady n x) (hk : 0 < k) :
    ClimbsWithin k (xs.flatMap fun x => (ofText x).parts) ∧ 0 < k + descent (xs.flatMap fun x => (ofText x).parts) := by
  induction xs generalizing k with
  | nil =>
      rw [List.flatMap_nil, climbsWithin_nil, descent]
      omega
  | cons x xs ih =>
      obtain ⟨hx, hxs⟩ := List.forall_mem_cons.1 hxs
      obtain ⟨hwithin, hpos⟩ := hx k (hn.mono hk)
      obtain ⟨hrest, hlast⟩ := ih hxs hpos
      rw [List.flatMap_cons, climbsWithin_append, descent_append]
      exact ⟨⟨hwithin, hrest⟩, by omega⟩

/-- The ways from the project to what belongs to a feature, its own folder or that of its tests first. -/
inductive Route (n : String) : List String → Prop
  | own {p : String} {xs : List String} : IsEntry p → (∀ x ∈ xs, Steady n x) → Route n ("Features" :: n :: p :: xs)
  | tests {xs : List String} : (∀ x ∈ xs, Steady n x) → Route n ("__tests__" :: "Features" :: n :: xs)

theorem Route.leadsBelow {ps : List String} (h : Route n ps) (hn : ClimbsWithin 1 (ofText n).parts) :
    (ofText ("/".intercalate ps)).LeadsBelow := by
  have hfeatures : IsEntry "Features" := Plain.isEntry (by decide)
  have htests : IsEntry "__tests__" := Plain.isEntry (by decide)
  have hle := hn.le
  rw [leadsBelow_iff]
  cases h with
  | @own p xs hp hxs =>
      obtain ⟨hrest, hpos⟩ := climbsWithin_flatMap hn hxs (k := 1 + descent (ofText n).parts + 1) (by omega)
      rw [parts_intercalate (by simp)]
      simp only [List.flatMap_cons, climbsWithin_append, descent_append, hfeatures.descent_eq, hp.descent_eq]
      refine ⟨?_, ⟨hfeatures.climbsWithin (Int.le_refl 0), hn, hp.climbsWithin hle, hrest⟩, by omega⟩
      rw [ofText, String.intercalate_cons_cons]
      simp
  | @tests xs hxs =>
      obtain ⟨hrest, hpos⟩ := climbsWithin_flatMap hn hxs (k := 2 + descent (ofText n).parts) (by omega)
      rw [parts_intercalate (by simp)]
      simp only [List.flatMap_cons, climbsWithin_append, descent_append, hfeatures.descent_eq, htests.descent_eq]
      refine ⟨?_, ⟨htests.climbsWithin (Int.le_refl 0), hfeatures.climbsWithin (by decide), hn.mono (by decide), hrest⟩,
        by omega⟩
      rw [ofText, String.intercalate_cons_cons]
      simp

end Feature

open Feature

theorem FeatureDocument.route (d : FeatureDocument) (n : String) : Route n (d.place n) := by
  have hfixed : ∀ x ∈ ["domain", "data", "delivery", "entity", "repositories", "usecases", "models", "datasources",
      "middlewares", "controllers", "container.ts"], Plain x := by decide
  have hafter : ∀ x ∈ [".entity.ts", ".repository.interface.ts", ".model.ts", ".datasource.ts", ".repository.ts",
      ".controller.ts", ".usecase.test.ts", ".controller.test.ts"], Plain x := by decide
  have huse : Steady n ("create-" ++ n ++ ".usecase.ts") := Plain.steady_between (by decide) (by decide)
  have hmiddle : Steady n ("validate-" ++ n ++ ".middleware.ts") := Plain.steady_between (by decide) (by decide)
  replace hfixed := fun x hx => (hfixed x hx).isEntry
  replace hafter := fun x hx => (hafter x hx).steady_after (n := n)
  have hsteady := fun x hx => Steady.of_isEntry (n := n) (hfixed x hx)
  cases d
  case useCaseTest | controllerTest => exact .tests (by simp [hafter])
  all_goals exact .own (hfixed _ (by decide)) (by simp [hsteady, hafter, huse, hmiddle])

namespace Feature

variable {f : Feature} {s : Settings} {ds : List Document}

theorem route_places (n : String) : ∀ ps ∈ places n, Route n ps := by
  have hown : ∀ q ∈ ownPlaces, q ≠ [] ∧ ∀ x ∈ q, Plain x := by decide
  intro ps hps
  rcases List.mem_append.1 hps with hps | hps
  · obtain ⟨q, hq, rfl⟩ := List.mem_map.1 hps
    obtain ⟨hne, hplain⟩ := hown q hq
    cases q with
    | nil => exact absurd rfl hne
    | cons p xs =>
        obtain ⟨hp, hxs⟩ := List.forall_mem_cons.1 hplain
        exact .own hp.isEntry fun x hx => .of_isEntry (hxs x hx).isEntry
  · rw [List.mem_singleton.1 hps]
    exact .tests (by simp)

/-- The review lets every feature pass that can be written out, and its documents and folders lie below the project just
when no opening of its name leads up by more than one folder. -/
theorem leadsBelow_iff_climbsWithin (h : f.documents s = .ok ds) :
    (∃ r, f.review = .ok r ∧ r.valid = true) ∧
      ((∀ p ∈ ds.map (·.path) ++ directories f.name, (ofText p).LeadsBelow) ↔
        ClimbsWithin 1 (ofText f.name).parts) := by
  obtain ⟨hmaps, hname, rfl⟩ := documents_eq_ok.1 h
  rw [paths_output]
  refine ⟨?_, ?_, fun hn p hp => ?_⟩
  · obtain ⟨r, hr, hrequire⟩ := review_ok hmaps hname
    refine ⟨r, hr, ?_⟩
    by_contra hvalid
    rw [Review.require, if_neg hvalid] at hrequire
    cases hrequire
  · intro hall
    have hcontainer := hall (FeatureDocument.container.path f.name) (List.mem_append_left _
      (List.mem_map_of_mem (by decide)))
    rw [leadsBelow_iff, FeatureDocument.path_eq, parts_intercalate (by simp [FeatureDocument.place])] at hcontainer
    simp only [FeatureDocument.place, List.flatMap_cons, climbsWithin_append] at hcontainer
    exact hcontainer.2.1.2.1
  · rcases List.mem_append.1 hp with hp | hp
    · obtain ⟨d, -, rfl⟩ := List.mem_map.1 hp
      rw [FeatureDocument.path_eq]
      exact (d.route f.name).leadsBelow hn
    · rw [directories_eq] at hp
      obtain ⟨ps, hps, rfl⟩ := List.mem_map.1 hp
      exact (route_places f.name ps hps).leadsBelow hn

/-- A name that leads up by one folder. -/
theorem leadsBelow_iff_climbsWithin_beside : ∃ ds,
    documents ⟨"../user", [⟨"name", "string", ""⟩]⟩ .standard = .ok ds ∧
      (∃ r, review ⟨"../user", [⟨"name", "string", ""⟩]⟩ = .ok r ∧ r.valid = true) ∧
        ((∀ p ∈ ds.map (·.path) ++ directories "../user", (ofText p).LeadsBelow) ↔
          ClimbsWithin 1 (ofText "../user").parts) :=
  ⟨_, rfl, leadsBelow_iff_climbsWithin (f := ⟨"../user", [⟨"name", "string", ""⟩]⟩) rfl⟩

/-- A name that passes the review and leads out of the project. -/
theorem climbing_name_leads_out : (∃ r, review ⟨"../../evil", []⟩ = .ok r ∧ r.valid = true) ∧
    ∃ ds, documents ⟨"../../evil", []⟩ .standard = .ok ds ∧
      ∃ p ∈ ds.map (·.path), p = "Features/../../evil/container.ts" ∧ ¬(ofText p).LeadsBelow := by
  refine ⟨⟨_, rfl, by decide⟩, _, rfl, _, List.mem_cons_self, by decide +kernel, ?_⟩
  rw [leadsBelow_iff]
  rintro ⟨-, hclimbs, -⟩
  have hup := hclimbs ["Features", "..", ".."] (by decide +kernel)
  exact absurd hup (by decide)

end Feature

end ApiScaffold
