import ApiScaffold.Project.Readme
import ApiScaffold.Proofs.Feature.Name
import ApiScaffold.Proofs.Keyed
import ApiScaffold.Proofs.Text.Digit
import ApiScaffold.Proofs.Text.Lines

namespace ApiScaffold

theorem mapM_ok {α β : Type} {as : List α} {f : α → Except Failure β} {g : α → β}
    (h : ∀ a ∈ as, f a = .ok (g a)) : as.mapM f = .ok (as.map g) := by
  induction as with
  | nil => rfl
  | cons a as ih =>
      rw [List.mapM_cons, h a (by simp), ih fun b hb => h b (by simp [hb])]
      rfl

namespace Readme

open Text

def phrase (n : String) : String := article n.toList ++ " " ++ n

def usageOf (s : Settings) (f : String × String) : List String :=
  usage ("http://localhost:" ++ Number.intText s.port) (WiringSheet.wired s f) (phrase f.1)

def testing (r : Registry) (s : Settings) : List String :=
  if r.features.isEmpty then [noFeatures] else r.features.flatMap (usageOf s)

def textLines (r : Registry) (s : Settings) : List String :=
  opening r.project ++ testing r s ++ closing r.names

def document (r : Registry) (s : Settings) : Document := ⟨path, linesText (textLines r s)⟩

variable {r : Registry} {s : Settings}

theorem lines_map (r : Registry) (s : Settings) (k : String → String) :
    lines (.ofRegistry r s) (r.names.map k) = opening r.project ++ (if r.features.isEmpty then [noFeatures]
      else r.features.flatMap fun f => usage ("http://localhost:" ++ Number.intText s.port)
        (WiringSheet.wired s f) (k f.1)) ++ closing r.names := by
  have hzip : (r.features.map (WiringSheet.wired s)).zip (r.names.map k) =
      r.features.map fun f => (WiringSheet.wired s f, k f.1) := by
    rw [Registry.names, Keyed.keys, List.map_map, List.zip_map']
    rfl
  have hnames : (r.features.map (WiringSheet.wired s)).map (·.name) = r.names := by
    rw [List.map_map]
    rfl
  have htesting : (if (r.features.map (WiringSheet.wired s)).isEmpty then [noFeatures]
      else ((r.features.map (WiringSheet.wired s)).zip (r.names.map k)).flatMap
        fun p => usage ("http://localhost:" ++ Number.intText s.port) p.1 p.2) =
      if r.features.isEmpty then [noFeatures] else r.features.flatMap fun f =>
        usage ("http://localhost:" ++ Number.intText s.port) (WiringSheet.wired s f) (k f.1) := by
    rw [List.isEmpty_map, hzip, List.flatMap_map]
  rw [← htesting, ← congrArg closing hnames]
  rfl

theorem lines_eq (r : Registry) (s : Settings) :
    lines (.ofRegistry r s) (r.names.map phrase) = textLines r s := lines_map r s phrase

theorem render_eq (hr : ∀ n ∈ r.names, Feature.IsName n) :
    render r s = .ok (document r s) := by
  rw [render, mapM_ok fun n hn => (hr n hn).withArticle_eq]
  exact congrArg (fun ls => Except.ok (Document.mk path (linesText ls))) (lines_eq r s)

theorem phrase_isPhrase {n : String} (hn : Feature.IsName n) : IsPhrase (phrase n).toList := by
  have harticle : IsPhrase (article n.toList ++ " ").toList := by
    rcases article_cases n.toList with h | h <;> rw [h] <;> decide
  exact harticle.concat hn.isWord.isPhrase

def url (s : Settings) (n : String) : String := "http://localhost:" ++ Number.intText s.port ++ s.route n

theorem url_isWord (hs : IsWord s.apiPrefix.toList) {n : String} (hn : Feature.IsName n) :
    IsWord (url s n).toList :=
  (IsWord.concat (by decide) (intText_isWord _)).concat ((hs.concat (by decide)).concat hn.isWord)

theorem request_eq (u sample : String) : request u sample =
    "  curl -X POST " ++ u ++ " -H \"Content-Type: application/json\" -d '" ++ sample ++ "'" := rfl

theorem usageOf_eq (s : Settings) (f : String × String) :
    usageOf s f = ["- Create " ++ phrase f.1 ++ ":", "  \x60\x60\x60bash", request (url s f.1) f.2,
      "  \x60\x60\x60"] := rfl

def fixedLines : List String := (opening "").tail ++ [noFeatures] ++ (closing []).take 4 ++ (closing []).drop 5

def namesLine (ns : List String) : String :=
  "- \x60Features/\x60: Feature-specific modules (" ++ ", ".intercalate ns ++ ")."

theorem mem_opening {p l : String} (h : l ∈ opening p) : l = "# " ++ p ∨ l ∈ fixedLines := by
  rcases List.mem_cons.1 h with h | h
  · exact .inl h
  · exact .inr (List.mem_append_left _ (List.mem_append_left _ (List.mem_append_left _ h)))

theorem mem_closing {ns : List String} {l : String} (h : l ∈ closing ns) :
    l = namesLine ns ∨ l ∈ fixedLines := by
  have hsplit : closing ns = (closing []).take 4 ++ namesLine ns :: (closing []).drop 5 := rfl
  rw [hsplit, List.mem_append, List.mem_cons] at h
  rcases h with h | h | h
  · exact .inr (List.mem_append_left _ (List.mem_append_right _ h))
  · exact .inl h
  · exact .inr (List.mem_append_right _ h)

theorem mem_testing {l : String} (h : l ∈ testing r s) :
    (∃ f ∈ r.features, l ∈ usageOf s f) ∨ l ∈ fixedLines := by
  unfold testing at h
  split at h
  · exact .inr (List.mem_append_left _ (List.mem_append_left _ (List.mem_append_right _ h)))
  · exact .inl (List.mem_flatMap.1 h)

theorem fixedLines_isPhrase : ∀ l ∈ fixedLines, IsPhrase l.toList := by
  simp only [fixedLines, opening, code, closing, List.map_cons, List.map_nil, List.cons_append,
    List.nil_append, List.tail_cons, List.take_succ_cons, List.take_zero, List.drop_succ_cons, List.drop_zero,
    List.forall_mem_cons, String.toList_append]
  and_intros <;> first
    | exact .literal (by decide +kernel)
    | exact .append (.literal (by decide +kernel)) (.literal (by decide +kernel))
    | exact fun _ h => absurd h List.not_mem_nil

theorem namesLine_start (ns : List String) : (namesLine ns).toList =
    '-' :: (" \x60Features/\x60: Feature-specific modules (".toList ++ (", ".intercalate ns).toList ++
      ").".toList) := by
  unfold namesLine
  simp only [String.toList_append]
  rfl

theorem namesLine_free {ns : List String} (hn : ∀ n ∈ ns, Feature.IsName n) {x : Char}
    (hx : isBlank x = true) (hspace : x ≠ ' ') : x ∉ (namesLine ns).toList := by
  have hnames : x ∉ (", ".intercalate ns).toList :=
    not_mem_intercalate (IsPhrase.not_mem (by decide) hx hspace) fun n hm => (hn n hm).isWord.not_mem hx
  have hopen : IsPhrase "- \x60Features/\x60: Feature-specific modules (".toList := .literal (by decide)
  have hclose : IsPhrase ").".toList := .literal (by decide)
  exact not_mem_concat (not_mem_concat (hopen.not_mem hx hspace) hnames) (hclose.not_mem hx hspace)

theorem textLines_free (hr : ∀ n ∈ r.names, Feature.IsName n) (hs : IsWord s.apiPrefix.toList) {x : Char}
    (hx : isBlank x = true) (hspace : x ≠ ' ') (hproject : x ∉ r.project.toList)
    (hsample : ∀ f ∈ r.features, x ∉ f.2.toList) : ∀ l ∈ textLines r s, x ∉ l.toList := by
  have hphrase {l : String} (h : IsPhrase l.toList) : x ∉ l.toList := h.not_mem hx hspace
  have hfixed {l : String} (h : l ∈ fixedLines) : x ∉ l.toList := hphrase (fixedLines_isPhrase l h)
  intro l hl
  rw [textLines, List.mem_append, List.mem_append] at hl
  rcases hl with (hl | hl) | hl
  · rcases mem_opening hl with rfl | hl
    · exact not_mem_concat (hphrase (by decide)) hproject
    · exact hfixed hl
  · rcases mem_testing hl with ⟨f, hf, hl⟩ | hl
    · have hn : Feature.IsName f.1 := hr _ (List.mem_map_of_mem hf)
      rw [usageOf_eq] at hl
      simp only [List.mem_cons, List.not_mem_nil, or_false] at hl
      rcases hl with rfl | rfl | rfl | rfl
      · exact hphrase ((IsPhrase.concat (by decide) (phrase_isPhrase hn)).concat (by decide))
      · exact hphrase (by decide)
      · rw [request_eq]
        refine not_mem_concat (not_mem_concat (hphrase ?_) (hsample f hf)) (hphrase (by decide))
        exact (IsPhrase.concat (by decide) (url_isWord hs hn).isPhrase).concat (by decide)
      · exact hphrase (by decide)
    · exact hfixed hl
  · rcases mem_closing hl with rfl | hl
    · exact namesLine_free hr hx hspace
    · exact hfixed hl

structure IsPlain (l : String) : Prop where
  isLine : '\n' ∉ l.toList
  lead : (stripStart l.toList).head? ≠ some 'c'

theorem IsPlain.of_start {l : String} {c : Char} {cs : List Char} (hl : '\n' ∉ l.toList)
    (h : l.toList = c :: cs) (hb : isBlank c = false) (hc : c ≠ 'c') : IsPlain l := by
  refine ⟨hl, ?_⟩
  rw [h, stripStart, List.dropWhile_cons_of_neg (by simpa using hb)]
  exact fun he => hc (Option.some.inj he)

theorem IsPlain.literal {cs : List Char} (h : '\n' ∉ cs ∧ (stripStart cs).head? ≠ some 'c') :
    IsPlain (String.ofList cs) := by
  rw [← String.toList_ofList (l := cs)] at h
  exact ⟨h.1, h.2⟩

theorem IsPlain.literals {cs ds : List Char}
    (h : '\n' ∉ cs ++ ds ∧ (stripStart (cs ++ ds)).head? ≠ some 'c') :
    IsPlain (String.ofList cs ++ String.ofList ds) := by
  rw [← String.ofList_append]
  exact .literal h

theorem fixedLines_isPlain : ∀ l ∈ fixedLines, IsPlain l := by
  simp only [fixedLines, opening, code, closing, List.map_cons, List.map_nil, List.cons_append,
    List.nil_append, List.tail_cons, List.take_succ_cons, List.take_zero, List.drop_succ_cons, List.drop_zero,
    List.forall_mem_cons]
  and_intros <;> first
    | exact .literal (by decide +kernel)
    | exact .literals (by decide +kernel)
    | exact fun _ h => absurd h List.not_mem_nil

theorem lead_line {l cs : List Char} (hl : (stripStart l).head? ≠ some 'c')
    (hcs : (stripStart cs).head? ≠ some 'c') : (stripStart (l ++ '\n' :: cs)).head? ≠ some 'c' := by
  rw [stripStart, List.dropWhile_append]
  split
  next => exact hcs
  next hne =>
    rw [List.isEmpty_iff] at hne
    rwa [List.head?_append, Option.or_of_isSome (List.isSome_head?.2 hne)]

theorem lead_unlines {ls : List String} (h : ∀ l ∈ ls, IsPlain l) {cs : List Char}
    (hcs : (stripStart cs).head? ≠ some 'c') :
    (stripStart (unlines (ls.map String.toList) ++ cs)).head? ≠ some 'c' := by
  induction ls with
  | nil => exact hcs
  | cons l ls ih =>
      rw [List.map_cons, unlines_cons, List.append_assoc]
      exact lead_line (h l (by simp)).lead (ih fun m hm => h m (by simp [hm]))

theorem request?_of_lead {cs : List Char} (h : (stripStart cs).head? ≠ some 'c') : request? cs = none := by
  have hnone : stripLead? "curl -X POST ".toList (stripStart cs) = none := by
    cases hc : stripStart cs with
    | nil => rfl
    | cons c cs =>
        have hne : 'c' ≠ c := by
          rintro rfl
          exact h (by rw [hc]; rfl)
        exact if_neg hne
  rw [request?, hnone]
  rfl

/-- A blank line is passed over together with the line below it, so what follows the lines counts too. -/
theorem scan_plain {ls : List String} (h : ∀ l ∈ ls, IsPlain l) {cs : List Char}
    (hcs : (stripStart cs).head? ≠ some 'c') :
    scan request? (unlines (ls.map String.toList) ++ cs) = scan request? cs := by
  induction ls with
  | nil => rfl
  | cons l ls ih =>
      have hrest : ∀ m ∈ ls, IsPlain m := fun m hm => h m (by simp [hm])
      have hl := h l (by simp)
      rw [List.map_cons, unlines_cons, List.append_assoc, List.cons_append,
        scan_of_none hl.isLine (request?_of_lead (lead_line hl.lead
          (lead_unlines hrest hcs))), ih hrest]

theorem reads_plain {l : String} (h : IsPlain l) (hne : stripStart l.toList ≠ []) :
    Reads request? [l.toList] [] := by
  refine .pass h.isLine fun r => request?_of_lead ?_
  have happend : stripStart (l.toList ++ '\n' :: r) = stripStart l.toList ++ '\n' :: r := by
    rw [stripStart, List.dropWhile_append]
    exact if_neg fun he => hne (List.isEmpty_iff.1 he)
  rw [happend, List.head?_append, Option.or_of_isSome (List.isSome_head?.2 hne)]
  exact h.lead

theorem beforeQuote?_quote (cs : List Char) : beforeQuote? (cs ++ ['\'']) = some cs := by
  rw [beforeQuote?, List.reverse_append]
  exact congrArg some (List.reverse_reverse cs)

theorem lastPart?_append {n : List Char} (hne : n ≠ []) (hslash : '/' ∉ n) (cs : List Char) :
    lastPart? (cs ++ '/' :: n) = some n := by
  have hcontains : (cs ++ '/' :: n).contains '/' = true := by simp
  have hpart : ((cs ++ '/' :: n).reverse.takeWhile (· != '/')).reverse = n := by
    have hspan : ((n.reverse ++ '/' :: cs.reverse).span (· != '/')) = (n.reverse, '/' :: cs.reverse) := by
      refine span_append (fun c hc => ?_) rfl
      have hc : c ≠ '/' := by
        rintro rfl
        exact hslash (by simpa using hc)
      simpa using hc
    rw [List.span_eq_takeWhile_dropWhile] at hspan
    have hfst := (Prod.mk.inj hspan).1
    have hreverse : (cs ++ '/' :: n).reverse = n.reverse ++ '/' :: cs.reverse := by simp
    rw [hreverse, hfst, List.reverse_reverse]
  rw [lastPart?, if_pos hcontains, hpart]
  cases n with
  | nil => exact absurd rfl hne
  | cons c n => rfl

theorem request?_request {u n sample : String} (hu : IsWord u.toList) (hn : lastPart? u.toList = some n.toList)
    (hsample : '\n' ∉ sample.toList) (cs : List Char) :
    request? ((request u sample).toList ++ '\n' :: cs) = some ((n, sample), '\n' :: cs) := by
  have hword : ∀ c ∈ u.toList, (!isBlank c) = true := by
    intro c hc
    rw [hu c hc]
    rfl
  have hline : ∀ c ∈ sample.toList ++ ['\''], (c != '\n') = true := by
    intro c hc
    have hc : c ≠ '\n' := by
      rintro rfl
      exact hsample (by simpa using hc)
    simpa using hc
  have htext : stripStart ((request u sample).toList ++ '\n' :: cs) = "curl -X POST ".toList ++ (u.toList ++
      (" -H \"Content-Type: application/json\" -d '".toList ++ (sample.toList ++ ['\''] ++ '\n' :: cs))) := by
    rw [request_eq]
    simp only [String.toList_append, List.append_assoc]
    rfl
  rw [request?, htext]
  simp only [stripLead?_append, Option.bind_eq_bind, Option.bind_some]
  rw [span_append hword rfl]
  simp only [hn, stripLead?_append, Option.bind_some]
  rw [span_append hline rfl]
  simp only [beforeQuote?_quote, Option.bind_some, String.ofList_toList]

theorem reads_create {n : String} (hn : Feature.IsName n) :
    Reads request? [("- Create " ++ phrase n ++ ":").toList] [] := by
  have hstart : ("- Create " ++ phrase n ++ ":").toList =
      '-' :: (" Create ".toList ++ (phrase n).toList ++ ":".toList) := by
    simp only [String.toList_append]
    rfl
  have hphrase : IsPhrase ("- Create " ++ phrase n ++ ":").toList :=
    (IsPhrase.concat (by decide) (phrase_isPhrase hn)).concat (by decide)
  refine reads_plain (.of_start (hphrase.not_mem rfl (by decide)) hstart rfl (by decide)) ?_
  rw [hstart]
  exact List.cons_ne_nil _ _

theorem lastPart?_url (s : Settings) {n : String} (hn : Feature.IsName n) :
    lastPart? (url s n).toList = some n.toList := by
  have hurl : (url s n).toList =
      ("http://localhost:".toList ++ (Number.intText s.port).toList ++ s.apiPrefix.toList) ++
        '/' :: n.toList := by
    unfold url Settings.route
    simp only [String.toList_append, List.append_assoc]
    rfl
  rw [hurl]
  exact lastPart?_append (by simpa using hn.ne_empty) hn.noSlash _

theorem reads_usage (hs : IsWord s.apiPrefix.toList) {f : String × String} (hn : Feature.IsName f.1)
    (hsample : '\n' ∉ f.2.toList) : Reads request? ((usageOf s f).map String.toList) [f] := by
  have hopen : Reads request? ["  \x60\x60\x60bash".toList] [] :=
    reads_plain (.literal (by decide)) (by decide)
  have hclose : Reads request? ["  \x60\x60\x60".toList] [] :=
    reads_plain (.literal (by decide)) (by decide)
  have hrequest : Reads request? [(request (url s f.1) f.2).toList] [f] :=
    .find (m := []) (by simp) (Nat.zero_le _)
      (request?_request (url_isWord hs hn) (lastPart?_url s hn) hsample)
  rw [usageOf_eq]
  exact (reads_create hn).append (hopen.append (hrequest.append hclose))

theorem reads_testing (hr : ∀ n ∈ r.names, Feature.IsName n) (hs : IsWord s.apiPrefix.toList)
    (hsample : ∀ f ∈ r.features, '\n' ∉ f.2.toList) :
    Reads request? ((testing r s).map String.toList) r.features := by
  unfold testing
  split
  next he =>
    rw [List.isEmpty_iff.1 he]
    exact reads_plain (.literal (by decide +kernel)) (by decide)
  next =>
    have husage : ∀ f ∈ r.features, Reads request? ((usageOf s f).map String.toList) [f] :=
      fun f hf => reads_usage hs (hr f.1 (List.mem_map_of_mem hf)) (hsample f hf)
    have hreads := Reads.flatMap husage
    rwa [← List.map_flatMap, List.flatMap_singleton'] at hreads

theorem testing_lead (r : Registry) (s : Settings) (cs : List Char) :
    (stripStart (unlines ((testing r s).map String.toList) ++ cs)).head? ≠ some 'c' := by
  unfold testing
  split
  next => exact fun h => absurd (Option.some.inj h) (by decide)
  next he =>
    cases hf : r.features with
    | nil => simp [hf] at he
    | cons f fs =>
        have hstart : ∃ ds, unlines ((usageOf s f ++ fs.flatMap (usageOf s)).map String.toList) ++ cs =
            '-' :: ds := by
          rw [usageOf_eq, List.cons_append, List.map_cons, unlines_cons]
          simp only [String.toList_append, List.append_assoc]
          exact ⟨_, rfl⟩
        obtain ⟨ds, hds⟩ := hstart
        rw [List.flatMap_cons, hds]
        exact fun h => absurd (Option.some.inj h) (by decide)

theorem scan_render (hr : ∀ n ∈ r.names, Feature.IsName n) (hs : IsWord s.apiPrefix.toList)
    (hproject : '\n' ∉ r.project.toList) (hsample : ∀ f ∈ r.features, '\n' ∉ f.2.toList) :
    scan request? (document r s).content.toList = r.features := by
  have hopening : ∀ l ∈ opening r.project, IsPlain l := by
    intro l hl
    rcases mem_opening hl with rfl | hl
    · have hstart : ("# " ++ r.project).toList = '#' :: ' ' :: r.project.toList := String.toList_append
      exact .of_start (not_mem_concat (by decide) hproject) hstart rfl (by decide)
    · exact fixedLines_isPlain l hl
  have hclosing : ∀ l ∈ closing r.names, IsPlain l := by
    intro l hl
    rcases mem_closing hl with rfl | hl
    · exact .of_start (namesLine_free hr rfl (by decide)) (namesLine_start r.names) rfl (by decide)
    · exact fixedLines_isPlain l hl
  rw [document, toList_linesText, textLines, List.map_append, List.map_append, unlines_append, unlines_append,
    List.append_assoc, scan_plain hopening (testing_lead r s _), reads_testing hr hs hsample,
    ← List.append_nil (unlines _), scan_plain hclosing (by simp [stripStart]), scan_nil rfl, List.append_nil]

theorem beforeBlanks_eq {cs : List Char} (hne : cs ≠ []) (hend : ∀ c ∈ cs.getLast?, isBlank c = false) :
    beforeBlanks cs = cs := by
  have hstrip : stripEnd cs = cs := by
    cases hr : cs.reverse with
    | nil => exact absurd (List.reverse_eq_nil_iff.1 hr) hne
    | cons c ds =>
        have hc : isBlank c = false := hend c (by rw [← List.head?_reverse, hr]; rfl)
        rw [stripEnd, hr, List.dropWhile_cons_of_neg (by simpa using hc), ← hr, List.reverse_reverse]
  rw [beforeBlanks, hstrip]
  exact if_neg fun h => hne (List.isEmpty_iff.1 h)

theorem title?_opening {project content : String} {cs : List Char} (hne : project ≠ "")
    (hline : '\n' ∉ project.toList) (hbefore : beforeBlanks project.toList = project.toList)
    (hfirst : content.toList = "# ".toList ++ project.toList ++ '\n' :: cs) : title? content = some project := by
  have htitle : titleLine? ("# ".toList ++ project.toList) = some project := by
    rw [titleLine?, show stripLead? ['#', ' '] ("# ".toList ++ project.toList) = some project.toList from
      stripLead?_append _ _]
    cases hp : project.toList with
    | nil => exact absurd (String.toList_eq_nil_iff.1 hp) hne
    | cons c cs =>
        dsimp only
        rw [← hp, hbefore, String.ofList_toList]
  have hfree : '\n' ∉ "# ".toList ++ project.toList := by
    rw [List.mem_append, not_or]
    exact ⟨by decide, hline⟩
  rw [title?, hfirst, List.splitOn_append_cons_self_of_not_mem hfree, List.findSome?_cons, htitle]

theorem toList_opening (project : String) (ls : List String) : ∃ cs,
    (linesText (opening project ++ ls)).toList = "# ".toList ++ project.toList ++ '\n' :: cs := by
  have hopening : opening project = ("# " ++ project) :: (opening "").tail := rfl
  have htoList : ("# " ++ project).toList = "# ".toList ++ project.toList := String.toList_append
  rw [toList_linesText, hopening, List.cons_append, List.map_cons, unlines_cons, htoList]
  exact ⟨_, rfl⟩

/-- The title is the project's name: nothing stands before it, and it does not end in a blank. -/
theorem title?_document (hne : r.project ≠ "") (hline : '\n' ∉ r.project.toList)
    (hend : ∀ c ∈ r.project.toList.getLast?, isBlank c = false) :
    title? (document r s).content = some r.project := by
  obtain ⟨cs, hcs⟩ := toList_opening r.project (testing r s ++ closing r.names)
  have hcontent : (document r s).content = linesText (opening r.project ++ (testing r s ++ closing r.names)) := by
    rw [document, textLines, List.append_assoc]
  rw [hcontent]
  exact title?_opening hne hline (beforeBlanks_eq (by simpa using hne) hend) hcs

theorem samples_document (hr : ∀ n ∈ r.names, Feature.IsName n) (hnodup : r.names.Nodup)
    (hs : IsWord s.apiPrefix.toList) (hproject : '\n' ∉ r.project.toList)
    (hsample : ∀ f ∈ r.features, '\n' ∉ f.2.toList) :
    samples (document r s).content = r.features := by
  rw [samples, scan_render hr hs hproject hsample, Keyed.ofPairs_of_nodup hnodup]

theorem noReturn_document (hr : ∀ n ∈ r.names, Feature.IsName n) (hs : IsWord s.apiPrefix.toList)
    (hproject : '\r' ∉ r.project.toList) (hsample : ∀ f ∈ r.features, '\r' ∉ f.2.toList) :
    '\r' ∉ (document r s).content.toList := by
  rw [document, toList_linesText]
  refine not_mem_unlines (by decide) fun l hl => ?_
  obtain ⟨t, ht, rfl⟩ := List.mem_map.1 hl
  exact textLines_free hr hs rfl (by decide) hproject hsample t ht

end Readme

end ApiScaffold
