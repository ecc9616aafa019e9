import ApiScaffold.Proofs.Project.Requests

namespace ApiScaffold

namespace Text

variable {as bs cs ds : List Char} {c d x : Char}

theorem append_cons_inj_last (h : as ++ x :: bs = cs ++ x :: ds) (hb : x ∉ bs) (hd : x ∉ ds) :
    as = cs ∧ bs = ds := by
  have hreverse := congrArg List.reverse h
  simp only [List.reverse_append, List.reverse_cons, List.append_assoc, List.singleton_append] at hreverse
  obtain ⟨hbs, has⟩ := append_cons_inj hreverse (by simpa using hb) (by simpa using hd)
  exact ⟨List.reverse_inj.1 has, List.reverse_inj.1 hbs⟩

theorem IsWord.eq_of_append (ha : IsWord as) (hc : IsWord cs) (hx : isBlank c = true) (hd : isBlank d = true)
    (h : as ++ c :: bs = cs ++ d :: ds) : as = cs ∧ c = d ∧ bs = ds := by
  have hspan {as : List Char} (bs : List Char) {c : Char} (ha : IsWord as) (hc : isBlank c = true) :
      (as ++ c :: bs).span (fun c => !isBlank c) = (as, c :: bs) := by
    refine span_append (fun e he => ?_) (by simp [hc])
    rw [ha e he]
    rfl
  have heq := hspan bs ha hx
  rw [h, hspan ds hc hd] at heq
  obtain ⟨hhead, htail⟩ := Prod.mk.inj heq
  obtain ⟨hcd, hbd⟩ := List.cons.inj htail
  exact ⟨hhead.symm, hcd.symm, hbd.symm⟩

theorem exists_blank (h : ¬IsWord cs) : ∃ as c bs, cs = as ++ c :: bs ∧ IsWord as ∧ isBlank c = true := by
  induction cs with
  | nil => exact absurd (fun c hc => absurd hc List.not_mem_nil) h
  | cons e es ih =>
      by_cases he : isBlank e = true
      · exact ⟨[], e, es, rfl, fun c hc => absurd hc List.not_mem_nil, he⟩
      · rw [Bool.not_eq_true] at he
        obtain ⟨as, c, bs, rfl, has, hc⟩ := ih fun hes => h (List.forall_mem_cons.2 ⟨he, hes⟩)
        exact ⟨e :: as, c, bs, rfl, List.forall_mem_cons.2 ⟨he, has⟩, hc⟩

theorem beforeBlanks_ne_nil (h : cs ≠ []) : beforeBlanks cs ≠ [] := by
  rw [beforeBlanks]
  split
  · simpa using h
  next hne => exact fun he => hne (List.isEmpty_iff.2 he)

theorem splitOn_unlines (ls : List (List Char)) :
    (unlines ls).splitOn '\n' = ls.flatMap (List.splitOn '\n') ++ [[]] := by
  induction ls with
  | nil => rfl
  | cons l ls ih => rw [unlines_cons, List.splitOn_append_cons_self, ih, List.flatMap_cons, List.append_assoc]

end Text

namespace Readme

open Text

theorem beforeBlanks_beforeBlanks (cs : List Char) : beforeBlanks (beforeBlanks cs) = beforeBlanks cs := by
  by_cases hstrip : stripEnd cs = []
  · have htake : beforeBlanks cs = cs.take 1 := if_pos (List.isEmpty_iff.2 hstrip)
    rw [htake]
    cases cs with
    | nil => rfl
    | cons c cs => cases hc : isBlank c <;> simp [beforeBlanks, stripEnd, hc]
  · have hkeep : beforeBlanks cs = stripEnd cs := if_neg fun h => hstrip (List.isEmpty_iff.1 h)
    rw [hkeep]
    refine beforeBlanks_eq hstrip fun c hc => ?_
    unfold stripEnd at hc
    rw [List.getLast?_reverse] at hc
    have hnot := List.head?_dropWhile_not isBlank cs.reverse
    rw [hc] at hnot
    exact hnot

structure IsHeading (t : String) : Prop where
  ne_empty : t ≠ ""
  oneLine : '\n' ∉ t.toList
  ends : beforeBlanks t.toList = t.toList

theorem title?_isHeading {content t : String} (h : title? content = some t) : IsHeading t := by
  obtain ⟨l, hl, ht⟩ := List.exists_of_findSome?_eq_some h
  have hfree : '\n' ∉ l := (line_cases hl).1
  unfold titleLine? at ht
  split at ht
  · cases ht
  · cases ht
  next cs hne hlead =>
    rw [eq_append_of_stripLead? hlead, List.mem_append, not_or] at hfree
    obtain rfl := Option.some.inj ht
    refine ⟨?_, ?_, ?_⟩
    · have hcs := beforeBlanks_ne_nil hne
      simpa using hcs
    · rw [String.toList_ofList]
      exact fun hm => hfree.2 (beforeBlanks_subset cs hm)
    · rw [String.toList_ofList, beforeBlanks_beforeBlanks]

theorem title?_linesText {project : String} (h : IsHeading project) (ls : List String) :
    title? (linesText (opening project ++ ls)) = some project := by
  obtain ⟨cs, hcs⟩ := toList_opening project ls
  exact title?_opening h.ne_empty h.oneLine h.ends hcs

theorem lastPart?_subset {url name : List Char} (h : lastPart? url = some name) : '/' ∈ url ∧ name ⊆ url := by
  unfold lastPart? at h
  split at h
  next hslash =>
    refine ⟨List.contains_iff_mem.1 hslash, ?_⟩
    split at h
    · cases h
    · rw [← Option.some.inj h]
      intro c hc
      exact List.mem_reverse.1 ((List.takeWhile_sublist _).subset (List.mem_reverse.1 hc))
  next => cases h

theorem beforeQuote?_subset {line payload : List Char} (h : beforeQuote? line = some payload) : payload ⊆ line := by
  unfold beforeQuote? at h
  split at h
  next cs hcs =>
    rw [← Option.some.inj h]
    intro c hc
    have hmem : c ∈ line.reverse.dropWhile isBlank := by
      rw [hcs]
      exact List.mem_cons_of_mem _ (List.mem_reverse.1 hc)
    exact List.mem_reverse.1 ((List.dropWhile_sublist _).subset hmem)
  next => cases h

theorem mem_samples {content : String} {f : String × String} (h : f ∈ samples content) :
    IsWord f.1.toList ∧ '\n' ∉ f.2.toList := by
  obtain ⟨ds, r, hr⟩ := mem_scan (Keyed.mem_of_mem_ofPairs h)
  obtain ⟨url, line, hi⟩ := request?_inv hr
  exact ⟨fun c hc => hi.isWord c ((lastPart?_subset hi.lastPart).2 hc),
    fun hm => hi.oneLine (beforeQuote?_subset hi.payload hm)⟩

variable {r : Registry} {s : Settings} {l : List Char} {n t : String} {a : String × String}

def textRequests (t : String) : List (String × String) := (t.toList.splitOn '\n').filterMap lineRequest?

theorem scan_linesText (ls : List String) : scan request? (linesText ls).toList = ls.flatMap textRequests := by
  have hlast : [([] : List Char)].filterMap lineRequest? = [] := rfl
  rw [scan_lines, toList_linesText, splitOn_unlines, List.filterMap_append, hlast, List.append_nil,
    List.flatMap_map, List.filterMap_flatMap]
  rfl

theorem lineRequest?_of_lead (h : (stripStart l).head? ≠ some 'c') : lineRequest? l = none := by
  rw [lineRequest?, request?_of_lead h]
  rfl

theorem lineRequest?_slash (h : lineRequest? l = some a) :
    ∃ as u bs, l = as ++ (' ' :: u) ++ '/' :: bs ∧ as.getLast? = some 'T' ∧ '/' ∉ as ∧ IsWord u ∧ '/' ∉ u := by
  obtain ⟨url, line, r, hi⟩ := lineRequest?_inv h
  obtain ⟨u, v, rfl, hu⟩ := List.eq_append_cons_of_mem (lastPart?_subset hi.lastPart).1
  have hblank : '/' ∉ l.takeWhile isBlank := by
    intro hm
    have hb := List.all_eq_true.1 List.all_takeWhile _ hm
    cases hb
  have hl : l.takeWhile isBlank ++ stripStart l = l := List.takeWhile_append_dropWhile
  rw [hi.strip_eq] at hl
  refine ⟨l.takeWhile isBlank ++ "curl -X POST".toList, u,
    v ++ (" -H \"Content-Type: application/json\" -d '".toList ++ (line ++ r)), ?_, ?_, ?_, ?_, hu⟩
  · refine hl.symm.trans ?_
    simp only [List.append_assoc, List.cons_append]
    rfl
  · rw [List.getLast?_append]
    rfl
  · exact List.not_mem_append hblank (by decide)
  · exact fun c hc => hi.isWord c (List.mem_append_left _ hc)

theorem lineRequest?_of_noSlash (h : '/' ∉ l) : lineRequest? l = none := by
  rw [Option.eq_none_iff_forall_ne_some]
  intro a ha
  obtain ⟨as, u, bs, rfl, -⟩ := lineRequest?_slash ha
  simp at h

theorem textRequests_of_isPlain (h : IsPlain t) : textRequests t = [] := by
  rw [textRequests, List.splitOn_eq_singleton h.isLine, List.filterMap_cons, lineRequest?_of_lead h.lead]
  rfl

theorem textRequests_of_lead {as bs : List Char} {c : Char} (ht : t.toList = c :: (as ++ bs)) (hb : isBlank c = false)
    (hc : c ≠ 'c') (ha : '\n' ∉ c :: as) (hbs : '/' ∉ bs) : textRequests t = [] := by
  rw [textRequests, List.filterMap_eq_nil_iff]
  intro l hl
  rw [ht] at hl
  rcases (line_cases hl).2 with ⟨ds, hds⟩ | ⟨cs, ds, hds⟩
  · refine lineRequest?_of_lead ?_
    cases l with
    | nil => exact fun h => nomatch h
    | cons d l =>
        obtain ⟨rfl, -⟩ := List.cons.inj hds
        rw [stripStart, List.dropWhile_cons_of_neg (by simpa using hb)]
        exact fun h => hc (Option.some.inj h)
  · rw [← List.cons_append] at hds
    obtain ⟨es, hes, -⟩ := append_eq_break_right hds ha
    refine lineRequest?_of_noSlash fun h => hbs ?_
    rw [hes]
    simp [h]

theorem textRequests_of_reads {found : List (String × String)} (h : Reads request? [t.toList] found) :
    textRequests t = found := by
  have hscan := scan_linesText [t]
  rw [toList_linesText, List.map_cons, List.map_nil, h.scan_eq rfl] at hscan
  simpa using hscan.symm

def base (s : Settings) : String := "http://localhost:" ++ Number.intText s.port ++ (s.apiPrefix ++ "/")

theorem base_isWord (hs : IsWord s.apiPrefix.toList) : IsWord (base s).toList :=
  (IsWord.concat (by decide) (intText_isWord _)).concat (hs.concat (by decide))

def header : List Char := " -H \"Content-Type: application/json\" -d '".toList

def media : List Char := " -H \"Content-Type:".toList ++ ' ' :: "application".toList

theorem header_eq : header = media ++ '/' :: "json\" -d '".toList := rfl

theorem toList_request (s : Settings) (n sample : String) : (request (url s n) sample).toList =
    "  curl -X POST ".toList ++ ((base s).toList ++ (n.toList ++ (header ++ (sample ++ "'").toList))) := by
  rw [request_eq]
  unfold url base Settings.route header
  simp only [String.toList_append, List.append_assoc]

theorem textRequests_request_word (hs : IsWord s.apiPrefix.toList) (hn : Feature.IsName n) {sample : String}
    (hsample : '\n' ∉ sample.toList) : textRequests (request (url s n) sample) = [(n, sample)] :=
  textRequests_of_reads <| .find (m := []) (by simp) (Nat.zero_le _)
    (request?_request (url_isWord hs hn) (lastPart?_url s hn) hsample)

theorem IsRequest.eq_of_start {url line r : List Char} {sample : String} {bs : List Char} (hi : IsRequest l url line r a)
    (hl : (request (Readme.url s n) sample).toList = l ++ bs) :
    (base s).toList ++ (n.toList ++ (header ++ (sample ++ "'").toList)) = url ++ (header ++ (line ++ (r ++ bs))) := by
  have hne : stripStart l ≠ [] := by
    rw [hi.strip_eq]
    exact List.cons_ne_nil _ _
  have hstrip := congrArg stripStart hl
  rw [stripStart_line hne, hi.strip_eq, toList_request] at hstrip
  have htext : "curl -X POST ".toList ++ ((base s).toList ++ (n.toList ++ (header ++ (sample ++ "'").toList))) =
      "curl -X POST ".toList ++ (url ++ (header ++ (line ++ (r ++ bs)))) := by
    refine Eq.trans ?_ (hstrip.trans ?_)
    · rfl
    · simp only [List.append_assoc]
      rfl
  exact List.append_cancel_left htext

/-- A name with a blank in it cuts the URL short, and what is left of the name keeps the header from following. -/
theorem lineRequest?_start (hs : IsWord s.apiPrefix.toList) (hn : Feature.IsFolder n) (hword : ¬IsWord n.toList)
    {sample : String} {bs : List Char} (hl : (request (url s n) sample).toList = l ++ bs) : lineRequest? l = none := by
  rw [Option.eq_none_iff_forall_ne_some]
  intro a ha
  obtain ⟨url, line, r, hi⟩ := lineRequest?_inv ha
  obtain ⟨w, c, m, hname, hw, hc⟩ := exists_blank hword
  have hurl : ((base s).toList ++ w) ++ c :: (m ++ (header ++ (sample ++ "'").toList)) =
      url ++ ' ' :: (header.tail ++ (line ++ (r ++ bs))) := by
    have h := hi.eq_of_start hl
    rw [hname, List.append_assoc, List.cons_append, ← List.append_assoc (base s).toList] at h
    exact h
  obtain ⟨-, rfl, hrest⟩ := ((base_isWord hs).append hw).eq_of_append hi.isWord hc rfl hurl
  -- what is left of the name puts the slash of the header one place later than in a request
  have hm : '/' ∉ ' ' :: m := fun h => hn.noSlash (by rw [hname]; exact List.mem_append_right w h)
  have hmedia : '/' ∉ media := by decide
  have hfirst : (' ' :: m ++ media) ++ '/' :: ("json\" -d '".toList ++ (sample ++ "'").toList) =
      media ++ '/' :: ("json\" -d '".toList ++ (line ++ (r ++ bs))) := by
    have h := congrArg (' ' :: ·) hrest
    have hheader : ' ' :: (header.tail ++ (line ++ (r ++ bs))) = header ++ (line ++ (r ++ bs)) := rfl
    rw [hheader, header_eq] at h
    simpa only [List.append_assoc, List.cons_append] using h
  obtain ⟨hlength, -⟩ := append_cons_inj hfirst (List.not_mem_append hm hmedia) hmedia
  have hlt := congrArg List.length hlength
  rw [List.length_append, List.length_cons] at hlt
  omega

theorem lineRequest?_below (hs : IsWord s.apiPrefix.toList) (hn : Feature.IsFolder n) {sample : String}
    (hsample : '\n' ∉ sample.toList) {as bs : List Char}
    (hl : (request (url s n) sample).toList = as ++ '\n' :: (l ++ bs)) : lineRequest? l = none := by
  rw [Option.eq_none_iff_forall_ne_some]
  intro a ha
  obtain ⟨cs, u, ds, rfl, hlast, hcs, hword, hu⟩ := lineRequest?_slash ha
  have hstart : '\n' ∉ "  curl -X POST ".toList ++ (base s).toList :=
    List.not_mem_append (by decide) ((base_isWord hs).not_mem rfl)
  have htail : '\n' ∉ header ++ (sample ++ "'").toList :=
    List.not_mem_append (by decide) (not_mem_concat hsample (by decide))
  rw [toList_request, ← List.append_assoc] at hl
  obtain ⟨es, hes, -⟩ := append_eq_break_right hl hstart
  rcases append_eq_break hes with ⟨fs, hname, hfs⟩ | ⟨fs, hrest, -⟩
  · have hfs' : (fs ++ media) ++ '/' :: ("json\" -d '".toList ++ (sample ++ "'").toList) =
        (cs ++ ' ' :: u) ++ '/' :: (ds ++ bs) := by
      rw [header_eq] at hfs
      simpa only [List.append_assoc, List.cons_append] using hfs.symm
    have hfree : '/' ∉ fs ++ media :=
      List.not_mem_append (fun h => hn.noSlash (by rw [hname]; simp [h])) (by decide)
    have hfree' : '/' ∉ cs ++ ' ' :: u := by simp [hcs, hu]
    obtain ⟨heq, -⟩ := append_cons_inj hfs' hfree hfree'
    have hmedia : fs ++ media = (fs ++ " -H \"Content-Type:".toList) ++ ' ' :: "application".toList := by
      unfold media
      exact (List.append_assoc _ _ _).symm
    rw [hmedia] at heq
    -- the last blank before the slash follows a colon here, and would have to follow `POST`
    obtain ⟨hbefore, -⟩ := append_cons_inj_last heq (by decide) (hword.not_mem rfl)
    have hcolon := congrArg List.getLast? hbefore
    rw [List.getLast?_append, hlast] at hcolon
    cases hcolon
  · exact htail (by rw [hrest]; simp)

theorem textRequests_request_blank (hs : IsWord s.apiPrefix.toList) (hn : Feature.IsFolder n)
    (hword : ¬IsWord n.toList) {sample : String} (hsample : '\n' ∉ sample.toList) :
    textRequests (request (url s n) sample) = [] := by
  rw [textRequests, List.filterMap_eq_nil_iff]
  intro l hl
  rcases (line_cases hl).2 with ⟨bs, h⟩ | ⟨as, bs, h⟩
  · exact lineRequest?_start hs hn hword h
  · exact lineRequest?_below hs hn hsample h

/-- A blank in the prefix cuts every URL short, and the header does not follow. -/
theorem lineRequest?_of_prefix_blank (hs : ¬IsWord s.apiPrefix.toList) (hfree : '"' ∉ s.apiPrefix.toList)
    (hn : '"' ∉ n.toList) (sample : String) : lineRequest? (request (url s n) sample).toList = none := by
  rw [Option.eq_none_iff_forall_ne_some]
  intro a ha
  obtain ⟨url, line, r, hi⟩ := lineRequest?_inv ha
  obtain ⟨w, c, m, hpre, hw, hc⟩ := exists_blank hs
  have hstart : IsWord (("http://localhost:" ++ Number.intText s.port).toList ++ w) :=
    (IsWord.concat (by decide) (intText_isWord _)).append hw
  have hbase : (base s).toList = (("http://localhost:" ++ Number.intText s.port).toList ++ w) ++ c :: (m ++ ['/']) := by
    unfold base
    simp only [String.toList_append, hpre, List.append_assoc, List.cons_append]
    rfl
  have hurl := hi.eq_of_start (List.append_nil _).symm
  rw [hbase, List.append_assoc, List.cons_append] at hurl
  obtain ⟨-, -, hrest⟩ := hstart.eq_of_append hi.isWord hc (d := ' ') rfl hurl
  -- both sides up to the quotation mark of the header, which the left side reaches one character later
  have hquote : (m ++ ['/'] ++ n.toList ++ " -H ".toList) ++
      '"' :: ("Content-Type: application/json\" -d '".toList ++ (sample ++ "'").toList) =
      "-H ".toList ++ '"' :: ("Content-Type: application/json\" -d '".toList ++ (line ++ (r ++ []))) := by
    simp only [List.append_assoc] at hrest ⊢
    exact hrest
  have hm : '"' ∉ m := fun h => hfree (by rw [hpre]; simp [h])
  obtain ⟨heq, -⟩ := append_cons_inj hquote (by simp [hm, hn]) (by decide)
  have hlength := congrArg List.length heq
  simp only [List.length_append, List.length_singleton] at hlength
  have hfour : " -H ".toList.length = 4 ∧ "-H ".toList.length = 3 := by decide
  omega

theorem textRequests_create (hn : '/' ∉ n.toList) : textRequests ("- Create " ++ Text.withArticle n ++ ":") = [] := by
  have hphrase : '/' ∉ (Text.withArticle n).toList := by
    intro h
    rcases List.mem_append.1 (withArticle_subset n h) with h | h
    · exact hn h
    · exact absurd h (by decide)
  have htext : ("- Create " ++ Text.withArticle n ++ ":").toList =
      '-' :: (" Create ".toList ++ ((Text.withArticle n).toList ++ ":".toList)) := by
    simp only [String.toList_append, List.append_assoc]
    rfl
  exact textRequests_of_lead htext rfl (by decide) (by decide) (List.not_mem_append hphrase (by decide))

theorem textRequests_usage {f : String × String} (hn : '/' ∉ f.1.toList) :
    (usage ("http://localhost:" ++ Number.intText s.port) (WiringSheet.wired s f)
      (Text.withArticle f.1)).flatMap textRequests = textRequests (request (url s f.1) f.2) := by
  have hopen : textRequests "  \x60\x60\x60bash" = [] := textRequests_of_isPlain (.literal (by decide))
  have hclose : textRequests "  \x60\x60\x60" = [] := textRequests_of_isPlain (.literal (by decide))
  have husage : usage ("http://localhost:" ++ Number.intText s.port) (WiringSheet.wired s f) (Text.withArticle f.1) =
      ["- Create " ++ Text.withArticle f.1 ++ ":", "  \x60\x60\x60bash", request (url s f.1) f.2,
        "  \x60\x60\x60"] := rfl
  simp only [husage, List.flatMap_cons, List.flatMap_nil, textRequests_create hn, hopen, hclose, List.nil_append,
    List.append_nil]

theorem textRequests_opening {project : String} (hproject : '\n' ∉ project.toList) :
    (opening project).flatMap textRequests = [] := by
  rw [List.flatMap_eq_nil_iff]
  intro l hl
  rcases mem_opening hl with rfl | hl
  · have htitle : ("# " ++ project).toList = '#' :: ((' ' :: project.toList) ++ []) := by
      rw [String.toList_append, List.append_nil]
      rfl
    exact textRequests_of_lead htitle rfl (by decide) (by simpa using hproject) List.not_mem_nil
  · exact textRequests_of_isPlain (fixedLines_isPlain l hl)

theorem textRequests_closing {ns : List String} (hn : ∀ n ∈ ns, '/' ∉ n.toList) :
    (closing ns).flatMap textRequests = [] := by
  have hnames : '/' ∉ (", ".intercalate ns).toList := not_mem_intercalate (by decide) hn
  rw [List.flatMap_eq_nil_iff]
  intro l hl
  rcases mem_closing hl with rfl | hl
  · have htext : (namesLine ns).toList = '-' :: (" \x60Features/\x60: Feature-specific modules (".toList ++
        ((", ".intercalate ns).toList ++ ").".toList)) := by
      rw [namesLine_start, List.append_assoc]
    exact textRequests_of_lead htext rfl (by decide) (by decide) (List.not_mem_append hnames (by decide))
  · exact textRequests_of_isPlain (fixedLines_isPlain l hl)

/-- The README of a registry with any folders for the names of its features. -/
def written (r : Registry) (s : Settings) : Document :=
  ⟨path, linesText (lines (.ofRegistry r s) (r.names.map Text.withArticle))⟩

theorem render_written (hr : ∀ n ∈ r.names, n ≠ "") : render r s = .ok (written r s) := by
  rw [render, mapM_ok fun n hn => show withArticle n = .ok (Text.withArticle n) from if_neg (hr n hn)]
  rfl

theorem scan_written (hr : ∀ n ∈ r.names, '/' ∉ n.toList) (hproject : '\n' ∉ r.project.toList) :
    scan request? (written r s).content.toList =
      r.features.flatMap fun f => textRequests (request (url s f.1) f.2) := by
  have hcontent : (written r s).content = linesText (lines (.ofRegistry r s) (r.names.map Text.withArticle)) := by
    simp only [written]
  have hfeatures : (r.features.flatMap fun f => usage ("http://localhost:" ++ Number.intText s.port)
      (WiringSheet.wired s f) (Text.withArticle f.1)).flatMap textRequests =
      r.features.flatMap fun f => textRequests (request (url s f.1) f.2) := by
    have hone := List.map_congr_left fun f (hf : f ∈ r.features) =>
      textRequests_usage (s := s) (hr f.1 (List.mem_map_of_mem hf))
    rw [List.flatMap_assoc, List.flatMap_def, hone, ← List.flatMap_def]
  rw [hcontent, scan_linesText, lines_map, List.flatMap_append, List.flatMap_append, textRequests_opening hproject,
    textRequests_closing hr, List.nil_append, List.append_nil, ← hfeatures]
  split
  next hnil =>
    rw [List.isEmpty_iff.1 hnil]
    have hnone : textRequests noFeatures = [] := textRequests_of_isPlain (.literal (by decide))
    simp [hnone]
  next => rfl

theorem requests_eq_filter (hr : ∀ n ∈ r.names, Feature.IsFolder n) (hs : IsWord s.apiPrefix.toList)
    (hsample : ∀ f ∈ r.features, '\n' ∉ f.2.toList) :
    (r.features.flatMap fun f => textRequests (request (url s f.1) f.2)) =
      r.features.filter fun f => IsWord f.1.toList := by
  have hone : ∀ f ∈ r.features, textRequests (request (url s f.1) f.2) = [f].filter fun f => IsWord f.1.toList := by
    intro f hf
    have hn := hr f.1 (List.mem_map_of_mem hf)
    by_cases hword : IsWord f.1.toList
    · rw [textRequests_request_word hs (hn.isName hword) (hsample f hf),
        List.filter_cons_of_pos (by simpa using hword)]
      rfl
    · rw [textRequests_request_blank hs hn hword (hsample f hf), List.filter_cons_of_neg (by simpa using hword)]
      rfl
  rw [List.flatMap_def, List.map_congr_left hone, ← List.flatMap_def, ← List.filter_flatMap, List.flatMap_singleton']

theorem samples_written (hr : ∀ n ∈ r.names, Feature.IsFolder n) (hnodup : r.names.Nodup)
    (hs : IsWord s.apiPrefix.toList) (hproject : '\n' ∉ r.project.toList)
    (hsample : ∀ f ∈ r.features, '\n' ∉ f.2.toList) :
    samples (written r s).content = r.features.filter fun f => IsWord f.1.toList := by
  have hkeys : (Keyed.keys (r.features.filter fun f => IsWord f.1.toList)).Nodup :=
    (List.filter_sublist.map _).nodup hnodup
  rw [samples, scan_written (fun n hn => (hr n hn).noSlash) hproject, requests_eq_filter hr hs hsample,
    Keyed.ofPairs_of_nodup hkeys]

theorem title?_written (h : IsHeading r.project) (s : Settings) : title? (written r s).content = some r.project := by
  have hcontent : (written r s).content = linesText (lines (.ofRegistry r s) (r.names.map Text.withArticle)) := by
    simp only [written]
  rw [hcontent, lines_map, List.append_assoc]
  exact title?_linesText h _

end Readme

end ApiScaffold
