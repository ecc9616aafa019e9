import ApiScaffold.Proofs.Feature.Spelling
import ApiScaffold.Proofs.Text.Lines
import ApiScaffold.Proofs.Text.Trim
import ApiScaffold.Proofs.TypeScript.Links
import Mathlib.Data.List.TakeWhile

namespace ApiScaffold.TypeScript

open Identifier Text

structure IsBinding (n : String) : Prop where
  ne_empty : n ≠ ""
  parts : ∀ c ∈ n.toList, isPart c = true

instance (n : String) : Decidable (IsBinding n) :=
  haveI := List.decidableBAll (fun c => isPart c = true) n.toList
  decidable_of_iff (n ≠ "" ∧ ∀ c ∈ n.toList, isPart c = true) ⟨fun h => ⟨h.1, h.2⟩, fun h => ⟨h.ne_empty, h.parts⟩⟩

/-- The reader goes over the text from `j` to `k`, and no link begins in it. -/
def Passes (j : Spot) (s : String) (k : Spot) : Prop := j.after? s.toList = some k

/-- A line that begins and ends between statements. -/
def Quiet (l : String) : Prop := Passes .start (l ++ "\n") .start

variable {i j k : Spot} {n s t : String} {cs ds : List Char} {ns : List String}

theorem Passes.literal (k : Spot) (h : j.after? cs = some k) : Passes j (.ofList cs) k := by
  rwa [Passes, String.toList_ofList]

theorem Passes.append (hs : Passes i s j) (ht : Passes j t k) : Passes i (s ++ t) k := by
  rw [Passes, String.toList_append, Spot.after?_append, hs]
  exact ht

def AllInert (s : String) : Prop := ∀ c ∈ s.toList, isInert c = true

theorem AllInert.literal (h : cs.all isInert = true) : AllInert (.ofList cs) := by
  rw [AllInert, String.toList_ofList]
  exact List.all_eq_true.1 h

theorem AllInert.append (hs : AllInert s) (ht : AllInert t) : AllInert (s ++ t) := by
  rw [AllInert, String.toList_append, List.forall_mem_append]
  exact ⟨hs, ht⟩

theorem Passes.of_inert (h : AllInert s) (hk : k.IsInner) : Passes k s k := hk.after?_inert h

theorem isInert_part {c : Char} (h : isPart c = true) : isInert c = true :=
  forall_ascii (P := fun c => isPart c = true → isInert c = true) (by decide +kernel) (Feature.part_lt h) h

theorem isClause_part {c : Char} (h : isPart c = true) : isClause c = true := by
  rw [isClause, h, Bool.true_or]

namespace IsBinding

theorem allInert (h : IsBinding n) : AllInert n := fun c hc => isInert_part (h.parts c hc)

theorem passes (h : IsBinding n) (hk : k.IsInner) : Passes k n k := .of_inert h.allInert hk

theorem literal (h : cs ≠ [] ∧ cs.all isPart = true) : IsBinding (.ofList cs) :=
  ⟨by simpa using h.1, by rw [String.toList_ofList]; exact List.all_eq_true.1 h.2⟩

theorem append (hs : IsBinding s) (ht : IsBinding t) : IsBinding (s ++ t) := by
  refine ⟨fun he => hs.ne_empty (String.append_eq_empty_iff.1 he).1, ?_⟩
  rw [String.toList_append, List.forall_mem_append]
  exact ⟨hs.parts, ht.parts⟩

theorem isWord (h : IsBinding n) : IsWord n.toList := fun c hc => (Feature.part_plain (h.parts c hc)).1

theorem not_mem (h : IsBinding n) {c : Char} (hc : isPart c = false) : c ∉ n.toList := by
  intro hm
  rw [h.parts c hm] at hc
  cases hc

end IsBinding

theorem splitOn_names (h : ∀ n ∈ ns, IsBinding n) (hne : ns ≠ []) :
    ((' ' :: (", ".intercalate ns).toList ++ [' ']).splitOn ',').map (fun n => String.ofList (strip n)) = ns := by
  have hspace : ∀ c ∈ [' '], isBlank c = true := List.forall_mem_singleton.2 rfl
  induction ns with
  | nil => exact absurd rfl hne
  | cons n ns ih =>
      have hn := h n (by simp)
      have htrimmed : IsTrimmed n.toList := isTrimmed_of_forall hn.isWord
      have hcomma : ',' ∉ ' ' :: n.toList := by simp [hn.not_mem (c := ',') (by decide)]
      cases ns with
      | nil =>
          have hstrip : strip (' ' :: n.toList ++ [' ']) = n.toList := strip_between hspace hspace htrimmed
          have hcomma' : ',' ∉ ' ' :: n.toList ++ [' '] := by simpa using hcomma
          rw [String.intercalate_singleton, List.splitOn_eq_singleton hcomma', List.map_singleton, hstrip,
            String.ofList_toList]
      | cons m ms =>
          have hrest := ih (fun k hk => h k (List.mem_cons_of_mem _ hk)) (by simp)
          have hstrip : strip (' ' :: n.toList) = n.toList := by
            have hb : strip ([' '] ++ n.toList ++ []) = n.toList := strip_between hspace (by simp) htrimmed
            rwa [List.append_nil] at hb
          have hlist : ' ' :: (", ".intercalate (n :: m :: ms)).toList ++ [' '] =
              (' ' :: n.toList) ++ ',' :: (' ' :: (", ".intercalate (m :: ms)).toList ++ [' ']) := by
            rw [String.intercalate_cons_cons]
            simp
          rw [hlist, List.splitOn_append_cons_self_of_not_mem hcomma, List.map_cons, hrest, hstrip,
            String.ofList_toList]

theorem forall_bne {x : Char} (h : x ∉ cs) : ∀ c ∈ cs, (c != x) = true :=
  fun _ hc => bne_iff_ne.2 fun e => h (e ▸ hc)

theorem bracedNames_braces (h : ∀ n ∈ ns, IsBinding n) (hne : ns ≠ []) (hopen : '\x7b' ∉ cs) (ds : List Char) :
    bracedNames (cs ++ ((braces (", ".intercalate ns)).toList ++ ds)) = ns := by
  have hnames : '\x7d' ∉ (", ".intercalate ns).toList :=
    not_mem_intercalate (by decide) fun n hn => (h n hn).not_mem (by decide)
  have hclose : '\x7d' ∉ ' ' :: (", ".intercalate ns).toList ++ [' '] := by
    simp only [List.cons_append, List.mem_cons, List.mem_append, not_or]
    exact ⟨by decide, hnames, by decide, List.not_mem_nil⟩
  have hlist : (braces (", ".intercalate ns)).toList ++ ds =
      '\x7b' :: ((' ' :: (", ".intercalate ns).toList ++ [' ']) ++ '\x7d' :: ds) := by
    simp [braces]
  have hfilter : ∀ n ∈ ns, decide (n ≠ "") = true := fun n hn => decide_eq_true (h n hn).ne_empty
  rw [bracedNames, hlist, List.dropWhile_append_of_pos (forall_bne hopen), List.dropWhile_cons_of_neg (by decide),
    List.drop_one, List.tail_cons, List.takeWhile_append_of_pos (forall_bne hclose),
    List.takeWhile_cons_of_neg (by decide), List.append_nil, splitOn_names h hne, List.filter_eq_self.2 hfilter]

theorem bracedNames_eq_nil (hopen : '\x7b' ∉ cs) : bracedNames cs = [] := by
  rw [bracedNames, List.dropWhile_eq_nil_iff.2 (forall_bne hopen)]
  rfl

def Import.link (i : Import) : Link := ⟨i.names, i.source⟩

structure Import.IsPlain (i : Import) : Prop where
  bound : ∀ n ∈ i.bound, IsBinding n
  source : AllInert i.source

namespace Import.IsPlain

variable {i : Import}

@[simp] theorem iff_bound : i.IsPlain ↔ (∀ n ∈ i.bound, IsBinding n) ∧ AllInert i.source :=
  ⟨fun h => ⟨h.bound, h.source⟩, fun h => ⟨h.1, h.2⟩⟩

theorem names (h : i.IsPlain) : ∀ n ∈ i.names, IsBinding n := fun n hn => h.bound n (List.mem_append_right _ hn)

theorem whole (h : i.IsPlain) {w : String} (hw : i.whole = some w) : IsBinding w :=
  h.bound w (by simp [Import.bound, hw])

theorem clause_bare (hn : i.names = []) :
    i.clause = "" ∨ ∃ w, i.whole = some w ∧ i.clause = w ++ " from " := by
  obtain ⟨whole, names, source⟩ := i
  obtain rfl : names = [] := hn
  cases whole with
  | none => exact .inl rfl
  | some w => exact .inr ⟨w, rfl, rfl⟩

theorem clause_named (hn : i.names ≠ []) :
    ∃ lead, i.clause = lead ++ braces (", ".intercalate i.names) ++ " from " ∧
      (lead = "" ∨ ∃ w, i.whole = some w ∧ lead = w ++ ", ") := by
  obtain ⟨whole, names, source⟩ := i
  obtain ⟨n, ns, rfl⟩ := List.exists_cons_of_ne_nil hn
  cases whole with
  | none => exact ⟨"", by rw [String.empty_append]; rfl, .inl rfl⟩
  | some w => exact ⟨w ++ ", ", rfl, .inr ⟨w, rfl, rfl⟩⟩

theorem isClause_clause (h : i.IsPlain) : ∀ c ∈ i.clause.toList, isClause c = true := by
  have hname {n : String} (hn : IsBinding n) : ∀ c ∈ n.toList, isClause c = true :=
    fun c hc => isClause_part (hn.parts c hc)
  have hfrom : ∀ c ∈ " from ".toList, isClause c = true := List.all_eq_true.1 (by decide)
  have hcomma : ∀ c ∈ ", ".toList, isClause c = true := List.all_eq_true.1 (by decide)
  by_cases hn : i.names = []
  · rcases clause_bare hn with he | ⟨w, hw, he⟩
    · simp [he]
    · rw [he, String.toList_append]
      exact List.forall_mem_append.2 ⟨hname (h.whole hw), hfrom⟩
  · obtain ⟨lead, he, hlead⟩ := clause_named hn
    have hleads : ∀ c ∈ lead.toList, isClause c = true := by
      rcases hlead with rfl | ⟨w, hw, rfl⟩
      · simp
      · rw [String.toList_append]
        exact List.forall_mem_append.2 ⟨hname (h.whole hw), hcomma⟩
    have hnames : ∀ c ∈ (", ".intercalate i.names).toList, isClause c = true := by
      intro c hc
      rcases mem_intercalate hc with hc | ⟨n, hn, hc⟩
      · exact hcomma c hc
      · exact hname (h.names n hn) c hc
    rw [he, braces]
    simp only [String.toList_append, List.forall_mem_append]
    have hopen : ∀ c ∈ "\x7b ".toList, isClause c = true := List.all_eq_true.1 (by decide)
    have hclose : ∀ c ∈ " \x7d".toList, isClause c = true := List.all_eq_true.1 (by decide)
    exact ⟨⟨hleads, ⟨hopen, hnames⟩, hclose⟩, hfrom⟩

theorem isClause_behind (h : i.IsPlain) : ∀ c ∈ ' ' :: i.clause.toList, isClause c = true :=
  List.forall_mem_cons.2 ⟨by decide, h.isClause_clause⟩

theorem bracedNames_clause (h : i.IsPlain) : bracedNames (' ' :: i.clause.toList) = i.names := by
  have hbrace {n : String} (hn : IsBinding n) : '\x7b' ∉ n.toList := hn.not_mem (by decide)
  by_cases hn : i.names = []
  · rw [hn]
    apply bracedNames_eq_nil
    rcases clause_bare hn with he | ⟨w, hw, he⟩
    · simp [he]
    · simp [he, hbrace (h.whole hw)]
  · obtain ⟨lead, he, hlead⟩ := clause_named hn
    have hleads : '\x7b' ∉ ' ' :: lead.toList := by
      rcases hlead with rfl | ⟨w, hw, rfl⟩
      · decide
      · simp [hbrace (h.whole hw)]
    rw [he, String.toList_append, String.toList_append, List.append_assoc, ← List.cons_append]
    exact bracedNames_braces h.names hn hleads _

theorem passes_source (h : i.IsPlain) : Passes (.quoted '\'') i.source (.quoted '\'') :=
  .of_inert h.source Spot.isInner_quoted

theorem takeWhile_clause (h : i.IsPlain) (ds : List Char) :
    (' ' :: i.clause.toList ++ '\'' :: ds).takeWhile isClause = ' ' :: i.clause.toList := by
  rw [List.takeWhile_append_of_pos h.isClause_behind, List.takeWhile_cons_of_neg (by decide), List.append_nil]

theorem link?_clause (h : i.IsPlain) (ds : List Char) :
    link? (' ' :: i.clause.toList ++ '\'' :: (i.source.toList ++ '\'' :: ds)) = some i.link := by
  have hsource : '\'' ∉ i.source.toList := fun hm => absurd (h.source _ hm) (by decide)
  have hdrop : (' ' :: i.clause.toList ++ '\'' :: (i.source.toList ++ '\'' :: ds)).dropWhile isClause =
      '\'' :: (i.source.toList ++ '\'' :: ds) := by
    rw [List.dropWhile_append_of_pos h.isClause_behind, List.dropWhile_cons_of_neg (by decide)]
  rw [link?, hdrop, h.takeWhile_clause, h.bracedNames_clause]
  dsimp only
  rw [if_pos (by decide), List.takeWhile_append_of_pos (forall_bne hsource), List.takeWhile_cons_of_neg (by decide),
    List.append_nil, String.ofList_toList]
  rfl

theorem links_line (h : i.IsPlain) (ds : List Char) :
    Spot.start.links (i.line.toList ++ '\n' :: ds) = i.link :: Spot.start.links ds := by
  have hline : i.line.toList ++ '\n' :: ds = "import".toList ++ ((' ' :: i.clause.toList) ++ '\'' ::
      (i.source.toList ++ '\'' :: ';' :: '\n' :: ds)) := by
    simp [Import.line]
  have hword (cs : List Char) : Spot.start.links ("import".toList ++ cs) =
      (link? cs).toList ++ Spot.clause.links cs := rfl
  have hquote (cs : List Char) : Spot.clause.links ('\'' :: cs) = (Spot.quoted '\'').links cs := rfl
  have hend (cs : List Char) : (Spot.quoted '\'').links ('\'' :: ';' :: '\n' :: cs) = Spot.start.links cs := rfl
  rw [hline, hword, h.link?_clause, Spot.links_clause h.isClause_behind, hquote,
    (Spot.links_of_after? h.passes_source (by decide) _).1, hend]
  rfl

theorem foldl_line (h : i.IsPlain) : (i.line.toList ++ ['\n']).foldl Spot.next .start = .start := by
  have hline : i.line.toList ++ ['\n'] = "import".toList ++ (' ' :: i.clause.toList ++ ('\'' ::
      (i.source.toList ++ ['\'', ';', '\n']))) := by
    simp [Import.line]
  have hword : "import".toList.foldl Spot.next .start = .clause := by decide
  have hclause : (' ' :: i.clause.toList).foldl Spot.next .clause = .clause :=
    Spot.foldl_next_of_forall fun c hc => Spot.next_clause (h.isClause_behind c hc)
  have hquote : Spot.clause.next '\'' = .quoted '\'' := by decide
  rw [hline, List.foldl_append, hword, List.foldl_append, hclause, List.foldl_cons, hquote, List.foldl_append,
    Spot.foldl_of_after? h.passes_source]
  rfl

end Import.IsPlain

theorem not_part_space : ¬(' ' :: cs).head?.any isPart = true := Bool.false_ne_true

theorem declaredName?_keyword (w : Keyword) (h : IsBinding n) (hrest : cs.head?.any isPart = false) :
    declaredName? (w.text.toList ++ ' ' :: (n.toList ++ cs)) = some n := by
  have hstrip : stripStart (' ' :: (n.toList ++ cs)) = n.toList ++ cs := by
    obtain ⟨c, ds, hn⟩ := List.exists_cons_of_ne_nil (show n.toList ≠ [] by simpa using h.ne_empty)
    have hc : isBlank c = false := h.isWord c (by simp [hn])
    rw [hn, stripStart, List.dropWhile_cons_of_pos (by decide), List.cons_append,
      List.dropWhile_cons_of_neg (by simp [hc])]
  have htake : (n.toList ++ cs).takeWhile isPart = n.toList := by
    rw [List.takeWhile_append_of_pos h.parts]
    cases cs with
    | nil => simp
    | cons c cs => rw [List.takeWhile_cons_of_neg (by simpa using hrest), List.append_nil]
  have hfound : Keyword.all.any (fun k => k.text.toList ==
      (w.text.toList ++ ' ' :: (n.toList ++ cs)).takeWhile isPart) = true := by
    cases w <;> rfl
  have hdrop : (w.text.toList ++ ' ' :: (n.toList ++ cs)).dropWhile isPart = ' ' :: (n.toList ++ cs) := by
    cases w <;> rfl
  rw [declaredName?, if_pos hfound, hdrop, hstrip, htake, String.ofList_toList]

theorem stripStart_keyword (w : Keyword) (cs : List Char) :
    stripStart (' ' :: (w.text.toList ++ ' ' :: cs)) = w.text.toList ++ ' ' :: cs := by
  cases w <;> rfl

theorem exportedNames_declared (w : Keyword) (h : IsBinding n) (hrest : cs.head?.any isPart = false) :
    exportedNames (' ' :: (w.text.toList ++ ' ' :: (n.toList ++ cs))) = [n] := by
  have hbrace : (w.text.toList ++ ' ' :: (n.toList ++ cs)).head? ≠ some '\x7b' := by
    cases w <;> exact fun he => absurd (Option.some.inj he) (by decide)
  rw [exportedNames, stripStart_keyword, if_neg not_part_space, if_neg hbrace, declaredName?_keyword w h hrest]
  rfl

theorem exportedNames_braces (h : ∀ n ∈ ns, IsBinding n) (hne : ns ≠ []) (ds : List Char) :
    exportedNames (' ' :: ((braces (", ".intercalate ns)).toList ++ ds)) = ns := by
  have hbrace : (stripStart (' ' :: ((braces (", ".intercalate ns)).toList ++ ds))).head? = some '\x7b' := by
    rw [braces, String.toList_append, String.toList_append, List.append_assoc, List.append_assoc]
    rfl
  have hopen : '\x7b' ∉ [' '] := by decide
  rw [exportedNames, if_neg not_part_space, if_pos hbrace]
  exact bracedNames_braces h hne hopen ds

theorem exports_word (ds : List Char) : Spot.start.exports ("export".toList ++ ds) =
    exportedNames ds ++ Spot.code.exports ds := rfl

def AllQuiet (ls : List String) : Prop := ∀ l ∈ ls, Quiet l

theorem quiet_line {l : String} (h : Quiet l) : Spot.start.after? (l.toList ++ ['\n']) = some .start := by
  have hline : l.toList ++ ['\n'] = (l ++ "\n").toList := by simp
  rwa [hline]

theorem AllQuiet.after_lines {ls : List String} (h : AllQuiet ls) :
    Spot.start.after? (unlines (ls.map String.toList)) = some .start := by
  induction ls with
  | nil => rfl
  | cons l ls ih =>
      have hlist : unlines ((l :: ls).map String.toList) = l.toList ++ ['\n'] ++ unlines (ls.map String.toList) := by
        simp
      rw [hlist, Spot.after?_append, quiet_line (h l (by simp))]
      exact ih fun m hm => h m (by simp [hm])

def EndsName (t : String) : Prop := ∃ c ∈ t.toList.head?, isPart c = false

theorem EndsName.literal (h : cs.head?.map isPart = some false) : EndsName (.ofList cs) := by
  rw [EndsName, String.toList_ofList]
  exact Option.map_eq_some_iff.1 h

theorem EndsName.append (h : EndsName s) (t : String) : EndsName (s ++ t) := by
  obtain ⟨c, hc, hpart⟩ := h
  refine ⟨c, ?_, hpart⟩
  rw [String.toList_append]
  exact List.mem_head?_append_of_mem_head? hc

/-- A statement from which the reader takes what it says and nothing else. -/
@[simp] def Statement.IsReadable : Statement → Prop
  | .importing i => i.IsPlain
  | .declaring d => AllQuiet d.lines ∧ (d.exported = true → IsBinding d.name ∧ EndsName d.rest)
  | .exporting ns => (∀ n ∈ ns, IsBinding n) ∧ ns ≠ []
  | .running ls => AllQuiet ls
  | .gap => True

def Module.IsReadable (m : Module) : Prop := ∀ st ∈ m, st.IsReadable

@[simp] theorem Module.isReadable_nil : Module.IsReadable [] := List.forall_mem_nil _

@[simp] theorem Module.isReadable_cons {st : Statement} {m : Module} :
    Module.IsReadable (st :: m) ↔ st.IsReadable ∧ Module.IsReadable m := List.forall_mem_cons

@[simp] theorem Module.isReadable_append {m l : Module} : Module.IsReadable (m ++ l) ↔ m.IsReadable ∧ l.IsReadable :=
  List.forall_mem_append

theorem passes_intercalate (h : ∀ n ∈ ns, Passes k n k) (hs : Passes k s k) : Passes k (s.intercalate ns) k := by
  induction ns with
  | nil => exact Passes.literal k rfl
  | cons n ns ih =>
      have hn := h n (by simp)
      cases ns with
      | nil => rwa [String.intercalate_singleton]
      | cons m ms =>
          rw [String.intercalate_cons_cons]
          exact (hn.append hs).append (ih fun x hx => h x (List.mem_cons_of_mem _ hx))

theorem quiet_exporting (h : ∀ n ∈ ns, IsBinding n) : Quiet ("export " ++ braces (", ".intercalate ns) ++ ";") := by
  have hnames : Passes .code (", ".intercalate ns) .code :=
    passes_intercalate (fun n hn => (h n hn).passes Spot.isInner_code) (.literal .code (by decide))
  have hbraces : Passes .code (braces (", ".intercalate ns)) .start :=
    ((Passes.literal .code (by decide)).append hnames).append (.literal .start (by decide))
  exact ((Passes.append (.literal .code (by decide)) hbraces).append (.literal .start (by decide))).append
    (.literal .start (by decide))

theorem quiet_gap : Quiet "" := by
  unfold Quiet Passes
  decide

variable {st : Statement} {m : Module}

theorem Statement.IsReadable.allQuiet (h : st.IsReadable) (hi : ∀ i, st ≠ .importing i) : AllQuiet st.lines := by
  cases st with
  | importing i => exact absurd rfl (hi i)
  | declaring d => exact h.1
  | exporting ns => exact fun l hl => List.mem_singleton.1 hl ▸ quiet_exporting h.1
  | running ls => exact h
  | gap => exact fun l hl => List.mem_singleton.1 hl ▸ quiet_gap

theorem Statement.IsReadable.foldl_lines (h : st.IsReadable) :
    (unlines (st.lines.map String.toList)).foldl Spot.next .start = .start := by
  cases st with
  | importing i => simpa [lines] using Import.IsPlain.foldl_line h
  | declaring | exporting | running | gap => exact Spot.foldl_of_after? (h.allQuiet (by simp)).after_lines

theorem exports_of_foldl (h : cs.foldl Spot.next .start = .start) (hn : n ∈ Spot.start.exports ds) :
    n ∈ Spot.start.exports (cs ++ ds) := by
  obtain ⟨xs, hxs⟩ := Spot.gather_append .exporting exportedNames .start cs ds
  rw [h] at hxs
  rw [Spot.exports, hxs]
  exact List.mem_append_right _ hn

theorem Statement.IsReadable.exported_subset (h : st.IsReadable) (ds : List Char) :
    ∀ n ∈ st.exported, n ∈ Spot.start.exports (unlines (st.lines.map String.toList) ++ ds) := by
  intro n hn
  cases st with
  | importing | running | gap => cases hn
  | exporting ns =>
      have hlist : unlines ((exporting ns).lines.map String.toList) ++ ds =
          "export".toList ++ (' ' :: ((braces (", ".intercalate ns)).toList ++ ';' :: '\n' :: ds)) := by
        simp [lines]
      rw [hlist, exports_word, exportedNames_braces h.1 h.2]
      exact List.mem_append_left _ hn
  | declaring d =>
      obtain ⟨hquiet, hdeclared⟩ := h
      by_cases he : d.exported = true
      · obtain rfl : n = d.name := by simpa [exported, he] using hn
        obtain ⟨hname, hrest⟩ := hdeclared he
        have hdecorators : AllQuiet d.decorators := fun l hl => hquiet l (List.mem_append_left _ hl)
        have hlist : unlines ((declaring d).lines.map String.toList) ++ ds = unlines (d.decorators.map String.toList) ++
            ("export".toList ++ (' ' :: (d.keyword.text.toList ++ ' ' :: (d.name.toList ++ (d.rest.toList ++
              '\n' :: (unlines (d.body.map String.toList) ++ ds)))))) := by
          simp [lines, Declaration.lines, he]
        have hhead (cs : List Char) : (d.rest.toList ++ '\n' :: cs).head?.any isPart = false := by
          obtain ⟨c, hc, hpart⟩ := hrest
          rw [List.mem_head?_append_of_mem_head? hc]
          simpa using hpart
        -- The word stands behind the decorators, at the start of a statement.
        rw [hlist]
        apply exports_of_foldl (Spot.foldl_of_after? hdecorators.after_lines)
        rw [exports_word, exportedNames_declared d.keyword hname (hhead _)]
        exact List.mem_append_left _ (List.mem_singleton_self _)
      · simp [exported, he] at hn

theorem Statement.IsReadable.links_lines (h : st.IsReadable) (ds : List Char) :
    Spot.start.links (unlines (st.lines.map String.toList) ++ ds) =
      (Module.imports [st]).map Import.link ++ Spot.start.links ds := by
  cases st with
  | importing i =>
      have hline := Import.IsPlain.links_line h ds
      simpa [lines, Module.imports] using hline
  | declaring | exporting | running | gap =>
      exact (Spot.links_of_after? (h.allQuiet (by simp)).after_lines (by decide) ds).1

theorem Module.toList_text_cons (st : Statement) (m : Module) :
    (Module.text (st :: m)).toList = unlines (st.lines.map String.toList) ++ m.text.toList := by
  simp [Module.text, Module.lines, toList_linesText]

theorem Module.exported_subset (h : m.IsReadable) : ∀ n ∈ m.exported, n ∈ exports m.text := by
  induction m with
  | nil => exact fun n hn => by cases hn
  | cons st m ih =>
      intro n hn
      obtain ⟨hst, hm⟩ := isReadable_cons.1 h
      rw [exports, toList_text_cons]
      rcases List.mem_append.1 hn with hn | hn
      · exact hst.exported_subset _ n hn
      · exact exports_of_foldl hst.foldl_lines (ih hm n hn)

/-- The links of a readable module are its imports, whatever follows it. -/
theorem Module.links_append (h : m.IsReadable) (l : Module) :
    links (Module.text (m ++ l)) = m.imports.map Import.link ++ links l.text := by
  induction m with
  | nil => rfl
  | cons st m ih =>
      obtain ⟨hst, hm⟩ := isReadable_cons.1 h
      have hrest : Spot.start.links (Module.text (m ++ l)).toList =
          (Module.imports m).map Import.link ++ links l.text := ih hm
      have himports : Module.imports (st :: m) = Module.imports [st] ++ Module.imports m :=
        List.filterMap_append (l := [st])
      rw [links, List.cons_append, toList_text_cons, hst.links_lines, hrest, himports, List.map_append,
        List.append_assoc]

theorem Module.links_text (h : m.IsReadable) : links m.text = m.imports.map Import.link := by
  have hnil : links (Module.text []) = [] := rfl
  have happend := links_append h []
  rwa [List.append_nil, hnil, List.append_nil] at happend

end ApiScaffold.TypeScript
