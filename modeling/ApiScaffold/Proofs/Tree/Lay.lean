import ApiScaffold.Proofs.Tree.Make

namespace ApiScaffold

/-- A folder that is made where it is missing, or a file that is written with the folders above it. -/
inductive Step
  | folder (q : List String)
  | file (q : List String) (text : String)

namespace Step

def parts : Step → List String
  | folder q => q
  | file q _ => q

def above : Step → List String
  | folder q => q
  | file q _ => q.dropLast

def text? (q : List String) : Step → Option String
  | folder _ => none
  | file p c => if p = q then some c else none

structure Proper (s : Step) : Prop where
  dots : ".." ∉ s.parts
  file_ne : ∀ q c, s = file q c → q ≠ []

end Step

namespace Tree

variable {t t' t₁ t₂ : Tree} {l m : Location} {q r : List String} {x : String} {here : Location} {root : Path}
  {as bs ss : List Step} {s : Step}

def made : Except Failure Unit × Tree → Option Tree
  | (.ok (), t) => some t
  | (.error _, _) => none

def act (here : Location) (root : Path) (t : Tree) : Step → Option Tree
  | .folder q => made (makeBelow here root q t)
  | .file q c => (made (makeBelow here root q.dropLast t)).bind fun t =>
      (t.write here (root.below q) (.text c)).toOption

def lay (here : Location) (root : Path) (t : Tree) (ss : List Step) : Option Tree :=
  ss.foldlM (act here root) t

def Needs (ss : List Step) (r : List String) : Prop := ∃ s ∈ ss, r <+: s.above

def written (ss : List Step) (q : List String) : Option String := (ss.filterMap (Step.text? q)).getLast?

theorem lay_append (t : Tree) (as bs : List Step) :
    lay here root t (as ++ bs) = (lay here root t as).bind fun t => lay here root t bs := List.foldlM_append

theorem needs_append : Needs (as ++ bs) r ↔ Needs as r ∨ Needs bs r := by
  simp only [Needs, List.mem_append, or_and_right, exists_or]

theorem written_append (as bs : List Step) (q : List String) :
    written (as ++ bs) q = (written bs q).or (written as q) := by
  rw [written, List.filterMap_append, List.getLast?_append]
  rfl

theorem written_eq_none : written ss q = none ↔ ∀ s ∈ ss, s.text? q = none := by
  rw [written, List.getLast?_eq_none_iff, List.filterMap_eq_nil_iff]

structure Possible (root : Path) (t : Tree) (l : Location) (ss : List Step) : Prop where
  folderFits : ∀ r, Needs ss r → Fits root r
  fileFits : ∀ q, written ss q ≠ none → Fits root q
  noFile : ∀ r, Needs ss r → ∀ c, node? t (l ++ r) ≠ some (.file c)
  noFolder : ∀ q, written ss q ≠ none → node? t (l ++ q) ≠ some .directory
  apart : ∀ q, written ss q ≠ none → ¬Needs ss q

/-- What the steps leave of the tree `t`. -/
structure Laid (t t' : Tree) (l : Location) (ss : List Step) : Prop where
  file : ∀ q c, written ss q = some c → node? t' (l ++ q) = some (.file (.text c))
  folder : ∀ r, Needs ss r → written ss r = none → node? t' (l ++ r) = some .directory
  rest : ∀ m, (∀ q, m = l ++ q → written ss q = none ∧ ¬Needs ss q) → node? t' m = node? t m

theorem Laid.node?_cases (h : Laid t t' l ss) (q : List String) :
    (∃ c, written ss q = some c ∧ node? t' (l ++ q) = some (.file (.text c))) ∨
      written ss q = none ∧ (Needs ss q ∧ node? t' (l ++ q) = some .directory ∨
        ¬Needs ss q ∧ node? t' (l ++ q) = node? t (l ++ q)) := by
  cases hw : written ss q with
  | some c => exact .inl ⟨c, rfl, h.file q c hw⟩
  | none =>
      refine .inr ⟨rfl, ?_⟩
      by_cases hn : Needs ss q
      · exact .inl ⟨hn, h.folder q hn hw⟩
      · refine .inr ⟨hn, h.rest _ fun r hr => ?_⟩
        rw [← List.append_cancel_left hr]
        exact ⟨hw, hn⟩

theorem Possible.left (h : Possible root t l (as ++ bs)) : Possible root t l as := by
  have hneeds : ∀ r, Needs as r → Needs (as ++ bs) r := fun r hr => needs_append.2 (.inl hr)
  have hwritten : ∀ q, written as q ≠ none → written (as ++ bs) q ≠ none := by
    intro q hq
    rw [written_append, Ne, Option.or_eq_none_iff]
    exact fun hn => hq hn.2
  exact ⟨fun r hr => h.folderFits r (hneeds r hr), fun q hq => h.fileFits q (hwritten q hq),
    fun r hr => h.noFile r (hneeds r hr), fun q hq => h.noFolder q (hwritten q hq),
    fun q hq hn => h.apart q (hwritten q hq) (hneeds q hn)⟩

theorem Possible.right (h : Possible root t l (as ++ bs)) (hl : Laid t t₁ l as) : Possible root t₁ l bs := by
  have hneeds : ∀ r, Needs bs r → Needs (as ++ bs) r := fun r hr => needs_append.2 (.inr hr)
  have hwritten : ∀ q, written bs q ≠ none → written (as ++ bs) q ≠ none := by
    intro q hq
    rw [written_append, Ne, Option.or_eq_none_iff]
    exact fun hn => hq hn.1
  refine ⟨fun r hr => h.folderFits r (hneeds r hr), fun q hq => h.fileFits q (hwritten q hq), fun r hr c => ?_,
    fun q hq => ?_, fun q hq hn => h.apart q (hwritten q hq) (hneeds q hn)⟩
  · rcases hl.node?_cases r with ⟨d, hd, -⟩ | ⟨-, ⟨-, hn⟩ | ⟨-, hn⟩⟩
    · refine absurd (hneeds r hr) (h.apart r ?_)
      rw [written_append, Ne, Option.or_eq_none_iff, hd]
      exact fun e => by cases e.2
    · rw [hn]
      exact fun e => by cases e
    · rw [hn]
      exact h.noFile r (hneeds r hr) c
  · rcases hl.node?_cases q with ⟨d, -, hn⟩ | ⟨-, ⟨hq', -⟩ | ⟨-, hn⟩⟩
    · rw [hn]
      exact fun e => by cases e
    · exact absurd (needs_append.2 (.inl hq')) (h.apart q (hwritten q hq))
    · rw [hn]
      exact h.noFolder q (hwritten q hq)

theorem Possible.append (ha : Possible root t l as) (hl : Laid t t₁ l as) (hb : Possible root t₁ l bs) :
    Possible root t l (as ++ bs) := by
  have hwritten : ∀ q, written (as ++ bs) q ≠ none → written as q ≠ none ∨ written bs q ≠ none := by
    intro q hq
    rw [written_append, Ne, Option.or_eq_none_iff] at hq
    by_cases hn : written as q = none
    · exact .inr fun hn' => hq ⟨hn', hn⟩
    · exact .inl hn
  refine ⟨fun r hr => ?_, fun q hq => ?_, fun r hr c => ?_, fun q hq => ?_, fun q hq hn => ?_⟩
  · exact (needs_append.1 hr).elim (ha.folderFits r) (hb.folderFits r)
  · exact (hwritten q hq).elim (ha.fileFits q) (hb.fileFits q)
  · rcases needs_append.1 hr with hr | hr
    · exact ha.noFile r hr c
    · rcases hl.node?_cases r with ⟨d, -, hn⟩ | ⟨-, ⟨hr', -⟩ | ⟨-, hn⟩⟩
      · exact absurd hn (hb.noFile r hr _)
      · exact ha.noFile r hr' c
      · exact hn ▸ hb.noFile r hr c
  · rcases hwritten q hq with hq | hq
    · exact ha.noFolder q hq
    · rcases hl.node?_cases q with ⟨d, hd, -⟩ | ⟨-, ⟨-, hn⟩ | ⟨-, hn⟩⟩
      · exact ha.noFolder q fun e => by rw [hd] at e; cases e
      · exact absurd hn (hb.noFolder q hq)
      · exact hn ▸ hb.noFolder q hq
  · rcases hl.node?_cases q with ⟨d, hd, hnode⟩ | ⟨hnone, hcase⟩
    · have hwas : written as q ≠ none := fun e => by rw [hd] at e; cases e
      rcases needs_append.1 hn with hn | hn
      · exact ha.apart q hwas hn
      · exact hb.noFile q hn _ hnode
    · have hwbs := (hwritten q hq).resolve_left fun hne => hne hnone
      rcases needs_append.1 hn with hn | hn
      · rcases hcase with ⟨-, hdir⟩ | ⟨hnot, -⟩
        · exact hb.noFolder q hwbs hdir
        · exact hnot hn
      · exact hb.apart q hwbs hn

theorem Laid.append (ha : Laid t t₁ l as) (hb : Laid t₁ t₂ l bs) (h : Possible root t l (as ++ bs)) :
    Laid t t₂ l (as ++ bs) := by
  refine ⟨fun q c hw => ?_, fun r hr hw => ?_, fun m hm => ?_⟩
  · have happ := hw
    rw [written_append] at happ
    rcases hb.node?_cases q with ⟨d, hd, hn⟩ | ⟨hnone, hcase⟩
    · rw [hd] at happ
      cases happ
      exact hn
    · rw [hnone, Option.none_or] at happ
      rcases hcase with ⟨hneeds, -⟩ | ⟨-, hsame⟩
      · refine absurd (needs_append.2 (.inr hneeds)) (h.apart q fun e => ?_)
        rw [hw] at e
        cases e
      · rw [hsame, ha.file q c happ]
  · rw [written_append, Option.or_eq_none_iff] at hw
    rcases hb.node?_cases r with ⟨d, hd, -⟩ | ⟨-, ⟨-, hdir⟩ | ⟨hnot, hsame⟩⟩
    · rw [hw.1] at hd
      cases hd
    · exact hdir
    · rw [hsame]
      exact ha.folder r ((needs_append.1 hr).resolve_right hnot) hw.2
  · have hm' : ∀ q, m = l ++ q → (written bs q = none ∧ written as q = none) ∧ ¬Needs as q ∧ ¬Needs bs q := by
      intro q hq
      obtain ⟨hw, hn⟩ := hm q hq
      rw [written_append, Option.or_eq_none_iff] at hw
      rw [needs_append, not_or] at hn
      exact ⟨hw, hn⟩
    rw [hb.rest m fun q hq => ⟨(hm' q hq).1.1, (hm' q hq).2.2⟩,
      ha.rest m fun q hq => ⟨(hm' q hq).1.2, (hm' q hq).2.1⟩]

theorem Laid.keeps (h : Laid t t' l ss) (hp : Possible root t l ss) : Keeps t t' := by
  intro m hm
  by_cases hq : ∃ q, m = l ++ q
  · obtain ⟨q, rfl⟩ := hq
    rcases h.node?_cases q with ⟨c, hc, -⟩ | ⟨-, ⟨-, hn⟩ | ⟨-, hn⟩⟩
    · exact absurd hm (hp.noFolder q fun e => by rw [hc] at e; cases e)
    · exact hn
    · rw [hn, hm]
  · rw [h.rest m fun q he => absurd ⟨q, he⟩ hq, hm]

theorem needs_singleton : Needs [s] r ↔ r <+: s.above := by simp [Needs]

theorem written_singleton (s : Step) (q : List String) : written [s] q = s.text? q := by
  cases h : s.text? q <;> simp [written, h]

theorem laid_folder (h : Made t t' l q) : Laid t t' l [.folder q] where
  file p c hw := by
    rw [written_singleton] at hw
    cases hw
  folder r hr _ := h.paved r (needs_singleton.1 hr)
  rest m hm := h.node?_eq m fun r hr he => (hm r he).2 (needs_singleton.2 hr)

theorem act_folder (h : Rooted here root l t) (hs : (Step.folder q).Proper)
    (hp : Possible root t l [.folder q]) :
    ∃ t', act here root t (.folder q) = some t' ∧ Laid t t' l [.folder q] := by
  have hfit := hp.folderFits q (needs_singleton.2 (List.prefix_refl q))
  obtain ⟨t', hmake, hmade⟩ := makeBelow_ok h hfit hs.dots fun r hr => hp.noFile r (needs_singleton.2 hr)
  exact ⟨t', by rw [act, hmake]; rfl, laid_folder hmade⟩

theorem possible_folder (h : Rooted here root l t) (hs : (Step.folder q).Proper)
    (hnull : (root.below q).hasNull = false) (hact : act here root t (.folder q) = some t') :
    Possible root t l [.folder q] := by
  have hmake : makeBelow here root q t = (.ok (), t') := by
    rw [act] at hact
    rcases hm : makeBelow here root q t with ⟨r, t₁⟩
    rw [hm] at hact
    cases r with
    | error f => cases hact
    | ok u =>
        cases hact
        rfl
  obtain ⟨hfit, hopen⟩ := open_of_makeBelow h hnull hs.dots hmake
  have hw : ∀ p, written [.folder q] p = none := fun p => written_singleton _ p
  exact ⟨fun r hr => hfit.of_prefix (needs_singleton.1 hr), fun p hp => absurd (hw p) hp,
    fun r hr => hopen r (needs_singleton.1 hr), fun p hp => absurd (hw p) hp, fun p hp => absurd (hw p) hp⟩

variable {c : String}

theorem needs_file : Needs [.file (q ++ [x]) c] r ↔ r <+: q := by
  rw [needs_singleton, Step.above, List.dropLast_concat]

theorem written_file : written [.file q c] r = if q = r then some c else none := written_singleton _ r

theorem not_concat_prefix (q : List String) (x : String) : ¬q ++ [x] <+: q := by
  intro h
  have hlen := h.length_le
  rw [List.length_append, List.length_singleton] at hlen
  omega

theorem act_file (h : Rooted here root l t) (hs : (Step.file (q ++ [x]) c).Proper)
    (hp : Possible root t l [.file (q ++ [x]) c]) :
    ∃ t', act here root t (.file (q ++ [x]) c) = some t' ∧ Laid t t' l [.file (q ++ [x]) c] := by
  have hw : written [.file (q ++ [x]) c] (q ++ [x]) = some c := by rw [written_file, if_pos rfl]
  have hwne : written [.file (q ++ [x]) c] (q ++ [x]) ≠ none := fun e => by rw [hw] at e; cases e
  have hfit := hp.fileFits _ hwne
  have hdots : ".." ∉ q ++ [x] := hs.dots
  obtain ⟨t₁, hmake, hmade⟩ := makeBelow_ok h (hfit.of_prefix (List.prefix_append q [x]))
    (fun hm => hdots (by simp [hm])) fun r hr => hp.noFile r (needs_file.2 hr)
  have hn : node? t₁ (l ++ (q ++ [x])) ≠ some .directory := by
    rw [hmade.node?_concat]
    exact hp.noFolder _ hwne
  have hwrite := write_below (h.of_keeps hmade.keeps) hfit hdots hmade.paved hn (.text c)
  have hput := node?_put (n := .file (.text c)) hn
  refine ⟨_, by rw [act, List.dropLast_concat, hmake, made, Option.bind_some, hwrite]; rfl,
    fun p d hd => ?_, fun r hr hwr => ?_, fun m hm => ?_⟩
  · rw [written_file] at hd
    split at hd
    next he =>
      cases hd
      rw [hput, if_pos (by rw [he])]
    next => cases hd
  · rw [hput, if_neg fun he => ?_]
    · exact hmade.paved r (needs_file.1 hr)
    · rw [List.append_cancel_left he] at hwr
      exact hwne hwr
  · rw [hput, if_neg fun he => hwne (hm _ he).1]
    exact hmade.node?_eq m fun r hr he => (hm r he).2 (needs_file.2 hr)

theorem of_made {e : Except Failure Unit × Tree} (h : made e = some t) : e = (.ok (), t) := by
  rcases e with ⟨r, t₁⟩
  cases r with
  | error f => cases h
  | ok u =>
      cases h
      rfl

theorem act_file_inv (h : act here root t (.file (q ++ [x]) c) = some t') :
    ∃ t₁, makeBelow here root q t = (.ok (), t₁) ∧
      t₁.write here (root.below (q ++ [x])) (.text c) = .ok t' := by
  rw [act, List.dropLast_concat] at h
  obtain ⟨t₁, hmake, hwrite⟩ := Option.bind_eq_some_iff.1 h
  refine ⟨t₁, of_made hmake, ?_⟩
  cases hw : t₁.write here (root.below (q ++ [x])) (.text c) with
  | error f =>
      rw [hw] at hwrite
      cases hwrite
  | ok t₂ =>
      rw [hw] at hwrite
      cases hwrite
      rfl

theorem possible_file (h : Rooted here root l t) (hs : (Step.file (q ++ [x]) c).Proper)
    (hact : act here root t (.file (q ++ [x]) c) = some t') : Possible root t l [.file (q ++ [x]) c] := by
  obtain ⟨t₁, hmake, hwrite⟩ := act_file_inv hact
  have hdots : ".." ∉ q ++ [x] := hs.dots
  have hdots' : ".." ∉ q := fun hm => hdots (by simp [hm])
  have hnull : (root.below q).hasNull = false := by
    have hall := (leads_of_write hwrite).1
    rw [Path.below_append, Path.hasNull_below, Bool.or_eq_false_iff] at hall
    exact hall.1
  obtain ⟨hfit', hopen⟩ := open_of_makeBelow h hnull hdots' hmake
  obtain ⟨t₂, hmake', hmade⟩ := makeBelow_ok h hfit' hdots' hopen
  rw [hmake] at hmake'
  cases hmake'
  obtain ⟨hfit, hn⟩ := fits_of_write (h.of_keeps hmade.keeps) hdots hwrite
  have hw : ∀ p, written [.file (q ++ [x]) c] p ≠ none → p = q ++ [x] := by
    intro p hp
    rw [written_file] at hp
    exact (Classical.byContradiction fun hne => hp (if_neg fun e => hne e.symm))
  refine ⟨fun r hr => hfit'.of_prefix (needs_file.1 hr), fun p hp => hw p hp ▸ hfit,
    fun r hr => hopen r (needs_file.1 hr), fun p hp => ?_, fun p hp hneeds => ?_⟩
  · rw [hw p hp, ← hmade.node?_concat]
    exact hn
  · rw [hw p hp, needs_file] at hneeds
    exact not_concat_prefix q x hneeds

theorem act_ok (h : Rooted here root l t) (hs : s.Proper) (hp : Possible root t l [s]) :
    ∃ t', act here root t s = some t' ∧ Laid t t' l [s] := by
  cases s with
  | folder q => exact act_folder h hs hp
  | file q c =>
      obtain ⟨p, x, rfl⟩ := (List.eq_nil_or_concat' q).resolve_left (hs.file_ne q c rfl)
      exact act_file h hs hp

theorem possible_of_act (h : Rooted here root l t) (hs : s.Proper)
    (hnull : (root.below s.above).hasNull = false) (hact : act here root t s = some t') :
    Possible root t l [s] := by
  cases s with
  | folder q => exact possible_folder h hs hnull hact
  | file q c =>
      obtain ⟨p, x, rfl⟩ := (List.eq_nil_or_concat' q).resolve_left (hs.file_ne q c rfl)
      exact possible_file h hs hact

theorem possible_nil : Possible root t l [] where
  folderFits r hr := by obtain ⟨s, hs, -⟩ := hr; cases hs
  fileFits q hq := absurd rfl hq
  noFile r hr := by obtain ⟨s, hs, -⟩ := hr; cases hs
  noFolder q hq := absurd rfl hq
  apart q hq := absurd rfl hq

theorem laid_nil : Laid t t l [] where
  file q c hq := by cases hq
  folder r hr := by obtain ⟨s, hs, -⟩ := hr; cases hs
  rest _ _ := rfl

/-- What is possible is done. -/
theorem lay_ok (h : Rooted here root l t) (hs : ∀ s ∈ ss, s.Proper) (hp : Possible root t l ss) :
    ∃ t', lay here root t ss = some t' ∧ Laid t t' l ss := by
  induction ss generalizing t with
  | nil => exact ⟨t, rfl, laid_nil⟩
  | cons s ss ih =>
      have happ : Possible root t l ([s] ++ ss) := hp
      obtain ⟨t₁, hact, hl⟩ := act_ok h (hs s (by simp)) happ.left
      obtain ⟨t', hlay, hl'⟩ := ih (h.of_keeps (hl.keeps happ.left)) (fun s hm => hs s (by simp [hm]))
        (happ.right hl)
      refine ⟨t', ?_, hl.append hl' happ⟩
      rw [lay, List.foldlM_cons, hact]
      exact hlay

/-- What has been done was possible, in whatever order. -/
theorem possible_of_lay (h : Rooted here root l t) (hs : ∀ s ∈ ss, s.Proper)
    (hnull : ∀ r, Needs ss r → (root.below r).hasNull = false) (hlay : lay here root t ss = some t') :
    Possible root t l ss := by
  induction ss generalizing t with
  | nil => exact possible_nil
  | cons s ss ih =>
      rw [lay, List.foldlM_cons] at hlay
      obtain ⟨t₁, hact, hrest⟩ := Option.bind_eq_some_iff.1 hlay
      have hone := possible_of_act h (hs s (by simp))
        (hnull s.above ⟨s, by simp, List.prefix_refl _⟩) hact
      obtain ⟨t₂, hact', hl⟩ := act_ok h (hs s (by simp)) hone
      rw [hact] at hact'
      cases hact'
      refine hone.append hl (ih (h.of_keeps (hl.keeps hone)) (fun s hm => hs s (by simp [hm])) ?_ hrest)
      rintro r ⟨s, hm, hr⟩
      exact hnull r ⟨s, by simp [hm], hr⟩

theorem mem_of_written (h : written ss q ≠ none) : ∃ c, .file q c ∈ ss := by
  rw [Ne, written_eq_none] at h
  simp only [not_forall] at h
  obtain ⟨s, hs, hne⟩ := h
  cases s with
  | folder p => exact absurd rfl hne
  | file p c =>
      refine ⟨c, ?_⟩
      rw [Step.text?] at hne
      split at hne
      next he => exact he ▸ hs
      next => exact absurd rfl hne

theorem noNull_of_lay (hs : ∀ s ∈ ss, s.Proper) (hlay : lay here root t ss = some t')
    (hq : written ss q ≠ none) : (root.below q).hasNull = false := by
  obtain ⟨c, hm⟩ := mem_of_written hq
  clear hq
  induction ss generalizing t with
  | nil => cases hm
  | cons s ss ih =>
      rw [lay, List.foldlM_cons] at hlay
      obtain ⟨t₁, hact, hrest⟩ := Option.bind_eq_some_iff.1 hlay
      rcases List.mem_cons.1 hm with rfl | hm
      · obtain ⟨p, x, rfl⟩ := (List.eq_nil_or_concat' q).resolve_left ((hs _ (by simp)).file_ne q c rfl)
        obtain ⟨t₂, -, hwrite⟩ := act_file_inv hact
        exact (leads_of_write hwrite).1
      · exact ih (fun s hm => hs s (by simp [hm])) hrest hm

/-- The same folders are needed, and the same text is written last to each file. -/
structure Alike (as bs : List Step) : Prop where
  needs : ∀ r, Needs as r ↔ Needs bs r
  written : ∀ q, written as q = written bs q

theorem Alike.refl (ss : List Step) : Alike ss ss := ⟨fun _ => .rfl, fun _ => rfl⟩

theorem Alike.symm (h : Alike as bs) : Alike bs as := ⟨fun r => (h.needs r).symm, fun q => (h.written q).symm⟩

theorem Alike.trans {cs : List Step} (h : Alike as bs) (h' : Alike bs cs) : Alike as cs :=
  ⟨fun r => (h.needs r).trans (h'.needs r), fun q => (h.written q).trans (h'.written q)⟩

theorem Alike.append {cs : List Step} (h : Alike as bs) : Alike (as ++ cs) (bs ++ cs) where
  needs r := by rw [needs_append, needs_append, h.needs]
  written q := by rw [written_append, written_append, h.written]

theorem Possible.of_alike (h : Alike as bs) (hp : Possible root t l as) : Possible root t l bs where
  folderFits r hr := hp.folderFits r ((h.needs r).2 hr)
  fileFits q hq := hp.fileFits q (h.written q ▸ hq)
  noFile r hr := hp.noFile r ((h.needs r).2 hr)
  noFolder q hq := hp.noFolder q (h.written q ▸ hq)
  apart q hq hn := hp.apart q (h.written q ▸ hq) ((h.needs q).2 hn)

theorem Alike.node?_eq (h : Alike as bs) (ha : Laid t t₁ l as) (hb : Laid t t₂ l bs) (m : Location) :
    node? t₁ m = node? t₂ m := by
  by_cases hm : ∃ q, m = l ++ q
  · obtain ⟨q, rfl⟩ := hm
    rcases ha.node?_cases q with ⟨c, hc, hn⟩ | ⟨hnone, ⟨hq, hn⟩ | ⟨hq, hn⟩⟩
    · rw [hn, hb.file q c (h.written q ▸ hc)]
    · rw [hn, hb.folder q ((h.needs q).1 hq) (h.written q ▸ hnone)]
    · rw [hn, hb.rest _ fun p hp => ?_]
      rw [← List.append_cancel_left hp]
      exact ⟨h.written q ▸ hnone, fun hn => hq ((h.needs q).2 hn)⟩
  · rw [ha.rest m fun q he => absurd ⟨q, he⟩ hm, hb.rest m fun q he => absurd ⟨q, he⟩ hm]

def Vouched (root : Path) (ss : List Step) : Prop :=
  (∀ q, written ss q ≠ none → (root.below q).hasNull = false) →
    ∀ r, Needs ss r → (root.below r).hasNull = false

theorem Vouched.of_alike (h : Alike as bs) (hv : Vouched root as) : Vouched root bs := by
  intro hw r hr
  exact hv (fun q hq => hw q (h.written q ▸ hq)) r ((h.needs r).2 hr)

theorem laid_of_lay (h : Rooted here root l t) (hs : ∀ s ∈ ss, s.Proper) (hv : Vouched root ss)
    (hlay : lay here root t ss = some t') : Possible root t l ss ∧ Laid t t' l ss := by
  have hp := possible_of_lay h hs (hv fun q hq => noNull_of_lay hs hlay hq) hlay
  obtain ⟨t₁, hlay', hl⟩ := lay_ok h hs hp
  rw [hlay] at hlay'
  cases hlay'
  exact ⟨hp, hl⟩

/-- Steps that come to the same can be gone through alike, and leave the same. -/
theorem lay_alike (h : Rooted here root l t) (hv : Vouched root as) (ha : ∀ s ∈ as, s.Proper)
    (hb : ∀ s ∈ bs, s.Proper) (hab : Alike as bs) (hlay : lay here root t as = some t₁) :
    ∃ t₂, lay here root t bs = some t₂ ∧ ∀ m, node? t₁ m = node? t₂ m := by
  obtain ⟨hp, hl⟩ := laid_of_lay h ha hv hlay
  obtain ⟨t₂, hlay', hl'⟩ := lay_ok h hb (hp.of_alike hab)
  exact ⟨t₂, hlay', hab.node?_eq hl hl'⟩

theorem lay_agree (h : Rooted here root l t) (hv : Vouched root as) (ha : ∀ s ∈ as, s.Proper)
    (hb : ∀ s ∈ bs, s.Proper) (hab : Alike as bs) :
    (lay here root t as).isSome = (lay here root t bs).isSome ∧
      ∀ t₁ ∈ lay here root t as, ∀ t₂ ∈ lay here root t bs, ∀ m, node? t₁ m = node? t₂ m := by
  constructor
  · rw [Bool.eq_iff_iff, Option.isSome_iff_exists, Option.isSome_iff_exists]
    constructor
    · rintro ⟨t₁, hlay⟩
      obtain ⟨t₂, hlay', -⟩ := lay_alike h hv ha hb hab hlay
      exact ⟨t₂, hlay'⟩
    · rintro ⟨t₂, hlay⟩
      obtain ⟨t₁, hlay', -⟩ := lay_alike h (hv.of_alike hab) hb ha hab.symm hlay
      exact ⟨t₁, hlay'⟩
  · intro t₁ h₁ t₂ h₂
    obtain ⟨t₃, h₃, hnode⟩ := lay_alike h hv ha hb hab h₁
    obtain rfl : t₃ = t₂ := Option.some.inj (h₃.symm.trans h₂)
    exact hnode

end Tree

end ApiScaffold
