import ApiScaffold.Proofs.CommandLine.Clauses

namespace ApiScaffold.CommandLine

variable {f : Flag} {c : Clause} {cs : List Clause} {e : Entry} {es : List Entry} {r : Reading} {n s : String}
  {declared : List (String × Option String)} {spec : Option String}

namespace Reading

def startWith (values : List (Option String)) : Reading := { start with positionals := values }

def hear (r : Reading) (c : Clause) : Except Halt Reading := r.obey .project c.event

def switch (r : Reading) : Flag → Reading
  | .verbose => { r with verbose := true }
  | .noColor => { r with noColor := true }
  | .skipInstall => { r with skipInstall := true }
  | .skipChecks => { r with skipChecks := true }
  | .help | .feature | .fields | .config => r

theorem ofEvents_clauses (values : List (Option String)) (cs : List Clause) :
    ofEvents .project (.positionals values :: cs.map Clause.event) =
      cs.foldlM hear (startWith values) := by
  change (cs.map Clause.event).foldlM (obey .project) (startWith values) = _
  rw [List.foldlM_map]
  rfl

theorem hear_switch (hf : f.isSwitch = true) (n : String) (r : Reading) :
    r.hear (.switch f n) = .ok (r.switch f) := by
  cases f with
  | verbose | noColor | skipInstall | skipChecks => rfl
  | help | feature | fields | config => cases hf

theorem switch_of_option (hf : f.isSwitch = false) (r : Reading) : r.switch f = r := by
  cases f with
  | verbose | noColor | skipInstall | skipChecks => cases hf
  | help | feature | fields | config => rfl

theorem switch_comm (f g : Flag) (r : Reading) : (r.switch f).switch g = (r.switch g).switch f := by
  cases f <;> cases g <;> rfl

theorem features_switch (f : Flag) (r : Reading) : (r.switch f).features = r.features := by
  cases f <;> rfl

theorem withFeatures_switch (f : Flag) (r : Reading) (fs : List (String × Option String)) :
    { r.switch f with features := fs } = ({ r with features := fs } : Reading).switch f := by
  cases f <;> rfl

theorem addFeature_switch (f : Flag) (r : Reading) (v : Option String) :
    (r.switch f).addFeature v = (r.addFeature v).map (·.switch f) := by
  rw [addFeature, addFeature]
  split
  · rfl
  · rw [withFeatures_switch, features_switch]
    rfl

theorem addFields_switch (f : Flag) (r : Reading) (v : Option String) :
    (r.switch f).addFields v = (r.addFields v).map (·.switch f) := by
  rw [addFields, addFields, features_switch]
  split
  · rfl
  · rfl
  · rw [withFeatures_switch]
    rfl

theorem hear_of_switch (hc : c.IsWellFormed) (f : Flag) (r : Reading) :
    (r.switch f).hear c = (r.hear c).map (·.switch f) := by
  cases c with
  | switch g n =>
      rw [hear_switch hc.1, hear_switch hc.1, switch_comm]
      rfl
  | feature v => exact addFeature_switch f r v
  | fields v => exact addFields_switch f r v

theorem foldlM_switch (hcs : ∀ c ∈ cs, c.IsWellFormed) (f : Flag) (r : Reading) :
    cs.foldlM hear (r.switch f) = (cs.foldlM hear r).map (·.switch f) := by
  induction cs generalizing r with
  | nil => rfl
  | cons c cs ih =>
      obtain ⟨hc, hcs⟩ := List.forall_mem_cons.1 hcs
      rw [List.foldlM_cons, List.foldlM_cons, hear_of_switch hc]
      cases r.hear c with
      | error h => rfl
      | ok r' => exact ih hcs r'

/-- Wherever the switches stand, the other options are obeyed as without them. -/
theorem foldlM_apart (hcs : ∀ c ∈ cs, c.IsWellFormed) (r : Reading) :
    cs.foldlM hear r =
      ((cs.filter fun c => !c.flag.isSwitch).foldlM hear r).map fun r => (cs.map Clause.flag).foldl switch r := by
  induction cs generalizing r with
  | nil => rfl
  | cons c cs ih =>
      obtain ⟨hc, hcs⟩ := List.forall_mem_cons.1 hcs
      rw [List.foldlM_cons, List.map_cons]
      cases hswitch : c.flag.isSwitch with
      | true =>
          have hhear : r.hear c = .ok (r.switch c.flag) := by
            cases c with
            | switch f n => exact hear_switch hswitch n r
            | feature v => cases hswitch
            | fields v => cases hswitch
          have hfilter : ∀ d ∈ cs.filter fun c => !c.flag.isSwitch, d.IsWellFormed :=
            fun d hd => hcs d (List.mem_filter.1 hd).1
          rw [hhear, List.filter_cons_of_neg (by simp [hswitch])]
          change cs.foldlM hear (r.switch c.flag) = _
          rw [ih hcs, foldlM_switch hfilter]
          cases (cs.filter fun c => !c.flag.isSwitch).foldlM hear r <;> rfl
      | false =>
          rw [List.filter_cons_of_pos (by simp [hswitch]), List.foldlM_cons]
          cases r.hear c with
          | error h => rfl
          | ok r' =>
              change cs.foldlM hear r' = ((cs.filter fun c => !c.flag.isSwitch).foldlM hear r').map _
              rw [ih hcs]
              simp only [List.foldl_cons, switch_of_option hswitch]

theorem foldl_switch (fs : List Flag) (r : Reading) : fs.foldl switch r =
    { r with
      verbose := r.verbose || decide (.verbose ∈ fs)
      noColor := r.noColor || decide (.noColor ∈ fs)
      skipInstall := r.skipInstall || decide (.skipInstall ∈ fs)
      skipChecks := r.skipChecks || decide (.skipChecks ∈ fs) } := by
  induction fs generalizing r with
  | nil => simp
  | cons f fs ih =>
      rw [List.foldl_cons, ih]
      cases f <;> simp [switch]

theorem addFeature_some (hn : n ≠ "") (r : Reading) :
    r.addFeature (some n) = .ok { r with features := r.features ++ [(n, none)] } := by
  rw [addFeature]
  split
  next h => exact absurd h hn
  next => rfl

theorem addFields_some (hs : s ≠ "") (h : r.features = declared ++ [(n, spec)]) :
    r.addFields (some s) = .ok { r with features := declared ++ [(n, some s)] } := by
  have hreverse : r.features.reverse = (n, spec) :: declared.reverse := by rw [h, List.reverse_concat]
  rw [addFields, hreverse]
  split
  next heq => cases heq
  next hempty _ => exact absurd hempty hs
  next heq _ =>
    cases heq
    rw [List.reverse_reverse]
    rfl

theorem foldlM_specs {specs : List String} (hspecs : ∀ s ∈ specs, s ≠ "") (h : r.features = declared ++ [(n, spec)]) :
    (specs.map fun s => Clause.fields (some s)).foldlM hear r =
      .ok { r with features := declared ++ [(n, specs.getLast?.or spec)] } := by
  induction specs generalizing r spec with
  | nil =>
      rw [List.getLast?_nil, Option.none_or, ← h]
      rfl
  | cons s specs ih =>
      obtain ⟨hs, hspecs⟩ := List.forall_mem_cons.1 hspecs
      have hhear : r.hear (.fields (some s)) = .ok { r with features := declared ++ [(n, some s)] } :=
        addFields_some hs h
      have hlast : (s :: specs).getLast?.or spec = specs.getLast?.or (some s) := by
        rw [List.getLast?_cons]
        cases specs.getLast? <;> rfl
      rw [List.map_cons, List.foldlM_cons, hhear, hlast]
      exact ih hspecs rfl

theorem foldlM_entry (he : e.IsFilled) (r : Reading) :
    e.clauses.foldlM hear r = .ok { r with features := r.features ++ [e.declared] } := by
  have hhear : r.hear (.feature (some e.name)) = .ok { r with features := r.features ++ [(e.name, none)] } :=
    addFeature_some he.name r
  have hspecs := foldlM_specs (r := { r with features := r.features ++ [(e.name, none)] }) he.specs rfl
  rw [Option.or_none] at hspecs
  rw [Entry.clauses, List.foldlM_cons, hhear]
  exact hspecs

theorem foldlM_entries (hes : ∀ e ∈ es, e.IsFilled) (r : Reading) :
    (es.flatMap Entry.clauses).foldlM hear r = .ok { r with features := r.features ++ es.map Entry.declared } := by
  induction es generalizing r with
  | nil =>
      rw [List.map_nil, List.append_nil]
      rfl
  | cons e es ih =>
      obtain ⟨he, hes⟩ := List.forall_mem_cons.1 hes
      rw [List.flatMap_cons, List.foldlM_append, foldlM_entry he]
      refine (ih hes _).trans ?_
      rw [List.map_cons, List.append_assoc]
      rfl

theorem hear_ends (hc : c.IsWellFormed) (r : Reading) :
    (∃ r', r.hear c = .ok r' ∧ (c.flag ≠ .feature → r.features = [] → r'.features = [])) ∨
      ∃ message, r.hear c = .error (.usage message) := by
  cases c with
  | switch f n => exact .inl ⟨_, hear_switch hc.1 n r, fun _ h => (features_switch f r).trans h⟩
  | feature v =>
      change (∃ r', r.addFeature v = .ok r' ∧ _) ∨ ∃ message, r.addFeature v = _
      rw [addFeature]
      split
      · exact .inr ⟨_, rfl⟩
      · exact .inl ⟨_, rfl, fun h => absurd rfl h⟩
  | fields v =>
      change (∃ r', r.addFields v = .ok r' ∧ _) ∨ ∃ message, r.addFields v = _
      rw [addFields]
      split
      · exact .inr ⟨_, rfl⟩
      · exact .inr ⟨_, rfl⟩
      next heq _ => exact .inl ⟨_, rfl, fun _ hnone => by rw [hnone] at heq; cases heq⟩

theorem foldlM_ends (hcs : ∀ c ∈ cs, c.IsWellFormed) (r : Reading) :
    (∃ r', cs.foldlM hear r = .ok r' ∧ ((∀ c ∈ cs, c.flag ≠ .feature) → r.features = [] → r'.features = [])) ∨
      ∃ message, cs.foldlM hear r = .error (.usage message) := by
  induction cs generalizing r with
  | nil => exact .inl ⟨r, rfl, fun _ h => h⟩
  | cons c cs ih =>
      obtain ⟨hc, hcs⟩ := List.forall_mem_cons.1 hcs
      rw [List.foldlM_cons]
      rcases hear_ends hc r with ⟨r₁, hr₁, hfirst⟩ | ⟨message, hrefused⟩
      · rw [hr₁]
        rcases ih hcs r₁ with ⟨r₂, hr₂, hrest⟩ | ⟨message, hrefused⟩
        · refine .inl ⟨r₂, hr₂, fun hnone h => ?_⟩
          obtain ⟨hc, hcs⟩ := List.forall_mem_cons.1 hnone
          exact hrest hcs (hfirst hc h)
        · exact .inr ⟨message, hrefused⟩
      · rw [hrefused]
        exact .inr ⟨message, rfl⟩

theorem hear_fields_refused (h : r.features = [] ∨ spec.getD "" = "") :
    ∃ message, r.hear (.fields spec) = .error (.usage message) := by
  change ∃ message, r.addFields spec = _
  rw [addFields]
  split
  · exact ⟨_, rfl⟩
  · exact ⟨_, rfl⟩
  next heq hne =>
    rcases h with h | h
    · rw [h] at heq
      cases heq
    · exact absurd h hne

theorem foldlM_refused {before : List Clause} (hcs : ∀ c ∈ before, c.IsWellFormed) (hr : r.features = [])
    (h : (∀ c ∈ before, c.flag ≠ .feature) ∨ spec.getD "" = "") (after : List Clause) :
    ∃ message, (before ++ .fields spec :: after).foldlM hear r = .error (.usage message) := by
  rw [List.foldlM_append]
  rcases foldlM_ends hcs r with ⟨r', hr', hnone⟩ | ⟨message, hrefused⟩
  · obtain ⟨message, hrefused⟩ := hear_fields_refused (r := r') (h.imp_left fun h => hnone h hr)
    rw [hr']
    refine ⟨message, ?_⟩
    change (Clause.fields spec :: after).foldlM hear r' = _
    rw [List.foldlM_cons, hrefused]
    rfl
  · rw [hrefused]
    exact ⟨message, rfl⟩

end Reading

open Reading

theorem parse_clauses {p q : String} (hp : IsValue p) (hq : IsValue q) (hname : p ≠ "feature")
    (hcs : ∀ c ∈ cs, c.IsWellFormed) :
    Invocation.parse (p :: q :: cs.flatMap Clause.texts) =
      cs.foldlM hear (startWith [some p, some q]) >>= Invocation.project := by
  have hform : Invocation.formOf (p :: q :: cs.flatMap Clause.texts) =
      (.project, p :: q :: cs.flatMap Clause.texts) := by
    rw [Invocation.formOf]
    exact fun argv h => hname (List.cons.inj h).1
  rw [Invocation.parse, hform]
  dsimp only
  rw [events_clauses hp hq hcs, ofEvents_clauses]

theorem project_eq {p q : String} (hpositionals : r.positionals = [some p, some q]) (hextras : r.extras = []) :
    Invocation.project r = .ok (.ofReading r (.project p q r.features)) := by
  rw [Invocation.project, hpositionals]
  dsimp only [checkExtras]
  rw [hextras]
  rfl

/--
Behind a name and a folder, options that without the switches among them spell some entries declare these entries in
their order, and exactly the switches given are on. A specification with no feature before it, and a missing or an empty
one, is refused wherever it stands.
-/
theorem Invocation.parse_declares {p q : String} (cs : List Clause) (hp : IsValue p) (hq : IsValue q)
    (hname : p ≠ "feature") (hcs : ∀ c ∈ cs, c.IsWellFormed) :
    (∀ es : List Entry, (∀ e ∈ es, e.IsFilled) →
      cs.filter (fun c => !c.flag.isSwitch) = es.flatMap Entry.clauses →
      parse (p :: q :: cs.flatMap Clause.texts) = .ok
        { command := .project p q (es.map Entry.declared)
          config := none
          verbose := decide (.verbose ∈ cs.map Clause.flag)
          noColor := decide (.noColor ∈ cs.map Clause.flag)
          skipInstall := decide (.skipInstall ∈ cs.map Clause.flag)
          skipChecks := decide (.skipChecks ∈ cs.map Clause.flag) }) ∧
    ∀ before spec after, cs = before ++ .fields spec :: after →
      (∀ c ∈ before, c.flag ≠ .feature) ∨ spec.getD "" = "" →
      ∃ message, parse (p :: q :: cs.flatMap Clause.texts) = .error (.usage message) := by
  rw [parse_clauses hp hq hname hcs]
  refine ⟨fun es hes hentries => ?_, fun before spec after hcut hrefused => ?_⟩
  · rw [foldlM_apart hcs, hentries, foldlM_entries hes]
    change Invocation.project ((cs.map Clause.flag).foldl switch _) = _
    rw [foldl_switch, project_eq rfl rfl]
    simp [ofReading, startWith, start]
  · subst hcut
    have hbefore : ∀ c ∈ before, c.IsWellFormed := fun c hc => hcs c (List.mem_append_left _ hc)
    obtain ⟨message, hrefused⟩ := foldlM_refused (r := startWith [some p, some q]) hbefore rfl hrefused after
    rw [hrefused]
    exact ⟨message, rfl⟩

/-- Two features among switches, the first with two specifications; and a specification before its feature. -/
theorem Invocation.parse_declares_shop :
    parse ["Shop", "out", "-v", "--feature", "user", "--no-color", "--fields", "a:string", "--fields", "b:number",
      "--feature", "order", "--skip-checks"] =
        .ok ⟨.project "Shop" "out" [("user", some "b:number"), ("order", none)], none, true, true, false, true⟩ ∧
    ∃ message, parse ["Shop", "out", "-v", "--fields", "a:string", "--feature", "user"] = .error (.usage message) := by
  have hshop : IsValue "Shop" := by decide
  have hout : IsValue "out" := by decide
  refine ⟨?_, ?_⟩
  · exact (parse_declares [.switch .verbose "-v", .feature (some "user"), .switch .noColor "--no-color",
        .fields (some "a:string"), .fields (some "b:number"), .feature (some "order"),
        .switch .skipChecks "--skip-checks"] hshop hout (by decide) (by decide)).1
      [⟨"user", ["a:string", "b:number"]⟩, ⟨"order", []⟩] (by decide) rfl
  · exact (parse_declares [.switch .verbose "-v", .fields (some "a:string"), .feature (some "user")] hshop hout
        (by decide) (by decide)).2 [.switch .verbose "-v"] (some "a:string") [.feature (some "user")] rfl
      (.inl (by decide))

end ApiScaffold.CommandLine
