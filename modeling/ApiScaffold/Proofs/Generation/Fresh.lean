import ApiScaffold.Proofs.Feature.Spelling
import ApiScaffold.Proofs.Generation.Growth
import ApiScaffold.Proofs.Tree.Action

namespace ApiScaffold

namespace Path

theorem size_below_one (p : Path) (x : String) :
    (p.below [x]).text.utf8ByteSize ≤ p.text.utf8ByteSize + (x.utf8ByteSize + 1) := by
  obtain ⟨absolute, ps⟩ := p
  have hsize : ("/".intercalate (ps ++ [x])).utf8ByteSize ≤
      ("/".intercalate ps).utf8ByteSize + (x.utf8ByteSize + 1) := by
    cases ps with
    | nil => simp
    | cons p ps =>
        have hslash : "/".utf8ByteSize = 1 := by decide +kernel
        rw [String.intercalate_append_of_ne_nil (by simp) (by simp), String.utf8ByteSize_append,
          String.utf8ByteSize_append, String.intercalate_singleton, hslash]
        omega
  cases absolute with
  | true =>
      simp only [below, text, String.utf8ByteSize_append]
      omega
  | false =>
      cases ps with
      | nil =>
          simp only [below, text, List.nil_append, String.intercalate_singleton]
          omega
      | cons p ps => exact hsize

theorem size_below (p : Path) {q : List String} {k : Nat} (h : ∀ x ∈ q, x.utf8ByteSize ≤ k) :
    (p.below q).text.utf8ByteSize ≤ p.text.utf8ByteSize + q.length * (k + 1) := by
  induction q generalizing p with
  | nil => simp
  | cons x q ih =>
      obtain ⟨hx, hq⟩ := List.forall_mem_cons.1 h
      have hone := size_below_one p x
      have hrest := ih (p.below [x]) hq
      rw [← below_append, List.singleton_append] at hrest
      rw [List.length_cons, Nat.succ_mul]
      omega

/-- The path leaves room below it for places of the length that a project needs. -/
structure Roomy (p : Path) : Prop where
  noNull : p.hasNull = false
  size_lt : p.text.utf8ByteSize + 5 * (partLimit + 1) < limit

end Path

namespace Step

def Clear : Step → Prop
  | .folder q => Path.IsFolderPlace q
  | .file q _ => Path.IsFilePlace q

variable {x : Step}

theorem Clear.isShort (h : x.Clear) : Path.IsShort x.parts := by
  cases x with
  | folder q => exact h.toIsShort
  | file q c => exact h.toIsShort

theorem Clear.noDot (h : x.Clear) : ∀ y ∈ x.above, '.' ∉ y.toList := by
  cases x with
  | folder q => exact h.noDot
  | file q c => exact h.noDot

theorem above_prefix (x : Step) : x.above <+: x.parts := by
  cases x with
  | folder q => exact List.prefix_refl q
  | file q c => exact List.dropLast_prefix q

end Step

namespace Tree

variable {here : Location} {root : Path} {l : Location} {t : Tree} {q : List String} {ss : List Step}

theorem fits_of_isShort (hroot : root.Roomy) (hq : Path.IsShort q) : Fits root q := by
  refine ⟨?_, ?_, fun x hx => ?_⟩
  · rw [Path.hasNull_below, hroot.noNull, Bool.false_or, List.any_eq_false]
    simpa only [List.contains_iff_mem] using hq.noNull
  · have hbelow := root.size_below hq.size_le
    have hlength := Nat.mul_le_mul_right (Path.partLimit + 1) hq.length_le
    have hlt := hroot.size_lt
    rw [Path.isLong, decide_eq_false_iff_not]
    omega
  · rw [Path.isLongPart, decide_eq_false_iff_not]
    exact Nat.not_lt_of_le (hq.size_le x hx)

/-- What is in a place for a file is in the way of no folder. -/
theorem possible_of_clear (hroot : root.Roomy) (hthere : node? t l = some .directory)
    (hfree : ∀ q, q ≠ [] → node? t (l ++ q) = none) (hss : ∀ x ∈ ss, x.Clear) : Possible root t l ss := by
  have hneeds : ∀ r, Needs ss r → (∀ y ∈ r, '.' ∉ y.toList) ∧ Fits root r := by
    rintro r ⟨x, hx, hr⟩
    exact ⟨fun y hy => (hss x hx).noDot y (hr.subset hy),
      Fits.of_prefix (fits_of_isShort hroot (hss x hx).isShort) (hr.trans x.above_prefix)⟩
  have hwritten : ∀ q, written ss q ≠ none → Path.IsFilePlace q := by
    intro q hq
    obtain ⟨c, hc⟩ := mem_of_written hq
    exact hss _ hc
  refine ⟨fun r hr => (hneeds r hr).2, fun q hq => fits_of_isShort hroot (hwritten q hq).toIsShort,
    fun r hr c => ?_, fun q hq => ?_, fun q hq hr => ?_⟩
  · by_cases hnil : r = []
    · rw [hnil, List.append_nil, hthere]
      exact fun h => nomatch h
    · rw [hfree r hnil]
      exact fun h => nomatch h
  · obtain ⟨y, hy, -⟩ := (hwritten q hq).dot
    have hne : q ≠ [] := by
      rintro rfl
      cases hy
    rw [hfree q hne]
    exact fun h => nomatch h
  · -- the last part of a file has a dot, and no part of a folder has
    obtain ⟨y, hy, hdot⟩ := (hwritten q hq).dot
    exact (hneeds q hr).1 y (List.mem_of_getLast? hy) hdot

theorem makeDirectories_free {p : Path} {mayExist : Bool} (hnull : p.hasNull = false)
    (hl : locate t here p = .ok l) (hn : node? t l = none) :
    makeDirectories mayExist here p t = (.ok (), Keyed.put l .directory t) := by
  have hone : makeOne t here ⟨p.absolute, p.parts.reverse.reverse⟩ = .ok (Keyed.put l .directory t) := by
    rw [List.reverse_reverse, makeOne, if_neg (by simp [hnull]), hl]
    dsimp only
    rw [if_neg (by simp [hn])]
  rw [makeDirectories]
  unfold makeAll
  dsimp only
  rw [hone]

structure Vacant (here : Location) (root : Path) (l : Location) (t : Tree) : Prop where
  locate_eq : locate t here root = .ok l
  node?_eq : ∀ q, node? t (l ++ q) = none

theorem Vacant.look_eq (h : Vacant here root l t) (hnull : root.hasNull = false) : look t here root = .ok none := by
  have hn := h.node?_eq []
  rw [List.append_nil] at hn
  rw [look, if_neg (by simp [hnull]), h.locate_eq]
  exact congrArg Except.ok hn

theorem Vacant.make (h : Vacant here root l t) (hnull : root.hasNull = false) :
    makeDirectories false here root t = (.ok (), Keyed.put l .directory t) ∧
      Rooted here root l (Keyed.put l .directory t) ∧
      ∀ q, q ≠ [] → node? (Keyed.put l .directory t) (l ++ q) = none := by
  have hn := h.node?_eq []
  rw [List.append_nil] at hn
  have hdir : node? t l ≠ some .directory := by
    rw [hn]
    exact fun h => nomatch h
  have hput := node?_put (n := .directory) hdir
  refine ⟨makeDirectories_free hnull h.locate_eq hn,
    ⟨hnull, locate_of_keeps (keeps_put hdir) h.locate_eq, by rw [hput, if_pos rfl]⟩, fun q hq => ?_⟩
  rw [hput, if_neg fun he => hq (List.append_right_eq_self.1 he), h.node?_eq q]

end Tree

namespace Generation

open Run ApiScaffold.Tree

variable {here : Location} {tools : Toolchain} {t : Tree} {project folder : String} {s : Settings} {fs : List Feature}
  {l : Location}

theorem clear_createSteps (project : String) (s : Settings) (hfs : ∀ f ∈ fs, Feature.IsShortIdentifier f.name) :
    ∀ x ∈ createSteps project fs s, x.Clear := by
  have hcore : ∀ p ∈ coreFolders, Path.IsFolderPlace (Path.ofText p).parts := by decide +kernel
  have hshared : ∀ k ∈ SharedDocument.all, Path.IsFilePlace (Path.ofText k.path).parts := by decide +kernel
  have hentry : Path.IsFilePlace ["Server", "index.ts"] := by decide +kernel
  have hreadme : Path.IsFilePlace ["README.md"] := by decide +kernel
  rw [createSteps_eq]
  refine forall_mem_append (forall_mem_append (fun x hx => ?_) fun x hx => ?_)
    (forall_mem_append (forall_mem_append (fun x hx => ?_) fun x hx => ?_) fun x hx => ?_)
  · obtain ⟨p, hp, rfl⟩ := List.mem_map.1 hx
    exact hcore p hp
  · obtain ⟨f, hf, hx⟩ := List.mem_flatMap.1 hx
    obtain ⟨p, hp, rfl⟩ := List.mem_map.1 hx
    rw [Feature.directories_eq] at hp
    obtain ⟨q, hq, rfl⟩ := List.mem_map.1 hp
    have hparts := Path.ofText_intercalate fun y hy =>
      ((Feature.places_around f.name q hq y hy).isEntry (hfs f hf).isEntry).toIsPart
    rw [Step.ofFolder, hparts]
    exact (hfs f hf).isFolderPlace q hq
  · obtain ⟨d, hd, rfl⟩ := List.mem_map.1 hx
    obtain ⟨k, hk, rfl⟩ := List.mem_map.1 hd
    exact hshared k hk
  · rcases List.mem_pair.1 hx with rfl | rfl
    · exact hentry
    · exact hreadme
  · obtain ⟨f, hf, hx⟩ := List.mem_flatMap.1 hx
    obtain ⟨d, hd, rfl⟩ := List.mem_map.1 hx
    obtain ⟨k, hparts⟩ := own_place (hfs f hf).isEntry hd
    rw [Step.ofDocument, hparts]
    exact (hfs f hf).isFilePlace k

theorem sound_of_identifier {f : Feature} (h : Feature.IsShortIdentifier f.name ∧ f.Maps) : f.Sound :=
  have hentry := h.1.isEntry
  ⟨h.1.isName, hentry.ne_dot, hentry.ne_up, h.2⟩

/-- In a place where nothing is yet, a project can be created and grown. -/
theorem grow_succeeds {first : List Feature} {later : List (String × Option String)}
    (hvacant : Vacant here (Path.ofText folder / project) l t) (hroomy : (Path.ofText folder / project).Roomy)
    (hpasses : Passes here tools s) (hp : Registry.IsTitle project) (hs : Text.IsWord s.apiPrefix.toList)
    (hfirst : ∀ f ∈ first, Feature.IsShortIdentifier f.name ∧ f.Maps)
    (hlater : ∀ q ∈ later, Feature.IsShortIdentifier q.1 ∧ (Feature.build q.1 q.2 s.defaultFields).Maps) :
    ∃ t₁, Ends here tools (grow project folder first later s) t (some ((), t₁)) := by
  have hall : ∀ f ∈ first ++ later.map fun q => Feature.build q.1 q.2 s.defaultFields,
      Feature.IsShortIdentifier f.name ∧ f.Maps := forall_mem_append hfirst fun f hf => by
    obtain ⟨q, hq, rfl⟩ := List.mem_map.1 hf
    exact hlater q hq
  have hsound := fun f hf => sound_of_identifier (hall f hf)
  have hsoundFirst := fun f hf => sound_of_identifier (hfirst f hf)
  obtain ⟨hmade, hroot, hnothing⟩ := hvacant.make hroomy.noNull
  have hgrow := grow_ends (hvacant.look_eq hroomy.noNull) hpasses hmade hp hs hsoundFirst
    fun q hq => sound_of_identifier (hlater q hq)
  have hclear := clear_createSteps project s fun f hf => (hall f hf).1
  have hpossible := (possible_of_clear hroomy hroot.node?_eq hnothing hclear).of_alike
    (alike_growthSteps project s hsound).symm
  have hproper := forall_mem_append (proper_createSteps project s hsoundFirst)
    (proper_growthSteps project s first fun f hf => hsound f (List.mem_append_right _ hf))
  obtain ⟨t₁, hlay, -⟩ := lay_ok hroot hproper hpossible
  rw [hlay] at hgrow
  exact ⟨t₁, hgrow⟩

end Generation

end ApiScaffold
