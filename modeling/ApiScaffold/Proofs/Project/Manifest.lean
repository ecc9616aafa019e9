import ApiScaffold.Project.Documents
import ApiScaffold.Project.Manifest
import ApiScaffold.Proofs.Json
import ApiScaffold.Proofs.Json.Reading

namespace ApiScaffold

namespace Json.Layout

open Text

theorem noReturn_members {ms : List (String × Layout)} (hms : ∀ m ∈ ms, ∀ margin : String, '\r' ∉ margin.toList →
      '\r' ∉ (m.2.text margin).toList) {margin : String} (hmargin : '\r' ∉ margin.toList) :
    '\r' ∉ (memberTexts margin ms).toList := by
  have hquote (k : String) : '\r' ∉ (quote k).toList := (quote_isPhrase k).not_mem rfl (by decide)
  induction ms with
  | nil => exact List.not_mem_nil
  | cons m ms ih =>
      obtain ⟨k, l⟩ := m
      obtain ⟨hm, hms⟩ := List.forall_mem_cons.1 hms
      have hmember : '\r' ∉ (margin ++ quote k ++ ": " ++ text margin l).toList :=
        not_mem_concat (not_mem_concat (not_mem_concat hmargin (hquote k)) (by decide)) (hm margin hmargin)
      cases ms with
      | nil => exact not_mem_concat hmember (by decide)
      | cons m ms => exact not_mem_concat (not_mem_concat hmember (by decide)) (ih hms)

theorem Textual.noReturn {l : Layout} (h : l.Textual) {margin : String} (hmargin : '\r' ∉ margin.toList) :
    '\r' ∉ (l.text margin).toList := by
  induction h generalizing margin with
  | text s => exact (quote_isPhrase s).not_mem rfl (by decide)
  | @object ms hms ih =>
      have hmembers := noReturn_members (fun m hm margin hmargin => ih m hm hmargin)
        (not_mem_concat hmargin (by decide : '\r' ∉ "  ".toList))
      exact not_mem_concat (not_mem_concat (not_mem_concat (by decide) hmembers) hmargin) (by decide)

end Json.Layout

namespace SharedText

open Json

theorem package_textual (project : String) (s : Settings) : (package (.ofProject project s)).Textual := by
  have hstrings (ms : List (String × String)) : (Layout.strings ms).Textual := by
    refine .object fun m hm => ?_
    obtain ⟨n, -, rfl⟩ := List.mem_map.1 hm
    exact .text n.2
  have hversions (ps : List (String × String)) :
      (Layout.object ((ProjectSheet.versions ps).map fun p => (p.1, .inline p.2))).Textual := by
    refine .object fun m hm => ?_
    rw [ProjectSheet.versions, List.map_map] at hm
    obtain ⟨p, -, rfl⟩ := List.mem_map.1 hm
    exact .text p.2
  refine .object fun m hm => ?_
  simp only [List.mem_cons, List.not_mem_nil, or_false] at hm
  rcases hm with rfl | rfl | rfl | rfl | rfl | rfl | rfl
  · exact .text project
  · exact .text _
  · exact .text _
  · exact .text _
  · exact hstrings _
  · exact hversions _
  · exact hversions _

end SharedText

namespace Manifest

theorem nameIn_package {project : String} (hne : project ≠ "") (s : Settings) :
    nameIn (SharedDocument.package.content (.ofProject project s)) = .ok (some project) := by
  have hentry : (SharedText.package (.ofProject project s)).data.entry? "name" = some (.str project) := by
    simp [SharedText.package, Json.Layout.data, Json.Layout.entries, Data.entry?, ProjectSheet.ofProject]
  obtain ⟨es, hes⟩ : ∃ es, (SharedText.package (.ofProject project s)).data = .mapping es := ⟨_, rfl⟩
  have hread := (SharedText.package_textual project s).read_eq
  rw [hes] at hread hentry
  rw [SharedDocument.content, nameIn, hread]
  dsimp only
  rw [nameOf, hentry]
  exact congrArg Except.ok (if_neg hne)

theorem noReturn_package (project : String) (s : Settings) :
    '\r' ∉ (SharedDocument.package.content (.ofProject project s)).toList :=
  Text.not_mem_concat ((SharedText.package_textual project s).noReturn (by decide)) (by decide)

end Manifest

end ApiScaffold
