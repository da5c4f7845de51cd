import RuntimeAnalyzer.Findings.Parser
import RuntimeAnalyzer.Lib.Uri
import RuntimeAnalyzer.SarifEncoding

/-!
# The locations of the SARIF log

SARIF 2.1.0 has a URI reference where the log gives a file, and `Location` writes the file there as
it is. `sarif_uris_iff` says which files are references to themselves: a file with a space, a `%`, a
`#` or a `?` is not, and the rows of a vtable box bring such files.
-/

namespace RuntimeAnalyzer

namespace Sarif

open Uri (percentDecode IsReference IsPlainPath Reference)

/-- The URI of a location. -/
def uriOf (location : Json) : Option Bytes :=
  ((location.get? (lit "physicalLocation")).bind (·.get? (lit "artifactLocation"))).bind
    (·.textOf (lit "uri"))

/-- The URIs of a log, result by result. -/
def uris (log : Json) : List (Option Bytes) :=
  ((results log).flatMap locations).map uriOf

/-- The sites of some findings, in the order in which the log has them. -/
def sites (findings : List Finding) : List SourceLocation :=
  findings.flatMap fun finding => finding.location.toList ++ finding.allocation.toList

/-- The text is a URI reference, and stands for the file. -/
def DecodesTo (uri : Option Bytes) (file : Bytes) : Prop :=
  ∃ text, uri = some text ∧ IsReference text ∧ percentDecode text = file

/-- The text is a URI reference that leads to the file: its path stands for it, so that no part of
the file's name is taken for a query or a fragment. -/
def LeadsTo (uri : Option Bytes) (file : Bytes) : Prop :=
  DecodesTo uri file ∧
    ∃ reference : Reference, reference.Valid ∧ uri = some reference.text ∧
      percentDecode reference.path = file

/-- A log has the files of its findings for URIs. -/
theorem uris_write_sarif (findings : List Finding) :
    uris (writeSarif findings) = (sites findings).map fun site => some site.file := by
  have huri (site : SourceLocation) : uriOf (.object (location site)) = some site.file := rfl
  have hallocated (site : SourceLocation) : uriOf (.object (allocated site)) = some site.file := rfl
  have hresult (finding : Finding) : (locations (.object (result finding))).map uriOf =
      (finding.location.toList ++ finding.allocation.toList).map fun site => some site.file := by
    rw [locations_result, List.map_append, List.map_append, List.map_map, List.map_map]
    simp only [Function.comp_def, huri, hallocated]
  rw [uris, sites, results_write_sarif, List.flatMap_map, List.map_flatMap, List.map_flatMap]
  simp only [hresult]

theorem decodes_to_self_iff (file : Bytes) :
    DecodesTo (some file) file ↔ IsReference file ∧ Uri.percent ∉ file := by
  constructor
  · rintro ⟨text, htext, href, hdecode⟩
    obtain rfl := Option.some.inj htext
    exact ⟨href, href.decode_eq_self_iff.mp hdecode⟩
  · rintro ⟨href, hplain⟩
    exact ⟨file, rfl, href, href.decode_eq_self_iff.mpr hplain⟩

theorem leads_to_self_iff (file : Bytes) : LeadsTo (some file) file ↔ IsPlainPath file := by
  rw [← Uri.path_decodes_to_text_iff]
  constructor
  · rintro ⟨_, reference, hvalid, htext, hpath⟩
    exact ⟨reference, hvalid, (Option.some.inj htext).symm, hpath⟩
  · intro hleads
    have hplain := Uri.path_decodes_to_text_iff.mp hleads
    obtain ⟨reference, hvalid, htext, hpath⟩ := hleads
    have hpercent : Uri.percent ∉ file := fun hmem => by
      exact absurd (hplain.bytes _ hmem) (by decide)
    have hdecodes := (decodes_to_self_iff file).mpr ⟨⟨reference, hvalid, htext⟩, hpercent⟩
    exact ⟨hdecodes, reference, hvalid, congrArg some htext.symm, hpath⟩

/-- What the log of some findings says of where they are. -/
structure UrisOfSites (findings : List Finding) : Prop where
  /-- There is one URI for each site. -/
  one : (uris (writeSarif findings)).length = (sites findings).length
  /-- It leads to the file exactly when every byte of the file may stand in a path, the file does
  not start with two slashes, and no colon is in its first segment. -/
  leads : ∀ pair ∈ (uris (writeSarif findings)).zip (sites findings),
    (LeadsTo pair.1 pair.2.file ↔ IsPlainPath pair.2.file)
  /-- Read as a whole, it stands for the file exactly when the file is a reference without a `%`. -/
  decodes : ∀ pair ∈ (uris (writeSarif findings)).zip (sites findings),
    (DecodesTo pair.1 pair.2.file ↔ IsReference pair.2.file ∧ Uri.percent ∉ pair.2.file)
  /-- Two URIs that stand for their files do not stand for the same one, unless the files are. -/
  apart : ∀ first ∈ (uris (writeSarif findings)).zip (sites findings),
    ∀ second ∈ (uris (writeSarif findings)).zip (sites findings),
      DecodesTo first.1 first.2.file → DecodesTo second.1 second.2.file →
        first.1.map percentDecode = second.1.map percentDecode → first.2.file = second.2.file

/-- The URIs of the log lead back to the files that are references to themselves. -/
theorem sarif_uris_iff (findings : List Finding) : UrisOfSites findings := by
  have huris := uris_write_sarif findings
  have hpair : ∀ pair ∈ (uris (writeSarif findings)).zip (sites findings),
      pair.1 = some pair.2.file := by
    intro pair hmem
    have hzip : ((sites findings).map fun site => some site.file).zip
        ((sites findings).map id) = (sites findings).map fun site => (some site.file, site) :=
      List.zip_map'
    rw [List.map_id] at hzip
    rw [huris, hzip, List.mem_map] at hmem
    obtain ⟨site, _, rfl⟩ := hmem
    rfl
  refine ⟨by rw [huris, List.length_map], fun pair hmem => ?_, fun pair hmem => ?_,
    fun first _ second _ hfirst hsecond hsame => ?_⟩
  · rw [hpair pair hmem]
    exact leads_to_self_iff pair.2.file
  · rw [hpair pair hmem]
    exact decodes_to_self_iff pair.2.file
  · obtain ⟨text, htext, _, hdecode⟩ := hfirst
    obtain ⟨other, hother, _, hdecodeOther⟩ := hsecond
    rw [htext, hother, Option.map_some, Option.map_some, hdecode, hdecodeOther] at hsame
    exact Option.some.inj hsame

/-- A box whose call is in a file with a space in its path. -/
def spacedPath : Bytes :=
  lit "==ct== [WARN] [VTABLE]\n│ site : my dir/a.c:3:4 │\n│ warn : no vptr │\n└\n"

/-- The URI of such a file is none, and two files share what theirs stand for. -/
theorem spaced_path_is_no_uri :
    uris (writeSarif (parseFindings spacedPath)) = [some (lit "my dir/a.c")] ∧
      ¬ IsReference (lit "my dir/a.c") ∧
      percentDecode (lit "a%41.c") = percentDecode (lit "aA.c") := by
  have hfindings : (sites (parseFindings spacedPath)).map (·.file) = [lit "my dir/a.c"] := by
    decide +kernel
  refine ⟨?_, fun href => ?_, by decide⟩
  · have hmap := congrArg (List.map some) hfindings
    rw [List.map_map] at hmap
    rw [uris_write_sarif]
    exact hmap
  · have hspace : space ∉ lit "my dir/a.c" := href.not_mem (by decide) (by decide)
    exact hspace (by decide)

end Sarif

end RuntimeAnalyzer
