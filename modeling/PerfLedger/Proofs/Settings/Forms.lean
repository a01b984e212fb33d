import Mathlib.Data.List.TakeWhile
import PerfLedger.Proofs.Json.Object
import PerfLedger.Proofs.Settings.Load

/-!
# Forms of settings

Settings are made from a path, from a mapping and from a JSON text. The three agree: whichever holds
a path, and however the JSON text is written, the settings are the same, or the same fault is found.
A path is refused exactly if nothing is left of it without the blanks at its ends. Settings that are
turned into a mapping or a JSON text are made from it again (`forms_agree`).
-/

namespace PerfLedger

/-- Nothing is left of a text without the blanks at its ends if and only if it has no others. -/
theorem Text.trim_eq_nil {cs : List Char} : trim cs = [] ↔ ∀ c ∈ cs, isBlank c = true := by
  simp only [trim, trimBy, List.reverse_eq_nil_iff, List.dropWhile_eq_nil_iff, List.mem_reverse]
  constructor
  · intro h c hc
    rw [← List.takeWhile_append_dropWhile (p := isBlank) (l := cs), List.mem_append] at hc
    rcases hc with hc | hc
    · exact List.mem_takeWhile_imp hc
    · exact h c hc
  · intro h c hc
    exact h c ((List.dropWhile_sublist _).subset hc)

namespace Settings

variable {p : String}

/-- A path is refused for being empty, or else for being blank. -/
theorem ofPath_eq_error {f : SettingsFault} (h : ofPath p = .error f) :
    f = if p = "" then .pathTooShort else .pathBlank := by
  unfold ofPath at h
  split at h
  · next hp => rw [if_pos hp, Except.error.inj h]
  · next hp =>
    split at h
    · exact absurd h (by simp)
    · rw [if_neg hp, Except.error.inj h]

theorem exists_ofPath_iff : (∃ s, ofPath p = .ok s) ↔ Text.trim p.toList ≠ [] := by
  have hblank : Text.isBlankText p = false ↔ Text.trim p.toList ≠ [] := by
    rw [isBlankText_eq_false, ne_eq, Text.trim_eq_nil]
    simp
  rw [← hblank]
  constructor
  · rintro ⟨s, hs⟩
    rw [← ofPath_eq_ok.mp hs]
    exact s.not_blank
  · intro h
    exact ⟨⟨p, h⟩, ofPath_eq_ok.mpr rfl⟩

/-- Entries of which the last one is that of a path give the settings with this path. -/
theorem ofEntries_append (before : List (Value × Value)) (p : String) :
    ofEntries (before ++ [(.text pathKey, .text p)]) = ofPath p := by
  have hentry : pathEntry? (before ++ [(.text pathKey, .text p)]) = some (.text p) :=
    pathEntry_eq_some.mpr ⟨before, [], rfl, by simp⟩
  simp only [ofEntries, hentry, ofPathValue]

theorem ofJson_of_writesObject {text : String}
    (h : Json.WritesObject pathKey.toList p.toList text.toList) : ofJson text = ofPath p := by
  obtain ⟨before, hparse⟩ := Json.parse_writesObject h
  rw [String.ofList_toList, String.ofList_toList] at hparse
  simp only [ofJson, hparse]
  exact ofEntries_append before p

/-- The JSON text of settings is an object with their path. -/
theorem writesObject_toJson (s : Settings) :
    Json.WritesObject pathKey.toList s.databasePath.toList s.toJson.toList := by
  have hentry := Json.WritesEntry.entry (Json.writes_encode pathKey.toList)
    (Json.writes_encode s.databasePath.toList) Json.blanks_nil Json.blanks_nil Json.blanks_nil
    Json.blanks_nil
  have hobject := Json.WritesObject.object (.last hentry) Json.blanks_nil Json.blanks_nil
  simpa [toJson, Json.encode] using hobject

/--
**All forms of settings agree.**

Let a path be given as it is, as the entry of a mapping, or as the entry of a JSON object that is
written in any way. Then the settings are the same, or the same fault is found. There are settings
exactly if something is left of the path without the blanks at its ends; they hold the path as it
was, and otherwise the fault is that the path is empty, or that it is blank.

The mapping and the JSON text of settings hold their path, and the settings are made from both
again.
-/
theorem forms_agree :
    (∀ p : String,
      (ofPathValue (.text p) = ofPath p ∧ ofValue (.dict [(.text pathKey, .text p)]) = ofPath p ∧
        ∀ text : String, Json.WritesObject pathKey.toList p.toList text.toList →
          ofJson text = ofPath p) ∧
      ((∃ s, ofPath p = .ok s) ↔ Text.trim p.toList ≠ []) ∧
      (∀ s, ofPath p = .ok s → s.databasePath = p) ∧
      ∀ f, ofPath p = .error f → f = if p = "" then .pathTooShort else .pathBlank) ∧
    ∀ s : Settings,
      (s.toValue = .dict [(.text pathKey, .text s.databasePath)] ∧ ofValue s.toValue = .ok s) ∧
        Json.WritesObject pathKey.toList s.databasePath.toList s.toJson.toList ∧
          ofJson s.toJson = .ok s := by
  constructor
  · intro p
    exact ⟨⟨rfl, ofEntries_append [] p, fun _ => ofJson_of_writesObject⟩, exists_ofPath_iff,
      fun _ => ofPath_eq_ok.mp, fun _ => ofPath_eq_error⟩
  · intro s
    have hpath : ofPath s.databasePath = .ok s := ofPath_eq_ok.mpr rfl
    have hwrites := s.writesObject_toJson
    exact ⟨⟨rfl, (ofEntries_append [] _).trans hpath⟩, hwrites,
      (ofJson_of_writesObject hwrites).trans hpath⟩

/-- A path with a slash and a character of two surrogates, both escaped, under an escaped key. -/
def sampleJson : String :=
  "\x7b \"db\\u005Fpath\" :\t\"\\ud83d\\uDE00\\/\" \x7d\n"

theorem sample_writesObject : Json.WritesObject pathKey.toList "😀/".toList sampleJson.toList := by
  have itself (c : Char) (h : 0x20 ≤ c.toNat ∧ c ≠ '"' ∧ c ≠ '\\') : Json.WritesChar c [c] :=
    .itself h.1 h.2.1 h.2.2
  have underscore : Json.WritesChar '_' "\\u005F".toList :=
    .number (.digits (w := 0) (x := 0) (y := 5) (z := 15) (.inl rfl) (.inl rfl) (.inl rfl)
      (.inr rfl))
  have lead : Json.WritesUnit 0xD83D "d83d".toList :=
    .digits (w := 13) (x := 8) (y := 3) (z := 13) (.inl rfl) (.inl rfl) (.inl rfl) (.inl rfl)
  have trail : Json.WritesUnit 0xDE00 "DE00".toList :=
    .digits (w := 13) (x := 14) (y := 0) (z := 0) (.inr rfl) (.inr rfl) (.inl rfl) (.inl rfl)
  have face : Json.WritesChar '😀' "\\ud83d\\uDE00".toList :=
    .pair (by decide) (by decide) (by decide) lead trail
  have key := Json.Writes.cons (itself 'd' (by decide)) <| .cons (itself 'b' (by decide)) <|
    .cons underscore <| .cons (itself 'p' (by decide)) <| .cons (itself 'a' (by decide)) <|
    .cons (itself 't' (by decide)) <| .cons (itself 'h' (by decide)) .nil
  have value := Json.Writes.cons face <| .cons (.letter (e := '/') (c := '/') (by decide)) .nil
  have blank (c : Char) (h : c ∈ [' ', '\t', '\n', '\r']) : Json.Blanks [c] :=
    List.forall_mem_singleton.mpr h
  have space := blank ' ' (by decide)
  have entry := Json.WritesEntry.entry key value space space (blank '\t' (by decide)) space
  exact .object (.last entry) Json.blanks_nil (blank '\n' (by decide))

/-- The path is accepted, and the escaped text gives its settings. -/
theorem forms_agree_escaped :
    Json.WritesObject pathKey.toList "😀/".toList sampleJson.toList ∧
      ∃ s, ofPath "😀/" = .ok s ∧ s.databasePath = "😀/" ∧ ofJson sampleJson = .ok s ∧
        ofJson s.toJson = .ok s := by
  obtain ⟨⟨-, -, hjson⟩, haccept, hkept, -⟩ := forms_agree.1 "😀/"
  obtain ⟨s, hs⟩ := haccept.mpr (by decide)
  exact ⟨sample_writesObject, s, hs, hkept s hs, (hjson _ sample_writesObject).trans hs,
    (forms_agree.2 s).2.2⟩

end Settings

end PerfLedger
