import FrontPanel.Proofs.Settings.Accepted
import FrontPanel.Proofs.Settings.Key
import FrontPanel.Proofs.Settings.Relayout
import FrontPanel.Proofs.Settings.Value

/-!
# A section of one key

A header and one assignment below it. Whether the reader knows the two names is what the audit says of
them, whatever the value is; and a label in quotes is read verbatim, unless it is too long.
-/

namespace FrontPanel.Settings

set_option autoImplicit false

open Text (trim)
open Audit (catalogue nameFindings sectionFindings)

def sectionOf (name key value : String) : String := "[" ++ name ++ "]\n" ++ key ++ " = " ++ value

/-- A last line may lack its newline. -/
def IsEnding (ending : String) : Prop := ending = "" ∨ ending = "\n"

theorem Reading.next_header {name : List Char} (h : IsWord name) (r : Reading) :
    r.next ('[' :: (name ++ [']'])) =
      (Heading.ofName name).map fun heading => { r with heading := some heading } := by
  have hline : Statement.ofLine ('[' :: (name ++ [']'])) = .ok (.header name) :=
    (Statement.shows_line (.header name)).ofLine_eq h
  unfold next
  rw [hline]
  rfl

theorem Reading.next_assignment {key : List Char} (h : IsWord key) (value : List Char) (r : Reading) :
    r.next (key ++ [' '] ++ '=' :: ' ' :: value) =
      r.follow (.assignment key (trim (uncommented false (' ' :: value)))) := by
  have hspace : IsBlankText [' '] := isBlankText_singleton rfl
  have hequals : '=' ∉ key ++ [' '] := by
    intro hmem
    rcases List.mem_append.mp hmem with hmem | hmem
    · exact (h.plain _ hmem).2 (by decide)
    · exact absurd hmem (by decide)
  have hquote : quotedAfter false (key ++ [' ']) = some false := by
    rw [quotedAfter_append (h.quotedAfter_eq false), quotedAfter_blank hspace]
  have hkey : trim (key ++ [' ']) = key := by
    have hspaced := trim_spaced isBlankText_nil h.tight hspace
    rwa [List.nil_append] at hspaced
  have hopen : key.head? ≠ some '[' := fun hhead =>
    (h.plain '[' (List.mem_of_mem_head? hhead)).2 (by decide)
  rw [r.next_equals hequals hquote, hkey, if_neg fun hheader => hopen hheader.1]

theorem read_sectionOf {name key value ending : String} (hname : IsWord name.toList)
    (hkey : IsWord key.toList) (hvalue : '\n' ∉ value.toList) (hending : IsEnding ending) :
    read (sectionOf name key value ++ ending) =
      Heading.ofName name.toList >>= fun heading =>
        (readSetting (some heading) key.toList
          (trim (uncommented false (' ' :: value.toList)))).map (set {}) := by
  have hplain {word : List Char} (h : IsWord word) : '\n' ∉ word := fun hmem =>
    absurd (h.plain _ hmem).1 (by decide)
  have hheader : '\n' ∉ '[' :: (name.toList ++ [']']) := by simp [hplain hname]
  have hline : '\n' ∉ key.toList ++ [' '] ++ '=' :: ' ' :: value.toList := by simp [hplain hkey, hvalue]
  have htext : (sectionOf name key value ++ ending).toList = '[' :: (name.toList ++ [']']) ++
      '\n' :: (key.toList ++ [' '] ++ '=' :: ' ' :: value.toList ++ ending.toList) := by
    simp [sectionOf]
  have hends : Text.EndsLine ending.toList ∧ ending.toList.tail = [] := by
    rcases hending with rfl | rfl
    · exact ⟨Or.inl rfl, rfl⟩
    · exact ⟨Or.inr rfl, rfl⟩
  have hfollow (heading : Heading) :
      ((Reading.through (key.toList ++ [' '] ++ '=' :: ' ' :: value.toList ++ ending.toList)
        { heading := some heading }).map Reading.settings) =
        (readSetting (some heading) key.toList
          (trim (uncommented false (' ' :: value.toList)))).map (set {}) := by
    rw [Reading.through_append hline hends.1, hends.2, Reading.next_assignment hkey, Reading.follow]
    cases readSetting (some heading) key.toList (trim (uncommented false (' ' :: value.toList))) with
    | error e => rfl
    | ok x => rfl
  change (Reading.through (sectionOf name key value ++ ending).toList {}).map Reading.settings = _
  rw [htext, Reading.through_append hheader (Or.inr rfl), List.tail_cons, Reading.next_header hname]
  cases Heading.ofName name.toList with
  | error e => rfl
  | ok heading => exact hfollow heading

/-- Not empty, and of letters, digits, `_` and `-` only, all of them in ASCII. -/
structure IsBare (name : String) : Prop where
  ne_empty : name ≠ ""
  plain : ∀ c ∈ name.toList, c.isAlphanum = true ∨ c = '_' ∨ c = '-'

/-- The two conditions as one that is computed character by character. -/
theorem isBare_of_all {name : String} (h : name ≠ "" ∧
    name.toList.all (fun c => c.isAlphanum || c == '_' || c == '-') = true) : IsBare name := by
  refine ⟨h.1, fun c hc => ?_⟩
  have hplain := List.all_eq_true.mp h.2 c hc
  simpa [or_assoc] using hplain

theorem isBlank_of_isAlphanum {c : Char} (h : c.isAlphanum = true) : Text.isBlank c = false := by
  change (decide ('A'.val ≤ c.val ∧ c.val ≤ 'Z'.val) ||
    decide ('a'.val ≤ c.val) && decide (c.val ≤ 'z'.val) ||
    decide ('0'.val ≤ c.val) && decide (c.val ≤ '9'.val)) = true at h
  simp only [Bool.or_eq_true, Bool.and_eq_true, decide_eq_true_eq, UInt32.le_iff_toNat_le] at h
  change ((65 ≤ c.toNat ∧ c.toNat ≤ 90) ∨ (97 ≤ c.toNat ∧ c.toNat ≤ 122)) ∨
    48 ≤ c.toNat ∧ c.toNat ≤ 57 at h
  have hrange : 48 ≤ c.toNat ∧ c.toNat ≤ 122 := by omega
  simp only [Text.isBlank, Text.blankRanges, List.any_cons, List.any_nil, Bool.or_eq_false_iff,
    Bool.and_eq_false_iff, decide_eq_false_iff_not, and_true]
  omega

theorem IsBare.isWord {name : String} (h : IsBare name) : IsWord name.toList := by
  refine ⟨fun hnil => h.ne_empty (String.toList_eq_nil_iff.mp hnil), fun c hc => ?_⟩
  rcases h.plain c hc with hc | rfl | rfl
  · refine ⟨isBlank_of_isAlphanum hc, fun hmem => ?_⟩
    simp only [List.mem_cons, List.not_mem_nil, or_false] at hmem
    rcases hmem with rfl | rfl | rfl | rfl | rfl <;> cases hc
  · decide
  · decide

/-- The names of the keys of a section. -/
def Heading.keyNames (h : Heading) : List String :=
  (Key.all.filter fun k => k.heading = h).map Key.name

theorem Heading.mem_keyNames {h : Heading} {name : String} :
    name ∈ h.keyNames ↔ ∃ k : Key, k.heading = h ∧ k.name = name := by
  simp [keyNames, Key.mem_all]

/-- The catalogue of the audit is the table of the reader. -/
theorem catalogue_eq_keyNames :
    catalogue = [("panel", Heading.panel.keyNames), ("about", Heading.about.keyNames),
      ("flow_sensor", Heading.flowSensor.keyNames)] := rfl

theorem Heading.ofName_eq (name : String) :
    (∃ h, ofName name.toList = .ok h ∧ catalogue.lookup name = some h.keyNames) ∨
      ofName name.toList = .error .unknownSection ∧ catalogue.lookup name = none := by
  rw [catalogue_eq_keyNames]
  unfold ofName
  rw [String.ofList_toList]
  split
  · exact Or.inl ⟨.panel, rfl, rfl⟩
  · exact Or.inl ⟨.about, rfl, rfl⟩
  · exact Or.inl ⟨.flowSensor, rfl, rfl⟩
  · next hpanel habout hflow =>
    refine Or.inr ⟨rfl, ?_⟩
    simp only [List.lookup_cons, List.lookup_nil, beq_eq_false_iff_ne.mpr hpanel,
      beq_eq_false_iff_ne.mpr habout, beq_eq_false_iff_ne.mpr hflow]

theorem ValueKind.error_of_read {kind : ValueKind} {value : List Char} {e : SettingsError}
    (h : kind.read value = .error e) : e = .invalidValue ∨ e = .invalidPin := by
  cases kind with
  | natural greatest =>
    simp only [read, readNatural] at h
    split at h <;> cases h
    exact Or.inl rfl
  | count greatest =>
    simp only [read, readCount] at h
    split at h <;> cases h
    exact Or.inl rfl
  | pin =>
    simp only [read, Pin.read] at h
    split at h
    · cases h
    split at h <;> cases h
    exact Or.inr rfl
  | label =>
    simp only [read, readLabel] at h
    split at h <;> cases h
    exact Or.inl rfl
  | boolean =>
    simp only [read, readBoolean] at h
    split at h <;> cases h
    exact Or.inl rfl
  | length =>
    simp only [read, readLength] at h
    split at h
    · split at h <;> cases h
      exact Or.inl rfl
    · cases h
      exact Or.inl rfl

/-- Below a header, only a key that is not in the table is unknown, and the section never is. -/
theorem readSetting_unknown_iff (h : Heading) (name : String) (value : List Char) :
    (readSetting (some h) name.toList value = .error .unknownKey ↔ name ∉ h.keyNames) ∧
      readSetting (some h) name.toList value ≠ .error .unknownSection := by
  by_cases hknown : ∃ k : Key, k.heading = h ∧ k.name = name
  · have hmem : name ∈ h.keyNames := Heading.mem_keyNames.mpr hknown
    obtain ⟨k, rfl, rfl⟩ := hknown
    rw [readSetting_named ⟨rfl, rfl⟩]
    cases hread : k.read value with
    | ok v => exact ⟨iff_of_false nofun fun h => h hmem, nofun⟩
    | error e =>
      rcases ValueKind.error_of_read hread with rfl | rfl
      · exact ⟨iff_of_false nofun fun h => h hmem, nofun⟩
      · exact ⟨iff_of_false nofun fun h => h hmem, nofun⟩
  · have hnone : name ∉ h.keyNames := fun hmem => hknown (Heading.mem_keyNames.mp hmem)
    have hunknown : readSetting (some h) name.toList value = .error .unknownKey := by
      apply readSetting_unknown
      rintro k ⟨hheading, hname⟩
      exact hknown ⟨k, (Option.some.inj hheading).symm, (String.toList_inj.mp hname).symm⟩
    rw [hunknown]
    exact ⟨iff_of_true rfl hnone, nofun⟩

namespace Audit

theorem mem_nameFindings {root : List (String × Document)} {finding : Finding} :
    finding ∈ nameFindings (.table root) ↔ ∃ e ∈ root, finding ∈ sectionFindings e.1 e.2 := by
  simp only [nameFindings, Document.entries?, Document.inKeyOrder, List.mem_flatMap,
    List.mem_mergeSort]

theorem unknownSection_mem_section {name name' : String} {value : Document} :
    .unknownSection name ∈ sectionFindings name' value ↔
      name = name' ∧ catalogue.lookup name' = none := by
  unfold sectionFindings
  cases catalogue.lookup name' with
  | none => simp
  | some keys => cases value.entries? <;> simp

theorem unknownKey_mem_section {name name' key : String} {value : Document} :
    .unknownKey name key ∈ sectionFindings name' value ↔
      name = name' ∧ ∃ keys entries, catalogue.lookup name' = some keys ∧
        value.entries? = some entries ∧ key ∉ keys ∧ key ∈ entries.map Prod.fst := by
  unfold sectionFindings
  cases catalogue.lookup name' with
  | none => simp
  | some keys =>
    cases value.entries? with
    | none => simp
    | some entries =>
      simp only [Document.inKeyOrder, List.mem_map, List.mem_filter, List.mem_mergeSort]
      constructor
      · rintro ⟨entry, ⟨hmem, hunknown⟩, hfinding⟩
        cases hfinding
        exact ⟨rfl, keys, entries, rfl, rfl, by simpa using hunknown, entry, hmem, rfl⟩
      · rintro ⟨rfl, _, _, ⟨⟩, ⟨⟩, hunknown, ⟨_, v⟩, hmem, rfl⟩
        exact ⟨(_, v), ⟨hmem, by simpa using hunknown⟩, rfl⟩

theorem unknownSection_mem_iff {root : List (String × Document)} {name : String} {value : Document}
    (h : (name, value) ∈ root) :
    .unknownSection name ∈ nameFindings (.table root) ↔ catalogue.lookup name = none := by
  simp only [mem_nameFindings, unknownSection_mem_section]
  constructor
  · rintro ⟨_, _, rfl, hnone⟩
    exact hnone
  · exact fun hnone => ⟨_, h, rfl, hnone⟩

theorem unknownKey_mem_iff {root entries : List (String × Document)} {name key : String}
    {value : Document} (h : (name, .table entries) ∈ root) (hkey : (key, value) ∈ entries) :
    .unknownKey name key ∈ nameFindings (.table root) ↔
      ∃ keys, catalogue.lookup name = some keys ∧ key ∉ keys := by
  simp only [mem_nameFindings, unknownKey_mem_section]
  constructor
  · rintro ⟨_, _, rfl, keys, _, hkeys, _, hunknown, _⟩
    exact ⟨keys, hkeys, hunknown⟩
  · rintro ⟨keys, hkeys, hunknown⟩
    exact ⟨_, h, rfl, keys, entries, hkeys, rfl, hunknown, List.mem_map.mpr ⟨_, hkey, rfl⟩⟩

end Audit

/-- Whatever the value is: a header and an assignment under it are refused for an unknown section exactly
if the audit finds the section unknown in a document that has it, and otherwise for an unknown key exactly
if the audit finds the key unknown in that section. -/
theorem names_known_alike {name key value ending : String} (hname : IsBare name) (hkey : IsBare key)
    (hvalue : '\n' ∉ value.toList) (hending : IsEnding ending)
    {root entries : List (String × Document)} {v : Document} (hroot : (name, .table entries) ∈ root)
    (hentry : (key, v) ∈ entries) :
    let result := read (sectionOf name key value ++ ending)
    (result = .error .unknownSection ↔
      Audit.Finding.unknownSection name ∈ nameFindings (.table root)) ∧
    (result ≠ .error .unknownSection →
      (result = .error .unknownKey ↔
        Audit.Finding.unknownKey name key ∈ nameFindings (.table root))) := by
  intro result
  have hresult := read_sectionOf hname.isWord hkey.isWord hvalue hending
  rw [Audit.unknownSection_mem_iff hroot, Audit.unknownKey_mem_iff hroot hentry]
  change result = _ at hresult
  rcases Heading.ofName_eq name with ⟨heading, hheading, hkeys⟩ | ⟨hheading, hnone⟩
  · obtain ⟨hunknown, hsection⟩ := readSetting_unknown_iff heading key
      (trim (uncommented false (' ' :: value.toList)))
    have herror (e : SettingsError) : result = .error e ↔ readSetting (some heading) key.toList
        (trim (uncommented false (' ' :: value.toList))) = .error e := by
      rw [hresult, hheading]
      change Except.map _ _ = _ ↔ _
      cases readSetting (some heading) key.toList (trim (uncommented false (' ' :: value.toList))) with
      | ok x => exact iff_of_false nofun nofun
      | error e' => exact ⟨fun h => by cases h; rfl, fun h => by cases h; rfl⟩
    rw [herror, herror, hunknown, hkeys]
    refine ⟨iff_of_false hsection nofun, fun _ => ⟨fun hnew => ⟨_, rfl, hnew⟩, ?_⟩⟩
    rintro ⟨_, ⟨⟩, hnew⟩
    exact hnew
  · rw [hresult, hheading, hnone]
    exact ⟨iff_of_true rfl rfl, fun h => absurd rfl h⟩

/-- A slip in the name of a key, with a value that no key of the panel takes. -/
theorem misspelt_key_known_to_neither :
    IsBare "panel" ∧ IsBare "refresh-hz" ∧ '\n' ∉ "[1, 2] # = \"".toList ∧ IsEnding "\n" ∧
      read (sectionOf "panel" "refresh-hz" "[1, 2] # = \"" ++ "\n") = .error .unknownKey ∧
      Audit.Finding.unknownKey "panel" "refresh-hz" ∈ nameFindings
        (.table [("panel", .table [("refresh-hz", .array [.integer 1, .integer 2])])]) := by
  have hname : IsBare "panel" := isBare_of_all (by decide)
  have hkey : IsBare "refresh-hz" := isBare_of_all (by decide)
  have hvalue : '\n' ∉ "[1, 2] # = \"".toList := by decide
  have hending : IsEnding "\n" := Or.inr rfl
  have hread : read (sectionOf "panel" "refresh-hz" "[1, 2] # = \"" ++ "\n") = .error .unknownKey := by
    decide +kernel
  obtain ⟨_, hiff⟩ := names_known_alike hname hkey hvalue hending
    (List.mem_singleton.mpr rfl : ("panel", Document.table [("refresh-hz",
      .array [.integer 1, .integer 2])]) ∈ [("panel", Document.table [("refresh-hz",
        .array [.integer 1, .integer 2])])])
    (List.mem_singleton.mpr rfl)
  exact ⟨hname, hkey, hvalue, hending, hread, (hiff (by rw [hread]; exact nofun)).mp hread⟩

/-- The keys of the labels, each with the identity that has this label alone. -/
def labels : List (String × (String → Identity)) :=
  [("machine_name", fun label => { machineName := label }), ("make", fun label => { make := label }),
    ("model", fun label => { model := label })]

section Labels

variable {field : String × (String → Identity)} (h : field ∈ labels)
include h

theorem isBare_of_mem_labels : IsBare field.1 := by
  simp only [labels, List.mem_cons, List.not_mem_nil, or_false] at h
  rcases h with rfl | rfl | rfl <;> exact isBare_of_all (by decide)

theorem readAboutSetting_label (value : List Char) :
    (readAboutSetting field.1 value).map (set {}) =
      (readLabel value).map fun label => { identity := field.2 label } := by
  simp only [labels, List.mem_cons, List.not_mem_nil, or_false] at h
  rcases h with rfl | rfl | rfl
  · change ((readLabel value).map Setting.machineName).map (set {}) = _
    cases readLabel value <;> rfl
  · change ((readLabel value).map Setting.make).map (set {}) = _
    cases readLabel value <;> rfl
  · change ((readLabel value).map Setting.model).map (set {}) = _
    cases readLabel value <;> rfl

end Labels

theorem trim_uncommented_quote {text : List Char} (h : '"' ∉ text) :
    trim (uncommented false (' ' :: Text.quote text)) = Text.quote text := by
  have hspace : IsBlankText [' '] := isBlankText_singleton rfl
  exact IsLineOf.trim_eq ⟨[' '], [], [], hspace, isBlankText_nil, Or.inl rfl, by simp⟩
    (quotedAfter_quote h) (isValueText_quote h).tight

theorem readLabel_quote (label : String) :
    readLabel (Text.quote label.toList) =
      if label.utf8ByteSize ≤ 24 then .ok label else .error .invalidValue := by
  unfold readLabel
  rw [Text.unquote_quote, String.ofList_toList]
  rfl

/-- A label between quotes, of any characters but quotes and newlines, becomes the label of its key as it
stands there, and nothing else is set. A label of more than 24 bytes is refused. -/
theorem quoted_label_kept {label ending : String} (hquote : '"' ∉ label.toList)
    (hline : '\n' ∉ label.toList) (hending : IsEnding ending) :
    ∀ field ∈ labels,
      read (sectionOf "about" field.1 ("\"" ++ label ++ "\"") ++ ending) =
        if label.utf8ByteSize ≤ 24 then .ok { identity := field.2 label }
        else .error .invalidValue := by
  intro field hfield
  have hvalue : ("\"" ++ label ++ "\"").toList = Text.quote label.toList := by
    simp [Text.quote]
  have habout : IsBare "about" := isBare_of_all (by decide)
  have hkey : IsBare field.1 := isBare_of_mem_labels hfield
  have hnewline : '\n' ∉ ("\"" ++ label ++ "\"").toList := by simp [hline]
  have hread : read (sectionOf "about" field.1 ("\"" ++ label ++ "\"") ++ ending) =
      (readAboutSetting field.1 (Text.quote label.toList)).map (set {}) := by
    have hsection : Heading.ofName "about".toList = .ok .about := rfl
    rw [read_sectionOf habout.isWord hkey.isWord hnewline hending, hvalue,
      trim_uncommented_quote hquote, hsection]
    change (readAboutSetting (String.ofList field.1.toList) _).map (set {}) = _
    rw [String.ofList_toList]
  rw [hread, readAboutSetting_label hfield, readLabel_quote]
  split <;> rfl

/-- A label that looks like a header, an assignment and a comment, with blanks at its ends; and one of
twenty-four characters that is a byte too long. -/
theorem hash_label_kept :
    '"' ∉ " [a] = #1é ".toList ∧ '\n' ∉ " [a] = #1é ".toList ∧ IsEnding "" ∧
      read (sectionOf "about" "make" ("\"" ++ " [a] = #1é " ++ "\"") ++ "") =
        .ok { identity := { make := " [a] = #1é " } } ∧
      read (sectionOf "about" "make" ("\"" ++ "aaaaaaaaaaaaaaaaaaaaaaaé" ++ "\"") ++ "") =
        .error .invalidValue := by
  have hquote : '"' ∉ " [a] = #1é ".toList := by decide
  have hline : '\n' ∉ " [a] = #1é ".toList := by decide
  have hending : IsEnding "" := Or.inl rfl
  have hmake : ("make", fun label => ({ make := label } : Identity)) ∈ labels := by simp [labels]
  have hkept := quoted_label_kept hquote hline hending _ hmake
  have hrefused := @quoted_label_kept "aaaaaaaaaaaaaaaaaaaaaaaé" "" (by decide) (by decide) hending _
    hmake
  rw [if_pos (by decide)] at hkept
  rw [if_neg (by decide)] at hrefused
  exact ⟨hquote, hline, hending, hkept, hrefused⟩

end FrontPanel.Settings
