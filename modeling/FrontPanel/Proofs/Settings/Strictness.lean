import FrontPanel.Proofs.Settings.Accepted
import FrontPanel.Proofs.Settings.Plain

/-!
# The audit against the reader

A document that the audit accepts, written plainly, is read if and only if its values suit eight keys: the
audit does not look at the frequency, the offsets, the refresh rate and the labels, and it takes a gear
diameter that is too small for single precision. For all other keys the audit is at least as strict as the
reader.
-/

namespace FrontPanel.Settings

set_option autoImplicit false

open Number (Binary Binary32)
open Audit (isIntegerWithin isPositiveNumber isBoolean catalogue findings)

theorem PlainSection.get?_table {c : PlainSection} {key : String} {v : PlainValue}
    (h : (key, v) ∈ c.entries) : c.table.get? key = some v.value := by
  unfold PlainSection.table Document.get?
  apply Audit.lookup_of_mem
  · rw [List.map_map]
    exact c.distinct
  · exact List.mem_map.mpr ⟨(key, v), h, rfl⟩

theorem PlainDocument.tableUnder_eq {p : PlainDocument} {c : PlainSection} (h : c ∈ p.sections) :
    Audit.tableUnder p.document c.name = some c.table := by
  have hget : p.document.get? c.name = some c.table := by
    unfold PlainDocument.document Document.get?
    apply Audit.lookup_of_mem
    · rw [List.map_map]
      exact p.distinct
    · exact List.mem_map.mpr ⟨c, h, rfl⟩
  unfold Audit.tableUnder
  rw [hget]
  rfl

/-- An accepted section is in the catalogue, with all its keys. -/
theorem PlainDocument.mem_catalogue {p : PlainDocument} (hp : findings p.document = [])
    {c : PlainSection} (hc : c ∈ p.sections) :
    ∃ keys, (c.name, keys) ∈ catalogue ∧ ∀ e ∈ c.entries, e.1 ∈ keys := by
  have hmem : (c.name, c.table) ∈ p.sections.map fun c => (c.name, c.table) :=
    List.mem_map.mpr ⟨c, hc, rfl⟩
  obtain ⟨keys, entries, hkeys, hentries, hknown⟩ :=
    Audit.nameFindings_eq_nil (Audit.findings_eq_nil hp).1 hmem
  cases hentries
  refine ⟨keys, hkeys, ?_⟩
  intro e he
  exact hknown (e.1, e.2.value) (List.mem_map.mpr ⟨e, he, rfl⟩)

/-- The names of the catalogue are known to the reader, and can be written without quotes. -/
theorem catalogue_names : ∀ entry ∈ catalogue,
    (∃ h, Heading.ofName entry.1.toList = .ok h) ∧ IsWord entry.1.toList ∧
      ∀ key ∈ entry.2, IsWord key.toList := by
  have hwords : ∀ entry ∈ catalogue, ∀ word ∈ entry.1 :: entry.2, word.toList ≠ [] ∧
      (word.toList.all fun c => !Text.isBlank c && !List.contains ['"', '#', '=', '[', ']'] c) = true := by
    decide +kernel
  intro entry hentry
  have hword {word : String} (h : word ∈ entry.1 :: entry.2) : IsWord word.toList :=
    ⟨(hwords entry hentry word h).1, by simpa using (hwords entry hentry word h).2⟩
  refine ⟨?_, hword List.mem_cons_self, fun key hkey => hword (List.mem_cons_of_mem _ hkey)⟩
  simp only [catalogue, List.mem_cons, List.not_mem_nil, or_false] at hentry
  rcases hentry with rfl | rfl | rfl
  · exact ⟨.panel, rfl⟩
  · exact ⟨.about, rfl⟩
  · exact ⟨.flowSensor, rfl⟩

/-- What the value of a key must be for the reader, as far as the audit does not see to it. -/
def Assignment.Suits (a : Assignment) : Prop :=
  match a.key with
  | "spi_frequency" => isIntegerWithin 0 maxLong a.value.value = true
  | "col_start" | "row_start" => isIntegerWithin 0 maxWord a.value.value = true
  | "refresh_hz" => isIntegerWithin 1 maxByte a.value.value = true
  | "machine_name" | "make" | "model" =>
    (String.ofList (Text.unquote a.value.text)).utf8ByteSize ≤ maxLabelLength
  | "gear_diameter" => ∀ d : Binary32, Binary.read? a.value.text = some d → d.isZero = false
  | _ => True

theorem exists_map_ok {ε α β : Type} {r : Except ε α} {f : α → β} :
    (∃ y, r.map f = .ok y) ↔ ∃ x, r = .ok x := by
  cases r with
  | ok x => exact ⟨fun _ => ⟨x, rfl⟩, fun _ => ⟨f x, rfl⟩⟩
  | error e => exact ⟨fun ⟨_, h⟩ => (by cases h), fun ⟨_, h⟩ => (by cases h)⟩

theorem isIntegerWithin_mono {least greatest least' greatest' : Int} {value : Document}
    (h : isIntegerWithin least greatest value = true) (hleast : least' ≤ least)
    (hgreatest : greatest ≤ greatest') : isIntegerWithin least' greatest' value = true := by
  cases value with
  | integer n =>
    simp only [isIntegerWithin, Bool.and_eq_true, decide_eq_true_eq] at h ⊢
    omega
  | _ => cases h

theorem Document.WrittenAs.eq_quote {s : String} {text : List Char}
    (h : (Document.string s).WrittenAs text) : text = Text.quote s.toList := by
  cases h
  rfl

/-- A pin that the audit accepts is read. -/
theorem Audit.PinsAccepted.read_eq_ok {panel : Document} {owners : Audit.Owners} {keys : List String}
    (h : Audit.PinsAccepted panel owners keys) {key : String} (hkey : key ∈ keys) {v : PlainValue}
    (hget : panel.get? key = some v.value) :
    ∃ pin, Pin.read v.text = .ok pin ∧ pin.map Pin.number = Audit.claimed panel key := by
  obtain ⟨text, hvalue, hpin⟩ := h.valid key hkey v.value hget
  have hwritten := v.written
  rw [hvalue] at hwritten
  rw [hwritten.eq_quote]
  exact read_quote_of_pinNumber hpin

/-- The reader takes a key of an accepted panel section exactly if it suits. -/
theorem readPanelSetting_iff {panel : Document} (hranges : Audit.rangeFindings panel = [])
    (hpins : Audit.PinsAccepted panel Audit.reserved Audit.pinKeys) {a : Assignment}
    (hget : panel.get? a.key = some a.value.value)
    (hkey : a.key ∈ (catalogue.lookup "panel").getD []) :
    (∃ x, readPanelSetting a.key a.value.text = .ok x) ↔ a.Suits := by
  obtain ⟨heading, key, v⟩ := a
  simp only [Audit.rangeFindings, List.append_eq_nil_iff] at hranges
  obtain ⟨⟨⟨⟨hchannel, hrotation⟩, hwidth⟩, hheight⟩, hresolution⟩ := hranges
  have hw := v.written
  have hpin (hmem : key ∈ Audit.pinKeys) : ∃ pin, Pin.read v.text = .ok pin := by
    obtain ⟨pin, hpin, _⟩ := hpins.read_eq_ok hmem hget
    exact ⟨pin, hpin⟩
  have hsize {least greatest : Int} (h : isIntegerWithin least greatest v.value = true)
      (hleast : 0 ≤ least) (hgreatest : greatest ≤ maxWord) :
      ∃ n, readNatural maxWord v.text = .ok n :=
    (hw.readNatural_iff maxWord).mpr (isIntegerWithin_mono h hleast hgreatest)
  change key ∈ ["spi_channel", "spi_frequency", "cs_pin", "rst_pin", "dc_pin", "rotation",
    "col_start", "row_start", "width", "height", "encoder_a_pin", "encoder_b_pin", "click_pin",
    "back_pin", "encoder_resolution", "refresh_hz"] at hkey
  simp only [List.mem_cons, List.not_mem_nil, or_false] at hkey
  rcases hkey with rfl | rfl | rfl | rfl | rfl | rfl | rfl | rfl | rfl | rfl | rfl | rfl | rfl | rfl |
    rfl | rfl
  · refine iff_of_true (exists_map_ok.mpr ?_) trivial
    exact (hw.readNatural_iff 1).mpr (Audit.holds_of_requiring hchannel hget)
  · exact exists_map_ok.trans (hw.readNatural_iff maxLong)
  · exact iff_of_true (exists_map_ok.mpr (hpin (by decide))) trivial
  · exact iff_of_true (exists_map_ok.mpr (hpin (by decide))) trivial
  · exact iff_of_true (exists_map_ok.mpr (hpin (by decide))) trivial
  · refine iff_of_true (exists_map_ok.mpr ?_) trivial
    exact (hw.readNatural_iff 3).mpr (Audit.holds_of_requiring hrotation hget)
  · exact exists_map_ok.trans (hw.readNatural_iff maxWord)
  · exact exists_map_ok.trans (hw.readNatural_iff maxWord)
  · refine iff_of_true (exists_map_ok.mpr ?_) trivial
    exact hsize (Audit.holds_of_requiring hwidth hget) (by decide) (by decide)
  · refine iff_of_true (exists_map_ok.mpr ?_) trivial
    exact hsize (Audit.holds_of_requiring hheight hget) (by decide) (by decide)
  · exact iff_of_true (exists_map_ok.mpr (hpin (by decide))) trivial
  · exact iff_of_true (exists_map_ok.mpr (hpin (by decide))) trivial
  · exact iff_of_true (exists_map_ok.mpr (hpin (by decide))) trivial
  · exact iff_of_true (exists_map_ok.mpr (hpin (by decide))) trivial
  · refine iff_of_true (exists_map_ok.mpr ?_) trivial
    exact (hw.readCount_iff maxByte).mpr (Audit.holds_of_requiring hresolution hget)
  · exact exists_map_ok.trans (hw.readCount_iff maxByte)

theorem readAboutSetting_iff {a : Assignment} (hkey : a.key ∈ (catalogue.lookup "about").getD []) :
    (∃ x, readAboutSetting a.key a.value.text = .ok x) ↔ a.Suits := by
  obtain ⟨heading, key, v⟩ := a
  change key ∈ ["machine_name", "make", "model"] at hkey
  simp only [List.mem_cons, List.not_mem_nil, or_false] at hkey
  rcases hkey with rfl | rfl | rfl
  · exact exists_map_ok.trans (Document.WrittenAs.readLabel_iff v.text)
  · exact exists_map_ok.trans (Document.WrittenAs.readLabel_iff v.text)
  · exact exists_map_ok.trans (Document.WrittenAs.readLabel_iff v.text)

theorem readFlowSetting_iff {flow : Document} (hflow : Audit.flowFindings flow = [])
    {a : Assignment} (hget : flow.get? a.key = some a.value.value)
    (hkey : a.key ∈ (catalogue.lookup "flow_sensor").getD []) :
    (∃ x, readFlowSetting a.key a.value.text = .ok x) ↔ a.Suits := by
  obtain ⟨heading, key, v⟩ := a
  simp only [Audit.flowFindings, List.append_eq_nil_iff] at hflow
  obtain ⟨⟨hdiameter, henable⟩, hdirection⟩ := hflow
  have hw := v.written
  change key ∈ ["enable", "gear_diameter", "direction"] at hkey
  simp only [List.mem_cons, List.not_mem_nil, or_false] at hkey
  rcases hkey with rfl | rfl | rfl
  · refine iff_of_true (exists_map_ok.mpr ?_) trivial
    exact hw.readBoolean_iff.mpr (Audit.holds_of_requiring henable hget)
  · exact exists_map_ok.trans (hw.readLength_iff (Audit.holds_of_requiring hdiameter hget))
  · refine iff_of_true (exists_map_ok.mpr ?_) trivial
    exact hw.readBoolean_iff.mpr (Audit.holds_of_requiring hdirection hget)

theorem Assignment.setting_eq {name : String} {h : Heading} (hname : Heading.ofName name.toList = .ok h)
    (key : String) (v : PlainValue) :
    (⟨name, key, v⟩ : Assignment).setting = readSetting (some h) key.toList v.text := by
  unfold Assignment.setting
  rw [hname]
  rfl

theorem Assignment.setting_panel (key : String) (v : PlainValue) :
    (⟨"panel", key, v⟩ : Assignment).setting = readPanelSetting key v.text := by
  rw [setting_eq (h := .panel) rfl, readSetting, String.ofList_toList]

theorem Assignment.setting_about (key : String) (v : PlainValue) :
    (⟨"about", key, v⟩ : Assignment).setting = readAboutSetting key v.text := by
  rw [setting_eq (h := .about) rfl, readSetting, String.ofList_toList]

theorem Assignment.setting_flow (key : String) (v : PlainValue) :
    (⟨"flow_sensor", key, v⟩ : Assignment).setting = readFlowSetting key v.text := by
  rw [setting_eq (h := .flowSensor) rfl, readSetting, String.ofList_toList]

theorem setting_iff_suits {p : PlainDocument} (hp : findings p.document = []) {a : Assignment}
    (ha : a ∈ p.assignments) : (∃ x, a.setting = .ok x) ↔ a.Suits := by
  obtain ⟨c, hc, ha⟩ := List.mem_flatMap.mp ha
  obtain ⟨⟨key, v⟩, he, rfl⟩ := List.mem_map.mp ha
  obtain ⟨keys, hkeys, hknown⟩ := p.mem_catalogue hp hc
  have hkey : key ∈ keys := hknown (key, v) he
  have htable := p.tableUnder_eq hc
  have hget := c.get?_table he
  obtain ⟨_, hpanel, hflow⟩ := Audit.findings_eq_nil hp
  generalize c.name = name at *
  simp only [catalogue, List.mem_cons, List.not_mem_nil, or_false, Prod.mk.injEq] at hkeys
  rcases hkeys with ⟨rfl, rfl⟩ | ⟨rfl, rfl⟩ | ⟨rfl, rfl⟩
  · rw [Assignment.setting_panel]
    obtain ⟨hranges, hpins⟩ := Audit.panelFindings_eq_nil hpanel htable
    exact readPanelSetting_iff hranges hpins (a := ⟨"panel", key, v⟩) hget hkey
  · rw [Assignment.setting_about]
    exact readAboutSetting_iff (a := ⟨"about", key, v⟩) hkey
  · rw [Assignment.setting_flow]
    exact readFlowSetting_iff (hflow _ htable) (a := ⟨"flow_sensor", key, v⟩) hget hkey

theorem PlainDocument.read_eq_of_accepted {p : PlainDocument} (hp : findings p.document = [])
    {text : String} (htext : p.WrittenIn text) :
    read text = p.assignments.foldlM Assignment.apply {} := by
  apply p.read_eq htext
  · intro c hc
    obtain ⟨keys, hkeys, _⟩ := p.mem_catalogue hp hc
    exact (catalogue_names _ hkeys).1
  · intro c hc
    obtain ⟨keys, hkeys, hknown⟩ := p.mem_catalogue hp hc
    obtain ⟨_, hname, hwords⟩ := catalogue_names _ hkeys
    exact ⟨hname, fun e he => hwords e.1 (hknown e he)⟩

/-- A plain document that the audit accepts is read, in whatever way it is written, exactly if all its
values suit. -/
theorem accepted_read_iff_suits {p : PlainDocument} (hp : findings p.document = []) {text : String}
    (htext : p.WrittenIn text) : (∃ s, read text = .ok s) ↔ ∀ a ∈ p.assignments, a.Suits := by
  rw [p.read_eq_of_accepted hp htext, Assignment.foldlM_isOk_iff]
  constructor
  · exact fun h a ha => (setting_iff_suits hp ha).mp (h a ha)
  · exact fun h a ha => (setting_iff_suits hp ha).mpr (h a ha)

def ratedDocument (rate : Int) : PlainDocument where
  sections :=
    [{ name := "panel"
       entries := [("refresh_hz", ⟨.integer rate, (toString rate).toList, .integer rate⟩)]
       distinct := by simp }]
  distinct := by simp

def ratedText (rate : Int) : String := "[panel]\nrefresh_hz = " ++ toString rate ++ "\n"

/-- The audit accepts any refresh rate. -/
theorem ratedDocument_accepted (rate : Int) : findings (ratedDocument rate).document = [] := by
  have hkey : ((catalogue.lookup "panel").getD []).contains "refresh_hz" = true := by decide
  have hnames : Audit.nameFindings (ratedDocument rate).document = [] :=
    Audit.nameFindings_of_one hkey
  unfold findings
  rw [hnames]
  rfl

theorem ratedDocument_read :
    findings (ratedDocument 20).document = [] ∧ (ratedDocument 20).WrittenIn (ratedText 20) ∧
      ∃ s, read (ratedText 20) = .ok s := by
  have hp := ratedDocument_accepted 20
  have htext : (ratedDocument 20).WrittenIn (ratedText 20) :=
    laidOut_line (ratedDocument 20).statements
  have hsuits : ∀ a ∈ (ratedDocument 20).assignments, a.Suits := by
    intro a ha
    cases List.mem_singleton.mp ha
    exact (rfl : isIntegerWithin 1 maxByte (.integer 20) = true)
  exact ⟨hp, htext, (accepted_read_iff_suits hp htext).mpr hsuits⟩

/-- A refresh rate of zero: the audit has no findings, and the reader refuses the text. -/
theorem ratedDocument_refused :
    findings (ratedDocument 0).document = [] ∧ (ratedDocument 0).WrittenIn (ratedText 0) ∧
      read (ratedText 0) = .error .invalidValue :=
  ⟨ratedDocument_accepted 0, laidOut_line (ratedDocument 0).statements, rfl⟩

end FrontPanel.Settings
