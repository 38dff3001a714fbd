import FrontPanel.Proofs.Controller.Allotment
import FrontPanel.Proofs.Settings.Strictness

/-!
# Wiring an accepted configuration

The pins of the settings come from the keys of their roles, and from the defaults where a key is missing.
The audit sees to it that the pins of a document differ from each other and are free; it knows nothing of
the defaults, which are allotted to their roles all the same. So all lines are obtained exactly if no
pin of the document is the default of a key that the document leaves out.
-/

namespace FrontPanel

set_option autoImplicit false

def Role.setting : Role → Option Pin → Setting
  | .select => .selectPin
  | .reset => .resetPin
  | .data => .dataPin
  | .knobA => .knobPinA
  | .knobB => .knobPinB
  | .click => .clickPin
  | .back => .backPin

theorem Role.key_injective {a b : Role} (h : a.key = b.key) : a = b := by
  revert h
  cases a <;> cases b <;> decide

namespace Settings

open Audit (findings tableUnder)

theorem pin_set_setting (s : Settings) (role : Role) (pin : Option Pin) :
    role.pin (s.set (role.setting pin)).panel = pin := by
  cases role <;> rfl

theorem pin_set_of_ne (s : Settings) {role other : Role} (hne : other ≠ role) (pin : Option Pin) :
    other.pin (s.set (role.setting pin)).panel = other.pin s.panel := by
  cases role <;> cases other <;> first | rfl | exact absurd rfl hne

/-- Sets the pin of no role. -/
def IsOther (x : Setting) : Prop := ∀ role pin, x ≠ Role.setting role pin

theorem pin_set_of_isOther (s : Settings) {x : Setting} (hx : IsOther x) (role : Role) :
    role.pin (s.set x).panel = role.pin s.panel := by
  cases x with
  | selectPin pin => exact absurd rfl (hx .select pin)
  | resetPin pin => exact absurd rfl (hx .reset pin)
  | dataPin pin => exact absurd rfl (hx .data pin)
  | knobPinA pin => exact absurd rfl (hx .knobA pin)
  | knobPinB pin => exact absurd rfl (hx .knobB pin)
  | clickPin pin => exact absurd rfl (hx .click pin)
  | backPin pin => exact absurd rfl (hx .back pin)
  | _ => cases role <;> rfl

/-- The assignment is to the key of the role. -/
def Assignment.Names (a : Assignment) (role : Role) : Prop :=
  a.heading = "panel" ∧ a.key = role.key

theorem readPanelSetting_key (role : Role) (value : List Char) :
    readPanelSetting role.key value = (Pin.read value).map role.setting := by
  cases role <;> rfl

theorem mem_pinKeys_iff {key : String} : key ∈ Audit.pinKeys ↔ ∃ role, Role.key role = key := by
  have hkeys : Audit.pinKeys = Wiring.roles.map Role.key := rfl
  rw [hkeys, List.mem_map]
  exact ⟨fun ⟨role, _, h⟩ => ⟨role, h⟩, fun ⟨role, h⟩ => ⟨role, Wiring.mem_roles role, h⟩⟩

theorem isOther_of_map {α : Type} {r : Except SettingsError α} {f : α → Setting} {x : Setting}
    (h : r.map f = .ok x) (hf : ∀ y, IsOther (f y)) : IsOther x := by
  obtain ⟨y, hy⟩ := exists_map_ok.mp ⟨x, h⟩
  rw [hy] at h
  cases h
  exact hf y

theorem isOther_of_readPanelSetting {key : String} (hkey : key ∉ Audit.pinKeys) {value : List Char}
    {x : Setting} (h : readPanelSetting key value = .ok x) : IsOther x := by
  unfold readPanelSetting at h
  split at h
  case h_17 => cases h
  all_goals
    first
    | exact absurd (by decide) hkey
    | exact isOther_of_map h fun _ role _ => by cases role <;> exact nofun

theorem isOther_of_readAboutSetting {key : String} {value : List Char} {x : Setting}
    (h : readAboutSetting key value = .ok x) : IsOther x := by
  unfold readAboutSetting at h
  split at h
  case h_4 => cases h
  all_goals exact isOther_of_map h fun _ role _ => by cases role <;> exact nofun

theorem isOther_of_readFlowSetting {key : String} {value : List Char} {x : Setting}
    (h : readFlowSetting key value = .ok x) : IsOther x := by
  unfold readFlowSetting at h
  split at h
  case h_4 => cases h
  all_goals exact isOther_of_map h fun _ role _ => by cases role <;> exact nofun

theorem ofName_eq_ok {name : String} {h : Heading} (hname : Heading.ofName name.toList = .ok h) :
    (h = .panel ∧ name = "panel") ∨ (h = .about ∧ name = "about") ∨
      h = .flowSensor ∧ name = "flow_sensor" := by
  unfold Heading.ofName at hname
  rw [String.ofList_toList] at hname
  split at hname
  · cases hname
    exact Or.inl ⟨rfl, rfl⟩
  · cases hname
    exact Or.inr (Or.inl ⟨rfl, rfl⟩)
  · cases hname
    exact Or.inr (Or.inr ⟨rfl, rfl⟩)
  · cases hname

/-- An assignment is to the pin of a role, or to no pin at all. -/
theorem Assignment.setting_cases {a : Assignment} {x : Setting} (h : a.setting = .ok x) :
    (∃ role pin, a.Names role ∧ Pin.read a.value.text = .ok pin ∧ x = role.setting pin) ∨
      IsOther x ∧ ∀ role, ¬ a.Names role := by
  obtain ⟨name, key, v⟩ := a
  cases hname : Heading.ofName name.toList with
  | error e =>
    unfold setting at h
    rw [hname] at h
    cases h
  | ok heading =>
    rcases ofName_eq_ok hname with ⟨rfl, rfl⟩ | ⟨rfl, rfl⟩ | ⟨rfl, rfl⟩
    · rw [setting_panel] at h
      by_cases hkey : key ∈ Audit.pinKeys
      · obtain ⟨role, rfl⟩ := mem_pinKeys_iff.mp hkey
        rw [readPanelSetting_key] at h
        obtain ⟨pin, hpin⟩ := exists_map_ok.mp ⟨x, h⟩
        rw [hpin] at h
        cases h
        exact Or.inl ⟨role, pin, ⟨rfl, rfl⟩, hpin, rfl⟩
      · refine Or.inr ⟨isOther_of_readPanelSetting hkey h, ?_⟩
        intro role hnames
        exact hkey (mem_pinKeys_iff.mpr ⟨role, hnames.2.symm⟩)
    · rw [setting_about] at h
      have hne : "about" ≠ "panel" := by decide
      exact Or.inr ⟨isOther_of_readAboutSetting h, fun _ hnames => hne hnames.1⟩
    · rw [setting_flow] at h
      have hne : "flow_sensor" ≠ "panel" := by decide
      exact Or.inr ⟨isOther_of_readFlowSetting h, fun _ hnames => hne hnames.1⟩

theorem Assignment.pin_of_names {a : Assignment} {x : Setting} (h : a.setting = .ok x)
    {role : Role} (hnames : a.Names role) (s : Settings) :
    Pin.read a.value.text = .ok (role.pin (s.set x).panel) := by
  rcases setting_cases h with ⟨role', pin, hnames', hread, rfl⟩ | ⟨_, hnone⟩
  · have heq : role = role' := Role.key_injective (hnames.2.symm.trans hnames'.2)
    rw [heq, pin_set_setting]
    exact hread
  · exact absurd hnames (hnone role)

theorem Assignment.pin_of_not_names {a : Assignment} {x : Setting} (h : a.setting = .ok x)
    {role : Role} (hnames : ¬ a.Names role) (s : Settings) :
    role.pin (s.set x).panel = role.pin s.panel := by
  rcases setting_cases h with ⟨role', pin, hnames', _, rfl⟩ | ⟨hother, _⟩
  · refine pin_set_of_ne s ?_ pin
    rintro rfl
    exact hnames hnames'
  · exact pin_set_of_isOther s hother role

theorem foldlM_pin_of_forall_not {as : List Assignment} {role : Role}
    (has : ∀ a ∈ as, ¬ a.Names role) {s s' : Settings} (h : as.foldlM Assignment.apply s = .ok s') :
    role.pin s'.panel = role.pin s.panel := by
  induction as generalizing s with
  | nil =>
    cases h
    rfl
  | cons a rest ih =>
    obtain ⟨ha, hrest⟩ := List.forall_mem_cons.mp has
    obtain ⟨x, hx, h⟩ := Assignment.foldlM_cons_eq_ok.mp h
    exact (ih hrest h).trans (Assignment.pin_of_not_names hx ha s)

theorem foldlM_pin_of_names {before after : List Assignment} {a : Assignment} {role : Role}
    (ha : a.Names role) (hafter : ∀ a' ∈ after, ¬ a'.Names role) {s s' : Settings}
    (h : (before ++ a :: after).foldlM Assignment.apply s = .ok s') :
    Pin.read a.value.text = .ok (role.pin s'.panel) := by
  obtain ⟨t, _, h⟩ := Assignment.foldlM_append_eq_ok.mp h
  obtain ⟨x, hx, h⟩ := Assignment.foldlM_cons_eq_ok.mp h
  rw [foldlM_pin_of_forall_not hafter h]
  exact Assignment.pin_of_names hx ha t

/-- What a document gives for the key of a role. -/
def given (d : Document) (role : Role) : Option Document :=
  (tableUnder d "panel").bind fun panel => panel.get? role.key

/-- The settings have the pins that the document gives, and the default pins for the keys that it leaves
out. -/
structure HasPinsOf (s : Settings) (d : Document) : Prop where
  pin_given : ∀ role text, given d role = some (.string text) →
    Pin.read (Text.quote text.toList) = .ok (role.pin s.panel)
  pin_default : ∀ role, given d role = none → role.pin s.panel = role.pin {}

/-- Reading the text comes to the pins of the document. -/
def PinsAgree (d : Document) (text : String) : Prop := ∀ s, read text = .ok s → s.HasPinsOf d

theorem ne_of_mem_behind {α β : Type} {f : α → β} {before after : List α} {a : α}
    (h : ((before ++ a :: after).map f).Nodup) {a' : α} (ha' : a' ∈ after) : f a' ≠ f a := by
  rw [List.map_append, List.map_cons, List.nodup_append] at h
  intro heq
  exact (List.nodup_cons.mp h.2.1).1 (heq ▸ List.mem_map_of_mem ha')

namespace PlainDocument

variable {p : PlainDocument}

/-- What a document gives for a role is assigned to it, and no assignment behind that one is to the same
role. -/
theorem assignments_of_given {role : Role} {value : Document}
    (h : given p.document role = some value) :
    ∃ before a after, p.assignments = before ++ a :: after ∧ a.Names role ∧ a.value.value = value ∧
      ∀ a' ∈ after, ¬ a'.Names role := by
  obtain ⟨panel, hpanel, hvalue⟩ := Option.bind_eq_some_iff.mp h
  obtain ⟨hpanel, _⟩ := Option.filter_eq_some_iff.mp hpanel
  obtain ⟨c, hc, hsection⟩ := List.mem_map.mp (Audit.mem_of_lookup hpanel)
  obtain ⟨hname, rfl⟩ := Prod.mk.inj hsection
  obtain ⟨e, he, hentry⟩ := List.mem_map.mp (Audit.mem_of_lookup hvalue)
  obtain ⟨hkey, rfl⟩ := Prod.mk.inj hentry
  obtain ⟨sections, sections', hsections⟩ := List.append_of_mem hc
  obtain ⟨entries, entries', hentries⟩ := List.append_of_mem he
  have hnames := p.distinct
  rw [hsections] at hnames
  have hkeys := c.distinct
  rw [hentries] at hkeys
  have htoAssignment : c.assignments =
      entries.map (fun e => ⟨c.name, e.1, e.2⟩) ++
        ⟨c.name, e.1, e.2⟩ :: entries'.map fun e => ⟨c.name, e.1, e.2⟩ := by
    unfold PlainSection.assignments
    rw [hentries, List.map_append, List.map_cons]
  refine ⟨sections.flatMap PlainSection.assignments ++ entries.map (fun e => ⟨c.name, e.1, e.2⟩),
    ⟨c.name, e.1, e.2⟩,
    entries'.map (fun e => ⟨c.name, e.1, e.2⟩) ++ sections'.flatMap PlainSection.assignments,
    ?_, ⟨hname, hkey⟩, rfl, ?_⟩
  · unfold assignments
    rw [hsections, List.flatMap_append, List.flatMap_cons, htoAssignment]
    simp only [List.append_assoc, List.cons_append]
  · intro a' ha' ⟨hname', hkey'⟩
    rcases List.mem_append.mp ha' with ha' | ha'
    · obtain ⟨e', he', rfl⟩ := List.mem_map.mp ha'
      exact ne_of_mem_behind hkeys he' (hkey'.trans hkey.symm)
    · obtain ⟨c', hc', ha'⟩ := List.mem_flatMap.mp ha'
      obtain ⟨e', _, rfl⟩ := List.mem_map.mp ha'
      exact ne_of_mem_behind hnames hc' (hname'.trans hname.symm)

theorem not_names_of_given_none {role : Role} (h : given p.document role = none) :
    ∀ a ∈ p.assignments, ¬ a.Names role := by
  intro a ha hnames
  obtain ⟨c, hc, ha⟩ := List.mem_flatMap.mp ha
  obtain ⟨⟨key, v⟩, he, rfl⟩ := List.mem_map.mp ha
  obtain ⟨hname, hkey⟩ := hnames
  have htable := p.tableUnder_eq hc
  have hget := c.get?_table he
  change c.name = "panel" at hname
  change key = role.key at hkey
  rw [hname] at htable
  rw [hkey] at hget
  unfold given at h
  rw [htable] at h
  change c.table.get? role.key = none at h
  rw [hget] at h
  cases h

/-- However an accepted document is written plainly, reading it comes to its pins. -/
theorem pinsAgree (hp : findings p.document = []) {text : String} (htext : p.WrittenIn text) :
    PinsAgree p.document text := by
  intro s hs
  rw [p.read_eq_of_accepted hp htext] at hs
  constructor
  · intro role written hgiven
    obtain ⟨before, a, after, hsplit, hnames, hvalue, hafter⟩ := assignments_of_given hgiven
    rw [hsplit] at hs
    have hwritten := a.value.written
    rw [hvalue] at hwritten
    rw [← hwritten.eq_quote]
    exact foldlM_pin_of_names hnames hafter hs
  · intro role hgiven
    exact foldlM_pin_of_forall_not (not_names_of_given_none hgiven) hs

end PlainDocument

/-- The lines that no fixed peripheral has are the free ones. -/
theorem mem_freeLines {n : Nat} (hlast : n ≤ Pin.last) (hreserved : Audit.reserved.lookup n = none) :
    n ∈ freeLines := by
  have hall : ∀ n ∈ List.range 30, Audit.reserved.lookup n = none → n ∈ freeLines := by decide
  exact hall n (List.mem_range.mpr (Nat.lt_succ_of_le hlast)) hreserved

theorem default_mem_freeLines {role : Role} {pin : Pin} (h : role.pin {} = some pin) :
    pin.number ∈ freeLines := by
  cases role <;> cases h <;> decide

theorem defaults_apart {a b : Role} (hne : a ≠ b) : Wiring.Apart {} a b := by
  intro p q hp hq
  cases a <;> cases hp <;> cases b <;> cases hq <;> first | exact absurd rfl hne | decide

section Accepted

variable {d : Document} (hd : findings d = []) {s : Settings} (hs : s.HasPinsOf d)
include hd hs

/-- A pin that the document gives is the line that the audit takes it for, and the audit lets no other key
claim that line. -/
theorem pin_of_given {role : Role} (hgiven : given d role ≠ none) :
    ∃ panel, tableUnder d "panel" = some panel ∧
      Audit.PinsAccepted panel Audit.reserved Audit.pinKeys ∧
      (∀ pin, role.pin s.panel = some pin →
        Audit.claimed panel role.key = some pin.number ∧ pin.number ≤ Pin.last) := by
  obtain ⟨value, hvalue⟩ := Option.ne_none_iff_exists'.mp hgiven
  obtain ⟨panel, hpanel, hget⟩ := Option.bind_eq_some_iff.mp hvalue
  have hpins := (Audit.panelFindings_eq_nil (Audit.findings_eq_nil hd).2.1 hpanel).2
  have hkey : role.key ∈ Audit.pinKeys := mem_pinKeys_iff.mpr ⟨role, rfl⟩
  obtain ⟨text, rfl, hnumber⟩ := hpins.valid role.key hkey value hget
  obtain ⟨pin, hread, hclaimed⟩ := read_quote_of_pinNumber hnumber
  have hsame := hs.pin_given role text hvalue
  rw [hread] at hsame
  refine ⟨panel, hpanel, hpins, ?_⟩
  intro pin' hpin'
  rw [hpin'] at hsame
  cases hsame
  exact ⟨hclaimed.symm, number_le_of_read hread⟩

theorem given_mem_freeLines {role : Role} (hgiven : given d role ≠ none) {pin : Pin}
    (hpin : role.pin s.panel = some pin) : pin.number ∈ freeLines := by
  obtain ⟨panel, _, hpins, hclaimed⟩ := pin_of_given hd hs hgiven
  obtain ⟨hclaim, hlast⟩ := hclaimed pin hpin
  exact mem_freeLines hlast (hpins.free role.key (mem_pinKeys_iff.mpr ⟨role, rfl⟩) pin.number hclaim)

theorem given_apart {a b : Role} (hne : a ≠ b) (ha : given d a ≠ none) (hb : given d b ≠ none) :
    Wiring.Apart s.panel a b := by
  obtain ⟨panel, hpanel, hpins, hclaimedA⟩ := pin_of_given hd hs ha
  obtain ⟨panel', hpanel', _, hclaimedB⟩ := pin_of_given hd hs hb
  rw [hpanel] at hpanel'
  cases hpanel'
  intro p q hp hq heq
  have hapart := hpins.distinct.forall (mem_pinKeys_iff.mpr ⟨a, rfl⟩) (mem_pinKeys_iff.mpr ⟨b, rfl⟩)
    fun hkey => hne (Role.key_injective hkey)
  exact hapart p.number (hclaimedA p hp).1 (heq ▸ (hclaimedB q hq).1)

end Accepted

/-- The settings read from an accepted document: all lines are obtained exactly if no pin that the document
gives has the line of a default pin whose key the document leaves out. -/
theorem every_line_obtained_iff {d : Document} (hd : findings d = []) {text : String}
    (htext : PinsAgree d text) {s : Settings} (hs : read text = .ok s) :
    (∀ role : Role, (Wiring.ofSettings s.panel).line role = role.pin s.panel) ↔
      ∀ taker left : Role, given d taker ≠ none → given d left = none →
        ∀ pin default, taker.pin s.panel = some pin → left.pin {} = some default →
          pin.number ≠ default.number := by
  have hpins := htext s hs
  rw [Wiring.line_ofSettings_iff]
  constructor
  · rintro ⟨_, hapart⟩ taker left htaker hleft pin default hpin hdefault
    have hne : taker ≠ left := by
      rintro rfl
      exact htaker hleft
    exact hapart taker left hne pin default hpin ((hpins.pin_default left hleft).trans hdefault)
  · intro h
    constructor
    · intro role pin hpin
      by_cases hgiven : given d role = none
      · exact default_mem_freeLines ((hpins.pin_default role hgiven).symm.trans hpin)
      · exact given_mem_freeLines hd hpins hgiven hpin
    · intro a b hne
      by_cases ha : given d a = none
      · by_cases hb : given d b = none
        · intro p q hp hq
          rw [hpins.pin_default a ha] at hp
          rw [hpins.pin_default b hb] at hq
          exact defaults_apart hne p q hp hq
        · intro p q hp hq
          rw [hpins.pin_default a ha] at hp
          exact (h b a hb ha q p hq hp).symm
      · by_cases hb : given d b = none
        · intro p q hp hq
          rw [hpins.pin_default b hb] at hq
          exact h a b ha hb p q hp hq
        · exact given_apart hd hpins hne ha hb

/-- A document that gives one pin of the knob, and nothing else. -/
def knobDocument (pin : String) (verbatim : ∀ c ∈ pin.toList, c ≠ '"' ∧ c ≠ '\\' ∧ c ≠ '\n') :
    PlainDocument where
  sections :=
    [{ name := "panel"
       entries := [("encoder_a_pin", ⟨.string pin, Text.quote pin.toList, .string pin verbatim⟩)]
       distinct := by simp }]
  distinct := by simp

/-- The knob is on a line that is no default. -/
def knobOnFive : PlainDocument := knobDocument "gpio5" (by simp)

/-- The knob is on the line that chip select has by default. -/
def knobOnSelect : PlainDocument := knobDocument "gpio17" (by simp)

def knobText (pin : String) : String := "[panel]\nencoder_a_pin = \"" ++ pin ++ "\"\n"

def knobSettings (n : Nat) : Settings := { panel := { knobPinA := some (.plain n) } }

theorem knobOnFive_accepted : findings knobOnFive.document = [] := by
  have hnames : Audit.nameFindings knobOnFive.document = [] := Audit.nameFindings_of_one (by decide)
  unfold findings
  rw [hnames]
  rfl

theorem knobOnSelect_accepted : findings knobOnSelect.document = [] := by
  have hnames : Audit.nameFindings knobOnSelect.document = [] := Audit.nameFindings_of_one (by decide)
  unfold findings
  rw [hnames]
  rfl

theorem knob_line_obtained :
    read (knobText "gpio5") = .ok (knobSettings 5) ∧
      ∀ role : Role, (Wiring.ofSettings (knobSettings 5).panel).line role =
        role.pin (knobSettings 5).panel := by
  have htext : knobOnFive.WrittenIn (knobText "gpio5") := laidOut_line knobOnFive.statements
  have hs : read (knobText "gpio5") = .ok (knobSettings 5) := rfl
  have hagree := PlainDocument.pinsAgree knobOnFive_accepted htext
  refine ⟨hs, (every_line_obtained_iff knobOnFive_accepted hagree hs).mpr ?_⟩
  intro taker left hgiven _ pin default hpin hdefault
  cases taker with
  | knobA => cases hpin; cases left <;> cases hdefault <;> decide
  | _ => exact absurd rfl hgiven

/-- The audit has no findings, and yet the knob does not obtain its line. -/
theorem knob_line_refused :
    findings knobOnSelect.document = [] ∧ knobOnSelect.WrittenIn (knobText "gpio17") ∧
      read (knobText "gpio17") = .ok (knobSettings 17) ∧
      Role.knobA.pin (knobSettings 17).panel = some (.plain 17) ∧
      (Wiring.ofSettings (knobSettings 17).panel).line .knobA = none :=
  ⟨knobOnSelect_accepted, laidOut_line knobOnSelect.statements, rfl, rfl, by decide⟩

end Settings

end FrontPanel
