import FrontPanel.Proofs.Settings.Value

/-!
# Plain documents

A document whose sections hold plain values only, and the texts that write it: a header for each section,
a line for each of its keys, and empty lines and comments anywhere in between. Reading such a text comes
down to the assignments of the document, one after another.
-/

namespace FrontPanel.Settings

set_option autoImplicit false

structure PlainValue where
  value : Document
  text : List Char
  written : value.WrittenAs text

structure PlainSection where
  name : String
  entries : List (String × PlainValue)
  distinct : (entries.map Prod.fst).Nodup

structure PlainDocument where
  sections : List PlainSection
  distinct : (sections.map PlainSection.name).Nodup

/-- A key with the section that it stands in, and its value. -/
structure Assignment where
  heading : String
  key : String
  value : PlainValue

namespace PlainSection

def table (c : PlainSection) : Document := .table (c.entries.map fun e => (e.1, e.2.value))

def assignments (c : PlainSection) : List Assignment := c.entries.map fun e => ⟨c.name, e.1, e.2⟩

def statements (c : PlainSection) : List Statement :=
  .header c.name.toList :: c.entries.map fun e => .assignment e.1.toList e.2.text

end PlainSection

namespace PlainDocument

def document (p : PlainDocument) : Document := .table (p.sections.map fun c => (c.name, c.table))

def assignments (p : PlainDocument) : List Assignment := p.sections.flatMap PlainSection.assignments

def statements (p : PlainDocument) : List Statement := p.sections.flatMap PlainSection.statements

end PlainDocument

/-- A line for each statement, in order, and any number of empty lines. -/
inductive LaidOut : List Statement → List (List Char) → Prop
  | nil : LaidOut [] []
  | empty {statements : List Statement} {line : List Char} {lines : List (List Char)} :
      Shows .nothing line → LaidOut statements lines → LaidOut statements (line :: lines)
  | statement {st : Statement} {statements : List Statement} {line : List Char}
      {lines : List (List Char)} :
      Shows st line → LaidOut statements lines → LaidOut (st :: statements) (line :: lines)

def PlainDocument.WrittenIn (p : PlainDocument) (text : String) : Prop :=
  LaidOut p.statements (Text.lines text.toList)

theorem laidOut_line (statements : List Statement) :
    LaidOut statements (statements.map Statement.line) := by
  induction statements with
  | nil => exact .nil
  | cons st rest ih => exact .statement st.shows_line ih

theorem LaidOut.foldlM_eq {statements : List Statement} {lines : List (List Char)}
    (h : LaidOut statements lines) (hwritable : ∀ st ∈ statements, st.Writable) (r : Reading) :
    lines.foldlM Reading.next r = statements.foldlM Reading.follow r := by
  induction h generalizing r with
  | nil => rfl
  | @empty statements line lines hline _ ih =>
    have hnext : Reading.next r line = .ok r := by
      unfold Reading.next
      rw [hline.ofLine_eq trivial]
      rfl
    rw [List.foldlM_cons, hnext]
    exact ih hwritable r
  | @statement st statements line lines hline _ ih =>
    have hnext : Reading.next r line = r.follow st := by
      unfold Reading.next
      rw [hline.ofLine_eq (hwritable st List.mem_cons_self)]
      rfl
    rw [List.foldlM_cons, List.foldlM_cons, hnext]
    congr 1
    funext r'
    exact ih (fun st' hst' => hwritable st' (List.mem_cons_of_mem st hst')) r'

namespace Assignment

def setting (a : Assignment) : Except SettingsError Setting :=
  Heading.ofName a.heading.toList >>= fun h => readSetting (some h) a.key.toList a.value.text

def apply (s : Settings) (a : Assignment) : Except SettingsError Settings := a.setting.map s.set

theorem apply_of_ok {a : Assignment} {x : Setting} (h : a.setting = .ok x) (s : Settings) :
    apply s a = .ok (s.set x) := by
  unfold apply
  rw [h]
  rfl

theorem apply_of_error {a : Assignment} {e : SettingsError} (h : a.setting = .error e)
    (s : Settings) : apply s a = .error e := by
  unfold apply
  rw [h]
  rfl

theorem foldlM_cons_eq_ok {a : Assignment} {rest : List Assignment} {s s' : Settings} :
    (a :: rest).foldlM apply s = .ok s' ↔
      ∃ x, a.setting = .ok x ∧ rest.foldlM apply (s.set x) = .ok s' := by
  rw [List.foldlM_cons]
  cases ha : a.setting with
  | ok x =>
    rw [apply_of_ok ha s]
    constructor
    · exact fun h => ⟨x, rfl, h⟩
    · rintro ⟨_, hx, h⟩
      cases hx
      exact h
  | error e =>
    rw [apply_of_error ha s]
    constructor
    · intro h
      cases h
    · rintro ⟨_, hx, _⟩
      cases hx

theorem foldlM_append_eq_ok {before after : List Assignment} {s s' : Settings} :
    (before ++ after).foldlM apply s = .ok s' ↔
      ∃ t, before.foldlM apply s = .ok t ∧ after.foldlM apply t = .ok s' := by
  induction before generalizing s with
  | nil =>
    constructor
    · exact fun h => ⟨s, rfl, h⟩
    · rintro ⟨_, ht, h⟩
      cases ht
      exact h
  | cons a rest ih =>
    rw [List.cons_append, foldlM_cons_eq_ok]
    constructor
    · rintro ⟨x, hx, h⟩
      obtain ⟨t, ht, hafter⟩ := ih.mp h
      exact ⟨t, foldlM_cons_eq_ok.mpr ⟨x, hx, ht⟩, hafter⟩
    · rintro ⟨t, ht, hafter⟩
      obtain ⟨x, hx, ht⟩ := foldlM_cons_eq_ok.mp ht
      exact ⟨x, hx, ih.mpr ⟨t, ht, hafter⟩⟩

/-- Whether an assignment is understood does not depend on the settings that it is made to. -/
theorem foldlM_isOk_iff (as : List Assignment) (s : Settings) :
    (∃ s', as.foldlM apply s = .ok s') ↔ ∀ a ∈ as, ∃ x, a.setting = .ok x := by
  induction as generalizing s with
  | nil => exact ⟨fun _ => List.forall_mem_nil _, fun _ => ⟨s, rfl⟩⟩
  | cons a rest ih =>
    rw [List.forall_mem_cons]
    constructor
    · rintro ⟨s', h⟩
      obtain ⟨x, hx, hrest⟩ := foldlM_cons_eq_ok.mp h
      exact ⟨⟨x, hx⟩, (ih (s.set x)).mp ⟨s', hrest⟩⟩
    · rintro ⟨⟨x, hx⟩, hrest⟩
      obtain ⟨s', h⟩ := (ih (s.set x)).mpr hrest
      exact ⟨s', foldlM_cons_eq_ok.mpr ⟨x, hx, h⟩⟩

end Assignment

/-- A section under a known header makes its assignments to the settings. -/
theorem PlainSection.foldlM_statements {c : PlainSection} {h : Heading}
    (hname : Heading.ofName c.name.toList = .ok h) (r : Reading) :
    c.statements.foldlM Reading.follow r =
      (c.assignments.foldlM Assignment.apply r.settings).map (Reading.mk (some h)) := by
  have hentries (entries : List (String × PlainValue)) (s : Settings) :
      (entries.map fun e => Statement.assignment e.1.toList e.2.text).foldlM Reading.follow
          ⟨some h, s⟩ =
        ((entries.map fun e => (⟨c.name, e.1, e.2⟩ : Assignment)).foldlM Assignment.apply s).map
          (Reading.mk (some h)) := by
    induction entries generalizing s with
    | nil => rfl
    | cons e rest ih =>
      have hsetting : (⟨c.name, e.1, e.2⟩ : Assignment).setting =
          readSetting (some h) e.1.toList e.2.text := by
        unfold Assignment.setting
        rw [hname]
        rfl
      have hfollow : Reading.follow ⟨some h, s⟩ (.assignment e.1.toList e.2.text) =
          (readSetting (some h) e.1.toList e.2.text).map fun x => ⟨some h, s.set x⟩ := rfl
      rw [List.map_cons, List.map_cons, List.foldlM_cons, List.foldlM_cons, hfollow]
      cases hread : readSetting (some h) e.1.toList e.2.text with
      | ok x =>
        rw [Assignment.apply_of_ok (hsetting.trans hread)]
        exact ih (s.set x)
      | error e' =>
        rw [Assignment.apply_of_error (hsetting.trans hread)]
        rfl
  unfold statements
  have hheader : r.follow (.header c.name.toList) = .ok ⟨some h, r.settings⟩ := by
    have hfollow : r.follow (.header c.name.toList) =
        (Heading.ofName c.name.toList).map fun h => ⟨some h, r.settings⟩ := rfl
    rw [hfollow, hname]
    rfl
  rw [List.foldlM_cons, hheader]
  exact hentries c.entries r.settings

namespace PlainDocument

theorem foldlM_statements {sections : List PlainSection}
    (hnames : ∀ c ∈ sections, ∃ h, Heading.ofName c.name.toList = .ok h) (r : Reading) :
    ((sections.flatMap PlainSection.statements).foldlM Reading.follow r).map Reading.settings =
      (sections.flatMap PlainSection.assignments).foldlM Assignment.apply r.settings := by
  induction sections generalizing r with
  | nil => rfl
  | cons c rest ih =>
    obtain ⟨h, hname⟩ := hnames c List.mem_cons_self
    rw [List.flatMap_cons, List.flatMap_cons, List.foldlM_append, List.foldlM_append,
      PlainSection.foldlM_statements hname]
    cases c.assignments.foldlM Assignment.apply r.settings with
    | ok s => exact ih (fun c' hc' => hnames c' (List.mem_cons_of_mem c hc')) ⟨some h, s⟩
    | error e => rfl

/-- Reading what a document of known sections is written in makes its assignments. -/
theorem read_eq {p : PlainDocument} {text : String} (htext : p.WrittenIn text)
    (hnames : ∀ c ∈ p.sections, ∃ h, Heading.ofName c.name.toList = .ok h)
    (hwords : ∀ c ∈ p.sections, IsWord c.name.toList ∧ ∀ e ∈ c.entries, IsWord e.1.toList) :
    read text = p.assignments.foldlM Assignment.apply {} := by
  have hwritable : ∀ st ∈ p.statements, st.Writable := by
    intro st hst
    obtain ⟨c, hc, hst⟩ := List.mem_flatMap.mp hst
    rcases List.mem_cons.mp hst with rfl | hst
    · exact (hwords c hc).1
    · obtain ⟨e, he, rfl⟩ := List.mem_map.mp hst
      exact ⟨(hwords c hc).2 e he, e.2.written.isValueText⟩
  unfold read
  rw [htext.foldlM_eq hwritable]
  exact foldlM_statements hnames {}

end PlainDocument

end FrontPanel.Settings
