import FrontPanel.Settings.Audit

/-!
# Accepted documents

What is known of a document that the audit has no findings in: its sections and keys are known, the values
of the audited keys are in range, and its pins are valid, differ from each other and belong to no fixed
peripheral.
-/

namespace FrontPanel.Settings.Audit

set_option autoImplicit false

theorem lookup_of_mem {α β : Type} [BEq α] [LawfulBEq α] {entries : List (α × β)}
    (hdistinct : (entries.map Prod.fst).Nodup) {key : α} {value : β} (hmem : (key, value) ∈ entries) :
    entries.lookup key = some value := by
  induction entries with
  | nil => cases hmem
  | cons e rest ih =>
    obtain ⟨hnew, hrest⟩ := List.nodup_cons.mp hdistinct
    rcases List.mem_cons.mp hmem with rfl | hmem
    · rw [List.lookup_cons, beq_self_eq_true]
    · have hne : (key == e.1) = false := by
        apply beq_eq_false_iff_ne.mpr
        rintro rfl
        exact hnew (List.mem_map.mpr ⟨_, hmem, rfl⟩)
      rw [← Prod.eta e, List.lookup_cons, hne]
      exact ih hrest hmem

theorem mem_of_lookup {α β : Type} [BEq α] [LawfulBEq α] {entries : List (α × β)} {key : α}
    {value : β} (h : entries.lookup key = some value) : (key, value) ∈ entries := by
  obtain ⟨before, after, rfl, _⟩ := List.lookup_eq_some_iff.mp h
  exact List.mem_append_right before List.mem_cons_self

theorem sectionFindings_eq_nil {name : String} {value : Document}
    (h : sectionFindings name value = []) :
    ∃ keys entries, (name, keys) ∈ catalogue ∧ value.entries? = some entries ∧
      ∀ e ∈ entries, e.1 ∈ keys := by
  unfold sectionFindings at h
  split at h
  · cases h
  · next keys hkeys =>
    split at h
    · cases h
    · next entries hentries =>
      refine ⟨keys, entries, mem_of_lookup hkeys, hentries, ?_⟩
      intro e he
      rw [List.map_eq_nil_iff, List.filter_eq_nil_iff] at h
      have hknown := h e (List.mem_mergeSort.mpr he)
      simpa using hknown

/-- The sections of an accepted document are tables of the catalogue, and so are their keys. -/
theorem nameFindings_eq_nil {sections : List (String × Document)}
    (h : nameFindings (.table sections) = []) {name : String} {value : Document}
    (hmem : (name, value) ∈ sections) :
    ∃ keys entries, (name, keys) ∈ catalogue ∧ value.entries? = some entries ∧
      ∀ e ∈ entries, e.1 ∈ keys := by
  apply sectionFindings_eq_nil
  simp only [nameFindings, Document.entries?, List.flatMap_eq_nil_iff] at h
  exact h (name, value) (List.mem_mergeSort.mpr hmem)

/-- One known key in one known section. -/
theorem nameFindings_of_one {name key : String} {value : Document}
    (hkey : ((catalogue.lookup name).getD []).contains key = true) :
    nameFindings (.table [(name, .table [(key, value)])]) = [] := by
  have hone (e : String × Document) : Document.inKeyOrder [e] = [e] := List.mergeSort_singleton e
  have hsection : sectionFindings name (.table [(key, value)]) = [] := by
    unfold sectionFindings
    cases hkeys : catalogue.lookup name with
    | none =>
      rw [hkeys] at hkey
      cases hkey
    | some keys =>
      rw [hkeys, Option.getD_some] at hkey
      simp only [Document.entries?, hone, List.filter_cons, hkey, Bool.not_true, Bool.false_eq_true,
        if_false, List.filter_nil, List.map_nil]
  simp only [nameFindings, Document.entries?, hone, List.flatMap_singleton, hsection]

theorem holds_of_requiring {heading : Document} {key : String} {holds : Document → Bool}
    {finding : Finding} (h : requiring heading key holds finding = []) {value : Document}
    (hvalue : heading.get? key = some value) : holds value = true := by
  unfold requiring at h
  simp only [hvalue] at h
  split at h
  · assumption
  · cases h

/-- The line that a key claims, if it claims one. -/
def claimed (panel : Document) (key : String) : Option Nat :=
  match panel.get? key with
  | some (.string text) =>
    match pinNumber key text with
    | .ok pin => pin
    | .error _ => none
  | _ => none

/-- Two keys do not claim the same line. -/
def ClaimApart (panel : Document) (a b : String) : Prop :=
  ∀ pin, claimed panel a = some pin → claimed panel b ≠ some pin

instance (panel : Document) : Std.Symm (ClaimApart panel) :=
  ⟨fun _ _ h pin hb ha => h pin ha hb⟩

/-- Every key that is there holds a pin, the lines claimed had no owner, and no line is claimed twice. -/
structure PinsAccepted (panel : Document) (owners : Owners) (keys : List String) : Prop where
  valid : ∀ key ∈ keys, ∀ value, panel.get? key = some value →
    ∃ text, value = .string text ∧ pinNumber key text = .ok (claimed panel key)
  free : ∀ key ∈ keys, ∀ pin, claimed panel key = some pin → owners.lookup pin = none
  distinct : keys.Pairwise (ClaimApart panel)

theorem PinsAccepted.nil (panel : Document) (owners : Owners) : PinsAccepted panel owners [] :=
  ⟨nofun, nofun, List.Pairwise.nil⟩

theorem PinsAccepted.cons_none {panel : Document} {owners : Owners} {key : String}
    {keys : List String} (h : PinsAccepted panel owners keys) (hnone : claimed panel key = none)
    (hvalid : ∀ value, panel.get? key = some value →
      ∃ text, value = .string text ∧ pinNumber key text = .ok none) :
    PinsAccepted panel owners (key :: keys) where
  valid := List.forall_mem_cons.mpr ⟨by rwa [hnone], h.valid⟩
  free := List.forall_mem_cons.mpr ⟨by rw [hnone]; exact nofun, h.free⟩
  distinct := List.Pairwise.cons (fun _ _ _ hpin => nomatch hnone.symm.trans hpin) h.distinct

theorem PinsAccepted.cons_some {panel : Document} {owners : Owners} {key : String}
    {keys : List String} {pin : Nat} (h : PinsAccepted panel ((pin, key) :: owners) keys)
    (hpin : claimed panel key = some pin) (howner : owners.lookup pin = none)
    (hvalid : ∀ value, panel.get? key = some value →
      ∃ text, value = .string text ∧ pinNumber key text = .ok (some pin)) :
    PinsAccepted panel owners (key :: keys) := by
  -- a line that the first key has taken has an owner for the keys behind it
  have hrest : ∀ key' ∈ keys, ∀ pin', claimed panel key' = some pin' →
      pin' ≠ pin ∧ owners.lookup pin' = none := by
    intro key' hkey' pin' hclaimed
    have hfree := h.free key' hkey' pin' hclaimed
    rw [List.lookup_cons] at hfree
    split at hfree
    · cases hfree
    · next hne => exact ⟨fun heq => by simp [heq] at hne, hfree⟩
  constructor
  · exact List.forall_mem_cons.mpr ⟨by rwa [hpin], h.valid⟩
  · refine List.forall_mem_cons.mpr ⟨?_, fun key' hkey' pin' h' => (hrest key' hkey' pin' h').2⟩
    rw [hpin]
    intro pin' heq
    cases heq
    exact howner
  · refine List.Pairwise.cons ?_ h.distinct
    intro key' hkey' pin' heq hclaimed
    rw [hpin] at heq
    cases heq
    exact (hrest key' hkey' pin hclaimed).1 rfl

theorem pinFindings_eq_nil {panel : Document} {owners : Owners} {keys : List String}
    (h : pinFindings panel owners keys = []) : PinsAccepted panel owners keys := by
  induction keys generalizing owners with
  | nil => exact PinsAccepted.nil panel owners
  | cons key keys ih =>
    unfold pinFindings at h
    split at h
    · next hget =>
      refine (ih h).cons_none ?_ ?_
      · unfold claimed
        rw [hget]
      · rw [hget]
        exact nofun
    · next text hget =>
      split at h
      · cases h
      · next hpin =>
        refine (ih h).cons_none ?_ ?_
        · unfold claimed
          simp only [hget, hpin]
        · rw [hget]
          intro value hvalue
          cases hvalue
          exact ⟨text, rfl, hpin⟩
      · next pin hpin =>
        simp only at h
        split at h
        · cases h
        · next howner =>
          refine (ih h).cons_some ?_ howner ?_
          · unfold claimed
            simp only [hget, hpin]
          · rw [hget]
            intro value hvalue
            cases hvalue
            exact ⟨text, rfl, hpin⟩
    · cases h

/-- What an accepted document says about its panel section. -/
theorem panelFindings_eq_nil {d panel : Document} (h : panelFindings d = [])
    (hpanel : tableUnder d "panel" = some panel) :
    rangeFindings panel = [] ∧ PinsAccepted panel reserved pinKeys := by
  unfold panelFindings at h
  rw [hpanel] at h
  obtain ⟨hranges, hpins⟩ := List.append_eq_nil_iff.mp h
  exact ⟨hranges, pinFindings_eq_nil hpins⟩

theorem findings_eq_nil {d : Document} (h : findings d = []) :
    nameFindings d = [] ∧ panelFindings d = [] ∧
      ∀ flow, tableUnder d "flow_sensor" = some flow → flowFindings flow = [] := by
  unfold findings at h
  obtain ⟨h, hflow⟩ := List.append_eq_nil_iff.mp h
  obtain ⟨hnames, hpanel⟩ := List.append_eq_nil_iff.mp h
  refine ⟨hnames, hpanel, ?_⟩
  intro flow hget
  rwa [hget] at hflow

end FrontPanel.Settings.Audit
