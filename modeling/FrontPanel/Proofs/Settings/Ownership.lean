import Mathlib.Data.List.Induction
import FrontPanel.Proofs.Settings.PinText

/-!
# Who owns a line

The audit goes through the pin keys with a list of who owns which line: the fixed peripherals at first, and
then every key that has claimed one. What it finds at a key depends on the owners that the keys before it
have left. So the pins have no faults exactly if each of them is a pin, no two share a line and none is on a
reserved one; and where a line is claimed again, the finding names whoever claimed it last.
-/

namespace FrontPanel.Settings.Audit

set_option autoImplicit false

variable {panel : Document}

/-- The key holds the text of a pin on the line. -/
def Names (panel : Document) (key : String) (line : Nat) : Prop :=
  ∃ text pin, panel.get? key = some (.string text) ∧ Pin.WrittenAs (some pin) text.toList ∧
    pin.number = line

theorem claimed_of_string {key text : String} (hget : panel.get? key = some (.string text)) :
    claimed panel key = (pinNumber key text).toOption.join := by
  simp only [claimed, hget]
  cases pinNumber key text <;> rfl

theorem claimed_eq_some_iff {key : String} {line : Nat} :
    claimed panel key = some line ↔ Names panel key line := by
  constructor
  · intro h
    unfold claimed at h
    split at h
    · next text hget =>
      split at h
      · next hpin =>
        obtain ⟨pin, hwritten, hnumber⟩ := pinNumber_eq_ok_iff.mp hpin
        obtain ⟨pin, rfl, rfl⟩ := Option.map_eq_some_iff.mp (hnumber.trans h)
        exact ⟨text, pin, hget, hwritten, rfl⟩
      · cases h
    · cases h
  · rintro ⟨text, pin, hget, hwritten, rfl⟩
    have hpin : pinNumber key text = .ok (some pin.number) :=
      pinNumber_eq_ok_iff.mpr ⟨some pin, hwritten, rfl⟩
    rw [claimed_of_string hget, hpin]
    rfl

/-- A text is a pin, on a line or not connected, exactly if the audit takes it for what its key claims. -/
theorem pinNumber_eq_claimed_iff {key text : String}
    (hget : panel.get? key = some (.string text)) :
    pinNumber key text = .ok (claimed panel key) ↔ ∃ pin, Pin.WrittenAs pin text.toList := by
  rw [claimed_of_string hget]
  constructor
  · intro h
    obtain ⟨pin, hwritten, _⟩ := pinNumber_eq_ok_iff.mp h
    exact ⟨pin, hwritten⟩
  · rintro ⟨pin, hwritten⟩
    rw [pinNumber_eq_ok_iff.mpr ⟨pin, hwritten, rfl⟩]
    rfl

/-- The key that a finding is about, if it is about a key. -/
def Finding.key? : Finding → Option String
  | .unknownKey _ key | .sizeOutOfRange key | .pinNotString key | .pinTaken key _ _
  | .pinNotNamed key _ | .pinNotValid key _ | .notBoolean key => some key
  | .channelOutOfRange => some "spi_channel"
  | .rotationOutOfRange => some "rotation"
  | .resolutionOutOfRange => some "encoder_resolution"
  | .diameterNotPositive => some "gear_diameter"
  | .rootNotTable | .unknownSection _ | .sectionNotTable _ => none

def findingsAbout (d : Document) (key : String) : List Finding :=
  (panelFindings d).filter fun finding => finding.key? == some key

theorem key?_pinFault (key text : String) : (pinFault key text).key? = some key := by
  unfold pinFault
  split <;> rfl

theorem eq_of_mem_requiring {heading : Document} {key : String} {holds : Document → Bool}
    {finding f : Finding} (h : f ∈ requiring heading key holds finding) : f = finding := by
  unfold requiring at h
  split at h
  · split at h
    · cases h
    · exact List.mem_singleton.mp h
  · cases h

theorem key?_of_mem_rangeFindings {f : Finding} (h : f ∈ rangeFindings panel) {key : String}
    (hkey : key ∈ pinKeys) : f.key? ≠ some key := by
  rintro heq
  simp only [rangeFindings, List.mem_append] at h
  rcases h with (((h | h) | h) | h) | h <;> rw [eq_of_mem_requiring h] at heq <;> cases heq <;>
    simp [pinKeys] at hkey

/-- What is found at a key, if the lines are owned like that before it. -/
def keyFindings (panel : Document) (owners : Owners) (key : String) : List Finding :=
  match panel.get? key with
  | none => []
  | some (.string text) =>
    match pinNumber key text with
    | .error finding => [finding]
    | .ok none => []
    | .ok (some pin) => ((owners.lookup pin).map (Finding.pinTaken key pin)).toList
  | some _ => [.pinNotString key]

/-- The owners after a key has claimed its line. -/
def claim (panel : Document) (owners : Owners) (key : String) : Owners :=
  match claimed panel key with
  | some pin => (pin, key) :: owners
  | none => owners

theorem pinFindings_cons (panel : Document) (owners : Owners) (key : String) (keys : List String) :
    pinFindings panel owners (key :: keys) =
      keyFindings panel owners key ++ pinFindings panel (claim panel owners key) keys := by
  cases hget : panel.get? key with
  | none => simp [pinFindings, keyFindings, claim, claimed, hget]
  | some value =>
    cases value with
    | string text =>
      cases hpin : pinNumber key text with
      | error finding => simp [pinFindings, keyFindings, claim, claimed, hget, hpin]
      | ok pin =>
        cases pin with
        | none => simp [pinFindings, keyFindings, claim, claimed, hget, hpin]
        | some line =>
          cases howner : owners.lookup line <;>
            simp [pinFindings, keyFindings, claim, claimed, hget, hpin, howner]
    | _ => simp [pinFindings, keyFindings, claim, claimed, hget]

theorem pinFindings_append (panel : Document) (owners : Owners) (before after : List String) :
    pinFindings panel owners (before ++ after) =
      pinFindings panel owners before ++ pinFindings panel (before.foldl (claim panel) owners) after := by
  induction before generalizing owners with
  | nil => rfl
  | cons key keys ih =>
    rw [List.cons_append, pinFindings_cons, pinFindings_cons, ih, List.append_assoc, List.foldl_cons]

theorem key?_of_mem_keyFindings {owners : Owners} {key : String} {f : Finding}
    (h : f ∈ keyFindings panel owners key) : f.key? = some key := by
  unfold keyFindings at h
  split at h
  · cases h
  · split at h
    · next hpin =>
      rw [List.mem_singleton.mp h, (pinNumber_eq_error_iff.mp hpin).1]
      exact key?_pinFault _ _
    · cases h
    · simp only [Option.mem_toList, Option.map_eq_some_iff] at h
      obtain ⟨owner, _, rfl⟩ := h
      rfl
  · rw [List.mem_singleton.mp h]
    rfl

theorem key?_of_mem_pinFindings {owners : Owners} {keys : List String} {f : Finding}
    (h : f ∈ pinFindings panel owners keys) : ∃ key ∈ keys, f.key? = some key := by
  induction keys generalizing owners with
  | nil => cases h
  | cons key keys ih =>
    rw [pinFindings_cons] at h
    rcases List.mem_append.mp h with h | h
    · exact ⟨key, List.mem_cons_self, key?_of_mem_keyFindings h⟩
    · obtain ⟨k, hk, hkey⟩ := ih h
      exact ⟨k, List.mem_cons_of_mem key hk, hkey⟩

/-- Who owns a line once the keys have claimed theirs: the last of them that names it, or else whom it is
reserved for. -/
inductive OwnedBy (panel : Document) (line : Nat) (keys : List String) : String → Prop
  | claimed {before after : List String} {key : String} (hkeys : keys = before ++ key :: after)
      (hnames : Names panel key line) (hlast : ∀ k ∈ after, ¬ Names panel k line) :
      OwnedBy panel line keys key
  | reserved {owner : String} (hreserved : (line, owner) ∈ reserved)
      (hunclaimed : ∀ k ∈ keys, ¬ Names panel k line) : OwnedBy panel line keys owner

theorem ownedBy_nil_iff {line : Nat} {owner : String} :
    OwnedBy panel line [] owner ↔ (line, owner) ∈ reserved := by
  constructor
  · intro h
    cases h with
    | claimed hkeys => simp at hkeys
    | reserved hreserved => exact hreserved
  · exact fun h => .reserved h nofun

/-- An element of a list that was added to is the new one or one of the old. -/
theorem concat_eq_append_cons {α : Type} {xs before after : List α} {x y : α}
    (h : xs ++ [x] = before ++ y :: after) :
    (x = y ∧ after = []) ∨ ∃ rest, after = rest ++ [x] ∧ xs = before ++ y :: rest := by
  rcases List.eq_nil_or_concat' after with rfl | ⟨rest, z, rfl⟩
  · exact .inl ⟨(List.append_singleton_inj.mp h).2, rfl⟩
  · rw [← List.cons_append, ← List.append_assoc] at h
    obtain ⟨hxs, rfl⟩ := List.append_singleton_inj.mp h
    exact .inr ⟨rest, rfl, hxs⟩

theorem ownedBy_concat_of_names {line : Nat} {keys : List String} {key owner : String}
    (hnames : Names panel key line) : OwnedBy panel line (keys ++ [key]) owner ↔ owner = key := by
  constructor
  · intro h
    cases h with
    | claimed hkeys _ hlast =>
      rcases concat_eq_append_cons hkeys with ⟨rfl, _⟩ | ⟨rest, rfl, _⟩
      · rfl
      · exact absurd hnames (hlast key (by simp))
    | reserved _ hunclaimed => exact absurd hnames (hunclaimed key (by simp))
  · rintro rfl
    exact .claimed rfl hnames nofun

theorem ownedBy_concat_of_not_names {line : Nat} {keys : List String} {key owner : String}
    (hnames : ¬ Names panel key line) :
    OwnedBy panel line (keys ++ [key]) owner ↔ OwnedBy panel line keys owner := by
  constructor
  · intro h
    cases h with
    | claimed hkeys hname hlast =>
      rcases concat_eq_append_cons hkeys with ⟨rfl, _⟩ | ⟨rest, rfl, rfl⟩
      · exact absurd hname hnames
      · exact .claimed rfl hname fun k hk => hlast k (by simp [hk])
    | reserved hreserved hunclaimed =>
      exact .reserved hreserved fun k hk => hunclaimed k (by simp [hk])
  · intro h
    cases h with
    | @claimed before after _ hkeys hname hlast =>
      have hkeys' : keys ++ [key] = before ++ owner :: (after ++ [key]) := by simp [hkeys]
      have hlast' : ∀ k ∈ after ++ [key], ¬ Names panel k line := by
        simpa [or_imp, forall_and, hnames] using hlast
      exact .claimed hkeys' hname hlast'
    | reserved hreserved hunclaimed =>
      have hunclaimed' : ∀ k ∈ keys ++ [key], ¬ Names panel k line := by
        simpa [or_imp, forall_and, hnames] using hunclaimed
      exact .reserved hreserved hunclaimed'

theorem lookup_reserved_iff {line : Nat} {owner : String} :
    reserved.lookup line = some owner ↔ (line, owner) ∈ reserved := by
  have hdistinct : (reserved.map Prod.fst).Nodup := by decide
  exact ⟨mem_of_lookup, lookup_of_mem hdistinct⟩

/-- The list of owners knows the latest owner of every line. -/
theorem lookup_claims_iff {keys : List String} {line : Nat} {owner : String} :
    (keys.foldl (claim panel) reserved).lookup line = some owner ↔
      OwnedBy panel line keys owner := by
  induction keys using List.reverseRecOn with
  | nil => rw [List.foldl_nil, lookup_reserved_iff, ownedBy_nil_iff]
  | append_singleton keys key ih =>
    rw [List.foldl_append, List.foldl_cons, List.foldl_nil]
    generalize keys.foldl (claim panel) reserved = owners at ih
    by_cases hnames : Names panel key line
    · have hclaimed : claimed panel key = some line := claimed_eq_some_iff.mpr hnames
      rw [ownedBy_concat_of_names hnames]
      simp [claim, hclaimed, eq_comm]
    · rw [ownedBy_concat_of_not_names hnames, ← ih]
      unfold claim
      split
      · next pin hclaimed =>
        have hne : line ≠ pin := fun h => hnames (claimed_eq_some_iff.mp (h ▸ hclaimed))
        simp [List.lookup_cons, beq_false_of_ne hne]
      · rfl

/-- Every finding about a key is made where its turn comes. -/
theorem findingsAbout_eq {d : Document} (hpanel : tableUnder d "panel" = some panel)
    {before after : List String} {key : String} (hkeys : pinKeys = before ++ key :: after) :
    findingsAbout d key = keyFindings panel (before.foldl (claim panel) reserved) key := by
  have hnodup : (before ++ key :: after).Nodup := hkeys ▸ (by decide : pinKeys.Nodup)
  have hmem : key ∈ pinKeys := hkeys ▸ (by simp)
  have hothers {owners : Owners} {keys : List String} (hkey : key ∉ keys) :
      (pinFindings panel owners keys).filter (fun f => f.key? == some key) = [] := by
    rw [List.filter_eq_nil_iff]
    intro f hf hkey'
    obtain ⟨k, hk, hfinding⟩ := key?_of_mem_pinFindings hf
    rw [hfinding] at hkey'
    have hsame : k = key := by simpa using hkey'
    exact hkey (hsame ▸ hk)
  have hranges : (rangeFindings panel).filter (fun f => f.key? == some key) = [] := by
    rw [List.filter_eq_nil_iff]
    exact fun f hf hkey' => key?_of_mem_rangeFindings hf hmem (by simpa using hkey')
  have hself (owners : Owners) : (keyFindings panel owners key).filter (fun f => f.key? == some key) =
      keyFindings panel owners key := by
    rw [List.filter_eq_self]
    intro f hf
    simp [key?_of_mem_keyFindings hf]
  obtain ⟨_, hcons, hapart⟩ := List.nodup_append.mp hnodup
  have hbefore : key ∉ before := fun h => hapart key h key List.mem_cons_self rfl
  have hafter : key ∉ after := (List.nodup_cons.mp hcons).1
  unfold findingsAbout panelFindings
  rw [hpanel]
  simp only [hkeys, pinFindings_append, pinFindings_cons, List.filter_append, hranges,
    hothers hbefore, hothers hafter, hself, List.nil_append, List.append_nil]

/-- Every pin key that is there holds a pin, no two of them name the same line, and none names a line of the
fixed peripherals. -/
structure PinsFit (panel : Document) : Prop where
  written : ∀ key ∈ pinKeys, ∀ value, panel.get? key = some value →
    ∃ text pin, value = .string text ∧ Pin.WrittenAs pin text.toList
  distinct : ∀ a ∈ pinKeys, ∀ b ∈ pinKeys, a ≠ b → ∀ line, Names panel a line → ¬ Names panel b line
  unreserved : ∀ key ∈ pinKeys, ∀ line, Names panel key line →
    line ∉ [18, 19, 16, 10, 11, 12, 26, 27]

theorem pinsAccepted_iff : PinsAccepted panel reserved pinKeys ↔ PinsFit panel := by
  constructor
  · intro h
    constructor
    · intro key hkey value hvalue
      obtain ⟨text, rfl, hpin⟩ := h.valid key hkey value hvalue
      obtain ⟨pin, hwritten⟩ := (pinNumber_eq_claimed_iff hvalue).mp hpin
      exact ⟨text, pin, rfl, hwritten⟩
    · intro a ha b hb hne line hnames hother
      exact h.distinct.forall ha hb hne line (claimed_eq_some_iff.mpr hnames)
        (claimed_eq_some_iff.mpr hother)
    · intro key hkey line hnames hmem
      have hfree := h.free key hkey line (claimed_eq_some_iff.mpr hnames)
      obtain ⟨e, he, rfl⟩ : ∃ e ∈ reserved, e.1 = line := List.mem_map.mp hmem
      exact absurd (lookup_reserved_iff.mpr he) (by simp [hfree])
  · intro h
    have hdistinct : pinKeys.Nodup := by decide
    constructor
    · intro key hkey value hvalue
      obtain ⟨text, pin, rfl, hwritten⟩ := h.written key hkey value hvalue
      exact ⟨text, rfl, (pinNumber_eq_claimed_iff hvalue).mpr ⟨pin, hwritten⟩⟩
    · intro key hkey line hline
      have hunreserved := h.unreserved key hkey line (claimed_eq_some_iff.mp hline)
      rw [Option.eq_none_iff_forall_not_mem]
      intro owner howner
      have hmem := List.mem_map_of_mem (f := Prod.fst) (lookup_reserved_iff.mp howner)
      exact hunreserved hmem
    · apply hdistinct.pairwise_of_forall_ne
      intro a ha b hb hne line hline hother
      exact h.distinct a ha b hb hne line (claimed_eq_some_iff.mp hline)
        (claimed_eq_some_iff.mp hother)

theorem keyFindings_of_names {owners : Owners} {key : String} {line : Nat}
    (hnames : Names panel key line) :
    keyFindings panel owners key = ((owners.lookup line).map (Finding.pinTaken key line)).toList := by
  obtain ⟨text, pin, hget, hwritten, rfl⟩ := hnames
  have hpin : pinNumber key text = .ok (some pin.number) :=
    pinNumber_eq_ok_iff.mpr ⟨some pin, hwritten, rfl⟩
  simp only [keyFindings, hget, hpin]

theorem PinsAccepted.tail {owners : Owners} {key : String} {keys : List String}
    (h : PinsAccepted panel owners (key :: keys)) : PinsAccepted panel (claim panel owners key) keys := by
  refine ⟨fun k hk => h.valid k (List.mem_cons_of_mem key hk), ?_, h.distinct.of_cons⟩
  intro k hk line hline
  have hfree := h.free k (List.mem_cons_of_mem key hk) line hline
  unfold claim
  split
  · next pin hpin =>
    have hne : line ≠ pin := by
      rintro rfl
      exact List.rel_of_pairwise_cons h.distinct hk line hpin hline
    rwa [List.lookup_cons, beq_false_of_ne hne]
  · exact hfree

theorem PinsAccepted.keyFindings_eq_nil {owners : Owners} {key : String} {keys : List String}
    (h : PinsAccepted panel owners (key :: keys)) : keyFindings panel owners key = [] := by
  cases hline : claimed panel key with
  | some line =>
    rw [keyFindings_of_names (claimed_eq_some_iff.mp hline),
      h.free key List.mem_cons_self line hline]
    rfl
  | none =>
    cases hget : panel.get? key with
    | none => simp only [keyFindings, hget]
    | some value =>
      obtain ⟨text, rfl, hpin⟩ := h.valid key List.mem_cons_self value hget
      rw [hline] at hpin
      simp only [keyFindings, hget, hpin]

theorem pinFindings_eq_nil_iff {owners : Owners} {keys : List String} :
    pinFindings panel owners keys = [] ↔ PinsAccepted panel owners keys := by
  refine ⟨pinFindings_eq_nil, fun h => ?_⟩
  induction keys generalizing owners with
  | nil => rfl
  | cons key keys ih => rw [pinFindings_cons, h.keyFindings_eq_nil, ih h.tail, List.append_nil]

/-- No finding about a pin key is made exactly if the pins fit. -/
theorem no_pin_findings_iff {d : Document} (hpanel : tableUnder d "panel" = some panel) :
    (∀ f ∈ panelFindings d, ∀ key ∈ pinKeys, f.key? ≠ some key) ↔ PinsFit panel := by
  have hfindings : panelFindings d = rangeFindings panel ++ pinFindings panel reserved pinKeys := by
    simp only [panelFindings, hpanel]
  rw [hfindings, ← pinsAccepted_iff, ← pinFindings_eq_nil_iff, List.eq_nil_iff_forall_not_mem]
  constructor
  · intro h f hf
    obtain ⟨key, hkey, hfinding⟩ := key?_of_mem_pinFindings hf
    exact h f (List.mem_append_right _ hf) key hkey hfinding
  · intro h f hf key hkey
    rcases List.mem_append.mp hf with hf | hf
    · exact key?_of_mem_rangeFindings hf hkey
    · exact absurd hf (h f)

/-- A panel section has no finding about its pins exactly if each is a pin, no two share a line and none is
on a reserved one. About a key whose line has an owner already there is one finding, and it names the
latest of the owners; about any other key that names a line there is none. -/
theorem pin_conflicts_found {d panel : Document} (hpanel : tableUnder d "panel" = some panel) :
    ((∀ f ∈ panelFindings d, ∀ key ∈ pinKeys, f.key? ≠ some key) ↔ PinsFit panel) ∧
      ∀ (before : List String) (key : String) (after : List String) (line : Nat),
        pinKeys = before ++ key :: after → Names panel key line →
        (∀ owner, OwnedBy panel line before owner →
          findingsAbout d key = [.pinTaken key line owner] ∧
            (findingsAbout d key).map Finding.message =
              ["[panel] " ++ key ++ " gpio" ++ toString line ++ " already used by " ++ owner]) ∧
        ((∀ owner, ¬ OwnedBy panel line before owner) → findingsAbout d key = []) := by
  refine ⟨no_pin_findings_iff hpanel, ?_⟩
  intro before key after line hkeys hnames
  have hfindings : findingsAbout d key =
      (((before.foldl (claim panel) reserved).lookup line).map (Finding.pinTaken key line)).toList := by
    rw [findingsAbout_eq hpanel hkeys, keyFindings_of_names hnames]
  constructor
  · intro owner howner
    have hone : findingsAbout d key = [.pinTaken key line owner] := by
      rw [hfindings, lookup_claims_iff.mpr howner]
      rfl
    exact ⟨hone, congrArg (List.map Finding.message) hone⟩
  · intro hnone
    have hlookup : (before.foldl (claim panel) reserved).lookup line = none := by
      rw [Option.eq_none_iff_forall_not_mem]
      exact fun owner howner => hnone owner (lookup_claims_iff.mp howner)
    rw [hfindings, hlookup]
    rfl

/-- The reset line takes a line of the serial channel, the data line takes it over from there, and the
button claims it after both. -/
def crowdedPanel : Document :=
  .table [("rst_pin", .string "gpio18"), ("dc_pin", .string "!gpio18"), ("cs_pin", .string "NC"),
    ("click_pin", .string "^gpio+018")]

theorem crowded_button_found :
    tableUnder (.table [("panel", crowdedPanel)]) "panel" = some crowdedPanel ∧
      Names crowdedPanel "click_pin" 18 ∧
      findingsAbout (.table [("panel", crowdedPanel)]) "click_pin" =
        [.pinTaken "click_pin" 18 "dc_pin"] := by
  have hpanel : tableUnder (.table [("panel", crowdedPanel)]) "panel" = some crowdedPanel := rfl
  have hclick : Names crowdedPanel "click_pin" 18 := claimed_eq_some_iff.mp (by decide)
  have hdata : Names crowdedPanel "dc_pin" 18 := claimed_eq_some_iff.mp (by decide)
  let before := ["cs_pin", "rst_pin", "dc_pin", "encoder_a_pin", "encoder_b_pin"]
  have hbefore : before = ["cs_pin", "rst_pin"] ++ "dc_pin" :: ["encoder_a_pin", "encoder_b_pin"] := rfl
  have howner : OwnedBy crowdedPanel 18 before "dc_pin" := by
    refine .claimed hbefore hdata ?_
    simp only [← claimed_eq_some_iff]
    decide
  obtain ⟨_, hfound⟩ := pin_conflicts_found hpanel
  exact ⟨hpanel, hclick, ((hfound before "click_pin" ["back_pin"] 18 rfl hclick).1 "dc_pin" howner).1⟩

end FrontPanel.Settings.Audit
