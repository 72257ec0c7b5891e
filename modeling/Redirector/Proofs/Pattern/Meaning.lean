import Redirector.Proofs.Pattern.Scan
import Redirector.Proofs.Regex.Matching

/-!
# What a translated pattern matches

A pattern that is plain text with groups in it, and has no other character with a meaning in
expressions, means what it looks like: its filter matches a text exactly if that is the pattern with
some text without line breaks put in for each group, and the groups of the filter capture just what
was put in.

Such a pattern is given here by its parts. Each stage of the way is then computed part by part: the
text of the filter (`toFilter_text`), the items that it is read as (`loop_filterText`), and what the
sequence of these items matches (`matches_items_iff`).
-/

namespace Redirector.Pattern

inductive Part where
  | char (c : Char)
  /-- The group, which stands for any text. -/
  | anything
  deriving DecidableEq, Repr

/-- Whether a character has a meaning of its own in expressions, the dot apart. -/
def isSpecial (c : Char) : Bool := "\\^$|?*+()[]\x7b\x7d".toList.contains c

namespace Part

def text : Part → List Char
  | char c => [c]
  | anything => group

def filterText : Part → List Char
  | char c => if c = '.' ∨ c = '-' then ['\\', c] else [c]
  | anything => group

/-- Whether a part is a group, or a character without a meaning of its own in expressions. -/
def isPlain : Part → Bool
  | char c => !isSpecial c
  | anything => true

/-- The item that a part of a filter is read as. -/
def item : Part → Regex.Part Regex
  | char c => ⟨.literal ⟨c, false⟩, 0⟩
  | anything => ⟨.group true [] (.repetition .dot 0 none), 2⟩

end Part

/-- Apart from the groups, no character of a pattern has a meaning of its own but the dot. -/
def Plain (ps : List Part) : Prop := ∀ p ∈ ps, p.isPlain = true

instance (ps : List Part) : Decidable (Plain ps) := List.decidableBAll _ ps

/-- The pattern with some parts. -/
def ofParts (ps : List Part) : String := String.ofList (ps.flatMap Part.text)

def groupCount (ps : List Part) : Nat := ps.count .anything

/-- The parts with texts put in for the groups. -/
def fill : List Part → List (List Char) → List Char
  | [], _ => []
  | .char c :: ps, texts => c :: fill ps texts
  | .anything :: ps, [] => fill ps []
  | .anything :: ps, text :: texts => text ++ fill ps texts

/-! ## The text of the filter -/

/-- A part is scanned by itself, whatever stands behind it. -/
private theorem scan_text_append {p : Part} (h : p.isPlain = true) (rest : List Char) :
    scan (p.text ++ rest) = p.filterText ++ scan rest := by
  cases p with
  | anything => rfl
  | char c =>
    have hopen : c ≠ '(' := by
      rintro rfl
      exact absurd h (by decide)
    -- Only an opening parenthesis starts a group, and no plain character is one.
    rw [Part.text, List.singleton_append, scan]
    · by_cases hescaped : c = '.' ∨ c = '-'
      · rw [if_pos hescaped, Part.filterText, if_pos hescaped]
        rfl
      · rw [if_neg hescaped, Part.filterText, if_neg hescaped]
        rfl
    · exact fun _ hcon ↦ absurd hcon hopen

/-- **The filter of a pattern is written part by part.** -/
theorem toFilter_text {ps : List Part} (h : Plain ps) :
    (toFilter (ofParts ps)).toList = ps.flatMap Part.filterText := by
  rw [toList_toFilter, ofParts, String.toList_ofList]
  induction ps with
  | nil => rfl
  | cons p ps ih =>
    obtain ⟨hp, hps⟩ := List.forall_mem_cons.mp h
    rw [List.flatMap_cons, scan_text_append hp, ih hps, List.flatMap_cons]

/-! ## Reading the filter -/

open Regex (Matches captureCount captureCountAll)
open Regex.Parser (State loop step concatOf)

/-- Between the parts of a filter, nothing is open and only items have been read. -/
private def atItems (items : List (Regex.Part Regex)) : State := ⟨items, [], [], [], false⟩

private theorem step_char {c : Char} (hplain : (Part.char c).isPlain = true) (hdot : c ≠ '.')
    (items : List (Regex.Part Regex)) (r : List Char) :
    step (atItems items) c r = some (atItems (Part.item (.char c) :: items), r) := by
  have hne : ∀ d, isSpecial d = true ∨ d = '.' → c ≠ d := by
    rintro d (hd | rfl) rfl
    · rw [Part.isPlain, hd] at hplain
      cases hplain
    · exact hdot rfl
  rw [step]
  · rfl
  all_goals exact hne _ (by decide)

/-- A part is one item, whatever stands behind it, and takes no more steps than characters. -/
private theorem loop_part {p : Part} (h : p.isPlain = true) :
    ∃ steps ≤ p.filterText.length, ∀ items fuel r,
      loop (fuel + steps) (atItems items) (p.filterText ++ r)
        = loop fuel (atItems (p.item :: items)) r := by
  cases p with
  | anything => exact ⟨4, Nat.le_refl 4, fun _ _ _ ↦ rfl⟩
  | char c =>
    by_cases hescaped : c = '.' ∨ c = '-'
    · refine ⟨1, by simp [Part.filterText, hescaped], fun items fuel r ↦ ?_⟩
      rcases hescaped with rfl | rfl
      · rfl
      · rfl
    · refine ⟨1, by simp [Part.filterText, hescaped], fun items fuel r ↦ ?_⟩
      have hdot : c ≠ '.' := fun heq ↦ hescaped (Or.inl heq)
      rw [Part.filterText, if_neg hescaped, List.singleton_append]
      change (step (atItems items) c r >>= fun x ↦ loop fuel x.1 x.2) = _
      rw [step_char h hdot]
      rfl

/-- **A filter is read part by part.** -/
theorem loop_filterText {ps : List Part} (h : Plain ps) (items : List (Regex.Part Regex))
    (fuel : Nat) (hfuel : (ps.flatMap Part.filterText).length < fuel) :
    loop fuel (atItems items) (ps.flatMap Part.filterText)
      = some (concatOf ((ps.map Part.item).reverse ++ items)) := by
  induction ps generalizing items fuel with
  | nil =>
    obtain ⟨fuel, rfl⟩ := Nat.exists_eq_succ_of_ne_zero (Nat.ne_of_gt hfuel)
    rfl
  | cons p ps ih =>
    obtain ⟨hp, hps⟩ := List.forall_mem_cons.mp h
    obtain ⟨steps, hsteps, hloop⟩ := loop_part hp
    rw [List.flatMap_cons, List.length_append] at hfuel
    have hsplit : fuel = fuel - steps + steps := by omega
    have hrest : (ps.flatMap Part.filterText).length < fuel - steps := by omega
    rw [List.flatMap_cons, hsplit, hloop, ih hps _ _ hrest]
    simp

/-- The height of a filter never matters. -/
theorem parse?_filterText {ps : List Part} (h : Plain ps) :
    Regex.parse? (ps.flatMap Part.filterText)
      = some (concatOf (ps.map Part.item).reverse).value := by
  have hloop := loop_filterText h [] _ (Nat.lt_succ_self _)
  rw [List.append_nil] at hloop
  have hheight : (concatOf (ps.map Part.item).reverse).height ≤ 2 + 1 := by
    refine Regex.Parser.height_concatOf_le fun i hi ↦ ?_
    obtain ⟨p, -, rfl⟩ := List.mem_map.mp (List.mem_reverse.mp hi)
    cases p with
    | char c => exact Nat.zero_le 2
    | anything => exact Nat.le_refl 2
  have hle : (concatOf (ps.map Part.item).reverse).height ≤ Regex.greatestHeight :=
    Nat.le_trans hheight (by decide)
  rw [Regex.parse?]
  change (loop _ (atItems []) _ >>= _) = _
  rw [hloop]
  exact if_pos hle

/-! ## What the filter matches -/

/-- **What the items match** is what comes of filling the groups. -/
theorem matches_items_iff {ps : List Part} {w : List Char} {gs : List (List Char)} :
    Matches (.concat (ps.map fun p ↦ p.item.value)) w gs ↔
      gs.length = groupCount ps ∧ (∀ g ∈ gs, '\n' ∉ g) ∧ w = fill ps gs := by
  induction ps generalizing w gs with
  | nil =>
    rw [List.map_nil, Regex.matches_concat_nil_iff]
    constructor
    · rintro ⟨rfl, rfl⟩
      exact ⟨rfl, by simp, rfl⟩
    · rintro ⟨hlen, -, rfl⟩
      exact ⟨rfl, List.length_eq_zero_iff.mp hlen⟩
  | cons p ps ih =>
    rw [List.map_cons, Regex.matches_concat_cons_iff]
    cases p with
    | char c =>
      have hcount : groupCount (.char c :: ps) = groupCount ps := List.count_cons_of_ne (by simp)
      rw [hcount]
      constructor
      · rintro ⟨v, gs₁, w', gs₂, hc, hrest, rfl, rfl⟩
        obtain ⟨rfl, rfl⟩ := Regex.matches_literal_iff.mp hc
        obtain ⟨hlen, hgs, rfl⟩ := ih.mp hrest
        exact ⟨hlen, hgs, rfl⟩
      · rintro ⟨hlen, hgs, rfl⟩
        exact ⟨[c], [], fill ps gs, gs, .literal _, ih.mpr ⟨hlen, hgs, rfl⟩, rfl, rfl⟩
    | anything =>
      have hcount : groupCount (.anything :: ps) = groupCount ps + 1 := List.count_cons_self
      rw [hcount]
      constructor
      · rintro ⟨v, gs₁, w', gs₂, hgroup, hrest, rfl, rfl⟩
        obtain ⟨hs, hany, rfl⟩ := Regex.matches_capturing_iff.mp hgroup
        obtain ⟨hv, rfl⟩ := Regex.matches_anything_iff.mp hany
        obtain ⟨hlen, hgs, rfl⟩ := ih.mp hrest
        exact ⟨congrArg (· + 1) hlen, List.forall_mem_cons.mpr ⟨hv, hgs⟩, rfl⟩
      · rintro ⟨hlen, hgs, rfl⟩
        cases gs with
        | nil => cases hlen
        | cons g gs =>
          obtain ⟨hg, hgs⟩ := List.forall_mem_cons.mp hgs
          have hany := Regex.matches_anything_iff.mpr ⟨hg, rfl⟩
          have hrest := ih.mpr ⟨Nat.succ.inj hlen, hgs, rfl⟩
          exact ⟨g, [g], fill ps gs, gs, .capturing hany, hrest, rfl, rfl⟩

theorem captureCountAll_items (ps : List Part) :
    captureCountAll (ps.map fun p ↦ p.item.value) = groupCount ps := by
  induction ps with
  | nil => rfl
  | cons p ps ih =>
    rw [List.map_cons, captureCountAll, ih]
    cases p with
    | char c =>
      have hcount : groupCount (.char c :: ps) = groupCount ps := List.count_cons_of_ne (by simp)
      rw [hcount]
      exact Nat.zero_add _
    | anything =>
      have hcount : groupCount (.anything :: ps) = groupCount ps + 1 := List.count_cons_self
      rw [hcount]
      exact Nat.add_comm 1 _

/-- **What a translated pattern matches.** The filter of plain text with groups in it is an
expression with as many capture groups; it matches what comes of filling the groups with texts that
have no line breaks, and captures these. -/
theorem toFilter_matches_iff {ps : List Part} (h : Plain ps) :
    ∃ r, Regex.parse? (toFilter (ofParts ps)).toList = some r ∧
      captureCount r = groupCount ps ∧
      ∀ w gs, Matches r w gs ↔
        gs.length = groupCount ps ∧ (∀ g ∈ gs, '\n' ∉ g) ∧ w = fill ps gs := by
  refine ⟨_, by rw [toFilter_text h, parse?_filterText h], ?_, fun w gs ↦ ?_⟩
  · rw [Regex.Parser.captureCount_concatOf, List.reverse_reverse, List.map_map]
    exact captureCountAll_items ps
  · rw [Regex.Parser.matches_concatOf_iff, List.reverse_reverse, List.map_map]
    exact matches_items_iff

/-- A dot and a dash between two groups, the second of which takes up nothing here. -/
theorem toFilter_matches_iff_dotted :
    let ps : List Part := [.anything, .char '.', .char 'a', .char '-', .anything]
    Plain ps ∧ toFilter (ofParts ps) = "(.*)\\.a\\-(.*)" ∧
      ∃ r, Regex.parse? (toFilter (ofParts ps)).toList = some r ∧ captureCount r = 2 ∧
        Matches r ['x', '.', 'a', '-'] [['x'], []] ∧ ¬ ∃ gs, Matches r ['x', 'y', 'a', '-'] gs := by
  intro ps
  have hplain : Plain ps := by decide
  obtain ⟨r, hparse, hcount, hmatches⟩ := toFilter_matches_iff hplain
  refine ⟨hplain, by decide, r, hparse, hcount, (hmatches _ _).mpr (by decide), ?_⟩
  rintro ⟨gs, hgs⟩
  obtain ⟨hlen, -, htext⟩ := (hmatches _ _).mp hgs
  -- Whatever is put in, the dot of the pattern is in the text.
  have hdot : '.' ∈ fill ps gs := by
    match gs, hlen with
    | [g₁, g₂], _ => exact List.mem_append_right g₁ List.mem_cons_self
  rw [← htext] at hdot
  exact absurd hdot (by decide)

end Redirector.Pattern
