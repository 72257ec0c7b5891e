import Redirector.Regex.Parser

/-!
# What an expression matches

An expression matches whole texts, and each match comes with what its capture groups took up, in the
order in which the groups are opened. The relation covers the part of the language whose meaning
does not depend on options or on the surroundings: characters, the dot, sequences, choices,
repetitions and groups. An expression of another form has no matches in this sense.

The number of groups is a matter of how the expression is written (`captureCount`); a group inside a
repetition is counted once there and captures once for each round here.
-/

namespace Redirector.Regex

/-- The expression matches the whole of a text, and its groups capture some texts. -/
inductive Matches : Regex → List Char → List (List Char) → Prop
  | empty : Matches .empty [] []
  | literal (l : Literal) : Matches (.literal l) [l.char] []
  /-- A dot stands for any character but a line break. -/
  | dot {c : Char} (h : c ≠ '\n') : Matches .dot [c] []
  | repetition {r : Regex} {least : Nat} {greatest : Option Nat} {w : List Char}
      {gs : List (List Char)} (n : Nat) (hleast : least ≤ n) (hgreatest : ∀ m ∈ greatest, n ≤ m)
      (h : Matches (.concat (List.replicate n r)) w gs) :
      Matches (.repetition r least greatest) w gs
  | capturing {r : Regex} {w : List Char} {gs : List (List Char)} (h : Matches r w gs) :
      Matches (.group true [] r) w (w :: gs)
  | grouped {r : Regex} {w : List Char} {gs : List (List Char)} (h : Matches r w gs) :
      Matches (.group false [] r) w gs
  | concat_nil : Matches (.concat []) [] []
  | concat_cons {r : Regex} {rs : List Regex} {v w : List Char} {gs hs : List (List Char)}
      (hr : Matches r v gs) (hrs : Matches (.concat rs) w hs) :
      Matches (.concat (r :: rs)) (v ++ w) (gs ++ hs)
  | branch {r : Regex} {rs : List Regex} {w : List Char} {gs : List (List Char)} (hmem : r ∈ rs)
      (h : Matches r w gs) : Matches (.alternation rs) w gs

mutual

def captureCount : Regex → Nat
  | .repetition r _ _ => captureCount r
  | .group captures _ r => (if captures then 1 else 0) + captureCount r
  | .concat rs | .alternation rs => captureCountAll rs
  | _ => 0

def captureCountAll : List Regex → Nat
  | [] => 0
  | r :: rs => captureCount r + captureCountAll rs

end

section

variable {r : Regex} {rs : List Regex} {l : Literal} {w : List Char} {gs : List (List Char)}

theorem matches_literal_iff : Matches (.literal l) w gs ↔ w = [l.char] ∧ gs = [] := by
  constructor
  · intro h
    cases h
    exact ⟨rfl, rfl⟩
  · rintro ⟨rfl, rfl⟩
    exact .literal l

theorem matches_dot_iff : Matches .dot w gs ↔ (∃ c, c ≠ '\n' ∧ w = [c]) ∧ gs = [] := by
  constructor
  · intro h
    cases h with
    | dot h => exact ⟨⟨_, h, rfl⟩, rfl⟩
  · rintro ⟨⟨c, h, rfl⟩, rfl⟩
    exact .dot h

theorem matches_concat_nil_iff : Matches (.concat []) w gs ↔ w = [] ∧ gs = [] := by
  constructor
  · intro h
    cases h
    exact ⟨rfl, rfl⟩
  · rintro ⟨rfl, rfl⟩
    exact .concat_nil

theorem matches_concat_cons_iff :
    Matches (.concat (r :: rs)) w gs ↔ ∃ v gs₁ w' gs₂,
      Matches r v gs₁ ∧ Matches (.concat rs) w' gs₂ ∧ w = v ++ w' ∧ gs = gs₁ ++ gs₂ := by
  constructor
  · intro h
    cases h with
    | concat_cons hr hrs => exact ⟨_, _, _, _, hr, hrs, rfl, rfl⟩
  · rintro ⟨v, gs₁, w', gs₂, hr, hrs, rfl, rfl⟩
    exact .concat_cons hr hrs

theorem matches_capturing_iff :
    Matches (.group true [] r) w gs ↔ ∃ hs, Matches r w hs ∧ gs = w :: hs := by
  constructor
  · intro h
    cases h with
    | capturing h => exact ⟨_, h, rfl⟩
  · rintro ⟨hs, h, rfl⟩
    exact .capturing h

/-- A number of dots in a row match the texts of that length without line breaks. -/
theorem matches_dots_iff {n : Nat} :
    Matches (.concat (List.replicate n .dot)) w gs ↔ w.length = n ∧ '\n' ∉ w ∧ gs = [] := by
  induction n generalizing w gs with
  | zero =>
    rw [List.replicate_zero, matches_concat_nil_iff, List.length_eq_zero_iff]
    constructor
    · rintro ⟨rfl, rfl⟩
      exact ⟨rfl, List.not_mem_nil, rfl⟩
    · rintro ⟨rfl, -, rfl⟩
      exact ⟨rfl, rfl⟩
  | succ n ih =>
    rw [List.replicate_succ, matches_concat_cons_iff]
    constructor
    · rintro ⟨v, gs₁, w', gs₂, hdot, hrest, rfl, rfl⟩
      obtain ⟨⟨c, hc, rfl⟩, rfl⟩ := matches_dot_iff.mp hdot
      obtain ⟨hlen, hw, rfl⟩ := ih.mp hrest
      refine ⟨by simp [hlen], ?_, rfl⟩
      simp [hw, Ne.symm hc]
    · rintro ⟨hlen, hw, rfl⟩
      cases w with
      | nil => cases hlen
      | cons c w =>
        have hc : c ≠ '\n' := fun heq ↦ hw (heq ▸ List.mem_cons_self)
        have hrest := ih.mpr ⟨Nat.succ.inj hlen, fun hmem ↦ hw (List.mem_cons_of_mem _ hmem), rfl⟩
        exact ⟨[c], [], w, [], .dot hc, hrest, rfl, rfl⟩

/-- **Any number of dots match any text without line breaks.** -/
theorem matches_anything_iff :
    Matches (.repetition .dot 0 none) w gs ↔ '\n' ∉ w ∧ gs = [] := by
  constructor
  · intro h
    cases h with
    | repetition n _ _ h =>
      obtain ⟨-, hw, hgs⟩ := matches_dots_iff.mp h
      exact ⟨hw, hgs⟩
  · rintro ⟨hw, hgs⟩
    have hdots := matches_dots_iff.mpr ⟨rfl, hw, hgs⟩
    exact .repetition w.length (Nat.zero_le _) (by simp) hdots

end

namespace Parser

/-- The items of a branch are matched one after the other, however many there are. -/
theorem matches_concatOf_iff {items : List (Part Regex)} {w : List Char}
    {gs : List (List Char)} :
    Matches (concatOf items).value w gs ↔
      Matches (.concat (items.reverse.map Part.value)) w gs := by
  match items with
  | [] =>
    rw [List.reverse_nil, List.map_nil, matches_concat_nil_iff]
    constructor
    · intro h
      cases h
      exact ⟨rfl, rfl⟩
    · rintro ⟨rfl, rfl⟩
      exact .empty
  | [i] =>
    rw [List.reverse_singleton, List.map_singleton, matches_concat_cons_iff]
    constructor
    · intro h
      exact ⟨w, gs, [], [], h, .concat_nil, by simp, by simp⟩
    · rintro ⟨v, gs₁, w', gs₂, h, hnil, rfl, rfl⟩
      obtain ⟨rfl, rfl⟩ := matches_concat_nil_iff.mp hnil
      rw [List.append_nil, List.append_nil]
      exact h
  | i :: j :: items => exact Iff.rfl

theorem captureCount_concatOf (items : List (Part Regex)) :
    captureCount (concatOf items).value = captureCountAll (items.reverse.map Part.value) := by
  match items with
  | [] => rfl
  | [i] => rfl
  | i :: j :: items => rfl

/-- The height of a branch is at most one more than that of its items. -/
theorem height_concatOf_le {items : List (Part Regex)} {n : Nat} (h : ∀ i ∈ items, i.height ≤ n) :
    (concatOf items).height ≤ n + 1 := by
  have htallest : ∀ (is : List (Part Regex)) (a : Nat), a ≤ n → (∀ i ∈ is, i.height ≤ n) →
      is.foldl (fun h p ↦ max h p.height) a ≤ n := by
    intro is
    induction is with
    | nil => exact fun a ha _ ↦ ha
    | cons i is ih =>
      intro a ha his
      obtain ⟨hi, his⟩ := List.forall_mem_cons.mp his
      exact ih _ (Nat.max_le.mpr ⟨ha, hi⟩) his
  match items with
  | [] => exact Nat.zero_le _
  | [i] => exact Nat.le_succ_of_le (h i List.mem_cons_self)
  | i :: j :: items => exact Nat.succ_le_succ (htallest _ 0 (Nat.zero_le n) h)

end Parser

end Redirector.Regex
