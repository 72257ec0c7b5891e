import Redirector.Document
import Redirector.Proofs.Json.Spread

/-!
# How pieces are spelled

What both passes over a document need to know of a piece. Outside string literals there are no
quotes and no slashes, and no commas but the mark itself (`plain_of_mem_text`); a piece never starts
with a blank (`exists_first`). Inside a literal anything that minds quotes and backslashes in the
way that `TracksStrings` says is still inside when the closing quote comes
(`TracksStrings.foldl_literal`).
-/

namespace Redirector.Document

open Json (Digits Exponent Mark Numeral Piece StringPart)

/-! ## Characters of pieces -/

/-- The characters of numerals. -/
def numeralChars : List Char := Json.digitChars ++ ['+', '-', '.', 'e', 'E']

theorem mem_digits_text {ds : Digits} {c : Char} (h : c ∈ ds.text) : c ∈ numeralChars := by
  have hall : ∀ c ∈ Json.digitChars, c ∈ numeralChars := List.all_iff_forall_prop.mp (by decide)
  obtain ⟨d, -, rfl⟩ := List.mem_map.mp h
  exact hall _ d.property

theorem mem_exponent_text {e : Exponent} {c : Char} (h : c ∈ e.text) : c ∈ numeralChars := by
  obtain ⟨mark, sign, digits⟩ := e
  rcases List.mem_cons.mp h with rfl | h
  · rcases mark.property with hmark | hmark
    · rw [hmark]; decide
    · rw [hmark]; decide
  · rcases List.mem_append.mp h with h | h
    · cases sign with
      | none => cases h
      | some sign =>
        rw [List.mem_singleton.mp h]
        rcases sign.property with hsign | hsign
        · rw [hsign]; decide
        · rw [hsign]; decide
    · exact mem_digits_text h

theorem mem_numeral_text {n : Numeral} {c : Char} (h : c ∈ n.text) : c ∈ numeralChars := by
  simp only [Numeral.text, List.mem_append] at h
  rcases h with h | h | h | h
  · split_ifs at h
    · rw [List.mem_singleton.mp h]; decide
    · cases h
  · exact mem_digits_text h
  · cases hf : n.fraction with
    | none => rw [hf] at h; cases h
    | some ds =>
      rw [hf] at h
      rcases List.mem_cons.mp h with rfl | h
      · decide
      · exact mem_digits_text h
  · cases he : n.exponent with
    | none => rw [he] at h; cases h
    | some e => rw [he] at h; exact mem_exponent_text h

/-- Outside literals there are no quotes and no slashes, and the only comma is the mark. -/
theorem plain_of_mem_text {p : Piece} (hp : ∀ parts, p ≠ .string parts) {c : Char}
    (h : c ∈ p.text) : c ≠ '"' ∧ c ≠ '/' ∧ (c = ',' → p.isComma = true) := by
  cases p with
  | string parts => exact absurd rfl (hp parts)
  | mark m =>
    rw [List.mem_singleton.mp h]
    cases m with
    | openArray | closeArray | openObject | closeObject | comma | colon => decide
  | word w =>
    have hall : ∀ c ∈ "nulltruefalse".toList, c ≠ '"' ∧ c ≠ '/' ∧ c ≠ ',' :=
      List.all_iff_forall_prop.mp (by decide)
    have hmem : c ∈ "nulltruefalse".toList := by
      obtain _ | _ | _ := w
      · exact List.all_iff_forall_prop.mp (by decide) c h
      · exact List.all_iff_forall_prop.mp (by decide) c h
      · exact List.all_iff_forall_prop.mp (by decide) c h
    obtain ⟨hquote, hslash, hcomma⟩ := hall c hmem
    exact ⟨hquote, hslash, fun hc ↦ absurd hc hcomma⟩
  | number n =>
    have hall : ∀ c ∈ numeralChars, c ≠ '"' ∧ c ≠ '/' ∧ c ≠ ',' :=
      List.all_iff_forall_prop.mp (by decide)
    obtain ⟨hquote, hslash, hcomma⟩ := hall c (mem_numeral_text h)
    exact ⟨hquote, hslash, fun hc ↦ absurd hc hcomma⟩

theorem exists_first_numeral (n : Numeral) : ∃ c s, n.text = c :: s ∧ c ∈ numeralChars := by
  have hne : n.text ≠ [] := by simp [Numeral.text, Digits.text]
  obtain ⟨c, s, hs⟩ := List.exists_cons_of_ne_nil hne
  exact ⟨c, s, hs, mem_numeral_text (hs ▸ List.mem_cons_self)⟩

/-- A piece starts with a character that is not blank, and tells by it whether it closes a list or
an object. -/
theorem exists_first (p : Piece) : ∃ c s, p.text = c :: s ∧ Text.isBlank c = false ∧
    CommaScan.isClosing c = p.isClosing := by
  cases p with
  | mark m =>
    cases m with
    | openArray | closeArray | openObject | closeObject | comma | colon =>
      exact ⟨_, _, rfl, by decide, by decide⟩
  | word w =>
    obtain _ | _ | _ := w
    · exact ⟨_, _, rfl, by decide, by decide⟩
    · exact ⟨_, _, rfl, by decide, by decide⟩
    · exact ⟨_, _, rfl, by decide, by decide⟩
  | number n =>
    have hall : ∀ c ∈ numeralChars, Text.isBlank c = false ∧ CommaScan.isClosing c = false :=
      List.all_iff_forall_prop.mp (by decide)
    obtain ⟨c, s, hs, hc⟩ := exists_first_numeral n
    exact ⟨c, s, hs, hall c hc⟩
  | string parts => exact ⟨_, _, rfl, by decide, rfl⟩

/-! ## Literals -/

/-- A fold that keeps track of string literals: it writes what it is given, and a quote after a
backslash is not the end. -/
structure TracksStrings {σ : Type} (step : σ → Char → σ) (inside escaped : List Char → σ) :
    Prop where
  plain : ∀ written c, c ≠ '\\' → c ≠ '"' → step (inside written) c = inside (c :: written)
  backslash : ∀ written, step (inside written) '\\' = escaped ('\\' :: written)
  escaped : ∀ written c, step (escaped written) c = inside (c :: written)

namespace TracksStrings

variable {σ : Type} {step : σ → Char → σ} {inside escaped : List Char → σ}

theorem foldl_plain (h : TracksStrings step inside escaped) {s : List Char}
    (hs : ∀ c ∈ s, c ≠ '\\' ∧ c ≠ '"') (written : List Char) :
    s.foldl step (inside written) = inside (s.reverse ++ written) := by
  induction s generalizing written with
  | nil => rfl
  | cons c s ih =>
    obtain ⟨hc, hs⟩ := List.forall_mem_cons.mp hs
    rw [List.foldl_cons, h.plain written c hc.1 hc.2, ih hs, List.reverse_cons, List.append_assoc,
      List.singleton_append]

theorem foldl_part (h : TracksStrings step inside escaped) (part : StringPart)
    (written : List Char) :
    part.text.foldl step (inside written) = inside (part.text.reverse ++ written) := by
  cases part with
  | plain c hc => exact h.plain written c hc.2.2 hc.2.1
  | escape c =>
    simp only [StringPart.text, List.foldl_cons, List.foldl_nil, h.backslash, h.escaped]
    rfl
  | unicode a b c d =>
    have hall : ∀ c ∈ Json.hexDigitChars, c ≠ '\\' ∧ c ≠ '"' :=
      List.all_iff_forall_prop.mp (by decide)
    have hdigits : ∀ e ∈ [a.val, b.val, c.val, d.val], e ≠ '\\' ∧ e ≠ '"' := by
      have hdigit (e : Json.HexDigit) := hall e.val e.property
      simp [hdigit]
    have hrest := h.foldl_plain hdigits ('u' :: '\\' :: written)
    rw [StringPart.text, List.foldl_cons, List.foldl_cons, h.backslash, h.escaped, hrest]
    rfl

/-- A fold that tracks strings is still inside a literal before its closing quote. -/
theorem foldl_literal (h : TracksStrings step inside escaped) (parts : List StringPart)
    (written : List Char) :
    (parts.flatMap StringPart.text).foldl step (inside written) =
      inside ((parts.flatMap StringPart.text).reverse ++ written) := by
  induction parts generalizing written with
  | nil => rfl
  | cons part parts ih =>
    rw [List.flatMap_cons, List.foldl_append, h.foldl_part, ih, List.reverse_append,
      List.append_assoc]

end TracksStrings

end Redirector.Document
