import Redirector.Proofs.Json.Printed
import Redirector.Proofs.Sorted

/-!
# Both layouts of a value spell its tokens

A value is written compactly or laid out on lines. Either way its text is spread from the same
pieces, with nothing but blanks between them, and the pieces are cut into the tokens of the value
(`exists_isWrittenAs`). So what a decoder makes of a value it also makes of both texts of it, and of
any other text that is spread from those pieces (`Decoder.Agrees.run_spells`).

Only doubles are left out: what they are written as need not be read as the same double.
-/

namespace Redirector.Json

/-! ## Parts of texts -/

/-- A text is spread from some pieces, and they are cut into some tokens. -/
structure Spells (ps : List Piece) (ts : List Token) (s : List Char) : Prop where
  spread : Spread IsBlank IsBlank ps s
  tokens : (ps.flatMap fun p ↦ tokensOf p.text) = ts

/-- A text without anything wrong in it is cut into no other tokens than its own. -/
theorem CutsAtLast.tokensOf_eq {s : List Char} {ts : List Token} (h : CutsAtLast s ts)
    (hts : ∀ t ∈ ts, t.IsSound) : tokensOf s = ts := by
  have hlexemes := (h (Lexer.init false) rfl).lexemes
  have hbare : ((s.foldl Lexer.step (Lexer.init false)).settle.lexemes.reverse).map Lexeme.bare =
      ts.map fun t ↦ Lexeme.ofToken t.bare := by
    rw [List.map_reverse, hlexemes]
    simp [Lexer.afterTokens, Lexer.init, Lexeme.ofToken, Lexeme.bare, Function.comp_def]
  rw [tokensOf, ← List.map_reverse]
  exact map_token_of_bare hbare hts

def Mark.token : Mark → Token
  | openArray => .openArray
  | closeArray => .closeArray
  | openObject => .openObject
  | closeObject => .closeObject
  | comma => .comma
  | colon => .colon

namespace Spells

variable {ps qs : List Piece} {ts us : List Token} {s s' : List Char}

theorem append (h : Spells ps ts s) (h' : Spells qs us s') :
    Spells (ps ++ qs) (ts ++ us) (s ++ s') where
  spread := h.spread.append h'.spread
  tokens := by rw [List.flatMap_append, h.tokens, h'.tokens]

theorem prepend {w : List Char} (hw : IsBlank w) (h : Spells ps ts s) : Spells ps ts (w ++ s) :=
  ⟨h.spread.prepend hw, h.tokens⟩

theorem piece {p : Piece} (h : tokensOf p.text = ts) : Spells [p] ts p.text where
  spread := by
    have hspread : Spread IsBlank IsBlank [p] ([] ++ (p.text ++ [])) :=
      .cons isBlank_nil (.nil isBlank_nil)
    rwa [List.nil_append, List.append_nil] at hspread
  tokens := by rw [List.flatMap_singleton, h]

theorem mark (m : Mark) : Spells [.mark m] [m.token] [m.char] := by
  cases m with
  | openArray | closeArray | openObject | closeObject | comma | colon => exact piece rfl

theorem word (w : Word) : Spells [.word w] [.word (.ok w)] (Piece.word w).text := by
  obtain _ | _ | _ := w
  · exact piece rfl
  · exact piece rfl
  · exact piece rfl

end Spells

/-! ## Strings and numbers -/

theorem mem_hexDigitChars_digitChar : ∀ n < 16, Nat.digitChar n ∈ hexDigitChars := by
  decide

theorem exists_part (c : Char) : ∃ part : StringPart, part.text = escapeChar c := by
  unfold escapeChar
  split
  · exact ⟨.escape ⟨'"', by decide⟩, rfl⟩
  · exact ⟨.escape ⟨'\\', by decide⟩, rfl⟩
  · exact ⟨.escape ⟨'b', by decide⟩, rfl⟩
  · exact ⟨.escape ⟨'f', by decide⟩, rfl⟩
  · exact ⟨.escape ⟨'n', by decide⟩, rfl⟩
  · exact ⟨.escape ⟨'r', by decide⟩, rfl⟩
  · exact ⟨.escape ⟨'t', by decide⟩, rfl⟩
  · split_ifs with hcontrol
    · have hzero : '0' ∈ hexDigitChars := by decide
      have hhigh := mem_hexDigitChars_digitChar (c.toNat / 16) (by omega)
      have hlow := mem_hexDigitChars_digitChar (c.toNat % 16) (by omega)
      exact ⟨.unicode ⟨'0', hzero⟩ ⟨'0', hzero⟩ ⟨_, hhigh⟩ ⟨_, hlow⟩, rfl⟩
    · exact ⟨.plain c ⟨Nat.le_of_not_lt hcontrol, ‹_›, ‹_›⟩, rfl⟩

theorem exists_literal (s : String) : ∃ parts, literal parts = stringChars s := by
  have hparts : ∀ cs : List Char, ∃ parts : List StringPart,
      parts.flatMap StringPart.text = cs.flatMap escapeChar := by
    intro cs
    induction cs with
    | nil => exact ⟨[], rfl⟩
    | cons c cs ih =>
      obtain ⟨part, hpart⟩ := exists_part c
      obtain ⟨parts, hparts⟩ := ih
      exact ⟨part :: parts, by rw [List.flatMap_cons, List.flatMap_cons, hpart, hparts]⟩
  obtain ⟨parts, hparts⟩ := hparts s.toList
  exact ⟨parts, by rw [literal, stringChars, hparts]⟩

theorem Spells.exists_string (s : String) :
    ∃ parts, Spells [.string parts] [.string (.ok s) (.ok ())] (stringChars s) := by
  obtain ⟨parts, hparts⟩ := exists_literal s
  have htokens : tokensOf (stringChars s) = [.string (.ok s) (.ok ())] :=
    (cuts_stringChars s).atLast.tokensOf_eq (List.forall_mem_singleton.mpr ⟨rfl, rfl⟩)
  rw [← hparts] at htokens ⊢
  exact ⟨parts, .piece htokens⟩

theorem digitChar_mem_digitChars : ∀ d < 10, Nat.digitChar d ∈ digitChars := by
  decide

/-- The digits of a natural number start with a zero only if it is zero. -/
theorem exists_digits (n : Nat) :
    ∃ ds : Digits, ds.text = Nat.toDigits 10 n ∧ (ds.first.val = '0' → n = 0) := by
  induction n using Nat.strongRecOn with
  | ind n ih =>
    by_cases hlt : n < 10
    · have hzero : ∀ d < 10, Nat.digitChar d = '0' → d = 0 := by decide
      refine ⟨⟨⟨_, digitChar_mem_digitChars n hlt⟩, []⟩, ?_, hzero n hlt⟩
      rw [Nat.toDigits_of_lt_base hlt]
      rfl
    · obtain ⟨⟨first, rest⟩, htext, hfirst⟩ := ih (n / 10) (by omega)
      have hlast := digitChar_mem_digitChars (n % 10) (Nat.mod_lt _ (by decide))
      refine ⟨⟨first, rest ++ [⟨_, hlast⟩]⟩, ?_, fun h ↦ ?_⟩
      · rw [Nat.toDigits_of_base_le (by decide) (Nat.le_of_not_lt hlt), ← htext]
        simp [Digits.text]
      · have hquotient := hfirst h
        omega

theorem exists_numeral {k : Number} (h : k.IsIntegral) :
    ∃ n : Numeral, n.text = k.text.toList := by
  have hwhole : ∀ m : Nat, ∃ ds : Digits, ds.text = Nat.toDigits 10 m ∧
      (ds.first.val = '0' → ds.rest = []) := by
    intro m
    obtain ⟨ds, htext, hfirst⟩ := exists_digits m
    refine ⟨ds, htext, fun hzero ↦ ?_⟩
    rw [hfirst hzero] at htext
    have hlength := congrArg List.length htext
    simpa [Digits.text] using hlength
  cases k with
  | natural m =>
    obtain ⟨ds, htext, hzero⟩ := hwhole m
    refine ⟨⟨false, ds, hzero, none, none⟩, ?_⟩
    simp [Numeral.text, Numeral.fractionText, Number.text, htext]
  | negative m =>
    obtain ⟨ds, htext, hzero⟩ := hwhole m
    refine ⟨⟨true, ds, hzero, none, none⟩, ?_⟩
    simp [Numeral.text, Numeral.fractionText, Number.text, htext]
  | real x => cases h

theorem Spells.exists_number {k : Number} (h : k.IsIntegral) :
    ∃ n, Spells [.number n] [.number (.ok k) (.ok ())] k.text.toList := by
  obtain ⟨n, hn⟩ := exists_numeral h
  have htokens : tokensOf k.text.toList = [.number (.ok k) (.ok ())] :=
    (cutsAtLast_number h).tokensOf_eq (List.forall_mem_singleton.mpr ⟨rfl, rfl⟩)
  rw [← hn] at htokens ⊢
  exact ⟨n, .piece htokens⟩

/-! ## Values -/

/-- A part of a value as it is written in either layout. Its pieces are given with extra commas and
without them, though it has none, and its text on lines is given for every depth. -/
structure Layouts (ps : Bool → List Piece) (ts : List Token) (compact : List Char)
    (pretty : Nat → List Char) : Prop where
  unadorned : ps true = ps false
  compact : Spells (ps false) ts compact
  pretty : ∀ depth, Spells (ps false) ts (pretty depth)

theorem isBlank_newLine (depth : Nat) : IsBlank (newLine depth) := by
  refine List.forall_mem_cons.mpr ⟨by decide, fun c hc ↦ ?_⟩
  rw [List.eq_of_mem_replicate hc]
  decide

namespace Layouts

variable {ps qs : Bool → List Piece} {ts us : List Token} {c d : List Char}
  {p q : Nat → List Char}

theorem of_spells {ps : List Piece} {s : List Char} (h : Spells ps ts s) :
    Layouts (fun _ ↦ ps) ts s fun _ ↦ s :=
  ⟨rfl, h, fun _ ↦ h⟩

theorem append (h : Layouts ps ts c p) (h' : Layouts qs us d q) :
    Layouts (fun extras ↦ ps extras ++ qs extras) (ts ++ us) (c ++ d)
      fun depth ↦ p depth ++ q depth where
  unadorned := by rw [h.unadorned, h'.unadorned]
  compact := h.compact.append h'.compact
  pretty depth := (h.pretty depth).append (h'.pretty depth)

theorem indent (h : Layouts ps ts c p) :
    Layouts ps ts c fun depth ↦ newLine (depth + 1) ++ p (depth + 1) where
  unadorned := h.unadorned
  compact := h.compact
  pretty depth := (h.pretty (depth + 1)).prepend (isBlank_newLine (depth + 1))

theorem spaced (h : Layouts ps ts c p) : Layouts ps ts c fun depth ↦ ' ' :: p depth where
  unadorned := h.unadorned
  compact := h.compact
  pretty depth := (h.pretty depth).prepend (w := [' ']) (List.forall_mem_singleton.mpr (by decide))

theorem separated (isFirst : Bool) (h : Layouts ps ts c p) :
    Layouts (fun extras ↦ Tree.separated isFirst (ps extras))
      ((if isFirst then [] else [.comma]) ++ ts) ((if isFirst then [] else [',']) ++ c)
      fun depth ↦ (if isFirst then [] else [',']) ++ p depth := by
  cases isFirst with
  | true => exact h
  | false => exact (of_spells (.mark .comma)).append h

theorem closing (isFirst : Bool) (m : Mark) :
    Layouts (fun extras ↦ Tree.closing (!isFirst && extras && false) m) [m.token] [m.char]
      fun depth ↦ newLine depth ++ [m.char] where
  unadorned := by rw [Bool.and_false, Bool.and_false]
  compact := by
    rw [Bool.and_false]
    exact .mark m
  pretty depth := by
    rw [Bool.and_false]
    exact (Spells.mark m).prepend (isBlank_newLine depth)

end Layouts

/-- A value is written as some tree. -/
def IsWrittenAs (j : Json) (t : Tree) : Prop :=
  Layouts (fun extras ↦ t.pieces extras) j.tokens (compactChars j) fun depth ↦ prettyChars depth j

theorem itemTokens_cons (isFirst : Bool) (j : Json) (js : List Json) :
    itemTokens isFirst (j :: js) =
      (if isFirst then [] else [.comma]) ++ (j.tokens ++ itemTokens false js) := by
  cases isFirst with
  | true => rw [itemTokens, if_pos rfl, List.nil_append]
  | false => rw [itemTokens]; rfl

theorem memberTokens_cons (isFirst : Bool) (key : String) (j : Json) (ms : List (String × Json)) :
    memberTokens isFirst ((key, j) :: ms) = (if isFirst then [] else [.comma]) ++
      ([.string (.ok key) (.ok ())] ++ ([.colon] ++ (j.tokens ++ memberTokens false ms))) := by
  cases isFirst with
  | true => rw [memberTokens, if_pos rfl, List.nil_append]; rfl
  | false => rw [memberTokens]; rfl

theorem Layouts.items {js : List Json} {ts : List Tree} (h : List.Forall₂ IsWrittenAs js ts)
    (isFirst : Bool) :
    Layouts (fun extras ↦ Tree.itemPieces extras false isFirst ts) (itemTokens isFirst js)
      (compactItems isFirst js) fun depth ↦ prettyItems depth isFirst js := by
  induction h generalizing isFirst with
  | nil =>
    simp only [Tree.itemPieces, itemTokens, compactItems, prettyItems]
    exact .closing isFirst .closeArray
  | @cons j t js ts hj _ ih =>
    have hitems := (Layouts.indent hj).append (ih false)
    simp only [Tree.itemPieces, itemTokens_cons, compactItems, prettyItems]
    simpa only [List.append_assoc] using hitems.separated isFirst

/-- A member is written as some key and some tree. -/
structure MemberIsWrittenAs (m : String × Json) (n : List StringPart × Tree) : Prop where
  key : Spells [.string n.1] [.string (.ok m.1) (.ok ())] (stringChars m.1)
  value : m.2.IsWrittenAs n.2

theorem Layouts.members {ms : List (String × Json)} {ns : List (List StringPart × Tree)}
    (h : List.Forall₂ MemberIsWrittenAs ms ns) (isFirst : Bool) :
    Layouts (fun extras ↦ Tree.memberPieces extras false isFirst ns) (memberTokens isFirst ms)
      (compactMembers isFirst ms) fun depth ↦ prettyMembers depth isFirst ms := by
  induction h generalizing isFirst with
  | nil =>
    simp only [Tree.memberPieces, memberTokens, compactMembers, prettyMembers]
    exact .closing isFirst .closeObject
  | @cons m n ms ns hm _ ih =>
    obtain ⟨key, j⟩ := m
    obtain ⟨parts, t⟩ := n
    have hvalue := (Layouts.of_spells (.mark .colon)).append (Layouts.spaced hm.value)
    have hmember := (Layouts.of_spells hm.key).append hvalue
    have hmembers := hmember.indent.append (ih false)
    simp only [Tree.memberPieces, memberTokens_cons, compactMembers, prettyMembers]
    simpa only [List.append_assoc, List.cons_append, List.nil_append, Mark.token, Mark.char] using
      hmembers.separated isFirst

namespace IsWrittenAs

theorem array {js : List Json} {ts : List Tree} (h : List.Forall₂ IsWrittenAs js ts) :
    (array js).IsWrittenAs (.array ts false) := by
  have hitems := (Layouts.of_spells (.mark .openArray)).append (Layouts.items h true)
  simp only [IsWrittenAs, Tree.pieces, tokens, compactChars]
  cases h with
  | nil =>
    simp only [prettyChars]
    exact ⟨hitems.unadorned, hitems.compact, fun _ ↦ hitems.compact⟩
  | cons =>
    simp only [prettyChars]
    exact hitems

theorem object {ms : List (String × Json)} {ns : List (List StringPart × Tree)}
    (h : List.Forall₂ MemberIsWrittenAs ms ns) : (object ms).IsWrittenAs (.object ns false) := by
  have hmembers := (Layouts.of_spells (.mark .openObject)).append (Layouts.members h true)
  simp only [IsWrittenAs, Tree.pieces, tokens, compactChars]
  cases h with
  | nil =>
    simp only [prettyChars]
    exact ⟨hmembers.unadorned, hmembers.compact, fun _ ↦ hmembers.compact⟩
  | cons =>
    simp only [prettyChars]
    exact hmembers

end IsWrittenAs

mutual

/-- **A value without doubles is written as some tree**, in either layout. -/
theorem exists_isWrittenAs : ∀ j : Json, j.IsIntegral → ∃ t, j.IsWrittenAs t
  | .null, _ => by
    refine ⟨.word .null, ?_⟩
    simp only [IsWrittenAs, Tree.pieces, tokens, compactChars, prettyChars, scalarChars]
    exact .of_spells (.word .null)
  | .boolean b, _ => by
    have htext : (if b = true then "true".toList else "false".toList) =
        (Piece.word (.boolean b)).text := by
      cases b with
      | true => rfl
      | false => rfl
    refine ⟨.word (.boolean b), ?_⟩
    simp only [IsWrittenAs, Tree.pieces, tokens, compactChars, prettyChars, scalarChars, htext]
    exact .of_spells (.word (.boolean b))
  | .number k, h => by
    obtain ⟨n, hn⟩ := Spells.exists_number (h k (by rw [numbers]; exact List.mem_singleton_self k))
    refine ⟨.number n, ?_⟩
    simp only [IsWrittenAs, Tree.pieces, tokens, compactChars, prettyChars, scalarChars]
    exact .of_spells hn
  | .string s, _ => by
    obtain ⟨parts, hparts⟩ := Spells.exists_string s
    refine ⟨.string parts, ?_⟩
    simp only [IsWrittenAs, Tree.pieces, tokens, compactChars, prettyChars, scalarChars]
    exact .of_spells hparts
  | .array js, h => by
    obtain ⟨ts, hts⟩ := exists_itemsAreWrittenAs js (by rwa [IsIntegral, numbers] at h)
    exact ⟨_, .array hts⟩
  | .object ms, h => by
    obtain ⟨ns, hns⟩ := exists_membersAreWrittenAs ms (by rwa [IsIntegral, numbers] at h)
    exact ⟨_, .object hns⟩

theorem exists_itemsAreWrittenAs : ∀ js : List Json, (∀ n ∈ numbersOfItems js, n.IsIntegral) →
    ∃ ts, List.Forall₂ IsWrittenAs js ts
  | [], _ => ⟨[], .nil⟩
  | j :: js, h => by
    rw [numbersOfItems] at h
    obtain ⟨hj, hjs⟩ := List.forall_mem_append.mp h
    obtain ⟨t, ht⟩ := exists_isWrittenAs j hj
    obtain ⟨ts, hts⟩ := exists_itemsAreWrittenAs js hjs
    exact ⟨t :: ts, .cons ht hts⟩

theorem exists_membersAreWrittenAs : ∀ ms : List (String × Json),
    (∀ n ∈ numbersOfMembers ms, n.IsIntegral) → ∃ ns, List.Forall₂ MemberIsWrittenAs ms ns
  | [], _ => ⟨[], .nil⟩
  | (key, j) :: ms, h => by
    rw [numbersOfMembers] at h
    obtain ⟨hj, hms⟩ := List.forall_mem_append.mp h
    obtain ⟨parts, hparts⟩ := Spells.exists_string key
    obtain ⟨t, ht⟩ := exists_isWrittenAs j hj
    obtain ⟨ns, hns⟩ := exists_membersAreWrittenAs ms hms
    exact ⟨(parts, t) :: ns, .cons ⟨hparts, ht⟩ hns⟩

end

/-! ## Reading back -/

theorem Spells.map_token {t : Tree} {j : Json} {s : List Char}
    (h : Spells (t.pieces false) j.tokens s) (pulled : Bool) :
    (Cut.ofChars pulled s).lexemes.map Lexeme.token = j.tokens := by
  have hcuts := h.spread.cuts (t.chained_pieces false)
  rw [h.tokens] at hcuts
  exact map_token_of_bare (hcuts.lexemes_eq pulled) (isSound_tokens j)

/-- **What a decoder makes of a value it makes of any text that spells it**, whether the text is
there as a whole or is pulled in. -/
theorem Decoder.Agrees.run_spells {α : Type} {d : Decoder α} (hd : d.Agrees) {n : Nat} {j : Json}
    {a : α} (h : d.ofJson .stored j = .ok a) (hj : Fits n j) (hn : n < Cursor.greatestDepth)
    {t : Tree} {s : List Char} (hs : Spells (t.pieces false) j.tokens s) (pulled : Bool) :
    d.run (Cut.ofChars pulled s) = .ok a := by
  have hread := hd h (Nat.lt_of_le_of_lt hj.height hn) _ [] (Cut.ofChars pulled s).finish
    (hs.map_token pulled)
  rw [List.append_nil] at hread
  rw [Decoder.run, Cursor.ofCut, hread]

theorem Decoder.Agrees.run_texts {α : Type} {d : Decoder α} (hd : d.Agrees) {n : Nat} {j : Json}
    {a : α} (h : d.ofJson .stored j = .ok a) (hj : Fits n j) (hn : n < Cursor.greatestDepth) :
    ∀ s ∈ [j.compact, j.pretty], ∀ pulled, d.run (Cut.ofChars pulled s.toList) = .ok a := by
  obtain ⟨t, ht⟩ := exists_isWrittenAs j hj.isIntegral
  intro s hs pulled
  simp only [List.mem_cons, List.not_mem_nil, or_false] at hs
  rcases hs with rfl | rfl
  · rw [compact, String.toList_ofList]
    exact hd.run_spells h hj hn ht.compact pulled
  · rw [pretty, String.toList_ofList]
    exact hd.run_spells h hj hn (ht.pretty 0) pulled

theorem Decoder.Agrees.run_pretty {α : Type} {d : Decoder α} (hd : d.Agrees) {n : Nat} {j : Json}
    {a : α} (h : d.ofJson .stored j = .ok a) (hj : Fits n j) (hn : n < Cursor.greatestDepth)
    (pulled : Bool) : d.run (Cut.ofBytes pulled j.pretty.toUTF8) = .ok a := by
  rw [cut_ofBytes_toUTF8]
  exact hd.run_texts h hj hn _ (by simp) pulled

/-! ## Writing and reading back

A value that was written can come back in two ways: as a text, which a decoder reads on its own, or
as a value that the text was parsed into before. The second way loses the order of the members, so
that a decoder must take them in key order, too (`Json.sorted`). `Decoder.Agrees.readsBack` reduces
all of this to what the decoder makes of two values.
-/

variable {α : Type}

/-! ### Values in key order -/

theorem sortedItems_map (f : α → Json) (as : List α) :
    sortedItems (as.map f) = as.map fun a ↦ (f a).sorted := by
  induction as with
  | nil => rfl
  | cons a as ih => rw [List.map_cons, List.map_cons, sortedItems, ih]

theorem sorted_array_map (f : α → Json) (as : List α) :
    (array (as.map f)).sorted = .array (as.map fun a ↦ (f a).sorted) := by
  rw [sorted, sortedItems_map]

theorem sorted_array_map_self {f : α → Json} (h : ∀ a, (f a).sorted = f a) (as : List α) :
    (array (as.map f)).sorted = .array (as.map f) := by
  rw [sorted_array_map]
  simp only [h]

theorem sortedMembers_eq_map (ms : List (String × Json)) :
    sortedMembers ms = ms.map fun m ↦ (m.1, m.2.sorted) := by
  induction ms with
  | nil => rfl
  | cons m ms ih => rw [sortedMembers, List.map_cons, ih]

theorem sorted_object {ms ns : List (String × Json)} (hperm : ms.Perm ns)
    (hns : Sorted.IsSorted ns) : (object ms).sorted = .object (sortedMembers ns) := by
  have hkeys : Sorted.IsSorted (sortedMembers ns) := by
    rw [sortedMembers_eq_map]
    exact List.pairwise_map.mpr hns
  have hmembers : (sortedMembers ms).Perm (sortedMembers ns) := by
    rw [sortedMembers_eq_map, sortedMembers_eq_map]
    exact hperm.map _
  rw [sorted, ofMembers, Sorted.ofList_eq_of_perm String.lt_trans String.lt_asymm ?_ hmembers hkeys]
  intro a b hlt hne
  exact Std.lt_of_le_of_ne (String.not_lt.mp hlt) hne

/-- A value that is read back from a file as it was: it is not nested too deep, and the members of
its objects are in key order. -/
structure Storable (n : Nat) (j : Json) : Prop where
  fits : Fits n j
  sorted : j.sorted = j

namespace Storable

variable {n m : Nat}

theorem string (s : String) : Storable n (.string s) := ⟨Fits.string s, rfl⟩

theorem boolean (b : Bool) : Storable n (.boolean b) := ⟨Fits.boolean b, rfl⟩

theorem mono {j : Json} (h : Storable n j) (hle : n ≤ m) : Storable m j :=
  ⟨h.fits.mono hle, h.sorted⟩

theorem array {items : List Json} (h : ∀ j ∈ items, Storable n j) :
    Storable (n + 1) (.array items) := by
  refine ⟨Fits.array fun j hj ↦ (h j hj).fits, ?_⟩
  have hitems : sortedItems items = items := by
    induction items with
    | nil => rfl
    | cons j js ih =>
      obtain ⟨hj, hjs⟩ := List.forall_mem_cons.mp h
      rw [sortedItems, hj.sorted, ih hjs]
  rw [Json.sorted, hitems]

theorem object {members : List (String × Json)} (hkeys : Sorted.IsSorted members)
    (h : ∀ m ∈ members, Storable n m.2) : Storable (n + 1) (.object members) := by
  refine ⟨Fits.object fun m hm ↦ (h m hm).fits, ?_⟩
  have hmembers : sortedMembers members = members := by
    clear hkeys
    induction members with
    | nil => rfl
    | cons m ms ih =>
      obtain ⟨hm, hms⟩ := List.forall_mem_cons.mp h
      rw [sortedMembers, hm.sorted, ih hms]
  rw [Json.sorted, hmembers, ofMembers, Sorted.ofList_of_isSorted String.lt_asymm hkeys]

end Storable

namespace Decoder

/-! ### Texts and parsed values -/

/-- A decoder reads back what was written as a value: off its compact text and off the one on lines,
whether that is given as characters, as bytes or is pulled in, and off the value that either text is
parsed into. -/
structure ReadsBack (d : Decoder α) (j : Json) (a : α) : Prop where
  text : ∀ s ∈ [j.compact, j.pretty],
    d.ofText s = .ok a ∧ d.ofBytes s.toUTF8 = .ok a ∧ d.ofStream s.toUTF8 = .ok a
  parsed : ∀ s ∈ [j.compact, j.pretty], value.ofText s = .ok j.sorted
  value : d.ofValue j.sorted = .ok a

/-- **What a decoder makes of a value, in its order and in key order, it reads back**, if the value
can be written and read at all. -/
theorem Agrees.readsBack {d : Decoder α} (hd : d.Agrees) {n : Nat} {j : Json} {a : α}
    (hj : Fits n j) (hn : n < Cursor.greatestDepth) (h : d.ofJson .stored j = .ok a)
    (hsorted : d.ofJson .stored j.sorted = .ok a) : d.ReadsBack j a where
  text s hs := by
    have hrun := hd.run_texts h hj hn s hs
    refine ⟨hrun false, ?_, ?_⟩
    · rw [ofBytes, cut_ofBytes_toUTF8]
      exact hrun false
    · rw [ofStream, cut_ofBytes_toUTF8]
      exact hrun true
  parsed s hs := agrees_value.run_texts rfl hj hn s hs false
  value := hsorted

theorem Agrees.readsBack_of_storable {d : Decoder α} (hd : d.Agrees) {n : Nat} {j : Json} {a : α}
    (hj : Storable n j) (hn : n < Cursor.greatestDepth) (h : d.ofJson .stored j = .ok a) :
    d.ReadsBack j a :=
  hd.readsBack hj.fits hn h (by rwa [hj.sorted])

end Decoder

end Redirector.Json
