import Redirector.Json.Basic
import Redirector.Proofs.Json.Agreement
import Redirector.Proofs.Json.Spread

/-!
# Printed scalars are read back

A string is written so that its literal reads as it (`cuts_stringChars`), and so is an integer that
fits in 64 bits (`cutsAtLast_number`). The tokens of a value have nothing wrong in them, so that
nothing is lost when the places of a cut are disregarded (`map_token_of_bare`). A value that has no
numbers but such integers and is not nested deeper than the reader goes can be read back (`Fits`).
-/

namespace Redirector.Json

open Text (Place)

/-! ## Strings -/

/-- The cut is inside a string literal, after some lexemes. -/
def Lexer.AtString (l : Lexer) (ls : List Lexeme) (s : StringScan) : Prop :=
  (∃ o, l.mode = .string o s) ∧ l.lexemes = ls

namespace Lexer.AtString

variable {l : Lexer} {ls : List Lexeme} {s s' : StringScan} {c : Char} {cs : List Char}

theorem step (h : AtString l ls s) (hs : ∀ p, s.step p c = .more s') :
    AtString (l.step c) ls s' := by
  obtain ⟨⟨o, hl⟩, hlexemes⟩ := h
  have hstep : l.step c = { l with mode := .string o s', place := l.place.step c } := by
    simp only [Lexer.step, stepMode, hl, hs]
  rw [hstep]
  exact ⟨⟨o, rfl⟩, hlexemes⟩

theorem escape {e d : Char} (h : AtString l ls ⟨.ok cs, none, .plain⟩) (hu : e ≠ 'u')
    (hd : StringScan.escaped? e = some d) :
    AtString ((l.step '\\').step e) ls ⟨.ok (d :: cs), none, .plain⟩ := by
  have hback : AtString (l.step '\\') ls ⟨.ok cs, none, .escape⟩ := h.step fun _ ↦ rfl
  refine hback.step fun p ↦ ?_
  simp only [StringScan.step, if_neg hu, hd]
  rfl

theorem digit {count n d : Nat} (h : AtString l ls ⟨.ok cs, none, .digits count (some n)⟩)
    (hcount : count < 3) (hd : StringScan.digit? c = some d) (hsize : c.utf8Size = 1) :
    AtString (l.step c) ls ⟨.ok cs, none, .digits (count + 1) (some (n * 16 + d))⟩ := by
  have hlt : count + 1 < 4 := Nat.succ_lt_succ hcount
  refine h.step fun p ↦ ?_
  simp only [StringScan.step, hd, hsize, hlt, if_true]
  rfl

theorem lastDigit {n d : Nat} (h : AtString l ls ⟨.ok cs, none, .digits 3 (some n)⟩)
    (hd : StringScan.digit? c = some d) (hsize : c.utf8Size = 1) (hn : n * 16 + d < 0xD800) :
    AtString (l.step c) ls ⟨.ok (Char.ofNat (n * 16 + d) :: cs), none, .plain⟩ := by
  have htrailing : StringScan.isTrailing (n * 16 + d) = false := by
    simp only [StringScan.isTrailing, Bool.and_eq_false_iff, decide_eq_false_iff_not]
    omega
  have hleading : StringScan.isLeading (n * 16 + d) = false := by
    simp only [StringScan.isLeading, Bool.and_eq_false_iff, decide_eq_false_iff_not]
    omega
  have hunit : ∀ p, StringScan.unit ⟨.ok cs, none, .digits 3 (some n)⟩ (n * 16 + d) p =
      ⟨.ok (Char.ofNat (n * 16 + d) :: cs), none, .digits 3 (some n)⟩ := by
    intro p
    simp only [StringScan.unit, htrailing, hleading]
    rfl
  refine h.step fun p ↦ ?_
  have hstep : StringScan.step ⟨.ok cs, none, .digits 3 (some n)⟩ p c =
      .more { StringScan.unit ⟨.ok cs, none, .digits 3 (some n)⟩ (n * 16 + d) (p.step c) with
        inside := .plain } := by
    simp only [StringScan.step, hd, hsize]
    rfl
  rw [hstep, hunit]

theorem digit?_digitChar : ∀ n < 16, StringScan.digit? (Nat.digitChar n) = some n ∧
    (Nat.digitChar n).utf8Size = 1 := by
  decide

/-- **A character is written so that it is read back.** -/
theorem escapeChar (h : AtString l ls ⟨.ok cs, none, .plain⟩) (c : Char) :
    AtString ((escapeChar c).foldl Lexer.step l) ls ⟨.ok (c :: cs), none, .plain⟩ := by
  unfold Json.escapeChar
  split
  · exact h.escape (e := '"') (by decide) rfl
  · exact h.escape (e := '\\') (by decide) rfl
  · exact h.escape (e := 'b') (by decide) rfl
  · exact h.escape (e := 'f') (by decide) rfl
  · exact h.escape (e := 'n') (by decide) rfl
  · exact h.escape (e := 'r') (by decide) rfl
  · exact h.escape (e := 't') (by decide) rfl
  · split_ifs with hcontrol
    · obtain ⟨hhigh, hhigh'⟩ := digit?_digitChar (c.toNat / 16) (by omega)
      obtain ⟨hlow, hlow'⟩ := digit?_digitChar (c.toNat % 16) (by omega)
      have hback : AtString (l.step '\\') ls ⟨.ok cs, none, .escape⟩ := h.step fun _ ↦ rfl
      have hu : AtString ((l.step '\\').step 'u') ls ⟨.ok cs, none, .digits 0 (some 0)⟩ :=
        hback.step fun _ ↦ rfl
      have hzero := (hu.digit (c := '0') (d := 0) (by decide) rfl rfl).digit (c := '0') (d := 0)
        (by decide) rfl rfl
      have hlast := (hzero.digit (by decide) hhigh hhigh').lastDigit hlow hlow' (by omega)
      -- The two digits of a control character stand behind two zeros.
      have hvalue : ((0 * 16 + 0) * 16 + 0) * 16 + c.toNat / 16 = c.toNat / 16 := by omega
      rw [hvalue, Nat.div_add_mod', Char.ofNat_toNat] at hlast
      exact hlast
    · refine h.step fun p ↦ ?_
      have hplain : c ≠ '"' ∧ c ≠ '\\' := ⟨‹_›, ‹_›⟩
      simp only [StringScan.step, hplain, if_false, hcontrol]
      rfl

theorem escapeChars (h : AtString l ls ⟨.ok cs, none, .plain⟩) (s : List Char) :
    AtString ((s.flatMap Json.escapeChar).foldl Lexer.step l) ls
      ⟨.ok (s.reverse ++ cs), none, .plain⟩ := by
  induction s generalizing l cs with
  | nil => exact h
  | cons c s ih =>
    rw [List.flatMap_cons, List.foldl_append, List.reverse_cons, List.append_assoc]
    exact ih (h.escapeChar c)

theorem close (h : AtString l [] ⟨.ok cs, none, .plain⟩) :
    Atop [] (l.step '"') (afterTokens [.string (.ok (String.ofList cs.reverse)) (.ok ())]) := by
  obtain ⟨⟨o, hl⟩, hlexemes⟩ := h
  have hstep : l.step '"' = { l.emit o (.string (.ok (String.ofList cs.reverse)) (.ok ()))
      (l.place.step '"') .between with place := l.place.step '"' } := by
    simp only [Lexer.step, stepMode, hl]
    rfl
  rw [hstep]
  refine ⟨rfl, ?_⟩
  simp only [emit, hlexemes]
  rfl

end Lexer.AtString

theorem cuts_stringChars (s : String) : Cuts (stringChars s) [.string (.ok s) (.ok ())] := by
  have hopen : ((Lexer.init false).step '"').AtString [] ⟨.ok [], none, .plain⟩ := ⟨⟨_, rfl⟩, rfl⟩
  have hclose := (hopen.escapeChars s.toList).close
  rw [List.append_nil, List.reverse_reverse, String.ofList_toList] at hclose
  refine cuts_of_init ?_
  rwa [stringChars, List.foldl_cons, List.foldl_append]

/-! ## Integers -/

/-- Whether a number is an integer that reads as it is written. -/
def Number.IsIntegral : Number → Prop
  | natural n => n < UInt64.size
  | negative n => 0 < n ∧ n ≤ Nat.pow 2 63
  | real _ => False

/-- The cut is inside a number that has been a given integer so far, after some lexemes. -/
def Lexer.AtInteger (l : Lexer) (ls : List Lexeme) (negative : Bool) (n : Nat) : Prop :=
  (∃ o, l.mode = .number o
    ⟨negative, if n = 0 then .zero else .whole, n, 0, false, false, 0, none⟩) ∧ l.lexemes = ls

namespace Lexer.AtInteger

variable {l : Lexer} {ls : List Lexeme} {negative : Bool} {n d : Nat}

theorem digit?_digitChar : ∀ d < 10, NumberScan.digit? (Nat.digitChar d) = some d := by
  decide

theorem step (h : AtInteger l ls negative n) (hn : n ≠ 0) (hd : d < 10)
    (hfits : n * 10 + d < UInt64.size) :
    AtInteger (l.step (Nat.digitChar d)) ls negative (n * 10 + d) := by
  obtain ⟨⟨o, hl⟩, hlexemes⟩ := h
  rw [if_neg hn] at hl
  have hstep : ∀ stop p, NumberScan.step ⟨negative, .whole, n, 0, false, false, 0, none⟩ stop p
      (Nat.digitChar d) = .more ⟨negative, .whole, n * 10 + d, 0, false, false, 0, none⟩ := by
    intro stop p
    have hroom : ¬ NumberScan.limit ≤ n * 10 + d := Nat.not_le.mpr hfits
    simp [NumberScan.step, digit?_digitChar d hd, NumberScan.pushWhole, hroom]
  have hnext : n * 10 + d ≠ 0 := by omega
  refine ⟨⟨o, ?_⟩, ?_⟩
  · simp only [Lexer.step, stepMode, hl, hstep, if_neg hnext]
  · simp only [Lexer.step, stepMode, hl, hstep, hlexemes]

/-- The digits of a natural number, given what its first digit comes to. -/
theorem foldl_toDigits (hfirst : ∀ d < 10, AtInteger (l.step (Nat.digitChar d)) ls negative d)
    (hn : n < UInt64.size) : AtInteger ((Nat.toDigits 10 n).foldl Lexer.step l) ls negative n := by
  induction n using Nat.strongRecOn with
  | ind n ih =>
    by_cases hlt : n < 10
    · rw [Nat.toDigits_of_lt_base hlt]
      exact hfirst n hlt
    · have hbase : 10 ≤ n := Nat.le_of_not_lt hlt
      have hquotient := ih (n / 10) (by omega) (by omega)
      have hvalue : n / 10 * 10 + n % 10 = n := Nat.div_add_mod' n 10
      rw [Nat.toDigits_of_base_le (by decide) hbase, List.foldl_append]
      have hstep := hquotient.step (d := n % 10) (by omega) (Nat.mod_lt _ (by decide))
        (by rwa [hvalue])
      rwa [hvalue] at hstep

theorem first (hl : l.mode = .between) (hd : d < 10) :
    AtInteger (l.step (Nat.digitChar d)) l.lexemes false d := by
  obtain ⟨o, hstep⟩ := stepBetween_digit l (digit?_digitChar d hd)
  refine ⟨⟨o, ?_⟩, ?_⟩
  · simp only [Lexer.step, stepMode, hl, hstep]
    rfl
  · simp only [Lexer.step, stepMode, hl, hstep]

theorem first_minus {o : Opening} (hl : l.mode = .number o .minus) (hd : d < 10) :
    AtInteger (l.step (Nat.digitChar d)) l.lexemes true d := by
  have hstep : ∀ stop p, NumberScan.minus.step stop p (Nat.digitChar d) =
      .more (.ofDigit true d) := by
    intro stop p
    simp only [NumberScan.step, NumberScan.minus, digit?_digitChar d hd]
  refine ⟨⟨o, ?_⟩, ?_⟩
  · simp only [Lexer.step, stepMode, hl, hstep]
    rfl
  · simp only [Lexer.step, stepMode, hl, hstep]

theorem settle (h : AtInteger l [] negative n) {value : Number}
    (hvalue : ∀ p, NumberScan.value ⟨negative, if n = 0 then .zero else .whole, n, 0, false, false,
      0, none⟩ p = .ok value) :
    Atop [] l.settle (afterTokens [.number (.ok value) (.ok ())]) := by
  obtain ⟨⟨o, hl⟩, hlexemes⟩ := h
  have hcomplete : NumberScan.isComplete ⟨negative, if n = 0 then .zero else .whole, n, 0, false,
      false, 0, none⟩ = true := by
    by_cases hn : n = 0
    · simp [NumberScan.isComplete, hn]
    · simp [NumberScan.isComplete, hn]
  refine ⟨?_, ?_⟩
  · simp only [Lexer.settle, hl, hcomplete]
    rfl
  · simp only [Lexer.settle, hl, hcomplete, if_true, emit, hlexemes, NumberScan.token, hvalue]
    rfl

end Lexer.AtInteger

theorem cutsAtLast_number {n : Number} (h : n.IsIntegral) :
    CutsAtLast n.text.toList [.number (.ok n) (.ok ())] := by
  refine cutsAtLast_of_init ?_
  cases n with
  | natural n =>
    have hdigits := Lexer.AtInteger.foldl_toDigits
      (fun d hd ↦ Lexer.AtInteger.first (l := Lexer.init false) rfl hd) h
    rw [Number.text, Nat.toString_eq_ofList_toDigits, String.toList_ofList]
    refine hdigits.settle fun p ↦ ?_
    by_cases hn : n = 0
    · simp [NumberScan.value, hn]
    · simp [NumberScan.value, hn]
  | negative n =>
    obtain ⟨hpos, hle⟩ := h
    have hlt : n < UInt64.size := Nat.lt_of_le_of_lt hle (by decide)
    have hdigits := Lexer.AtInteger.foldl_toDigits
      (fun d hd ↦ Lexer.AtInteger.first_minus (l := (Lexer.init false).step '-') rfl hd) hlt
    have htext : (Number.negative n).text.toList = '-' :: Nat.toDigits 10 n := by
      rw [Number.text, String.toList_append, Nat.toString_eq_ofList_toDigits,
        String.toList_ofList, String.toList_ofList, List.singleton_append]
    rw [htext, List.foldl_cons]
    refine hdigits.settle fun p ↦ ?_
    have hn : n ≠ 0 := Nat.ne_of_gt hpos
    simp [NumberScan.value, hn, hpos, hle]
  | real x => cases h

/-! ## Values that can be read back -/

mutual

def numbers : Json → List Number
  | number n => [n]
  | array items => numbersOfItems items
  | object members => numbersOfMembers members
  | _ => []

def numbersOfItems : List Json → List Number
  | [] => []
  | j :: js => numbers j ++ numbersOfItems js

def numbersOfMembers : List (String × Json) → List Number
  | [] => []
  | (_, j) :: ms => numbers j ++ numbersOfMembers ms

end

/-- Whether all numbers in a value are integers that read as they are written. -/
def IsIntegral (j : Json) : Prop := ∀ n ∈ j.numbers, n.IsIntegral

/-- A value can be written and read back: its numbers are integers, and it is at most so many
containers deep. -/
structure Fits (n : Nat) (j : Json) : Prop where
  isIntegral : j.IsIntegral
  height : j.height ≤ n

namespace Fits

variable {n m : Nat} {j : Json}

theorem mono (h : Fits n j) (hle : n ≤ m) : Fits m j := ⟨h.isIntegral, Nat.le_trans h.height hle⟩

theorem boolean (b : Bool) : Fits n (.boolean b) := ⟨List.forall_mem_nil _, Nat.zero_le _⟩

theorem string (s : String) : Fits n (.string s) := ⟨List.forall_mem_nil _, Nat.zero_le _⟩

theorem number {k : Number} (hk : k.IsIntegral) : Fits n (.number k) :=
  ⟨List.forall_mem_singleton.mpr hk, Nat.zero_le _⟩

theorem array {items : List Json} (h : ∀ j ∈ items, Fits n j) : Fits (n + 1) (.array items) := by
  suffices hitems : (∀ k ∈ numbersOfItems items, k.IsIntegral) ∧ heightOfItems items ≤ n from
    ⟨hitems.1, Nat.succ_le_succ hitems.2⟩
  induction items with
  | nil => exact ⟨List.forall_mem_nil _, Nat.zero_le _⟩
  | cons j js ih =>
    obtain ⟨hj, hjs⟩ := List.forall_mem_cons.mp h
    rw [numbersOfItems, heightOfItems]
    exact ⟨List.forall_mem_append.mpr ⟨hj.isIntegral, (ih hjs).1⟩,
      Nat.max_le.mpr ⟨hj.height, (ih hjs).2⟩⟩

theorem object {members : List (String × Json)} (h : ∀ m ∈ members, Fits n m.2) :
    Fits (n + 1) (.object members) := by
  suffices hmembers : (∀ k ∈ numbersOfMembers members, k.IsIntegral) ∧
      heightOfMembers members ≤ n from ⟨hmembers.1, Nat.succ_le_succ hmembers.2⟩
  induction members with
  | nil => exact ⟨List.forall_mem_nil _, Nat.zero_le _⟩
  | cons m ms ih =>
    obtain ⟨hm, hms⟩ := List.forall_mem_cons.mp h
    rw [numbersOfMembers, heightOfMembers]
    exact ⟨List.forall_mem_append.mpr ⟨hm.isIntegral, (ih hms).1⟩,
      Nat.max_le.mpr ⟨hm.height, (ih hms).2⟩⟩

end Fits

/-! ## Sound tokens -/

/-- A token with nothing wrong in it. -/
def Token.IsSound : Token → Prop
  | .string content skipped => content.isOk ∧ skipped.isOk
  | .number value skipped => value.isOk ∧ skipped.isOk
  | .word value => value.isOk
  | _ => True

theorem eq_of_bareVerdict_eq {α : Type} {x y : Except Snag α} (h : bareVerdict x = bareVerdict y)
    (hy : y.isOk = true) : x = y := by
  rcases bareVerdict_eq_cases h with ⟨a, rfl, rfl⟩ | ⟨e, f, rfl, rfl⟩
  · rfl
  · cases hy

/-- Of a sound token nothing is lost with the places. -/
theorem Token.eq_of_bare_eq {t u : Token} (h : t.bare = u.bare) (hu : u.IsSound) : t = u := by
  cases t with
  | string content skipped =>
    cases u with
    | string content' skipped' =>
      obtain ⟨hcontent, hskipped⟩ := Token.string.inj h
      rw [eq_of_bareVerdict_eq hcontent hu.1, eq_of_bareVerdict_eq hskipped hu.2]
    | openObject | closeObject | openArray | closeArray | comma | colon | number | word | stray =>
      cases h
  | number value skipped =>
    cases u with
    | number value' skipped' =>
      obtain ⟨hvalue, hskipped⟩ := Token.number.inj h
      rw [eq_of_bareVerdict_eq hvalue hu.1, eq_of_bareVerdict_eq hskipped hu.2]
    | openObject | closeObject | openArray | closeArray | comma | colon | string | word | stray =>
      cases h
  | word value =>
    cases u with
    | word value' => rw [eq_of_bareVerdict_eq (Token.word.inj h) hu]
    | openObject | closeObject | openArray | closeArray | comma | colon | string | number
    | stray => cases h
  | openObject | closeObject | openArray | closeArray | comma | colon | stray =>
    cases u with
    | openObject | closeObject | openArray | closeArray | comma | colon | stray | string | number
    | word => first | rfl | cases h

mutual

theorem isSound_tokens : ∀ (j : Json), ∀ t ∈ j.tokens, t.IsSound
  | .null | .boolean _ | .number _ | .string _ => by
    rw [tokens]
    simp [Token.IsSound, Except.isOk, Except.toBool]
  | .array items => by
    rw [tokens]
    exact List.forall_mem_cons.mpr ⟨trivial, isSound_itemTokens true items⟩
  | .object members => by
    rw [tokens]
    exact List.forall_mem_cons.mpr ⟨trivial, isSound_memberTokens true members⟩

theorem isSound_itemTokens : ∀ (isFirst : Bool) (js : List Json),
    ∀ t ∈ itemTokens isFirst js, t.IsSound
  | _, [] => by
    rw [itemTokens]
    exact List.forall_mem_singleton.mpr trivial
  | true, j :: js => by
    rw [itemTokens]
    exact List.forall_mem_append.mpr ⟨isSound_tokens j, isSound_itemTokens false js⟩
  | false, j :: js => by
    rw [itemTokens]
    exact List.forall_mem_cons.mpr ⟨trivial,
      List.forall_mem_append.mpr ⟨isSound_tokens j, isSound_itemTokens false js⟩⟩

theorem isSound_memberTokens : ∀ (isFirst : Bool) (ms : List (String × Json)),
    ∀ t ∈ memberTokens isFirst ms, t.IsSound
  | _, [] => by
    rw [memberTokens]
    exact List.forall_mem_singleton.mpr trivial
  | true, (_, j) :: ms => by
    rw [memberTokens]
    exact List.forall_mem_cons.mpr ⟨⟨rfl, rfl⟩, List.forall_mem_cons.mpr ⟨trivial,
      List.forall_mem_append.mpr ⟨isSound_tokens j, isSound_memberTokens false ms⟩⟩⟩
  | false, (_, j) :: ms => by
    rw [memberTokens]
    exact List.forall_mem_cons.mpr ⟨trivial, List.forall_mem_cons.mpr ⟨⟨rfl, rfl⟩,
      List.forall_mem_cons.mpr ⟨trivial,
        List.forall_mem_append.mpr ⟨isSound_tokens j, isSound_memberTokens false ms⟩⟩⟩⟩

end

theorem map_token_of_bare {ls : List Lexeme} {ts : List Token}
    (h : ls.map Lexeme.bare = ts.map fun t ↦ Lexeme.ofToken t.bare)
    (hts : ∀ t ∈ ts, t.IsSound) : ls.map Lexeme.token = ts := by
  induction ts generalizing ls with
  | nil => rw [List.map_eq_nil_iff.mp h, List.map_nil]
  | cons t ts ih =>
    obtain ⟨l, ls, rfl, hl, hls⟩ := List.map_eq_cons_iff.mp h
    obtain ⟨ht, hts⟩ := List.forall_mem_cons.mp hts
    rw [List.map_cons, ih hls hts, Token.eq_of_bare_eq (congrArg Lexeme.token hl) ht]

theorem fromUTF8?_toUTF8 (s : String) : String.fromUTF8? s.toUTF8 = some s := by
  rw [String.fromUTF8?, String.toUTF8_eq_toByteArray, dif_pos s.isValidUTF8]
  rfl

theorem cut_ofBytes_toUTF8 (pulled : Bool) (s : String) :
    Cut.ofBytes pulled s.toUTF8 = Cut.ofChars pulled s.toList := by
  have hblame : Lexeme.blame [] = id := by
    funext l
    rw [Lexeme.blame]
    split
    · rfl
    · rfl
  simp only [Cut.ofBytes, Decoded.ofBytes, fromUTF8?_toUTF8, hblame, List.map_id]

end Redirector.Json
