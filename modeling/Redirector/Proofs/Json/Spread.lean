import Mathlib.Data.Bool.AllAny
import Mathlib.Data.List.Chain
import Redirector.Proofs.Json.Grammar

/-!
# How spread texts are cut

A text spread from some pieces with blanks between them is cut into the tokens of its pieces, one
piece after the other, and the blanks make no difference (`Spread.cuts`). For every piece it is
enough to see that the cut is between lexemes once the piece is over; what has become of it does not
matter. So a literal whose escapes make no sense is still one token.
-/

namespace Redirector.Json

open Text (Place)

/-! ## String literals -/

namespace StringScan

variable (s : StringScan)

theorem inside_blame (b : Breach) (p : Place) : (s.blame b p).inside = s.inside := by
  simp only [blame]
  split
  · rfl
  · rfl

theorem inside_dropSurrogate (p : Place) : (s.dropSurrogate p).inside = s.inside := by
  simp only [dropSurrogate]
  split_ifs
  · exact s.inside_blame _ _
  · rfl

end StringScan

theorem utf8Size_hexDigit : ∀ h : HexDigit, h.val.utf8Size = 1 := by
  have hall : ∀ c ∈ hexDigitChars, c.utf8Size = 1 := List.all_iff_forall_prop.mp (by decide)
  exact fun h ↦ hall h.val h.property

theorem exists_digit? : ∀ h : HexDigit, ∃ n, StringScan.digit? h = some n := by
  have hall : ∀ c ∈ hexDigitChars, (StringScan.digit? c).isSome :=
    List.all_iff_forall_prop.mp (by decide)
  exact fun h ↦ Option.isSome_iff_exists.mp (hall h.val h.property)

theorem exists_escaped? (c : { c : Char // c ∈ escapableChars }) :
    c.val ≠ 'u' ∧ ∃ d, StringScan.escaped? c = some d := by
  have hall : ∀ c ∈ escapableChars,
      c ≠ 'u' ∧ (StringScan.escaped? c).isSome := List.all_iff_forall_prop.mp (by decide)
  obtain ⟨hne, hsome⟩ := hall c.val c.property
  exact ⟨hne, Option.isSome_iff_exists.mp hsome⟩

namespace Lexer

variable {l : Lexer} {o : Opening}

theorem mode_step_string {s s' : StringScan} {c : Char} (hl : l.mode = .string o s)
    (hs : s.step l.place c = .more s') : (l.step c).mode = .string o s' := by
  simp only [step, stepMode, hl, hs]

/-- One digit of an escape that is not the last one. -/
theorem mode_step_hexDigit {s : StringScan} {count n : Nat} (hl : l.mode = .string o s)
    (hs : s.inside = .digits count (some n)) (hcount : count < 3) (h : HexDigit) :
    ∃ n', (l.step h).mode = .string o { s with inside := .digits (count + 1) (some n') } := by
  obtain ⟨d, hd⟩ := exists_digit? h
  have hlt : count + 1 < 4 := Nat.succ_lt_succ hcount
  have hstep : s.step l.place h =
      .more { s with inside := .digits (count + 1) (some (n * 16 + d)) } := by
    simp only [StringScan.step, hs, hd, utf8Size_hexDigit, hlt, if_true]
    rfl
  exact ⟨n * 16 + d, mode_step_string hl hstep⟩

/-- The cut is inside a string literal, and not inside an escape. -/
def InString (l : Lexer) : Prop := ∃ o s, l.mode = .string o s ∧ s.inside = .plain

/-- The last of the four digits of an escape. -/
theorem inString_step_hexDigit {s : StringScan} {n : Nat} (hl : l.mode = .string o s)
    (hs : s.inside = .digits 3 (some n)) (h : HexDigit) : InString (l.step h) := by
  obtain ⟨d, hd⟩ := exists_digit? h
  have hstep : s.step l.place h =
      .more { s.unit (n * 16 + d) (l.place.step h) with inside := .plain } := by
    simp only [StringScan.step, hs, hd, utf8Size_hexDigit]
    rfl
  exact ⟨o, _, mode_step_string hl hstep, rfl⟩

theorem InString.foldl_part (h : InString l) (part : StringPart) :
    InString (part.text.foldl step l) := by
  obtain ⟨o, s, hl, hs⟩ := h
  cases part with
  | plain c hc =>
    refine ⟨o, (s.dropSurrogate (l.place.nudge c)).push c, mode_step_string hl ?_, ?_⟩
    · simp [StringScan.step, hs, hc, Nat.not_lt.mpr hc.1]
    · exact (s.inside_dropSurrogate _).trans hs
  | escape c =>
    obtain ⟨hne, d, hd⟩ := exists_escaped? c
    have hback : (l.step '\\').mode = .string o { s with inside := .escape } :=
      mode_step_string hl (by simp only [StringScan.step, hs, if_true])
    have hstep : StringScan.step { s with inside := .escape } (l.step '\\').place c =
        .more { (StringScan.dropSurrogate { s with inside := .escape }
          ((l.step '\\').place.nudge c)).push d with inside := .plain } := by
      simp only [StringScan.step, hne, if_false, hd]
    exact ⟨o, _, mode_step_string hback hstep, rfl⟩
  | unicode a b c d =>
    have hback : (l.step '\\').mode = .string o { s with inside := .escape } :=
      mode_step_string hl (by simp only [StringScan.step, hs, if_true])
    have hu : ((l.step '\\').step 'u').mode =
        .string o { s with inside := .digits 0 (some 0) } :=
      mode_step_string hback (by simp only [StringScan.step, if_true])
    obtain ⟨na, ha⟩ := mode_step_hexDigit hu rfl (by decide) a
    obtain ⟨nb, hb⟩ := mode_step_hexDigit ha rfl (by decide) b
    obtain ⟨nc, hc⟩ := mode_step_hexDigit hb rfl (by decide) c
    exact inString_step_hexDigit hc rfl d

theorem InString.foldl_parts (h : InString l) (parts : List StringPart) :
    InString ((parts.flatMap StringPart.text).foldl step l) := by
  induction parts generalizing l with
  | nil => exact h
  | cons part parts ih =>
    rw [List.flatMap_cons, List.foldl_append]
    exact ih (h.foldl_part part)

theorem InString.mode_step_quote (h : InString l) : (l.step '"').mode = .between := by
  obtain ⟨o, s, hl, hs⟩ := h
  simp [step, stepMode, hl, StringScan.step, hs, emit]

end Lexer

theorem cuts_literal (parts : List StringPart) :
    Cuts (literal parts) (tokensOf (literal parts)) := by
  have hopen : ((Lexer.init false).step '"').InString := ⟨_, .init, rfl, rfl⟩
  refine cuts_tokensOf ?_
  rw [literal, List.foldl_cons, List.foldl_append]
  exact (hopen.foldl_parts parts).mode_step_quote

/-! ## Numerals -/

theorem exists_numberDigit? (d : Digit) :
    ∃ n, NumberScan.digit? d = some n ∧ (n = 0 ↔ d.val = '0') := by
  have hall : ∀ c ∈ digitChars, (NumberScan.digit? c).isSome ∧
      (NumberScan.digit? c = some 0 ↔ c = '0') := List.all_iff_forall_prop.mp (by decide)
  obtain ⟨hsome, hzero⟩ := hall d.val d.property
  obtain ⟨n, hn⟩ := Option.isSome_iff_exists.mp hsome
  rw [hn, Option.some_inj] at hzero
  exact ⟨n, hn, hzero⟩

namespace NumberScan

variable (n : NumberScan) (d : Nat)

theorem part_pushWhole : (n.pushWhole d).part = n.part := by
  simp only [pushWhole]
  split_ifs
  · rfl
  · rfl

theorem part_pushFraction : (n.pushFraction d).part = n.part := by
  simp only [pushFraction]
  split_ifs
  · rfl
  · rfl

theorem part_pushPower (p : Place) : (n.pushPower d p).part = n.part := by
  simp only [pushPower]
  split_ifs
  · rfl
  · rfl
  · rfl

/-- The part of a number that a digit belongs to, after some part. -/
def Part.withDigit : Part → Part
  | .point | .fraction => .fraction
  | .mark | .sign | .power => .power
  | part => part

end NumberScan

namespace Lexer

/-- The cut is inside a number, after one of some parts of it. -/
def InNumber (l : Lexer) (parts : List NumberScan.Part) : Prop :=
  ∃ o n, l.mode = .number o n ∧ n.part ∈ parts

variable {l : Lexer} {part : NumberScan.Part}

theorem InNumber.mono {parts parts' : List NumberScan.Part} (h : InNumber l parts)
    (hsub : parts ⊆ parts') : InNumber l parts' := by
  obtain ⟨o, n, hl, hpart⟩ := h
  exact ⟨o, n, hl, hsub hpart⟩

theorem inNumber_step {o : Opening} {n n' : NumberScan} {c : Char} (hl : l.mode = .number o n)
    (hn : ∀ stop, n.step stop l.place c = .more n') : InNumber (l.step c) [n'.part] := by
  refine ⟨o, n', ?_, List.mem_singleton_self _⟩
  simp only [step, stepMode, hl, hn]

theorem InNumber.step_digit (h : InNumber l [part]) (hzero : part ≠ .zero) (hminus : part ≠ .minus)
    (d : Digit) : InNumber (l.step d) [part.withDigit] := by
  obtain ⟨o, n, hl, hpart⟩ := h
  rw [List.mem_singleton] at hpart
  obtain ⟨k, hk, -⟩ := exists_numberDigit? d
  cases part with
  | zero => exact absurd rfl hzero
  | minus => exact absurd rfl hminus
  | whole =>
    have hstep : ∀ stop, n.step stop l.place d = .more (n.pushWhole k) := by
      simp [NumberScan.step, hpart, hk]
    simpa [NumberScan.part_pushWhole, NumberScan.Part.withDigit, hpart] using inNumber_step hl hstep
  | fraction =>
    have hstep : ∀ stop, n.step stop l.place d = .more (n.pushFraction k) := by
      simp [NumberScan.step, hpart, hk]
    simpa [NumberScan.part_pushFraction, NumberScan.Part.withDigit, hpart]
      using inNumber_step hl hstep
  | power =>
    have hstep : ∀ stop, n.step stop l.place d =
        .more (n.pushPower k (l.place.step d)) := by
      simp [NumberScan.step, hpart, hk]
    simpa [NumberScan.part_pushPower, NumberScan.Part.withDigit, hpart] using inNumber_step hl hstep
  | point =>
    have hstep : ∀ stop, n.step stop l.place d =
        .more { n.pushFraction k with part := .fraction } := by
      simp [NumberScan.step, hpart, hk]
    exact inNumber_step hl hstep
  | mark | sign =>
    have hstep : ∀ stop, n.step stop l.place d =
        .more { n.pushPower k (l.place.step d) with part := .power } := by
      simp [NumberScan.step, hpart, hk]
    exact inNumber_step hl hstep

theorem InNumber.foldl_digits (h : InNumber l [part]) (hdigit : part.withDigit = part)
    (hzero : part ≠ .zero) (hminus : part ≠ .minus) (ds : List Digit) :
    InNumber ((ds.map Subtype.val).foldl step l) [part] := by
  induction ds generalizing l with
  | nil => exact h
  | cons d ds ih =>
    have hd := h.step_digit hzero hminus d
    rw [hdigit] at hd
    exact ih hd

theorem InNumber.foldl_text (h : InNumber l [part]) (hpart : part ∈ [.point, .mark, .sign])
    (ds : Digits) : InNumber (ds.text.foldl step l) [part.withDigit] := by
  obtain ⟨⟨hzero, hminus⟩, hdigit, hzero', hminus'⟩ : (part ≠ .zero ∧ part ≠ .minus) ∧
      part.withDigit.withDigit = part.withDigit ∧ part.withDigit ≠ .zero ∧
        part.withDigit ≠ .minus := by
    clear h
    revert part
    decide
  exact (h.step_digit hzero hminus ds.first).foldl_digits hdigit hzero' hminus' ds.rest

theorem stepBetween_digit (l : Lexer) {c : Char} {k : Nat}
    (hk : NumberScan.digit? c = some k) :
    ∃ o, l.stepBetween c = { l with mode := .number o (.ofDigit false k) } := by
  simp only [stepBetween]
  split
  -- The last case is for the characters that are given none of their own, digits among them.
  case h_16 => exact ⟨_, by rw [hk]⟩
  all_goals cases hk

/-- The first digit of a number. -/
theorem step_digit_first (h : l.mode = .between ∨ InNumber l [.minus]) (d : Digit) :
    InNumber (l.step d) [if d.val = '0' then .zero else .whole] := by
  have hofDigit : ∀ negative k, (k = 0 ↔ d.val = '0') → (NumberScan.ofDigit negative k).part =
      if d.val = '0' then .zero else .whole := by
    intro negative k hk
    simp only [NumberScan.ofDigit, hk]
  rcases h with hl | ⟨o, n, hl, hpart⟩
  · obtain ⟨k, hk, hzero⟩ := exists_numberDigit? d
    obtain ⟨o, hstep⟩ := stepBetween_digit l hk
    refine ⟨o, _, ?_, List.mem_singleton.mpr (hofDigit false k hzero)⟩
    simp only [step, stepMode, hl, hstep]
  · rw [List.mem_singleton] at hpart
    obtain ⟨k, hk, hzero⟩ := exists_numberDigit? d
    have hstep : ∀ stop, n.step stop l.place d = .more (.ofDigit true k) := by
      simp [NumberScan.step, hpart, hk]
    rw [← hofDigit true k hzero]
    exact inNumber_step hl hstep

theorem foldl_whole (h : l.mode = .between ∨ InNumber l [.minus]) (n : Numeral) :
    InNumber (n.whole.text.foldl step l) [.zero, .whole] := by
  have hfirst := step_digit_first h n.whole.first
  by_cases hzero : n.whole.first.val = '0'
  · rw [if_pos hzero] at hfirst
    -- No digit may follow a leading zero, and the grammar has none there.
    rw [Digits.text, n.no_leading_zero hzero]
    exact hfirst.mono (by simp)
  · rw [if_neg hzero] at hfirst
    have hrest := hfirst.foldl_digits rfl (by decide) (by decide) n.whole.rest
    exact hrest.mono (by simp)

theorem foldl_fraction (h : InNumber l [.zero, .whole]) (fraction : Option Digits) :
    InNumber ((Numeral.fractionText fraction).foldl step l) [.zero, .whole, .fraction] := by
  cases fraction with
  | none => exact h.mono (by simp)
  | some ds =>
    obtain ⟨o, n, hl, hpart⟩ := h
    have hstep : ∀ stop, n.step stop l.place '.' =
        .more { n with part := .point, full := false } := by
      intro stop
      simp only [List.mem_cons, List.not_mem_nil, or_false] at hpart
      rcases hpart with hpart | hpart
      · simp [NumberScan.step, NumberScan.step.afterWhole, hpart, NumberScan.digit?]
      · simp [NumberScan.step, NumberScan.step.afterWhole, hpart, NumberScan.digit?]
    have hfraction := (inNumber_step hl hstep).foldl_text (by simp) ds
    exact hfraction.mono (by simp [NumberScan.Part.withDigit])

theorem InNumber.step_mark (h : InNumber l [.zero, .whole, .fraction])
    (c : { c : Char // c = 'e' ∨ c = 'E' }) : InNumber (l.step c) [.mark] := by
  obtain ⟨o, n, hl, hpart⟩ := h
  obtain ⟨c, hc⟩ := c
  have hmark : NumberScan.digit? c = none ∧ NumberScan.isMark c = true ∧ c ≠ '.' := by
    rcases hc with rfl | rfl
    · decide
    · decide
  have hstep : ∀ stop, n.step stop l.place c = .more { n with part := .mark } := by
    intro stop
    simp only [List.mem_cons, List.not_mem_nil, or_false] at hpart
    rcases hpart with hpart | hpart | hpart
    · simp [NumberScan.step, NumberScan.step.afterWhole, hpart, hmark]
    · simp [NumberScan.step, NumberScan.step.afterWhole, hpart, hmark]
    · simp [NumberScan.step, hpart, hmark]
  exact inNumber_step hl hstep

theorem InNumber.step_sign (h : InNumber l [.mark]) (c : { c : Char // c = '+' ∨ c = '-' }) :
    InNumber (l.step c) [.sign] := by
  obtain ⟨o, n, hl, hpart⟩ := h
  rw [List.mem_singleton] at hpart
  obtain ⟨c, rfl | rfl⟩ := c
  · have hstep : ∀ stop, n.step stop l.place '+' = .more { n with part := .sign } := by
      simp [NumberScan.step, hpart, NumberScan.digit?]
    exact inNumber_step hl hstep
  · have hstep : ∀ stop, n.step stop l.place '-' =
        .more { n with part := .sign, powerNegative := true } := by
      simp [NumberScan.step, hpart, NumberScan.digit?]
    exact inNumber_step hl hstep

theorem foldl_exponent (h : InNumber l [.zero, .whole, .fraction]) (e : Exponent) :
    InNumber (e.text.foldl step l) [.power] := by
  have hmark := h.step_mark e.mark
  obtain ⟨mark, sign, digits⟩ := e
  cases sign with
  | none => exact hmark.foldl_text (by simp) digits
  | some sign => exact (hmark.step_sign sign).foldl_text (by simp) digits

theorem foldl_numeral (hl : l.mode = .between) (n : Numeral) :
    InNumber (n.text.foldl step l) [.zero, .whole, .fraction, .power] := by
  have hsign : ((if n.isNegative then ['-'] else []).foldl step l).mode = .between ∨
      InNumber ((if n.isNegative then ['-'] else []).foldl step l) [.minus] := by
    cases n.isNegative with
    | false => exact Or.inl hl
    | true =>
      right
      refine ⟨⟨if l.pulled then l.place.nudge '-' else l.place, l.place.nudge '-'⟩, .minus, ?_,
        List.mem_singleton_self _⟩
      simp only [if_true, List.foldl_cons, List.foldl_nil, step, stepMode, hl, stepBetween]
  have hmantissa := foldl_fraction (foldl_whole hsign n) n.fraction
  rw [Numeral.text, List.foldl_append, List.foldl_append, List.foldl_append]
  cases n.exponent with
  | none => exact hmantissa.mono (by simp)
  | some e => exact (foldl_exponent hmantissa e).mono (by simp)

theorem InNumber.mode_settle (h : InNumber l [.zero, .whole, .fraction, .power]) :
    l.settle.mode = .between := by
  obtain ⟨o, n, hl, hpart⟩ := h
  have hcomplete : n.isComplete = true := by
    simpa [NumberScan.isComplete, or_assoc] using hpart
  simp [settle, hl, hcomplete, emit]

end Lexer

theorem cutsAtLast_numeral (n : Numeral) : CutsAtLast n.text (tokensOf n.text) := by
  have hnumber := Lexer.foldl_numeral (l := Lexer.init false) rfl n
  exact cutsAtLast_tokensOf hnumber.mode_settle

/-! ## Spread texts -/

theorem cuts_blank {c : Char} (hc : c ∈ [' ', '\n', '\t', '\r']) : Cuts [c] [] := by
  simp only [List.mem_cons, List.not_mem_nil, or_false] at hc
  rcases hc with rfl | rfl | rfl | rfl
  · exact cuts_of_init ⟨rfl, rfl⟩
  · exact cuts_of_init ⟨rfl, rfl⟩
  · exact cuts_of_init ⟨rfl, rfl⟩
  · exact cuts_of_init ⟨rfl, rfl⟩

theorem IsBlank.cuts {w : List Char} (h : IsBlank w) : Cuts w [] := by
  induction w with
  | nil => exact cuts_nil
  | cons c w ih =>
    obtain ⟨hc, hw⟩ := List.forall_mem_cons.mp h
    exact (cuts_blank hc).append (ih hw)

theorem IsBlank.not_extendsNumber {w : List Char} (h : IsBlank w) :
    ∀ c ∈ w, Lexer.extendsNumber c = false := by
  have hall : ∀ c ∈ [' ', '\n', '\t', '\r'], Lexer.extendsNumber c = false :=
    List.all_iff_forall_prop.mp (by decide)
  exact fun c hc ↦ hall c (h c hc)

namespace Piece

theorem cuts_mark (m : Mark) : Cuts (mark m).text (tokensOf (mark m).text) := by
  cases m with
  | openArray | closeArray | openObject | closeObject | comma | colon => exact cuts_tokensOf rfl

theorem cuts_word (w : Word) : Cuts (word w).text (tokensOf (word w).text) := by
  obtain _ | _ | _ := w
  · exact cuts_tokensOf rfl
  · exact cuts_tokensOf rfl
  · exact cuts_tokensOf rfl

theorem not_extendsNumber_mark (m : Mark) : Lexer.extendsNumber m.char = false := by
  cases m with
  | openArray | closeArray | openObject | closeObject | comma | colon => decide

end Piece

theorem Spread.not_extendsNumber {ps : List Piece} {s : List Char}
    (h : Spread IsBlank IsBlank ps s) (hps : ∀ q ∈ ps.head?, q.isMark = true) :
    ∀ c ∈ s.head?, Lexer.extendsNumber c = false := by
  intro c hc
  cases h with
  | nil hw => exact hw.not_extendsNumber c (List.mem_of_mem_head? hc)
  | @cons w s q _ hw hs =>
    cases w with
    | cons b w =>
      rw [List.cons_append, List.head?_cons, Option.mem_some] at hc
      exact hc ▸ hw.not_extendsNumber b List.mem_cons_self
    | nil =>
      cases q with
      | mark m => exact Option.mem_some.mp hc ▸ Piece.not_extendsNumber_mark m
      | word | number | string => exact absurd (hps _ rfl) Bool.false_ne_true

theorem IsBlank.append {v w : List Char} (hv : IsBlank v) (hw : IsBlank w) : IsBlank (v ++ w) :=
  List.forall_mem_append.mpr ⟨hv, hw⟩

theorem isBlank_nil : IsBlank [] := List.forall_mem_nil _

theorem Spread.prepend {ps : List Piece} {s w : List Char} (hw : IsBlank w)
    (h : Spread IsBlank IsBlank ps s) : Spread IsBlank IsBlank ps (w ++ s) := by
  cases h with
  | nil hv => exact .nil (hw.append hv)
  | cons hv hs =>
    rw [← List.append_assoc]
    exact .cons (hw.append hv) hs

theorem Spread.append {ps qs : List Piece} {s s' : List Char} (h : Spread IsBlank IsBlank ps s)
    (h' : Spread IsBlank IsBlank qs s') : Spread IsBlank IsBlank (ps ++ qs) (s ++ s') := by
  induction h with
  | nil hw => exact h'.prepend hw
  | cons hw _ ih =>
    rw [List.append_assoc, List.append_assoc]
    exact .cons hw ih

/-- **The tokens of a spread text** are those of its pieces. -/
theorem Spread.cuts {ps : List Piece} {s : List Char} (h : Spread IsBlank IsBlank ps s)
    (hps : ps.IsChain Piece.Apart) : CutsAtLast s (ps.flatMap fun p ↦ tokensOf p.text) := by
  induction h with
  | nil hw => exact hw.cuts.atLast
  | @cons w s p ps hw hs ih =>
    obtain ⟨hhead, htail⟩ := List.isChain_cons.mp hps
    have hrest := ih htail
    rw [List.flatMap_cons]
    refine hw.cuts.append_atLast ?_
    cases p with
    | mark m => exact (Piece.cuts_mark m).append_atLast hrest
    | word w => exact (Piece.cuts_word w).append_atLast hrest
    | string parts => exact (cuts_literal parts).append_atLast hrest
    | number n =>
      -- A number is over when something else comes, so here it matters what the next piece is.
      refine (cutsAtLast_numeral n).append hrest (hs.not_extendsNumber ?_)
      exact fun q hq ↦ (hhead q hq).resolve_left Bool.false_ne_true

/-! ## The pieces of a value -/

/-- The first of some pieces is a mark. -/
def MarkFirst (ps : List Piece) : Prop := ∃ m qs, ps = .mark m :: qs

/-- Of two neighbours among some pieces, one is a mark. -/
abbrev Chained (ps : List Piece) : Prop := ps.IsChain Piece.Apart

theorem chained_append {ps qs : List Piece} (hps : Chained ps) (hqs : Chained qs)
    (hmark : MarkFirst qs) : Chained (ps ++ qs) := by
  refine List.isChain_append.mpr ⟨hps, hqs, ?_⟩
  obtain ⟨m, qs, rfl⟩ := hmark
  exact fun _ _ _ hq ↦ Or.inr (Option.mem_some.mp hq ▸ rfl)

theorem chained_mark_cons {ps : List Piece} (m : Mark) (hps : Chained ps) :
    Chained (.mark m :: ps) :=
  List.isChain_cons.mpr ⟨fun _ _ ↦ Or.inl rfl, hps⟩

theorem chained_single (p : Piece) : Chained [p] := List.isChain_singleton _

namespace Tree

theorem chained_separated {ps : List Piece} (isFirst : Bool) (hps : Chained ps) :
    Chained (separated isFirst ps) := by
  cases isFirst with
  | true => exact hps
  | false => exact chained_mark_cons _ hps

theorem chained_closing (extraComma : Bool) (m : Mark) : Chained (closing extraComma m) :=
  chained_separated _ (chained_single _)

theorem markFirst_closing (extraComma : Bool) (m : Mark) : MarkFirst (closing extraComma m) := by
  cases extraComma with
  | true => exact ⟨.comma, _, rfl⟩
  | false => exact ⟨m, _, rfl⟩

theorem markFirst_itemPieces (extras extra : Bool) (items : List Tree) :
    MarkFirst (itemPieces extras extra false items) := by
  cases items with
  | nil => rw [itemPieces]; exact markFirst_closing _ _
  | cons t ts => rw [itemPieces]; exact ⟨.comma, _, rfl⟩

theorem markFirst_memberPieces (extras extra : Bool) (members : List (List StringPart × Tree)) :
    MarkFirst (memberPieces extras extra false members) := by
  cases members with
  | nil => rw [memberPieces]; exact markFirst_closing _ _
  | cons m ms => rw [memberPieces]; exact ⟨.comma, _, rfl⟩

mutual

theorem chained_pieces (extras : Bool) : ∀ t : Tree, Chained (t.pieces extras)
  | word w => by rw [pieces]; exact chained_single _
  | number n => by rw [pieces]; exact chained_single _
  | string parts => by rw [pieces]; exact chained_single _
  | array items extra => by
    rw [pieces]
    exact chained_mark_cons _ (chained_itemPieces extras extra true items)
  | object members extra => by
    rw [pieces]
    exact chained_mark_cons _ (chained_memberPieces extras extra true members)

theorem chained_itemPieces (extras extra isFirst : Bool) : ∀ items : List Tree,
    Chained (itemPieces extras extra isFirst items)
  | [] => by rw [itemPieces]; exact chained_closing _ _
  | t :: ts => by
    rw [itemPieces]
    exact chained_separated _ (chained_append (chained_pieces extras t)
      (chained_itemPieces extras extra false ts) (markFirst_itemPieces extras extra ts))

theorem chained_memberPieces (extras extra isFirst : Bool) :
    ∀ members : List (List StringPart × Tree),
      Chained (memberPieces extras extra isFirst members)
  | [] => by rw [memberPieces]; exact chained_closing _ _
  | (key, t) :: ms => by
    rw [memberPieces]
    have hvalue := chained_append (chained_pieces extras t)
      (chained_memberPieces extras extra false ms) (markFirst_memberPieces extras extra ms)
    exact chained_separated _ (chained_append (chained_single _) (chained_mark_cons _ hvalue)
      ⟨_, _, rfl⟩)

end

end Tree

end Redirector.Json
