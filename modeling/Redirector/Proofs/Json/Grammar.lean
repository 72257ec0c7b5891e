import Redirector.Proofs.Json.Cut

/-!
# The grammar of JSON texts

A value as the grammar has it, before anything is read off it: numerals and string literals are kept
as they are spelled, and a list or an object may be written with one more comma after its last
element. The pieces of a value are its spellings from left to right, and a text is spread from some
pieces if it is what they spell, with fillers before, between and after them.

The shape of the types is the grammar, so every `Tree` is a valid JSON text, extra commas apart.
-/

namespace Redirector.Json

/-! ## Spellings -/

def digitChars : List Char := ['0', '1', '2', '3', '4', '5', '6', '7', '8', '9']

def hexDigitChars : List Char :=
  digitChars ++ ['a', 'b', 'c', 'd', 'e', 'f', 'A', 'B', 'C', 'D', 'E', 'F']

/-- What a backslash may stand before, numeric escapes apart. -/
def escapableChars : List Char := ['"', '\\', '/', 'b', 'f', 'n', 'r', 't']

abbrev Digit := { c : Char // c ∈ digitChars }

abbrev HexDigit := { c : Char // c ∈ hexDigitChars }

/-- One digit or more. -/
structure Digits where
  first : Digit
  rest : List Digit

def Digits.text (ds : Digits) : List Char := (ds.first :: ds.rest).map Subtype.val

/-- An exponent as it is spelled: its mark, its sign if it has one, and its digits. -/
structure Exponent where
  mark : { c : Char // c = 'e' ∨ c = 'E' }
  sign : Option { c : Char // c = '+' ∨ c = '-' }
  digits : Digits

def Exponent.text (e : Exponent) : List Char :=
  e.mark :: ((e.sign.map Subtype.val).toList ++ e.digits.text)

/-- A number as it is spelled. -/
structure Numeral where
  isNegative : Bool
  whole : Digits
  no_leading_zero : whole.first.val = '0' → whole.rest = []
  fraction : Option Digits
  exponent : Option Exponent

def Numeral.fractionText : Option Digits → List Char
  | none => []
  | some ds => '.' :: ds.text

def Numeral.text (n : Numeral) : List Char :=
  (if n.isNegative then ['-'] else []) ++
    (n.whole.text ++ (Numeral.fractionText n.fraction ++ (n.exponent.map Exponent.text).getD []))

/-- What stands for one character of a string, or for half of one. -/
inductive StringPart where
  | plain (c : Char) (h : 0x20 ≤ c.toNat ∧ c ≠ '"' ∧ c ≠ '\\')
  | escape (c : { c : Char // c ∈ escapableChars })
  | unicode (a b c d : HexDigit)

def StringPart.text : StringPart → List Char
  | plain c _ => [c]
  | escape c => ['\\', c]
  | unicode a b c d => ['\\', 'u', a, b, c, d]

def literal (parts : List StringPart) : List Char := '"' :: (parts.flatMap StringPart.text ++ ['"'])

/-! ## Pieces -/

inductive Mark where
  | openArray
  | closeArray
  | openObject
  | closeObject
  | comma
  | colon
  deriving DecidableEq, Repr

def Mark.char : Mark → Char
  | openArray => '['
  | closeArray => ']'
  | openObject => '{'
  | closeObject => '}'
  | comma => ','
  | colon => ':'

/-- A token as it is spelled. -/
inductive Piece where
  | mark (m : Mark)
  | word (w : Word)
  | number (n : Numeral)
  | string (parts : List StringPart)

namespace Piece

def text : Piece → List Char
  | mark m => [m.char]
  | word .null => "null".toList
  | word (.boolean true) => "true".toList
  | word (.boolean false) => "false".toList
  | number n => n.text
  | string parts => literal parts

def isMark : Piece → Bool
  | mark _ => true
  | _ => false

def isClosing : Piece → Bool
  | mark .closeArray | mark .closeObject => true
  | _ => false

def isComma : Piece → Bool
  | mark .comma => true
  | _ => false

/-- Of two neighbours one at least is a mark. -/
def Apart (p q : Piece) : Prop := p.isMark ∨ q.isMark

end Piece

/-! ## Values -/

/-- A value as it is spelled. A list or an object that is not empty may end with an extra comma. -/
inductive Tree where
  | word (w : Word)
  | number (n : Numeral)
  | string (parts : List StringPart)
  | array (items : List Tree) (extraComma : Bool)
  | object (members : List (List StringPart × Tree)) (extraComma : Bool)

namespace Tree

open Piece (mark)

/-- Some pieces behind a comma, unless they come first. -/
def separated (isFirst : Bool) (ps : List Piece) : List Piece :=
  if isFirst then ps else mark .comma :: ps

/-- The end of a list or an object, behind an extra comma if there is one. -/
def closing (extraComma : Bool) (m : Mark) : List Piece :=
  separated (!extraComma) [mark m]

mutual

/-- The pieces of a value, with its extra commas or without them. -/
def pieces (extras : Bool) : Tree → List Piece
  | word w => [.word w]
  | number n => [.number n]
  | string parts => [.string parts]
  | array items extra => mark .openArray :: itemPieces extras extra true items
  | object members extra => mark .openObject :: memberPieces extras extra true members

/-- The pieces of the items of a list, and of its end. -/
def itemPieces (extras extra : Bool) : (isFirst : Bool) → List Tree → List Piece
  | isFirst, [] => closing (!isFirst && extras && extra) .closeArray
  | isFirst, t :: ts =>
    separated isFirst (t.pieces extras ++ itemPieces extras extra false ts)

/-- The pieces of the members of an object, and of its end. -/
def memberPieces (extras extra : Bool) :
    (isFirst : Bool) → List (List StringPart × Tree) → List Piece
  | isFirst, [] => closing (!isFirst && extras && extra) .closeObject
  | isFirst, (key, t) :: ms =>
    separated isFirst (.string key :: mark .colon ::
      (t.pieces extras ++ memberPieces extras extra false ms))

end

end Tree

/-! ## Texts -/

/-- A text spread from some pieces, with a filler before each of them and a last one at the end. -/
inductive Spread (Filler Last : List Char → Prop) : List Piece → List Char → Prop
  | nil {w : List Char} : Last w → Spread Filler Last [] w
  | cons {w s : List Char} {p : Piece} {ps : List Piece} :
    Filler w → Spread Filler Last ps s → Spread Filler Last (p :: ps) (w ++ (p.text ++ s))

/-- A run of the whitespace of JSON. -/
def IsBlank (w : List Char) : Prop := ∀ c ∈ w, c ∈ [' ', '\n', '\t', '\r']

/-! ## The tokens of a text

A text that is cut from the start of a lexeme on is cut into some tokens, whatever came before. If
nothing is left open at its end, the text is cut into exactly them (`Cuts`). A number is only over
once the next character has come, so a text may also end with a number that is still open
(`CutsAtLast`); then the next character must not be one that goes on with a number.

Texts are put together from the left. A text that leaves nothing open can be followed by any text
(`Cuts.append`), and any text by one that does not go on with a number (`CutsAtLast.append`).
-/

open Text (Place)

/-- A lexeme that is nothing but a token. -/
def Lexeme.ofToken (t : Token) : Lexeme := ⟨t, Place.start, Place.start, Place.start⟩

namespace Lexer

/-- Whether a character goes on with a number that could end before it. -/
def extendsNumber (c : Char) : Bool :=
  (NumberScan.digit? c).isSome || c = '.' || NumberScan.isMark c

/-- The cut with a number that could end here put to the lexemes. -/
def settle (l : Lexer) : Lexer :=
  match l.mode with
  | .number o n => if n.isComplete then l.emit o (n.token l.place) l.place .between else l
  | _ => l

/-- The state after some tokens, with nothing open. -/
def afterTokens (ts : List Token) : Lexer :=
  ⟨false, Place.start, .between, (ts.map Lexeme.ofToken).reverse⟩

theorem settle_of_between {l : Lexer} (h : l.mode = .between) : l.settle = l := by
  simp only [settle, h]

namespace Atop

variable {below : List Lexeme} {l k m : Lexer}

theorem refl (l : Lexer) : Atop [] l l := ⟨rfl, (List.append_nil _).symm⟩

theorem trans {below' : List Lexeme} (hlk : Atop below l k) (hkm : Atop below' k m) :
    Atop (below' ++ below) l m where
  mode := hlk.mode.trans hkm.mode
  lexemes := by rw [hlk.lexemes, hkm.lexemes, List.append_assoc]

/-- Between lexemes, nothing counts but what has come before. -/
theorem of_between (hl : l.mode = .between) (pulled : Bool) :
    Atop (l.lexemes.map Lexeme.bare) l (Lexer.init pulled) where
  mode := by rw [hl]; rfl
  lexemes := rfl

theorem between (h : Atop below l k) (hk : k.mode = .between) : l.mode = .between := by
  have hmode := h.mode
  rw [hk] at hmode
  cases hl : l.mode with
  | between => rfl
  | string | number | word | halted => rw [hl] at hmode; cases hmode

theorem settle (h : Atop below l k) : Atop below l.settle k.settle := by
  have hmode := h.mode
  cases hl : l.mode with
  | number o n =>
    cases hk : k.mode with
    | number o' n' =>
      rw [hl, hk] at hmode
      have hscan : n.bare = n'.bare := (Mode.number.inj hmode).2
      have hcomplete : n.isComplete = n'.isComplete := by
        simp only [NumberScan.isComplete, NumberScan.part_eq hscan]
      simp only [Lexer.settle, hl, hk, hcomplete]
      cases n'.isComplete with
      | true => exact h.emit o o' (NumberScan.bare_token hscan _ _) _ _ rfl
      | false => exact h
    | between | string | word | halted => rw [hl, hk] at hmode; cases hmode
  | between | string | word | halted =>
    cases hk : k.mode with
    | number => rw [hl, hk] at hmode; cases hmode
    | between | string | word | halted => simpa only [Lexer.settle, hl, hk] using h

/-- A character that does not go on with a number is taken as if the number had been put to the
lexemes before. -/
theorem step_settle (l : Lexer) {c : Char} (hc : extendsNumber c = false) :
    Atop [] (l.step c) (l.settle.step c) := by
  obtain ⟨⟨hdigit, hpoint⟩, hmark⟩ : (NumberScan.digit? c = none ∧ c ≠ '.') ∧
      NumberScan.isMark c = false := by
    simpa [extendsNumber] using hc
  cases hl : l.mode with
  | number o n =>
    cases hcomplete : n.isComplete with
    | false =>
      have hsettle : l.settle = l := by simp [Lexer.settle, hl, hcomplete]
      rw [hsettle]
      exact refl _
    | true =>
      -- Both put the same number to the lexemes; the one state does so a character later.
      have hended : ∀ stop p, n.step stop p c = .ended (n.token stop) := by
        intro stop p
        cases hpart : n.part with
        | zero | whole | fraction | power =>
          simp [NumberScan.step, NumberScan.step.afterWhole, hpart, hdigit, hpoint, hmark]
        | minus | point | mark | sign => simp [NumberScan.isComplete, hpart] at hcomplete
      have hsettle : l.settle = l.emit o (n.token l.place) l.place .between := by
        simp [Lexer.settle, hl, hcomplete]
      obtain ⟨stop, hstep⟩ : ∃ stop,
          l.stepMode c = (l.emit o (n.token stop) stop .between).stepBetween c :=
        ⟨if l.pulled then l.place.nudge c else l.place, by simp only [Lexer.stepMode, hl, hended]⟩
      have hemit : Atop [] (l.emit o (n.token stop) stop .between)
          (l.emit o (n.token l.place) l.place .between) :=
        (refl l).emit o o (NumberScan.bare_token rfl _ _) _ _ rfl
      rw [Lexer.step, hstep, hsettle]
      exact (hemit.stepBetween c).withPlace _ _
  | between | string | word | halted =>
    have hsettle : l.settle = l := by simp only [Lexer.settle, hl]
    rw [hsettle]
    exact refl _

end Atop

/-- At the end, a number that could end here counts as ended. -/
theorem finish_settle (l : Lexer) : l.finish.map Lexeme.bare = l.settle.finish.map Lexeme.bare := by
  cases hl : l.mode with
  | number o n =>
    cases hcomplete : n.isComplete with
    | false => simp [settle, hl, hcomplete]
    | true =>
      have hfinish : n.finish l.place = n.token l.place := by
        cases hpart : n.part with
        | zero | whole | fraction | power => simp only [NumberScan.finish, hpart]
        | minus | point | mark | sign => simp [NumberScan.isComplete, hpart] at hcomplete
      simp [settle, finish, emit, hl, hcomplete, hfinish]
  | between | string | word | halted => simp only [settle, hl]

end Lexer

/-! ### Texts and their tokens -/

open Lexer (Atop)

/-- A text is cut into some tokens, and nothing is left open at its end. -/
def Cuts (s : List Char) (ts : List Token) : Prop :=
  ∀ l : Lexer, l.mode = .between →
    Atop (l.lexemes.map Lexeme.bare) (s.foldl Lexer.step l) (Lexer.afterTokens ts)

/-- A text is cut into some tokens, once a number at its end is over. -/
def CutsAtLast (s : List Char) (ts : List Token) : Prop :=
  ∀ l : Lexer, l.mode = .between →
    Atop (l.lexemes.map Lexeme.bare) (s.foldl Lexer.step l).settle (Lexer.afterTokens ts)

/-- The tokens that a text is cut into if nothing is left open at its end, a number apart. -/
def tokensOf (s : List Char) : List Token :=
  ((s.foldl Lexer.step (Lexer.init false)).settle.lexemes.map Lexeme.token).reverse

section

variable {s s' : List Char} {ts ts' : List Token}

/-- It is enough to look at the cut from the start of a text. -/
theorem cuts_of_init
    (h : Atop [] (s.foldl Lexer.step (Lexer.init false)) (Lexer.afterTokens ts)) : Cuts s ts :=
  fun _ hl ↦ ((Atop.of_between hl false).foldl s).trans h

theorem cutsAtLast_of_init
    (h : Atop [] (s.foldl Lexer.step (Lexer.init false)).settle (Lexer.afterTokens ts)) :
    CutsAtLast s ts :=
  fun _ hl ↦ ((Atop.of_between hl false).foldl s).settle.trans h

theorem cuts_tokensOf (h : (s.foldl Lexer.step (Lexer.init false)).mode = .between) :
    Cuts s (tokensOf s) := by
  have hsettle := Lexer.settle_of_between h
  refine cuts_of_init ⟨by rw [h]; rfl, ?_⟩
  simp [tokensOf, hsettle, Lexer.afterTokens, Lexeme.ofToken, Lexeme.bare, Function.comp_def,
    List.map_reverse]

theorem cutsAtLast_tokensOf
    (h : (s.foldl Lexer.step (Lexer.init false)).settle.mode = .between) :
    CutsAtLast s (tokensOf s) := by
  refine cutsAtLast_of_init ⟨by rw [h]; rfl, ?_⟩
  simp [tokensOf, Lexer.afterTokens, Lexeme.ofToken, Lexeme.bare, Function.comp_def,
    List.map_reverse]

theorem Cuts.atLast (h : Cuts s ts) : CutsAtLast s ts := by
  intro l hl
  have hs := h l hl
  rw [Lexer.settle_of_between (hs.between rfl)]
  exact hs

theorem cuts_nil : Cuts [] [] :=
  cuts_of_init (Atop.refl _)

theorem Lexer.Atop.afterTokens_append {below : List Lexeme} {l k : Lexer}
    (hl : Atop below l (Lexer.afterTokens ts))
    (hk : Atop (l.lexemes.map Lexeme.bare) k (Lexer.afterTokens ts')) :
    Atop below k (Lexer.afterTokens (ts ++ ts')) where
  mode := hk.mode
  lexemes := by
    rw [hk.lexemes, hl.lexemes]
    simp [Lexer.afterTokens]

theorem Cuts.append (h : Cuts s ts) (h' : Cuts s' ts') : Cuts (s ++ s') (ts ++ ts') := by
  intro l hl
  have hs := h l hl
  rw [List.foldl_append]
  exact hs.afterTokens_append (h' _ (hs.between rfl))

theorem Cuts.append_atLast (h : Cuts s ts) (h' : CutsAtLast s' ts') :
    CutsAtLast (s ++ s') (ts ++ ts') := by
  intro l hl
  have hs := h l hl
  rw [List.foldl_append]
  exact hs.afterTokens_append (h' _ (hs.between rfl))

theorem CutsAtLast.append (h : CutsAtLast s ts) (h' : CutsAtLast s' ts')
    (hhead : ∀ c ∈ s'.head?, Lexer.extendsNumber c = false) :
    CutsAtLast (s ++ s') (ts ++ ts') := by
  intro l hl
  have hs := h l hl
  rw [List.foldl_append]
  cases s' with
  | nil =>
    have hnil := h' _ (hs.between rfl)
    rw [List.foldl_nil, Lexer.settle_of_between (hs.between rfl)] at hnil
    exact hs.afterTokens_append hnil
  | cons c s' =>
    have hstep := Atop.step_settle (s.foldl Lexer.step l) (hhead c rfl)
    have hrest := (hstep.foldl s').settle.trans (h' _ (hs.between rfl))
    rw [List.append_nil] at hrest
    exact hs.afterTokens_append hrest

theorem CutsAtLast.lexemes_eq (h : CutsAtLast s ts) (pulled : Bool) :
    (Cut.ofChars pulled s).lexemes.map Lexeme.bare = ts.map fun t ↦ Lexeme.ofToken t.bare := by
  have hs := h (Lexer.init pulled) rfl
  have hmode := hs.between rfl
  have hlexemes := hs.lexemes
  rw [Cut.ofChars, Lexer.finish_settle]
  simp only [Lexer.finish, hmode, List.map_reverse, hlexemes]
  simp [Lexer.afterTokens, Lexer.init, Lexeme.ofToken, Lexeme.bare, Function.comp_def]

end

end Redirector.Json
