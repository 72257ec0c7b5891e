import Mathlib.Data.List.Forall2
import Mathlib.Tactic.SplitIfs
import Redirector.Json.Value

/-!
# Values off their tokens

Every value has its tokens, in the order in which a text of it is cut. This module says what the
steps over lexemes make of them: when an item or a member is read off its own tokens and leaves what
follows alone (`Reads`), then so is a whole list or object, and a value of any shape is read and
skipped.
-/

namespace Redirector.Json

open Text (Place)

/-! ## Tokens and height of a value -/

mutual

def tokens : Json → List Token
  | null => [.word (.ok .null)]
  | boolean b => [.word (.ok (.boolean b))]
  | number n => [.number (.ok n) (.ok ())]
  | string s => [.string (.ok s) (.ok ())]
  | array items => .openArray :: itemTokens true items
  | object members => .openObject :: memberTokens true members

/-- The tokens of the items of a list, each after the first one behind a comma, and of its end. -/
def itemTokens : (isFirst : Bool) → List Json → List Token
  | _, [] => [.closeArray]
  | true, j :: js => tokens j ++ itemTokens false js
  | false, j :: js => .comma :: (tokens j ++ itemTokens false js)

/-- The tokens of the members of an object, each after the first one behind a comma, and of its
end. -/
def memberTokens : (isFirst : Bool) → List (String × Json) → List Token
  | _, [] => [.closeObject]
  | true, (key, j) :: ms =>
    .string (.ok key) (.ok ()) :: .colon :: (tokens j ++ memberTokens false ms)
  | false, (key, j) :: ms =>
    .comma :: .string (.ok key) (.ok ()) :: .colon :: (tokens j ++ memberTokens false ms)

end

mutual

/-- How many containers deep a value is. -/
def height : Json → Nat
  | array items => heightOfItems items + 1
  | object members => heightOfMembers members + 1
  | _ => 0

def heightOfItems : List Json → Nat
  | [] => 0
  | j :: js => max (height j) (heightOfItems js)

def heightOfMembers : List (String × Json) → Nat
  | [] => 0
  | (_, j) :: ms => max (height j) (heightOfMembers ms)

end

theorem height_le_of_mem {j : Json} {js : List Json} (h : j ∈ js) :
    j.height ≤ heightOfItems js := by
  induction js with
  | nil => cases h
  | cons k js ih =>
    rw [heightOfItems]
    rcases List.mem_cons.mp h with rfl | h
    · exact Nat.le_max_left _ _
    · exact Nat.le_trans (ih h) (Nat.le_max_right _ _)

theorem height_le_of_mem_members {key : String} {j : Json} {ms : List (String × Json)}
    (h : (key, j) ∈ ms) : j.height ≤ heightOfMembers ms := by
  induction ms with
  | nil => cases h
  | cons m ms ih =>
    obtain ⟨key', k⟩ := m
    rw [heightOfMembers]
    rcases List.mem_cons.mp h with heq | h
    · obtain ⟨-, rfl⟩ := Prod.mk.inj heq
      exact Nat.le_max_left _ _
    · exact Nat.le_trans (ih h) (Nat.le_max_right _ _)

/-- A step reads some tokens as a value, at some depth, and leaves what follows them alone. -/
def Reads {α : Type} (r : Read α) (depth : Nat) (ts : List Token) (a : α) : Prop :=
  ∀ (ls rest : List Lexeme) (finish : Place), ls.map Lexeme.token = ts →
    r ⟨ls ++ rest, finish, depth⟩ = .ok (a, ⟨rest, finish, depth⟩)

theorem exists_first_token (j : Json) : ∃ t ts, j.tokens = t :: ts ∧ t ≠ .closeArray := by
  cases j with
  | null | boolean | number | string | array | object => exact ⟨_, _, by rw [tokens], by simp⟩

namespace Cursor

variable {α : Type}

/-! ## Lists -/

theorem nextItem_closeArray {l : Lexeme} (hl : l.token = .closeArray) (rest : List Lexeme)
    (finish : Place) (depth : Nat) (isFirst : Bool) :
    nextItem ⟨l :: rest, finish, depth⟩ isFirst = .ok none := by
  simp only [nextItem, hl]

theorem nextItem_first {l : Lexeme} (hl : l.token ≠ .closeArray) (rest : List Lexeme)
    (finish : Place) (depth : Nat) :
    nextItem ⟨l :: rest, finish, depth⟩ true = .ok (some ⟨l :: rest, finish, depth⟩) := by
  simp only [nextItem]

theorem nextItem_comma {l next : Lexeme} (hl : l.token = .comma) (hnext : next.token ≠ .closeArray)
    (rest : List Lexeme) (finish : Place) (depth : Nat) :
    nextItem ⟨l :: next :: rest, finish, depth⟩ false =
      .ok (some ⟨next :: rest, finish, depth⟩) := by
  simp only [nextItem, hl]
  rfl

theorem nextItem_items {isFirst : Bool} {j : Json} {js : List Json} {ls : List Lexeme}
    (hls : ls.map Lexeme.token = itemTokens isFirst (j :: js)) (rest : List Lexeme)
    (finish : Place) (depth : Nat) :
    ∃ as bs, as.map Lexeme.token = j.tokens ∧ bs.map Lexeme.token = itemTokens false js ∧
      nextItem ⟨ls ++ rest, finish, depth⟩ isFirst =
        .ok (some ⟨as ++ (bs ++ rest), finish, depth⟩) := by
  obtain ⟨t, ts, hj, ht⟩ := exists_first_token j
  cases isFirst with
  | true =>
    rw [itemTokens] at hls
    obtain ⟨as, bs, rfl, has, hbs⟩ := List.map_eq_append_iff.mp hls
    refine ⟨as, bs, has, hbs, ?_⟩
    obtain ⟨a, as, rfl, ha, -⟩ := List.map_eq_cons_iff.mp (has.trans hj)
    rw [List.append_assoc]
    exact nextItem_first (ha ▸ ht) _ _ _
  | false =>
    rw [itemTokens] at hls
    obtain ⟨l, ls, rfl, hl, hls⟩ := List.map_eq_cons_iff.mp hls
    obtain ⟨as, bs, rfl, has, hbs⟩ := List.map_eq_append_iff.mp hls
    refine ⟨as, bs, has, hbs, ?_⟩
    obtain ⟨a, as, rfl, ha, -⟩ := List.map_eq_cons_iff.mp (has.trans hj)
    rw [List.cons_append, List.append_assoc]
    exact nextItem_comma hl (ha ▸ ht) _ _ _

theorem readItems_eq {item : Read α} {depth : Nat} {js : List Json} {as : List α}
    (h : List.Forall₂ (fun j a ↦ Reads item depth j.tokens a) js as) {ls fuel : List Lexeme}
    (index : Nat) (hls : ls.map Lexeme.token = itemTokens (index = 0) js)
    (hfuel : js.length < fuel.length) (found : List α) (rest : List Lexeme) (finish : Place) :
    ∃ l, l.token = .closeArray ∧ readItems item fuel index found ⟨ls ++ rest, finish, depth⟩ =
      .ok (found.reverse ++ as, ⟨l :: rest, finish, depth⟩) := by
  induction h generalizing ls fuel index found with
  | nil =>
    rw [itemTokens] at hls
    obtain ⟨l, rfl, hl⟩ := List.map_eq_singleton_iff.mp hls
    obtain ⟨k, fuel, rfl⟩ := List.exists_cons_of_length_pos hfuel
    refine ⟨l, hl, ?_⟩
    rw [readItems, List.singleton_append, nextItem_closeArray hl, List.append_nil]
  | @cons j a js as hj _ ih =>
    obtain ⟨k, fuel, rfl⟩ := List.exists_cons_of_length_pos (Nat.zero_lt_of_lt hfuel)
    obtain ⟨as', bs, has, hbs, hnext⟩ := nextItem_items hls rest finish depth
    have hread := hj as' (bs ++ rest) finish has
    obtain ⟨l, hl, hrest⟩ := ih (index + 1) hbs (Nat.lt_of_succ_lt_succ hfuel) (a :: found)
    refine ⟨l, hl, ?_⟩
    rw [readItems, hnext]
    simp only [hread, Read.under, Except.mapError, hrest, List.reverse_cons, List.append_assoc,
      List.singleton_append]

theorem leaveList_closeArray {l : Lexeme} (hl : l.token = .closeArray) (rest : List Lexeme)
    (finish : Place) (inner depth : Nat) :
    leaveList ⟨l :: rest, finish, inner⟩ depth = .ok ⟨rest, finish, depth⟩ := by
  simp only [leaveList, hl]

theorem enter_eq {depth : Nat} (hdepth : 0 < depth) (lexemes : List Lexeme) (l : Lexeme)
    (rest : List Lexeme) (finish : Place) :
    enter ⟨lexemes, finish, depth + 1⟩ l rest = .ok ⟨rest, finish, depth⟩ := by
  have hdeep : ¬ depth + 1 ≤ 1 := Nat.not_le.mpr (Nat.succ_lt_succ hdepth)
  simp only [enter, if_neg hdeep, Nat.add_sub_cancel]

theorem length_lt_itemTokens (isFirst : Bool) (js : List Json) :
    js.length < (itemTokens isFirst js).length := by
  induction js generalizing isFirst with
  | nil =>
    rw [itemTokens]
    exact Nat.one_pos
  | cons j js ih =>
    obtain ⟨t, ts, hj, -⟩ := exists_first_token j
    have hrest := ih false
    cases isFirst with
    | true =>
      simp only [itemTokens, hj, List.length_cons, List.length_append]
      omega
    | false =>
      simp only [itemTokens, hj, List.length_cons, List.length_append]
      omega

theorem readList_eq {item : Read α} {depth : Nat} (hdepth : 0 < depth) {js : List Json}
    {as : List α} (h : List.Forall₂ (fun j a ↦ Reads item depth j.tokens a) js as)
    {ls : List Lexeme} (hls : ls.map Lexeme.token = itemTokens true js) (lexemes : List Lexeme)
    (l : Lexeme) (rest : List Lexeme) (finish : Place) :
    readList item ⟨lexemes, finish, depth + 1⟩ l (ls ++ rest) =
      .ok (as, ⟨rest, finish, depth + 1⟩) := by
  have hfuel : js.length < (l :: (ls ++ rest)).length := by
    have hlength := length_lt_itemTokens true js
    rw [← hls, List.length_map] at hlength
    rw [List.length_cons, List.length_append]
    omega
  obtain ⟨k, hk, hitems⟩ := readItems_eq h 0 hls hfuel [] rest finish
  simp only [readList, enter_eq hdepth, hitems, Read.placed, Except.mapError,
    leaveList_closeArray hk, List.reverse_nil, List.nil_append]

/-! ## Objects -/

/-- The tokens of a member after its key. -/
def valueTokens (j : Json) : List Token := .colon :: j.tokens

/-- What comes of some members, one after the other, if each is read off its own tokens. -/
inductive Folds {σ : Type} (member : σ → String → Read σ) (depth : Nat) :
    σ → List (String × Json) → σ → Prop
  | nil (s : σ) : Folds member depth s [] s
  | cons {s s' s'' : σ} {key : String} {j : Json} {ms : List (String × Json)}
    (h : Reads (member s key) depth (valueTokens j) s') (hms : Folds member depth s' ms s'') :
    Folds member depth s ((key, j) :: ms) s''

theorem nextKey_closeObject {l : Lexeme} (hl : l.token = .closeObject) (rest : List Lexeme)
    (finish : Place) (depth : Nat) (isFirst : Bool) :
    nextKey ⟨l :: rest, finish, depth⟩ isFirst = .ok none := by
  simp only [nextKey, hl]

theorem nextKey_members {isFirst : Bool} {key : String} {j : Json} {ms : List (String × Json)}
    {ls : List Lexeme} (hls : ls.map Lexeme.token = memberTokens isFirst ((key, j) :: ms))
    (rest : List Lexeme) (finish : Place) (depth : Nat) :
    ∃ next as bs, as.map Lexeme.token = valueTokens j ∧
      bs.map Lexeme.token = memberTokens false ms ∧
      nextKey ⟨ls ++ rest, finish, depth⟩ isFirst = .ok (some next) ∧
      readKey next = .ok (key, ⟨as ++ (bs ++ rest), finish, depth⟩) := by
  have hkey : ∀ {ls : List Lexeme},
      ls.map Lexeme.token =
        .string (.ok key) (.ok ()) :: (valueTokens j ++ memberTokens false ms) →
      ∃ k as bs, ls = k :: (as ++ bs) ∧ k.token = .string (.ok key) (.ok ()) ∧
        as.map Lexeme.token = valueTokens j ∧ bs.map Lexeme.token = memberTokens false ms := by
    intro ls hls
    obtain ⟨k, ls, rfl, hk, hls⟩ := List.map_eq_cons_iff.mp hls
    obtain ⟨as, bs, rfl, has, hbs⟩ := List.map_eq_append_iff.mp hls
    exact ⟨k, as, bs, rfl, hk, has, hbs⟩
  cases isFirst with
  | true =>
    rw [memberTokens] at hls
    obtain ⟨k, as, bs, rfl, hk, has, hbs⟩ := hkey hls
    refine ⟨⟨k :: (as ++ bs ++ rest), finish, depth⟩, as, bs, has, hbs, ?_, ?_⟩
    · simp only [nextKey, List.cons_append, hk]
    · simp only [readKey, hk, drop, List.append_assoc]
  | false =>
    rw [memberTokens] at hls
    obtain ⟨l, ls, rfl, hl, hls⟩ := List.map_eq_cons_iff.mp hls
    obtain ⟨k, as, bs, rfl, hk, has, hbs⟩ := hkey hls
    refine ⟨⟨k :: (as ++ bs ++ rest), finish, depth⟩, as, bs, has, hbs, ?_, ?_⟩
    · simp only [nextKey, List.cons_append, hl, hk, drop]
    · simp only [readKey, hk, drop, List.append_assoc]

theorem foldMembers_eq {σ : Type} {member : σ → String → Read σ} {depth : Nat} {s s' : σ}
    {ms : List (String × Json)} (h : Folds member depth s ms s') {ls fuel : List Lexeme}
    {isFirst : Bool} (hls : ls.map Lexeme.token = memberTokens isFirst ms)
    (hfuel : ms.length < fuel.length) (rest : List Lexeme) (finish : Place) :
    ∃ l, l.token = .closeObject ∧ foldMembers member fuel isFirst s ⟨ls ++ rest, finish, depth⟩ =
      .ok (s', ⟨l :: rest, finish, depth⟩) := by
  induction h generalizing ls fuel isFirst with
  | nil s =>
    rw [memberTokens] at hls
    obtain ⟨l, rfl, hl⟩ := List.map_eq_singleton_iff.mp hls
    obtain ⟨k, fuel, rfl⟩ := List.exists_cons_of_length_pos hfuel
    refine ⟨l, hl, ?_⟩
    rw [foldMembers, List.singleton_append, nextKey_closeObject hl]
  | @cons s s' s'' key j ms hj _ ih =>
    obtain ⟨k, fuel, rfl⟩ := List.exists_cons_of_length_pos (Nat.zero_lt_of_lt hfuel)
    obtain ⟨next, as, bs, has, hbs, hnext, hkey⟩ := nextKey_members hls rest finish depth
    have hread := hj as (bs ++ rest) finish has
    obtain ⟨l, hl, hrest⟩ := ih hbs (Nat.lt_of_succ_lt_succ hfuel)
    refine ⟨l, hl, ?_⟩
    rw [foldMembers, hnext]
    simp only [hkey, hread, hrest]

theorem length_lt_memberTokens (isFirst : Bool) (ms : List (String × Json)) :
    ms.length < (memberTokens isFirst ms).length := by
  induction ms generalizing isFirst with
  | nil =>
    rw [memberTokens]
    exact Nat.one_pos
  | cons m ms ih =>
    have hrest := ih false
    cases isFirst with
    | true =>
      simp only [memberTokens, List.length_cons, List.length_append]
      omega
    | false =>
      simp only [memberTokens, List.length_cons, List.length_append]
      omega

theorem readObject_eq {σ : Type} {member : σ → String → Read σ} {depth : Nat}
    (hdepth : 0 < depth) {init s : σ} {ms : List (String × Json)}
    (h : Folds member depth init ms s) {close : σ → Except Fault α} {a : α}
    (hclose : close s = .ok a) {ls : List Lexeme}
    (hls : ls.map Lexeme.token = memberTokens true ms) (lexemes : List Lexeme) (l : Lexeme)
    (rest : List Lexeme) (finish : Place) :
    readObject member init close ⟨lexemes, finish, depth + 1⟩ l (ls ++ rest) =
      .ok (a, ⟨rest, finish, depth + 1⟩) := by
  have hfuel : ms.length < (l :: (ls ++ rest)).length := by
    have hlength := length_lt_memberTokens true ms
    rw [← hls, List.length_map] at hlength
    rw [List.length_cons, List.length_append]
    omega
  obtain ⟨k, -, hmembers⟩ := foldMembers_eq h hls hfuel rest finish
  simp only [readObject, enter_eq hdepth, hmembers, hclose, Read.placed, Except.mapError,
    leaveObject, List.drop_one, List.tail_cons]

theorem readColon_eq {as : List Lexeme} {j : Json} (has : as.map Lexeme.token = valueTokens j)
    (rest : List Lexeme) (finish : Place) (depth : Nat) :
    ∃ bs, bs.map Lexeme.token = j.tokens ∧
      readColon ⟨as ++ rest, finish, depth⟩ = .ok ⟨bs ++ rest, finish, depth⟩ := by
  obtain ⟨l, bs, rfl, hl, hbs⟩ := List.map_eq_cons_iff.mp has
  exact ⟨bs, hbs, by simp only [readColon, List.cons_append, hl, drop]⟩

/-! ## Values of any shape -/

/-- The members of an object of any shape: the last one is put on top. -/
theorem folds_readAny {fuel depth : Nat} {ms : List (String × Json)}
    (h : ∀ m ∈ ms, Reads (readAny fuel) depth m.2.tokens m.2) (found : List (String × Json)) :
    Folds (fun found key c ↦
      match c.readColon with
      | .error m => .error m
      | .ok c =>
        match readAny fuel c with
        | .error m => .error m
        | .ok (v, c) => .ok ((key, v) :: found, c)) depth found ms (ms.reverse ++ found) := by
  induction ms generalizing found with
  | nil => exact .nil found
  | cons m ms ih =>
    obtain ⟨hm, hms⟩ := List.forall_mem_cons.mp h
    rw [List.reverse_cons, List.append_assoc]
    refine .cons (fun as rest finish has ↦ ?_) (ih hms (m :: found))
    obtain ⟨bs, hbs, hcolon⟩ := readColon_eq has rest finish depth
    simp only [hcolon, hm bs rest finish hbs]

/-- **A value of any shape is read off its tokens**, if it is not too deep. -/
theorem reads_readAny {fuel depth : Nat} {j : Json} (hfuel : j.height < fuel)
    (hdepth : j.height < depth) : Reads (readAny fuel) depth j.tokens j := by
  -- A list or an object takes one off the fuel and one off the depth for what it contains.
  induction fuel generalizing depth j with
  | zero => exact absurd hfuel (Nat.not_lt_zero _)
  | succ fuel ih =>
    intro ls rest finish hls
    cases j with
    | null | boolean | number | string =>
      rw [tokens] at hls
      obtain ⟨l, rfl, hl⟩ := List.map_eq_singleton_iff.mp hls
      simp only [readAny, List.singleton_append, hl, drop]
    | array items =>
      rw [tokens] at hls
      obtain ⟨l, ls, rfl, hl, hls⟩ := List.map_eq_cons_iff.mp hls
      rw [height] at hfuel hdepth
      obtain ⟨depth, rfl⟩ := Nat.exists_eq_add_one_of_ne_zero (Nat.ne_zero_of_lt hdepth)
      have hitems : List.Forall₂ (fun j a ↦ Reads (readAny fuel) depth j.tokens a) items items := by
        refine List.forall₂_same.mpr fun j hj ↦ ih ?_ ?_
        · exact Nat.lt_of_le_of_lt (height_le_of_mem hj) (Nat.lt_of_succ_lt_succ hfuel)
        · exact Nat.lt_of_le_of_lt (height_le_of_mem hj) (Nat.lt_of_succ_lt_succ hdepth)
      have hpos : 0 < depth := Nat.zero_lt_of_lt (Nat.lt_of_succ_lt_succ hdepth)
      simp only [readAny, List.cons_append, hl, readList_eq hpos hitems hls]
      rfl
    | object members =>
      rw [tokens] at hls
      obtain ⟨l, ls, rfl, hl, hls⟩ := List.map_eq_cons_iff.mp hls
      rw [height] at hfuel hdepth
      obtain ⟨depth, rfl⟩ := Nat.exists_eq_add_one_of_ne_zero (Nat.ne_zero_of_lt hdepth)
      have hmembers : ∀ m ∈ members, Reads (readAny fuel) depth m.2.tokens m.2 := by
        intro m hm
        refine ih ?_ ?_
        · exact Nat.lt_of_le_of_lt (height_le_of_mem_members hm) (Nat.lt_of_succ_lt_succ hfuel)
        · exact Nat.lt_of_le_of_lt (height_le_of_mem_members hm) (Nat.lt_of_succ_lt_succ hdepth)
      have hpos : 0 < depth := Nat.zero_lt_of_lt (Nat.lt_of_succ_lt_succ hdepth)
      simp only [readAny, List.cons_append, hl]
      refine readObject_eq hpos (folds_readAny hmembers []) ?_ hls _ _ _ _
      rw [List.append_nil, List.reverse_reverse]

/-! ## Skipping -/

/-- Where skipping goes on after a value, inside some containers. -/
def afterValue (c : Cursor) (frames : List Frame) (rest : List Lexeme) : Except Misread Cursor :=
  if frames.isEmpty then .ok (c.drop rest) else c.skip frames .separator rest

section

variable {c : Cursor} {frames : List Frame} {expecting : Expecting} {l : Lexeme}

theorem skip_of_some {frames' : List Frame} {expecting' : Expecting}
    (h : c.skipStep frames expecting l = .ok (some (frames', expecting'))) (rest : List Lexeme) :
    c.skip frames expecting (l :: rest) = c.skip frames' expecting' rest := by
  rw [skip, h]

/-- A lexeme that is all of a value, or the end of one. -/
theorem skip_of_over {frames' : List Frame}
    (h : c.skipStep frames expecting l =
      .ok (if frames'.isEmpty then none else some (frames', .separator))) (rest : List Lexeme) :
    c.skip frames expecting (l :: rest) = c.afterValue frames' rest := by
  rw [skip, h, afterValue]
  cases frames'.isEmpty with
  | true => rfl
  | false => rfl

theorem skipStep_first (hl : l.token ≠ .closeArray) :
    c.skipStep (.list :: frames) .first l = c.skipStep (.list :: frames) .value l := by
  obtain ⟨token, before, seen, after⟩ := l
  cases token with
  | closeArray => exact absurd rfl hl
  | openObject | closeObject | openArray | comma | colon | string | number | word | stray => rfl

end

mutual

/-- **A value of any shape is skipped by its tokens.** -/
theorem skip_value (c : Cursor) (frames : List Frame) (rest : List Lexeme) :
    ∀ (j : Json) (ls : List Lexeme), ls.map Lexeme.token = j.tokens →
      c.skip frames .value (ls ++ rest) = c.afterValue frames rest
  | .null, ls, hls | .boolean b, ls, hls | .number n, ls, hls | .string s, ls, hls => by
    rw [tokens] at hls
    obtain ⟨l, rfl, hl⟩ := List.map_eq_singleton_iff.mp hls
    exact skip_of_over (by simp only [skipStep, hl]) rest
  | .array items, ls, hls => by
    rw [tokens] at hls
    obtain ⟨l, ls, rfl, hl, hls⟩ := List.map_eq_cons_iff.mp hls
    have hopen : c.skipStep frames .value l = .ok (some (.list :: frames, .first)) := by
      simp only [skipStep, hl]
    rw [List.cons_append, skip_of_some hopen]
    exact skip_items c frames rest true items ls hls
  | .object members, ls, hls => by
    rw [tokens] at hls
    obtain ⟨l, ls, rfl, hl, hls⟩ := List.map_eq_cons_iff.mp hls
    have hopen : c.skipStep frames .value l = .ok (some (.object :: frames, .first)) := by
      simp only [skipStep, hl]
    rw [List.cons_append, skip_of_some hopen]
    exact skip_members c frames rest true members ls hls

theorem skip_items (c : Cursor) (frames : List Frame) (rest : List Lexeme) :
    ∀ (isFirst : Bool) (js : List Json) (ls : List Lexeme),
      ls.map Lexeme.token = itemTokens isFirst js →
      c.skip (.list :: frames) (if isFirst then .first else .separator) (ls ++ rest) =
        c.afterValue frames rest
  | isFirst, [], ls, hls => by
    rw [itemTokens] at hls
    obtain ⟨l, rfl, hl⟩ := List.map_eq_singleton_iff.mp hls
    cases isFirst with
    | true => exact skip_of_over (by simp only [if_true, skipStep, hl]) rest
    | false => exact skip_of_over (by simp [skipStep, hl]) rest
  | true, j :: js, ls, hls => by
    rw [itemTokens] at hls
    obtain ⟨as, bs, rfl, has, hbs⟩ := List.map_eq_append_iff.mp hls
    obtain ⟨t, ts, hj, ht⟩ := exists_first_token j
    have hvalue := skip_value c (.list :: frames) (bs ++ rest) j as has
    obtain ⟨a, as, rfl, ha, -⟩ := List.map_eq_cons_iff.mp (has.trans hj)
    -- Where a list may end at once, a value is skipped as anywhere else.
    have hfirst : c.skip (.list :: frames) .first (a :: (as ++ (bs ++ rest))) =
        c.skip (.list :: frames) .value (a :: (as ++ (bs ++ rest))) := by
      rw [skip, skip, skipStep_first (ha ▸ ht)]
    rw [List.append_assoc]
    exact hfirst.trans (hvalue.trans (skip_items c frames rest false js bs hbs))
  | false, j :: js, ls, hls => by
    rw [itemTokens] at hls
    obtain ⟨l, ls, rfl, hl, hls⟩ := List.map_eq_cons_iff.mp hls
    obtain ⟨as, bs, rfl, has, hbs⟩ := List.map_eq_append_iff.mp hls
    have hcomma : c.skipStep (.list :: frames) .separator l =
        .ok (some (.list :: frames, .value)) := by
      simp only [skipStep, hl]
    have hvalue := skip_value c (.list :: frames) (bs ++ rest) j as has
    rw [List.cons_append, List.append_assoc]
    exact (skip_of_some hcomma _).trans (hvalue.trans (skip_items c frames rest false js bs hbs))

theorem skip_members (c : Cursor) (frames : List Frame) (rest : List Lexeme) :
    ∀ (isFirst : Bool) (ms : List (String × Json)) (ls : List Lexeme),
      ls.map Lexeme.token = memberTokens isFirst ms →
      c.skip (.object :: frames) (if isFirst then .first else .separator) (ls ++ rest) =
        c.afterValue frames rest
  | isFirst, [], ls, hls => by
    rw [memberTokens] at hls
    obtain ⟨l, rfl, hl⟩ := List.map_eq_singleton_iff.mp hls
    cases isFirst with
    | true => exact skip_of_over (by simp only [if_true, skipStep, hl]) rest
    | false => exact skip_of_over (by simp [skipStep, hl]) rest
  | true, (key, j) :: ms, ls, hls => by
    rw [memberTokens] at hls
    obtain ⟨k, ls, rfl, hk, hls⟩ := List.map_eq_cons_iff.mp hls
    obtain ⟨l, ls, rfl, hl, hls⟩ := List.map_eq_cons_iff.mp hls
    obtain ⟨as, bs, rfl, has, hbs⟩ := List.map_eq_append_iff.mp hls
    have hkey : c.skipStep (.object :: frames) .first k =
        .ok (some (.object :: frames, .colon)) := by
      simp only [skipStep, hk]
    have hcolon : c.skipStep (.object :: frames) .colon l =
        .ok (some (.object :: frames, .value)) := by
      simp only [skipStep, hl]
    have hvalue := skip_value c (.object :: frames) (bs ++ rest) j as has
    rw [List.cons_append, List.cons_append, List.append_assoc]
    exact (skip_of_some hkey _).trans ((skip_of_some hcolon _).trans
      (hvalue.trans (skip_members c frames rest false ms bs hbs)))
  | false, (key, j) :: ms, ls, hls => by
    rw [memberTokens] at hls
    obtain ⟨m, ls, rfl, hm, hls⟩ := List.map_eq_cons_iff.mp hls
    obtain ⟨k, ls, rfl, hk, hls⟩ := List.map_eq_cons_iff.mp hls
    obtain ⟨l, ls, rfl, hl, hls⟩ := List.map_eq_cons_iff.mp hls
    obtain ⟨as, bs, rfl, has, hbs⟩ := List.map_eq_append_iff.mp hls
    have hcomma : c.skipStep (.object :: frames) .separator m =
        .ok (some (.object :: frames, .key)) := by
      simp only [skipStep, hm]
    have hkey : c.skipStep (.object :: frames) .key k = .ok (some (.object :: frames, .colon)) := by
      simp only [skipStep, hk]
    have hcolon : c.skipStep (.object :: frames) .colon l =
        .ok (some (.object :: frames, .value)) := by
      simp only [skipStep, hl]
    have hvalue := skip_value c (.object :: frames) (bs ++ rest) j as has
    rw [List.cons_append, List.cons_append, List.cons_append, List.append_assoc]
    exact (skip_of_some hcomma _).trans ((skip_of_some hkey _).trans
      ((skip_of_some hcolon _).trans (hvalue.trans (skip_members c frames rest false ms bs hbs))))

end

theorem skipValue_eq {as : List Lexeme} {j : Json} (has : as.map Lexeme.token = j.tokens)
    (rest : List Lexeme) (finish : Place) (depth : Nat) :
    skipValue ⟨as ++ rest, finish, depth⟩ = .ok ⟨rest, finish, depth⟩ :=
  skip_value _ [] rest j as has

end Cursor

end Redirector.Json
