import Redirector.Proofs.Json.Spelled

/-!
# The two ways of a decoder agree

A decoder reads from a text and from a value that has been read before. Whatever it makes of a
stored value, it makes of the tokens of that value, too (`Decoder.Agrees`), as long as the value is
not nested too deep. Each way of putting decoders together keeps this, so that for a decoder of some
format there is nothing to look at but its scalars.
-/

namespace Redirector.Json.Decoder

open Text (Place)

variable {α β δ : Type}

/-- What a decoder makes of a stored value, it reads off its tokens. -/
def Agrees (d : Decoder α) : Prop :=
  ∀ ⦃j : Json⦄ ⦃a : α⦄ ⦃depth : Nat⦄, d.ofJson .stored j = .ok a → j.height < depth →
    Reads d.read depth j.tokens a

theorem exists_of_map_eq_ok {ε : Type} {x : Except ε α} {f : α → β} {b : β}
    (h : x.map f = .ok b) : ∃ a, x = .ok a ∧ f a = b := by
  cases x with
  | error e => cases h
  | ok a => exact ⟨a, rfl, Except.ok.inj h⟩

theorem ofJson_map {d : Decoder α} {source : Source} {j : Json} {a : α}
    (h : d.ofJson source j = .ok a) (f : α → β) : (d.map f).ofJson source j = .ok (f a) := by
  simp only [Decoder.map, h]
  rfl

theorem Agrees.map {d : Decoder α} (hd : d.Agrees) (f : α → β) : (d.map f).Agrees := by
  intro j b depth h hdepth ls rest finish hls
  obtain ⟨a, ha, rfl⟩ := exists_of_map_eq_ok h
  simp only [Decoder.map, hd ha hdepth ls rest finish hls]
  rfl

/-! ## Scalars -/

theorem agrees_scalar (expected : String) {take : Json → Option (Except Cause α)}
    (harray : ∀ items, take (.array items) = none)
    (hobject : ∀ members, take (.object members) = none) : (scalar expected take).Agrees := by
  intro j a depth h hdepth ls rest finish hls
  have htake : take j = some (.ok a) := by
    simp only [scalar] at h
    split at h
    · rename_i b hb
      rw [hb, Except.ok.inj h]
    · cases h
    · cases h
  cases j with
  | null | boolean | number | string =>
    rw [tokens] at hls
    obtain ⟨l, rfl, hl⟩ := List.map_eq_singleton_iff.mp hls
    simp only [scalar, List.singleton_append, hl, htake, Cursor.drop]
  | array items => rw [harray] at htake; cases htake
  | object members => rw [hobject] at htake; cases htake

theorem agrees_string : string.Agrees := agrees_scalar _ (fun _ ↦ rfl) fun _ ↦ rfl

theorem agrees_boolean : boolean.Agrees := agrees_scalar _ (fun _ ↦ rfl) fun _ ↦ rfl

theorem agrees_word32 : word32.Agrees := agrees_scalar _ (fun _ ↦ rfl) fun _ ↦ rfl

theorem agrees_unit : unit.Agrees := agrees_scalar _ (fun _ ↦ rfl) fun _ ↦ rfl

theorem agrees_name (expected : String) (names : List (String × α)) :
    (name expected names).Agrees := agrees_scalar _ (fun _ ↦ rfl) fun _ ↦ rfl

/-! ## Options and lists -/

theorem Agrees.optional {d : Decoder α} (hd : d.Agrees) : (optional d).Agrees := by
  intro j a depth h hdepth ls rest finish hls
  cases j with
  | null =>
    rw [tokens] at hls
    obtain ⟨l, rfl, hl⟩ := List.map_eq_singleton_iff.mp hls
    rw [← Except.ok.inj h]
    simp only [Decoder.optional, List.singleton_append, hl, Cursor.drop]
  | boolean | number | string | array | object =>
    obtain ⟨b, hb, rfl⟩ := exists_of_map_eq_ok h
    have hread := hd hb hdepth ls rest finish hls
    rw [tokens] at hls
    obtain ⟨l, ls, rfl, hl, -⟩ := List.map_eq_cons_iff.mp hls
    simp only [Decoder.optional, List.cons_append, hl] at hread ⊢
    rw [hread]
    rfl

theorem Agrees.items {d : Decoder α} (hd : d.Agrees) {depth index : Nat} {js : List Json}
    {as : List α} (h : itemsOf (d.ofJson .stored) index js = .ok as)
    (hdepth : heightOfItems js < depth) :
    List.Forall₂ (fun j a ↦ Reads d.read depth j.tokens a) js as := by
  induction js generalizing index as with
  | nil =>
    rw [← Except.ok.inj h]
    exact .nil
  | cons j js ih =>
    rw [heightOfItems] at hdepth
    obtain ⟨hj, hjs⟩ := Nat.max_lt.mp hdepth
    rw [itemsOf] at h
    cases hfirst : d.ofJson .stored j with
    | error e => rw [hfirst] at h; cases h
    | ok a =>
      rw [hfirst] at h
      obtain ⟨as, has, rfl⟩ := exists_of_map_eq_ok h
      exact .cons (hd hfirst hj) (ih has hjs)

theorem itemsOf_map {f : Json → Except Fault α} {encode : α → Json}
    (h : ∀ a, f (encode a) = .ok a) (index : Nat) (as : List α) :
    itemsOf f index (as.map encode) = .ok as := by
  induction as generalizing index with
  | nil => rfl
  | cons a as ih =>
    rw [List.map_cons, itemsOf, h]
    dsimp only
    rw [ih]
    rfl

/-- A list or an object that is not too deep can be entered, and its content is not too deep. -/
theorem exists_inner_depth {n depth : Nat} (h : n + 1 < depth) :
    ∃ inner, depth = inner + 1 ∧ 0 < inner ∧ n < inner := by
  obtain ⟨inner, rfl⟩ := Nat.exists_eq_add_one_of_ne_zero (Nat.ne_zero_of_lt h)
  have hinner := Nat.lt_of_succ_lt_succ h
  exact ⟨inner, rfl, Nat.zero_lt_of_lt hinner, hinner⟩

theorem Agrees.list {d : Decoder α} (hd : d.Agrees) : (list d).Agrees := by
  intro j as depth h hdepth ls rest finish hls
  cases j with
  | null | boolean | number | string | object => cases h
  | array items =>
    rw [tokens] at hls
    obtain ⟨l, ls, rfl, hl, hls⟩ := List.map_eq_cons_iff.mp hls
    obtain ⟨depth, rfl, hpos, hdepth⟩ := exists_inner_depth hdepth
    simp only [Decoder.list, List.cons_append, hl]
    exact Cursor.readList_eq hpos (hd.items h hdepth) hls _ _ _ _

/-! ## Records -/

namespace Record

theorem ofMembers_field {r : Record δ α} {source : Source} {key : String} {f : Field δ} {s : δ}
    {j : Json} {g : δ → δ} (hfind : r.fields.find? (·.name = key) = some f)
    (hfree : f.isFilled s = false) (hvalue : f.value.ofJson source j = .ok g)
    (rest : List (String × Json)) :
    r.ofMembers source ((key, j) :: rest) s = r.ofMembers source rest (g s) := by
  rw [ofMembers, hfind]
  simp only [hfree, hvalue]
  rfl

theorem ofJson_object {r : Record δ α} {source : Source} {members : List (String × Json)} {s : δ}
    {a : α} (hmembers : r.ofMembers source members r.draft = .ok s) (hclose : r.close s = .ok a) :
    r.decoder.ofJson source (.object members) = .ok a := by
  simp only [Record.decoder, hmembers, hclose]

/-- The fields of a record agree. -/
def Agrees (r : Record δ α) : Prop := ∀ f ∈ r.fields, f.value.Agrees

variable {r : Record δ α}

theorem Agrees.folds (hr : r.Agrees) {depth : Nat} {ms : List (String × Json)} {s s' : δ}
    (h : r.ofMembers .stored ms s = .ok s') (hdepth : heightOfMembers ms < depth) :
    Cursor.Folds r.readMember depth s ms s' := by
  induction ms generalizing s with
  | nil =>
    rw [← Except.ok.inj h]
    exact .nil s
  | cons m ms ih =>
    obtain ⟨key, j⟩ := m
    rw [heightOfMembers] at hdepth
    obtain ⟨hj, hms⟩ := Nat.max_lt.mp hdepth
    rw [ofMembers] at h
    cases hfind : r.fields.find? (·.name = key) with
    | none =>
      simp only [hfind] at h
      refine .cons (fun as rest finish has ↦ ?_) (ih h hms)
      obtain ⟨bs, hbs, hcolon⟩ := Cursor.readColon_eq has rest finish depth
      simp only [readMember, hfind, hcolon, Cursor.skipValue_eq hbs]
      rfl
    | some f =>
      simp only [hfind] at h
      split_ifs at h with hfilled
      cases hvalue : f.value.ofJson .stored j with
      | error e => rw [hvalue] at h; cases h
      | ok g =>
        rw [hvalue] at h
        refine .cons (fun as rest finish has ↦ ?_) (ih h hms)
        obtain ⟨bs, hbs, hcolon⟩ := Cursor.readColon_eq has rest finish depth
        have hread := hr f (List.mem_of_find?_eq_some hfind) hvalue hj bs rest finish hbs
        simp only [readMember, hfind, hfilled, hcolon, hread]
        rfl

theorem Agrees.readFields (hr : r.Agrees) {depth index : Nat} {fs : List (Field δ)}
    (hfs : fs ⊆ r.fields) {js : List Json} {s s' : δ}
    (h : r.ofItems .stored index fs js s = .ok (s', [])) (hdepth : heightOfItems js < depth)
    {ls : List Lexeme} (hls : ls.map Lexeme.token = itemTokens (index = 0) js)
    (rest : List Lexeme) (finish : Place) :
    ∃ l, l.token = .closeArray ∧ r.readFields index fs s ⟨ls ++ rest, finish, depth⟩ =
      .ok (s', ⟨l :: rest, finish, depth⟩) := by
  induction fs generalizing index js s ls with
  | nil =>
    obtain ⟨rfl, rfl⟩ := Prod.mk.inj (Except.ok.inj h)
    rw [itemTokens] at hls
    obtain ⟨l, rfl, hl⟩ := List.map_eq_singleton_iff.mp hls
    exact ⟨l, hl, rfl⟩
  | cons f fs ih =>
    obtain ⟨hf, hfs⟩ := List.cons_subset.mp hfs
    cases js with
    | nil =>
      rw [ofItems] at h
      split_ifs at h with hrequired
      rw [itemTokens] at hls
      obtain ⟨l, rfl, hl⟩ := List.map_eq_singleton_iff.mp hls
      have hend : [l].map Lexeme.token = itemTokens (index + 1 = 0) [] := by
        rw [itemTokens, List.map_singleton, hl]
      obtain ⟨k, hk, hrest⟩ := ih hfs h hdepth hend
      refine ⟨k, hk, ?_⟩
      rw [Record.readFields, List.singleton_append, Cursor.nextItem_closeArray hl]
      dsimp only
      rw [if_neg hrequired]
      exact hrest
    | cons j js =>
      rw [heightOfItems] at hdepth
      obtain ⟨hj, hjs⟩ := Nat.max_lt.mp hdepth
      rw [ofItems] at h
      cases hvalue : f.value.ofJson .stored j with
      | error e => rw [hvalue] at h; cases h
      | ok g =>
        rw [hvalue] at h
        obtain ⟨as, bs, has, hbs, hnext⟩ := Cursor.nextItem_items hls rest finish depth
        obtain ⟨k, hk, hrest⟩ := ih hfs h hjs hbs
        have hread := hr f hf hvalue hj as (bs ++ rest) finish has
        refine ⟨k, hk, ?_⟩
        rw [Record.readFields, hnext]
        simp only [hread, Read.under, Except.mapError, hrest]

theorem Agrees.decoder (hr : r.Agrees) : r.decoder.Agrees := by
  intro j a depth h hdepth ls rest finish hls
  cases j with
  | null | boolean | number | string => cases h
  | array items =>
    rw [tokens] at hls
    obtain ⟨l, ls, rfl, hl, hls⟩ := List.map_eq_cons_iff.mp hls
    obtain ⟨depth, rfl, hpos, hdepth⟩ := exists_inner_depth hdepth
    simp only [Record.decoder] at h
    cases hitems : r.ofItems .stored 0 r.fields items r.draft with
    | error e => rw [hitems] at h; cases h
    | ok result =>
      obtain ⟨s, _ | ⟨k, ks⟩⟩ := result
      · rw [hitems] at h
        obtain ⟨k, hk, hread⟩ := hr.readFields (List.Subset.refl _) hitems hdepth hls rest finish
        simp only [Record.decoder, List.cons_append, hl, Record.readList, Cursor.enter_eq hpos,
          hread, Cursor.leaveList_closeArray hk, h, Read.placed, Except.mapError]
      · rw [hitems] at h
        cases h
  | object members =>
    rw [tokens] at hls
    obtain ⟨l, ls, rfl, hl, hls⟩ := List.map_eq_cons_iff.mp hls
    obtain ⟨depth, rfl, hpos, hdepth⟩ := exists_inner_depth hdepth
    simp only [Record.decoder] at h
    cases hmembers : r.ofMembers .stored members r.draft with
    | error e => rw [hmembers] at h; cases h
    | ok s =>
      rw [hmembers] at h
      simp only [Record.decoder, List.cons_append, hl]
      exact Cursor.readObject_eq hpos (hr.folds hmembers hdepth) h hls _ _ _ _

end Record

/-! ## Enumerations -/

theorem agrees_enumeration (names : List (String × α)) : (enumeration names).Agrees := by
  have hname := agrees_name "variant identifier" names
  intro j a depth h hdepth ls rest finish hls
  cases j with
  | null | boolean | number | array => cases h
  | string s =>
    have hvariant : (name "variant identifier" names).ofJson .stored (.string s) = .ok a := h
    have hread := hname hvariant hdepth ls rest finish hls
    rw [tokens] at hls
    obtain ⟨l, rfl, hl⟩ := List.map_eq_singleton_iff.mp hls
    simpa only [enumeration, List.singleton_append, hl] using hread
  | object members =>
    obtain _ | ⟨⟨key, value⟩, _ | ⟨m, ms⟩⟩ := members
    · cases h
    · simp only [enumeration] at h
      cases hvariant : (name "variant identifier" names).ofJson .stored (.string key) with
      | error e => rw [hvariant] at h; cases h
      | ok b =>
        simp only [hvariant] at h
        obtain ⟨u, hu, rfl⟩ := exists_of_map_eq_ok h
        rw [tokens, memberTokens] at hls
        obtain ⟨l, ls, rfl, hl, hls⟩ := List.map_eq_cons_iff.mp hls
        obtain ⟨k, ls, rfl, hk, hls⟩ := List.map_eq_cons_iff.mp hls
        have hsplit : ls.map Lexeme.token = Cursor.valueTokens value ++ memberTokens false [] := hls
        obtain ⟨as, bs, rfl, has, hbs⟩ := List.map_eq_append_iff.mp hsplit
        rw [memberTokens] at hbs
        obtain ⟨m, rfl, hm⟩ := List.map_eq_singleton_iff.mp hbs
        obtain ⟨depth, rfl, hpos, hdepth⟩ := exists_inner_depth hdepth
        have hvalue : value.height < depth := by simpa [heightOfMembers] using hdepth
        have hkey := hname hvariant hpos [k] (as ++ (m :: rest)) finish (by rw [tokens, ← hk]; rfl)
        obtain ⟨cs, hcs, hcolon⟩ := Cursor.readColon_eq has (m :: rest) finish depth
        have hunit := agrees_unit hu hvalue cs (m :: rest) finish hcs
        simp only [enumeration, List.cons_append, List.append_assoc, List.nil_append, hl,
          Cursor.enter_eq hpos, enumeration.variantKey] at hkey ⊢
        simp only [hkey, hcolon, hunit, Except.map, hm, Cursor.drop]
    · cases h

/-! ## Tagged unions -/

namespace Tagged

variable {t : Tagged α}

theorem folds {depth : Nat} {ms : List (String × Json)} {s s' : Draft α}
    (h : decoder.tagMembers t .stored ms s = .ok s') (hdepth : heightOfMembers ms < depth) :
    Cursor.Folds t.readMember depth s ms s' := by
  induction ms generalizing s with
  | nil =>
    rw [← Except.ok.inj h]
    exact .nil s
  | cons m ms ih =>
    obtain ⟨key, j⟩ := m
    rw [heightOfMembers] at hdepth
    obtain ⟨hj, hms⟩ := Nat.max_lt.mp hdepth
    rw [decoder.tagMembers] at h
    split_ifs at h with hkey hfilled
    · cases hvalue : t.variant.ofJson .stored j with
      | error e => rw [hvalue] at h; cases h
      | ok d =>
        rw [hvalue] at h
        refine .cons (fun as rest finish has ↦ ?_) (ih h hms)
        obtain ⟨bs, hbs, hcolon⟩ := Cursor.readColon_eq has rest finish depth
        have hread := agrees_name _ _ hvalue hj bs rest finish hbs
        simp only [readMember, hkey, hfilled, hcolon, variant, hread]
        rfl
    · refine .cons (fun as rest finish has ↦ ?_) (ih h hms)
      obtain ⟨bs, hbs, hcolon⟩ := Cursor.readColon_eq has rest finish depth
      have hread := Cursor.reads_readAny hj hj bs rest finish hbs
      simp only [readMember, hkey, hcolon, hread]
      rfl

/-- A union that is written as a list. -/
theorem reads_array {items : List Json} {a : α} {depth : Nat}
    (h : t.decoder.ofJson .stored (.array items) = .ok a)
    (hdepth : (Json.array items).height < depth) :
    Reads t.decoder.read depth (Json.array items).tokens a := by
  intro ls rest finish hls
  rw [tokens] at hls
  obtain ⟨l, ls, rfl, hl, hls⟩ := List.map_eq_cons_iff.mp hls
  obtain ⟨depth, rfl, hpos, hdepth⟩ := exists_inner_depth hdepth
  cases items with
  | nil => cases h
  | cons tag items =>
    rw [heightOfItems] at hdepth
    obtain ⟨htag, hitems⟩ := Nat.max_lt.mp hdepth
    simp only [Tagged.decoder] at h
    cases hvariant : t.variant.ofJson .stored tag with
    | error e => rw [hvariant] at h; cases h
    | ok d =>
      simp only [hvariant] at h
      obtain ⟨as, bs, has, hbs, hnext⟩ := Cursor.nextItem_items hls rest finish depth
      have hread := agrees_name _ _ hvariant htag as (bs ++ rest) finish has
      have hfuel : items.length < (l :: (ls ++ rest)).length := by
        have hlength := Cursor.length_lt_itemTokens true (tag :: items)
        rw [← hls, List.length_map, List.length_cons] at hlength
        rw [List.length_cons, List.length_append]
        omega
      have hany : List.Forall₂ (fun j a ↦ Reads (fun c ↦ c.readAny c.depth) depth j.tokens a)
          items items := by
        refine List.forall₂_same.mpr fun j hj ls rest finish hls ↦ ?_
        have hj := Nat.lt_of_le_of_lt (height_le_of_mem hj) hitems
        exact Cursor.reads_readAny hj hj ls rest finish hls
      obtain ⟨k, hk, hrest⟩ := Cursor.readItems_eq hany 1 hbs hfuel [] rest finish
      simp only [Tagged.decoder, List.cons_append, hl, readList, Cursor.enter_eq hpos, hnext,
        variant, hread, hrest, Cursor.leaveList_closeArray hk, Read.placed, Except.mapError,
        decoder.decodeRest, List.reverse_nil, List.nil_append, h]

/-- A union that is written as an object. -/
theorem reads_object {members : List (String × Json)} {a : α} {depth : Nat}
    (h : t.decoder.ofJson .stored (.object members) = .ok a)
    (hdepth : (Json.object members).height < depth) :
    Reads t.decoder.read depth (Json.object members).tokens a := by
  intro ls rest finish hls
  rw [tokens] at hls
  obtain ⟨l, ls, rfl, hl, hls⟩ := List.map_eq_cons_iff.mp hls
  obtain ⟨depth, rfl, hpos, hdepth⟩ := exists_inner_depth hdepth
  simp only [Tagged.decoder] at h
  cases hmembers : decoder.tagMembers t .stored members (none, []) with
  | error e => rw [hmembers] at h; cases h
  | ok s =>
    simp only [hmembers] at h
    cases hclose : t.closeObject s with
    | error e => rw [hclose] at h; cases h
    | ok result =>
      obtain ⟨d, j⟩ := result
      simp only [hclose] at h
      have hread := Cursor.readObject_eq hpos (folds hmembers hdepth) hclose hls
        (l :: (ls ++ rest)) l rest finish
      simp only [Tagged.decoder, List.cons_append, hl, hread, decoder.decodeRest, h]

theorem agrees_decoder : t.decoder.Agrees := by
  intro j a depth h hdepth
  cases j with
  | null | boolean | number | string => cases h
  | array items => exact reads_array h hdepth
  | object members => exact reads_object h hdepth

end Tagged

/-! ## Values of any shape -/

theorem agrees_value : value.Agrees := by
  intro j a depth h hdepth ls rest finish hls
  have hread := Cursor.reads_readAny hdepth hdepth ls rest finish hls
  rw [← Except.ok.inj h]
  simp only [value, hread]
  rfl

theorem agrees_members : members.Agrees := by
  intro j a depth h hdepth ls rest finish hls
  cases j with
  | null | boolean | number | string | array => cases h
  | object ms =>
    have hread := Cursor.reads_readAny hdepth hdepth ls rest finish hls
    rw [tokens] at hls
    obtain ⟨l, ls, rfl, hl, -⟩ := List.map_eq_cons_iff.mp hls
    rw [← Except.ok.inj h]
    simp only [members, List.cons_append, hl] at hread ⊢
    rw [hread]
    rfl

end Redirector.Json.Decoder
