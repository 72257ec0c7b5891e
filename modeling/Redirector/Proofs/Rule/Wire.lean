import Redirector.Forwarding
import Redirector.Profile.Basic
import Redirector.Proofs.Json.Layout
import Redirector.Rule.Wire

/-!
# Rules are read back

Every rule that is written as JSON is read back as itself, whatever texts it contains and whichever
of its options are left out (`Rule.ofBytes_listToJson`). The decoders of all its parts are put
together from pieces that read a text as they read a value, so that it is enough to decode the value
that was written.
-/

namespace Redirector

open Json (Decoder Source)
open Json.Decoder (Field Record)

/-! ## Values -/

theorem ResourceType.ofJson_toJson (source : Source) (t : ResourceType) :
    decoder.ofJson source t.toJson = .ok t := by
  cases t with
  | mainFrame | subFrame | stylesheet | script | image | font | object | xmlHttpRequest | ping
  | cspReport | media | webSocket | other => rfl

theorem HeaderChange.ofJson_toJson (source : Source) (h : HeaderChange) :
    decoder.ofJson source h.toJson = .ok h := by
  obtain ⟨header, operation, value⟩ := h
  cases operation with
  | set =>
    cases value with
    | none => rfl
    | some value => rfl

namespace RuleAction

theorem ofJson_toJson (source : Source) (a : RuleAction) :
    decoder.ofJson source a.toJson = .ok a := by
  cases a with
  | redirect substitution => rfl
  | modifyHeaders changes =>
    have hlist : (Decoder.list HeaderChange.decoder).ofJson .aside
        (.array (changes.map HeaderChange.toJson)) = .ok changes :=
      Decoder.itemsOf_map (HeaderChange.ofJson_toJson .aside) 0 changes
    have hmembers : headersRecord.ofMembers .aside
        [("responseHeaders", .array (changes.map HeaderChange.toJson))] none =
          .ok (some changes) :=
      (Record.ofMembers_field rfl rfl (Decoder.ofJson_map hlist _) []).trans rfl
    exact Record.ofJson_object hmembers rfl

end RuleAction

namespace RuleCondition

theorem ofJson_toJson (source : Source) (c : RuleCondition) :
    decoder.ofJson source c.toJson = .ok c := by
  obtain ⟨regexFilter, urlFilter, resourceTypes⟩ := c
  have hlist : (Decoder.list ResourceType.decoder).ofJson source
      (.array (resourceTypes.map ResourceType.toJson)) = .ok resourceTypes :=
    Decoder.itemsOf_map (ResourceType.ofJson_toJson source) 0 resourceTypes
  have hlast (regex url : Option (Option String)) : record.ofMembers source
      [("resourceTypes", .array (resourceTypes.map ResourceType.toJson))] ⟨regex, url, none⟩ =
        .ok ⟨regex, url, some resourceTypes⟩ :=
    (Record.ofMembers_field rfl rfl (Decoder.ofJson_map hlist _) []).trans rfl
  cases regexFilter with
  | none =>
    cases urlFilter with
    | none => exact Record.ofJson_object (hlast none none) rfl
    | some url =>
      exact Record.ofJson_object (Eq.trans rfl (hlast none (some (some url)))) rfl
  | some regex =>
    cases urlFilter with
    | none => exact Record.ofJson_object (Eq.trans rfl (hlast (some (some regex)) none)) rfl
    | some url =>
      exact Record.ofJson_object (Eq.trans rfl (hlast (some (some regex)) (some (some url)))) rfl

end RuleCondition

theorem Json.Decoder.ofJson_word32 (source : Source) (n : UInt32) :
    word32.ofJson source (.number (.natural n.toNat)) = .ok n := by
  have hsize : n.toNat < UInt32.size := n.toNat_lt
  have hn : UInt32.ofNat n.toNat = n := UInt32.ofNat_toNat
  simp only [word32, scalar, hsize, if_true, hn]

namespace Rule

theorem ofJson_toJson (source : Source) (r : Rule) : decoder.ofJson source r.toJson = .ok r := by
  obtain ⟨id, priority, action, condition⟩ := r
  have hid := Decoder.ofJson_word32 source id
  have hpriority := Decoder.ofJson_word32 source priority
  have haction := action.ofJson_toJson source
  have hcondition := condition.ofJson_toJson source
  refine Record.ofJson_object (s := ⟨some id, some priority, some action, some condition⟩) ?_ rfl
  refine (Record.ofMembers_field rfl rfl (Decoder.ofJson_map hid _) _).trans ?_
  refine (Record.ofMembers_field rfl rfl (Decoder.ofJson_map hpriority _) _).trans ?_
  refine (Record.ofMembers_field rfl rfl (Decoder.ofJson_map haction _) _).trans ?_
  exact (Record.ofMembers_field rfl rfl (Decoder.ofJson_map hcondition _) []).trans rfl

theorem ofJson_listToJson (source : Source) (rs : List Rule) :
    (Decoder.list decoder).ofJson source (listToJson rs) = .ok rs :=
  Decoder.itemsOf_map (ofJson_toJson source) 0 rs

end Rule

/-! ## Values in key order -/

/-- Members that may be absent come in key order, whichever of them are there. -/
theorem sorted_presentMembers {keys : List String} (hkeys : keys.Pairwise (· < ·))
    {ms ns : List (String × Option Json)} (hns : ns.map Prod.fst = keys) (hperm : ms.Perm ns) :
    (presentMembers ms).sorted = presentMembers (ns.map fun m ↦ (m.1, m.2.map Json.sorted)) := by
  have hpresent : Sorted.IsSorted (ns.filterMap fun m ↦ m.2.map (m.1, ·)) := by
    refine List.Pairwise.filterMap _ ?_ (Sorted.isSorted_of_keys hkeys hns)
    intro m n hlt p hp q hq
    obtain ⟨j, -, rfl⟩ := Option.map_eq_some_iff.mp hp
    obtain ⟨k, -, rfl⟩ := Option.map_eq_some_iff.mp hq
    exact hlt
  rw [presentMembers, Json.sorted_object (hperm.filterMap _) hpresent, presentMembers,
    Json.sortedMembers_eq_map, List.map_filterMap, List.filterMap_map]
  congr 2
  funext m
  simp [Function.comp_def]

theorem HeaderChange.sorted_toJson (h : HeaderChange) : h.toJson.sorted = h.toJson := by
  have hkeys : ["header", "operation", "value"].Pairwise (· < ·) := by decide
  rw [toJson, sorted_presentMembers hkeys rfl (List.Perm.refl _)]
  obtain ⟨header, operation, value⟩ := h
  cases operation with
  | set => simp [HeaderOperation.toJson, Json.sorted, Function.comp_def]

theorem RuleAction.ofJson_sorted (source : Source) (a : RuleAction) :
    decoder.ofJson source a.toJson.sorted = .ok a := by
  cases a with
  | redirect substitution =>
    have hsorted : (redirect substitution).toJson.sorted = .object [
        ("redirect", .object [("regexSubstitution", .string substitution)]),
        ("type", .string "redirect")] := by
      have hkeys : ["redirect", "type"].Pairwise (· < ·) := by decide
      exact Json.sorted_object (List.Perm.swap _ _ []) (Sorted.isSorted_of_keys hkeys rfl)
    rw [hsorted]
    rfl
  | modifyHeaders changes =>
    have hsorted : (modifyHeaders changes).toJson.sorted = .object [
        ("responseHeaders", .array (changes.map HeaderChange.toJson)),
        ("type", .string "modifyHeaders")] := by
      have hkeys : ["responseHeaders", "type"].Pairwise (· < ·) := by decide
      have hchanges := Json.sorted_array_map_self HeaderChange.sorted_toJson changes
      refine (Json.sorted_object (List.Perm.swap _ _ [])
        (Sorted.isSorted_of_keys hkeys rfl)).trans ?_
      rw [Json.sortedMembers, hchanges]
      rfl
    rw [hsorted]
    -- The tag is taken out wherever it stands, and what is left does not depend on it.
    exact ofJson_toJson source (modifyHeaders changes)

theorem RuleCondition.ofJson_sorted (source : Source) (c : RuleCondition) :
    decoder.ofJson source c.toJson.sorted = .ok c := by
  obtain ⟨regexFilter, urlFilter, resourceTypes⟩ := c
  have hsorted : (toJson ⟨regexFilter, urlFilter, resourceTypes⟩).sorted = presentMembers [
      ("regexFilter", regexFilter.map .string),
      ("resourceTypes", some (.array (resourceTypes.map ResourceType.toJson))),
      ("urlFilter", urlFilter.map .string)] := by
    have hkeys : ["regexFilter", "resourceTypes", "urlFilter"].Pairwise (· < ·) := by decide
    rw [toJson, sorted_presentMembers hkeys rfl ((List.Perm.swap _ _ []).cons _)]
    simp only [List.map_cons, List.map_nil, Option.map_some, Option.map_map, Json.sorted_array_map]
    rfl
  have hlist : (Decoder.list ResourceType.decoder).ofJson source
      (.array (resourceTypes.map ResourceType.toJson)) = .ok resourceTypes :=
    Decoder.itemsOf_map (ResourceType.ofJson_toJson source) 0 resourceTypes
  have htypes (regex : Option (Option String)) (rest : List (String × Json)) :
      record.ofMembers source
        (("resourceTypes", .array (resourceTypes.map ResourceType.toJson)) :: rest)
        ⟨regex, none, none⟩ = record.ofMembers source rest ⟨regex, none, some resourceTypes⟩ :=
    (Record.ofMembers_field rfl rfl (Decoder.ofJson_map hlist _) rest).trans rfl
  rw [hsorted]
  cases regexFilter with
  | none =>
    cases urlFilter with
    | none => exact Record.ofJson_object ((htypes none []).trans rfl) rfl
    | some url =>
      exact Record.ofJson_object ((htypes none [("urlFilter", .string url)]).trans rfl) rfl
  | some regex =>
    cases urlFilter with
    | none =>
      exact Record.ofJson_object (Eq.trans rfl ((htypes (some (some regex)) []).trans rfl)) rfl
    | some url =>
      exact Record.ofJson_object
        (Eq.trans rfl ((htypes (some (some regex)) [("urlFilter", .string url)]).trans rfl)) rfl

theorem Rule.ofJson_sorted (source : Source) (r : Rule) :
    decoder.ofJson source r.toJson.sorted = .ok r := by
  obtain ⟨id, priority, action, condition⟩ := r
  have hsorted : (toJson ⟨id, priority, action, condition⟩).sorted = .object [
      ("action", action.toJson.sorted), ("condition", condition.toJson.sorted),
      ("id", .number (.natural id.toNat)), ("priority", .number (.natural priority.toNat))] := by
    have hkeys : ["action", "condition", "id", "priority"].Pairwise (· < ·) := by decide
    exact Json.sorted_object (@List.perm_append_comm _ [("id", _), ("priority", _)] [_, _])
      (Sorted.isSorted_of_keys hkeys rfl)
  have hid := Decoder.ofJson_word32 source id
  have hpriority := Decoder.ofJson_word32 source priority
  have haction := action.ofJson_sorted source
  have hcondition := condition.ofJson_sorted source
  rw [hsorted]
  refine Record.ofJson_object (s := ⟨some id, some priority, some action, some condition⟩) ?_ rfl
  refine (Record.ofMembers_field rfl rfl (Decoder.ofJson_map haction _) _).trans ?_
  refine (Record.ofMembers_field rfl rfl (Decoder.ofJson_map hcondition _) _).trans ?_
  refine (Record.ofMembers_field rfl rfl (Decoder.ofJson_map hid _) _).trans ?_
  exact (Record.ofMembers_field rfl rfl (Decoder.ofJson_map hpriority _) []).trans rfl

/-! ## Texts -/

theorem fits_presentMembers {n : Nat} {members : List (String × Option Json)}
    (h : ∀ m ∈ members, ∀ j ∈ m.2, Json.Fits n j) : Json.Fits (n + 1) (presentMembers members) := by
  refine Json.Fits.object fun m hm ↦ ?_
  obtain ⟨⟨key, j⟩, hmem, hj⟩ := List.mem_filterMap.mp hm
  obtain ⟨k, hk, rfl⟩ := Option.map_eq_some_iff.mp hj
  exact h _ hmem k hk

theorem HeaderChange.fits_toJson (h : HeaderChange) : Json.Fits 1 h.toJson := by
  have hoperation : Json.Fits 0 h.operation.toJson := by
    cases h.operation with
    | set => exact Json.Fits.string _
  refine fits_presentMembers ?_
  simp [Json.Fits.string, hoperation]

theorem RuleAction.fits_toJson (a : RuleAction) : Json.Fits 3 a.toJson := by
  cases a with
  | redirect substitution =>
    have htarget : Json.Fits 2 (.object [("regexSubstitution", .string substitution)]) :=
      Json.Fits.object (by simp [Json.Fits.string])
    refine Json.Fits.object ?_
    simp [Json.Fits.string, htarget]
  | modifyHeaders changes =>
    have hchanges : Json.Fits 2 (.array (changes.map HeaderChange.toJson)) := by
      refine Json.Fits.array fun j hj ↦ ?_
      obtain ⟨h, -, rfl⟩ := List.mem_map.mp hj
      exact h.fits_toJson
    refine Json.Fits.object ?_
    simp [Json.Fits.string, hchanges]

theorem RuleCondition.fits_toJson (c : RuleCondition) : Json.Fits 2 c.toJson := by
  have htypes : Json.Fits 1 (.array (c.resourceTypes.map ResourceType.toJson)) := by
    refine Json.Fits.array fun j hj ↦ ?_
    obtain ⟨t, -, rfl⟩ := List.mem_map.mp hj
    exact Json.Fits.string _
  refine fits_presentMembers ?_
  simp [Json.Fits.string, htypes]

theorem Json.Fits.word32 {n : Nat} (k : UInt32) : Json.Fits n (.number (.natural k.toNat)) :=
  .number (Nat.lt_trans k.toNat_lt (by decide))

namespace Rule

theorem fits_toJson (r : Rule) : Json.Fits 4 r.toJson := by
  have hcondition : Json.Fits 3 r.condition.toJson := r.condition.fits_toJson.mono (by decide)
  refine Json.Fits.object ?_
  simp [Json.Fits.word32, r.action.fits_toJson, hcondition]

theorem fits_listToJson (rs : List Rule) : Json.Fits 5 (listToJson rs) := by
  refine Json.Fits.array fun j hj ↦ ?_
  obtain ⟨r, -, rfl⟩ := List.mem_map.mp hj
  exact r.fits_toJson

theorem agrees_decoder : decoder.Agrees := by
  have hcondition : RuleCondition.decoder.Agrees := by
    refine Record.Agrees.decoder fun f hf ↦ ?_
    simp only [RuleCondition.record, List.mem_cons, List.not_mem_nil, or_false] at hf
    rcases hf with rfl | rfl | rfl
    · exact Decoder.agrees_string.optional.map _
    · exact Decoder.agrees_string.optional.map _
    · exact (Decoder.agrees_enumeration _).list.map _
  refine Record.Agrees.decoder fun f hf ↦ ?_
  simp only [record, List.mem_cons, List.not_mem_nil, or_false] at hf
  rcases hf with rfl | rfl | rfl | rfl
  · exact Decoder.agrees_word32.map _
  · exact Decoder.agrees_word32.map _
  · exact Decoder.Tagged.agrees_decoder.map _
  · exact hcondition.map _

/-- **Rules that were written are read back.** -/
theorem ofBytes_listToJson (rs : List Rule) :
    (Decoder.list decoder).ofBytes (listToJson rs).pretty.toUTF8 = .ok rs :=
  agrees_decoder.list.run_pretty (ofJson_listToJson .stored rs) (fits_listToJson rs) (by decide)
    false

end Rule

/-! ## Updates -/

namespace RuleUpdate

/-- An update is read off its members, however its rules are written. -/
theorem ofJson_members (source : Source) (u : RuleUpdate) {encode : Rule → Json}
    (hencode : ∀ r, Rule.decoder.ofJson source (encode r) = .ok r) :
    decoder.ofJson source (presentMembers [
      ("addRules", if u.add.isEmpty then none else some (.array (u.add.map encode))),
      ("removeRuleIds", if u.remove.isEmpty then none
        else some (.array (u.remove.map fun id ↦ .number (.natural id.toNat))))]) = .ok u := by
  obtain ⟨add, remove⟩ := u
  have hadd : (Decoder.list Rule.decoder).ofJson source (.array (add.map encode)) = .ok add :=
    Decoder.itemsOf_map hencode 0 add
  have hremove : (Decoder.list Decoder.word32).ofJson source
      (.array (remove.map fun id ↦ .number (.natural id.toNat))) = .ok remove :=
    Decoder.itemsOf_map (Decoder.ofJson_word32 source) 0 remove
  have hlast (s : Option (List Rule)) : record.ofMembers source [("removeRuleIds",
      .array (remove.map fun id ↦ .number (.natural id.toNat)))] ⟨s, none⟩ =
        .ok ⟨s, some remove⟩ :=
    (Record.ofMembers_field rfl rfl (Decoder.ofJson_map hremove _) []).trans rfl
  have hfirst (rest : List (String × Json)) : record.ofMembers source
      (("addRules", .array (add.map encode)) :: rest) ⟨none, none⟩ =
        record.ofMembers source rest ⟨some add, none⟩ :=
    (Record.ofMembers_field rfl rfl (Decoder.ofJson_map hadd _) rest).trans rfl
  cases add with
  | nil =>
    cases remove with
    | nil => rfl
    | cons id ids => exact Record.ofJson_object (hlast none) rfl
  | cons r rs =>
    cases remove with
    | nil => exact Record.ofJson_object ((hfirst []).trans rfl) rfl
    | cons id ids => exact Record.ofJson_object ((hfirst _).trans (hlast _)) rfl

theorem ofJson_toJson (source : Source) (u : RuleUpdate) :
    decoder.ofJson source u.toJson = .ok u :=
  u.ofJson_members source (Rule.ofJson_toJson source)

theorem ofJson_sorted (source : Source) (u : RuleUpdate) :
    decoder.ofJson source u.toJson.sorted = .ok u := by
  have hread := u.ofJson_members source (Rule.ofJson_sorted source)
  have hkeys : ["addRules", "removeRuleIds"].Pairwise (· < ·) := by decide
  rw [toJson, sorted_presentMembers hkeys rfl (List.Perm.refl _)]
  simpa [Rule.listToJson, Json.sorted, Json.sortedItems_map, apply_ite (Option.map Json.sorted)]
    using hread

theorem fits_toJson (u : RuleUpdate) : Json.Fits 6 u.toJson := by
  have hremove : Json.Fits 5 (.array (u.remove.map fun id ↦ .number (.natural id.toNat))) := by
    refine Json.Fits.array fun j hj ↦ ?_
    obtain ⟨id, -, rfl⟩ := List.mem_map.mp hj
    exact .word32 id
  have hpresent {j k : Json} {isEmpty : Bool} (hk : Json.Fits 5 k)
      (hj : (if isEmpty then none else some k) = some j) : Json.Fits 5 j := by
    split_ifs at hj
    exact Option.some_inj.mp hj ▸ hk
  refine fits_presentMembers fun m hm j hj ↦ ?_
  simp only [List.mem_cons, List.not_mem_nil, or_false] at hm
  rcases hm with rfl | rfl
  · exact hpresent (Rule.fits_listToJson u.add) hj
  · exact hpresent hremove hj

theorem agrees_decoder : decoder.Agrees := by
  refine Record.Agrees.decoder fun f hf ↦ ?_
  simp only [record, List.mem_cons, List.not_mem_nil, or_false] at hf
  rcases hf with rfl | rfl
  · exact Rule.agrees_decoder.list.map _
  · exact Decoder.agrees_word32.list.map _

end RuleUpdate

/-! ## Everything on the wire is read back

Rules, updates, configurations and profiles are sent and stored as JSON. Whatever texts they contain
and whichever of their parts are left out, what was written is read back as it was, be it straight
off a text or by way of a parsed value (`wire_readsBack`).
-/

open Json (Decoder)

/-! ### Configurations -/

namespace Redirect

theorem ofJson_toJson (r : Redirect) : decoder.ofJson .stored r.toJson = .ok r := rfl

theorem storable_toJson (r : Redirect) : Json.Storable 1 r.toJson :=
  Json.Storable.array (by simp [Json.Storable.string])

theorem agrees_decoder : decoder.Agrees := Decoder.agrees_string.optional.list.map _

end Redirect

namespace Forwarding

/-- A configuration is read off its two lists, whichever comes first. -/
theorem ofJson_members (f : Forwarding) :
    let proxy := ("proxy", Json.array (f.redirects.map Redirect.toJson))
    let cors := ("cors", Json.array (f.domains.map .string))
    decoder.ofJson .stored (.object [proxy, cors]) = .ok f ∧
      decoder.ofJson .stored (.object [cors, proxy]) = .ok f := by
  obtain ⟨redirects, domains⟩ := f
  have hproxy : (Decoder.list Redirect.decoder).ofJson .stored
      (.array (redirects.map Redirect.toJson)) = .ok redirects :=
    Decoder.itemsOf_map Redirect.ofJson_toJson 0 redirects
  have hdomain (domain : String) : Decoder.string.ofJson .stored (.string domain) = .ok domain :=
    rfl
  have hcors : (Decoder.list Decoder.string).ofJson .stored (.array (domains.map .string)) =
      .ok domains :=
    Decoder.itemsOf_map hdomain 0 domains
  constructor
  · refine Record.ofJson_object (s := ⟨some redirects, some domains⟩) ?_ rfl
    refine (Record.ofMembers_field rfl rfl (Decoder.ofJson_map hproxy _) _).trans ?_
    exact (Record.ofMembers_field rfl rfl (Decoder.ofJson_map hcors _) []).trans rfl
  · refine Record.ofJson_object (s := ⟨some redirects, some domains⟩) ?_ rfl
    refine (Record.ofMembers_field rfl rfl (Decoder.ofJson_map hcors _) _).trans ?_
    exact (Record.ofMembers_field rfl rfl (Decoder.ofJson_map hproxy _) []).trans rfl

theorem ofJson_toJson (f : Forwarding) : decoder.ofJson .stored f.toJson = .ok f :=
  f.ofJson_members.1

theorem ofJson_sorted (f : Forwarding) : decoder.ofJson .stored f.toJson.sorted = .ok f := by
  have hsorted : f.toJson.sorted = .object [
      ("cors", .array (f.domains.map .string)),
      ("proxy", .array (f.redirects.map Redirect.toJson))] := by
    have hkeys : ["cors", "proxy"].Pairwise (· < ·) := by decide
    have hdomains := Json.sorted_array_map_self (fun _ ↦ rfl : ∀ s, (Json.string s).sorted = _)
      f.domains
    have hredirects := Json.sorted_array_map_self
      (fun r : Redirect ↦ r.storable_toJson.sorted) f.redirects
    refine (Json.sorted_object (List.Perm.swap _ _ []) (Sorted.isSorted_of_keys hkeys rfl)).trans ?_
    rw [Json.sortedMembers, Json.sortedMembers, hdomains, hredirects]
    rfl
  rw [hsorted]
  exact f.ofJson_members.2

theorem fits_toJson (f : Forwarding) : Json.Fits 3 f.toJson := by
  have hredirects : Json.Fits 2 (.array (f.redirects.map Redirect.toJson)) := by
    refine Json.Fits.array fun j hj ↦ ?_
    obtain ⟨r, -, rfl⟩ := List.mem_map.mp hj
    exact r.storable_toJson.fits
  have hdomains : Json.Fits 2 (.array (f.domains.map .string)) := by
    refine Json.Fits.array fun j hj ↦ ?_
    obtain ⟨domain, -, rfl⟩ := List.mem_map.mp hj
    exact .string domain
  refine Json.Fits.object ?_
  simp [hredirects, hdomains]

theorem agrees_decoder : decoder.Agrees := by
  refine Record.Agrees.decoder fun f hf ↦ ?_
  simp only [record, List.mem_cons, List.not_mem_nil, or_false] at hf
  rcases hf with rfl | rfl
  · exact Redirect.agrees_decoder.list.map _
  · exact Decoder.agrees_string.list.map _

end Forwarding

/-! ### Profiles -/

namespace Profile

theorem isSorted_members (p : Profile) : Sorted.IsSorted
    [("active", Json.boolean p.active), ("id", .string p.id), ("name", .string p.name)] := by
  have hkeys : ["active", "id", "name"].Pairwise (· < ·) := by decide
  exact Sorted.isSorted_of_keys hkeys rfl

theorem storable_toJson (p : Profile) : Json.Storable 1 p.toJson := by
  refine Json.Storable.object p.isSorted_members ?_
  simp [Json.Storable.boolean, Json.Storable.string]

theorem sorted_toReply (p : Profile) : p.toReply.sorted = p.toJson :=
  Json.sorted_object (@List.perm_append_comm _ [("id", _), ("name", _)] [_]) p.isSorted_members

theorem fits_toReply (p : Profile) : Json.Fits 1 p.toReply := by
  refine Json.Fits.object ?_
  simp [Json.Fits.boolean, Json.Fits.string]

theorem agrees_decoder : decoder.Agrees := by
  refine Record.Agrees.decoder fun f hf ↦ ?_
  simp only [record, List.mem_cons, List.not_mem_nil, or_false] at hf
  rcases hf with rfl | rfl | rfl
  · exact Decoder.agrees_string.map _
  · exact Decoder.agrees_string.map _
  · exact Decoder.agrees_boolean.map _

theorem storable_document (text : String) : Json.Storable 1 (documentToJson text) :=
  Json.Storable.object (List.pairwise_singleton _ _) (by simp [Json.Storable.string])

theorem agrees_documentDecoder : documentDecoder.Agrees := by
  refine Record.Agrees.decoder fun f hf ↦ ?_
  simp only [documentRecord, List.mem_singleton] at hf
  rw [hf]
  exact Decoder.agrees_string.map _

end Profile

/-! ### All of them -/

/-- **What was written is read back**: rules and updates, configurations and their redirects, which
are lists of two texts, profiles, be it as they are sent or as they are stored, and documents. -/
theorem wire_readsBack :
    (∀ r : Rule, Rule.decoder.ReadsBack r.toJson r) ∧
    (∀ u : RuleUpdate, RuleUpdate.decoder.ReadsBack u.toJson u) ∧
    (∀ f : Forwarding, Forwarding.decoder.ReadsBack f.toJson f) ∧
    (∀ r : Redirect, r.toJson = .array [.string r.pattern, .string r.target] ∧
      Redirect.decoder.ReadsBack r.toJson r) ∧
    (∀ p : Profile, Profile.decoder.ReadsBack p.toReply p ∧
      Profile.decoder.ReadsBack p.toJson p) ∧
    (∀ text, Profile.documentDecoder.ReadsBack (Profile.documentToJson text) text) := by
  refine ⟨fun r ↦ ?_, fun u ↦ ?_, fun f ↦ ?_, fun r ↦ ⟨rfl, ?_⟩, fun p ↦ ⟨?_, ?_⟩, fun text ↦ ?_⟩
  · exact Rule.agrees_decoder.readsBack r.fits_toJson (by decide) (r.ofJson_toJson _)
      (r.ofJson_sorted _)
  · exact RuleUpdate.agrees_decoder.readsBack u.fits_toJson (by decide) (u.ofJson_toJson _)
      (u.ofJson_sorted _)
  · exact Forwarding.agrees_decoder.readsBack f.fits_toJson (by decide) f.ofJson_toJson
      f.ofJson_sorted
  · exact Redirect.agrees_decoder.readsBack_of_storable r.storable_toJson (by decide) rfl
  · exact Profile.agrees_decoder.readsBack p.fits_toReply (by decide) rfl
      (by rw [p.sorted_toReply]; rfl)
  · exact Profile.agrees_decoder.readsBack_of_storable p.storable_toJson (by decide) rfl
  · exact Profile.agrees_documentDecoder.readsBack_of_storable (Profile.storable_document text)
      (by decide) rfl

end Redirector
